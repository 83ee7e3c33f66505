import Wsupp.Crypto.Pbkdf2
import Wsupp.Safety.KeyDerivation

/-!
# Passphrases

`pbkdf2_sha1` computes PBKDF2 for the first 64 bytes of the passphrase, whole blocks
first and what is left of the last one after them, as long as no int overflows.
Longer passphrases are to be hashed first, and are not.

For a passphrase that fits, the output is that of the standard exactly if nothing
overflows, for every salt, number of iterations and length. For a longer one it is
the standard's output for its first 64 bytes. Whether these two agree for some long
passphrase is a question about SHA-1 on which nothing is claimed, except where
cutting and hashing give the same block of a key.
-/
namespace Wsupp.Pbkdf2
open KeyedHash (pbkdf2)

/-- `PRF(P, I)` of the code. -/
def mac (P I : Bytes) : Bytes := Sha1.hmacSha1 P P.length I

theorem length_mac (P I : Bytes) : (mac P I).length = 20 := rfl

/-- The ints of one block fit. -/
def BlockFits (S : Bytes) (c : ℕ) : Prop := S.length + 4 ≤ INT_MAX ∧ c < INT_MAX

instance decidableBlockFits (S : Bytes) (c : ℕ) : Decidable (BlockFits S c) :=
  inferInstanceAs (Decidable (_ ∧ _))

section Block
variable {P S : Bytes} {c i : ℕ}

theorem int32_eq (i : ℕ) :
    [UInt8.ofNat (i >>> 24), UInt8.ofNat (i >>> 16), UInt8.ofNat (i >>> 8), UInt8.ofNat i] = KeyedHash.int32 i := by
  have hint : KeyedHash.int32 i =
      [UInt8.ofNat (i / 256 ^ 3), UInt8.ofNat (i / 256 ^ 2), UInt8.ofNat (i / 256 ^ 1), UInt8.ofNat (i / 256 ^ 0)] := rfl
  rw [hint, Nat.shiftRight_eq_div_pow, Nat.shiftRight_eq_div_pow, Nat.shiftRight_eq_div_pow, Nat.pow_zero, Nat.div_one]
  norm_num only

theorem length_U (j : ℕ) : (KeyedHash.U mac P S i j).length = 20 := by
  cases j with
  | zero => exact length_mac ..
  | succ j => exact length_mac ..

theorem length_sum (j : ℕ) : (KeyedHash.sum mac P S i j).length = 20 := by
  induction j with
  | zero => exact length_U 0
  | succ j ih => rw [KeyedHash.sum, Bytes.xor, List.length_zipWith, ih, length_U, Nat.min_self]

theorem Fc_U (j : ℕ) : Fc (KeyedHash.U mac P S i j) P = KeyedHash.U mac P S i (j + 1) := by
  have htake : (KeyedHash.U mac P S i j).take HS = KeyedHash.U mac P S i j :=
    List.take_of_length_le (Nat.le_of_eq (length_U j))
  rw [Fc, htake]
  rfl

theorem turns_eq (n j : ℕ) :
    turns P n (KeyedHash.U mac P S i j) (KeyedHash.sum mac P S i j) = KeyedHash.sum mac P S i (j + n) := by
  induction n generalizing j with
  | zero => rfl
  | succ n ih =>
      have hsum : xorbuf (KeyedHash.sum mac P S i j) (KeyedHash.U mac P S i (j + 1)) =
          KeyedHash.sum mac P S i (j + 1) := rfl
      rw [turns, Fc_U, hsum, ih, Nat.add_assoc, Nat.add_comm 1 n]

theorem F_eq : F P S c i = if BlockFits S c then some (KeyedHash.T mac P S c i) else none := by
  have hturns := turns_eq (P := P) (S := S) (i := i) (c - 1) 0
  have hU : KeyedHash.U mac P S i 0 = mac P (S ++ KeyedHash.int32 i) := rfl
  have hsum : KeyedHash.sum mac P S i 0 = KeyedHash.U mac P S i 0 := rfl
  rw [Nat.zero_add, hsum, hU] at hturns
  rw [F, F1, int32_eq]
  by_cases hS : INT_MAX < S.length + 4
  · have hnot : ¬ BlockFits S c := fun hfits => Nat.not_lt_of_le hfits.1 hS
    rw [if_pos hS, if_neg hnot]
    rfl
  · rw [if_neg hS]
    by_cases hc : INT_MAX ≤ c
    · have hnot : ¬ BlockFits S c := fun hfits => Nat.not_lt_of_le hc hfits.2
      rw [if_neg hnot]
      exact if_pos hc
    · have hfits : BlockFits S c := ⟨Nat.le_of_not_lt hS, Nat.lt_of_not_le hc⟩
      rw [if_pos hfits, KeyedHash.T, ← hturns]
      exact if_neg hc

end Block

/-- The first blocks, one behind the other. -/
def front (P S : Bytes) (c k : ℕ) : Bytes :=
  (List.range k).flatMap fun i => KeyedHash.T mac P S c (i + 1)

section Blocks
variable {P S : Bytes} {c len : ℕ}

theorem front_succ (k : ℕ) : front P S c (k + 1) = front P S c k ++ KeyedHash.T mac P S c (k + 1) := by
  rw [front, front, List.range_succ, List.flatMap_append, List.flatMap_singleton]

theorem length_front (k : ℕ) : (front P S c k).length = 20 * k := by
  induction k with
  | zero => rfl
  | succ k ih => rw [front_succ, List.length_append, ih, KeyedHash.T, length_sum, Nat.mul_succ]

/-- Block by block, up to the first that does not fit whole. -/
theorem wholeBlocks_eq (hfits : BlockFits S c) (fuel k : ℕ) (hk : k ≤ len / 20) (hfuel : len / 20 < fuel + k) :
    wholeBlocks P S c len fuel (k + 1) (front P S c k) =
      if HS * (len / 20 + 1) ≤ INT_MAX then some (len / 20 + 1, front P S c (len / 20)) else none := by
  induction fuel generalizing k with
  | zero => omega
  | succ fuel ih =>
      unfold HS at ih ⊢
      rw [wholeBlocks, HS]
      by_cases hover : INT_MAX < 20 * (k + 1)
      · have hnot : ¬ 20 * (len / 20 + 1) ≤ INT_MAX := by omega
        rw [if_pos hover, if_neg hnot]
      · rw [if_neg hover]
        by_cases hwhole : 20 * (k + 1) ≤ len
        · rw [if_pos hwhole, F_eq, if_pos hfits, ← ih (k + 1) (by omega) (by omega), front_succ]
          rfl
        · have hlast : k = len / 20 := by omega
          have hle : 20 * (len / 20 + 1) ≤ INT_MAX := by omega
          rw [if_neg hwhole, if_pos hle, hlast]

/-- What the ints have to hold. -/
def IntsFit (S : Bytes) (c len : ℕ) : Prop := len = 0 ∨ BlockFits S c ∧ HS * (len / HS + 1) ≤ INT_MAX

instance decidableIntsFit (S : Bytes) (c len : ℕ) : Decidable (IntsFit S c len) :=
  inferInstanceAs (Decidable (_ ∨ _))

theorem pbkdf2_eq : pbkdf2 mac 20 P S c len =
    front P S c (len / 20) ++ (KeyedHash.T mac P S c (len / 20 + 1)).take (len - 20 * (len / 20)) := by
  have hpbkdf2 : pbkdf2 mac 20 P S c len = (front P S c ((len + 19) / 20)).take len := rfl
  have hlen := length_front (P := P) (S := S) (c := c) (len / 20)
  by_cases hwhole : len % 20 = 0
  · have hcount : (len + 19) / 20 = len / 20 := by omega
    have hrest : len - 20 * (len / 20) = 0 := by omega
    rw [hpbkdf2, hcount, hrest, List.take_zero, List.append_nil, List.take_of_length_le (by omega)]
  · have hcount : (len + 19) / 20 = len / 20 + 1 := by omega
    rw [hpbkdf2, hcount, front_succ, List.take_append, hlen, List.take_of_length_le (by omega)]

theorem length_pbkdf2 : (pbkdf2 mac 20 P S c len).length = len := by
  rw [pbkdf2_eq, List.length_append, length_front, List.length_take, KeyedHash.T, length_sum]
  omega

theorem pbkdf2Sha1_def : pbkdf2Sha1 len P S c = (wholeBlocks P S c len (len + 1) 1 []).bind fun r =>
    if HS * (r.1 - 1) < len then (F P S c r.1).bind fun T => some (r.2 ++ T.take (len - HS * (r.1 - 1)))
    else some r.2 :=
  rfl

/-- Less than a whole block: the loop is not entered. -/
theorem wholeBlocks_short (h : len < 20) : wholeBlocks P S c len (len + 1) 1 [] = some (1, []) := by
  have hover : ¬ INT_MAX < HS * 1 := by decide
  have hwhole : ¬ HS * 1 ≤ len := Nat.not_le_of_lt h
  rw [wholeBlocks, if_neg hover, if_neg hwhole]

/-- If the ints of a block do not fit, only an empty key is computed. -/
theorem pbkdf2Sha1_unfit (h : ¬ BlockFits S c) (hlen : len ≠ 0) : pbkdf2Sha1 len P S c = none := by
  have hF (i : ℕ) : F P S c i = none := by rw [F_eq, if_neg h]
  rw [pbkdf2Sha1_def]
  by_cases hshort : len < 20
  · have hrest : HS * (1 - 1) < len := Nat.pos_of_ne_zero hlen
    rw [wholeBlocks_short hshort, Option.bind_some, if_pos hrest, hF]
    rfl
  · have hover : ¬ INT_MAX < HS * 1 := by decide
    have hwhole : HS * 1 ≤ len := Nat.le_of_not_lt hshort
    rw [wholeBlocks, if_neg hover, if_pos hwhole, hF]
    rfl

theorem pbkdf2Sha1_fit (h : BlockFits S c) : pbkdf2Sha1 len P S c =
    if HS * (len / 20 + 1) ≤ INT_MAX then some (pbkdf2 mac 20 P S c len) else none := by
  have hloop : wholeBlocks P S c len (len + 1) 1 [] =
      if HS * (len / 20 + 1) ≤ INT_MAX then some (len / 20 + 1, front P S c (len / 20)) else none :=
    wholeBlocks_eq h (len + 1) 0 (Nat.zero_le _) (by omega)
  rw [pbkdf2Sha1_def, hloop]
  split_ifs with hover
  · have hdone : HS * (len / 20 + 1 - 1) = 20 * (len / 20) := rfl
    rw [Option.bind_some, hdone, pbkdf2_eq]
    split_ifs with hrest
    · rw [F_eq, if_pos h]
      rfl
    · have hnone : len - 20 * (len / 20) = 0 := by omega
      rw [hnone, List.take_zero, List.append_nil]
  · rfl

/-- The code against the standard with the code's own HMAC. -/
theorem pbkdf2Sha1_eq : pbkdf2Sha1 len P S c =
    if IntsFit S c len then some (pbkdf2 mac 20 P S c len) else none := by
  by_cases hlen : len = 0
  · have hfit : IntsFit S c len := Or.inl hlen
    have hnil : pbkdf2 mac 20 P S c len = [] := by
      apply List.length_eq_zero_iff.mp
      rw [length_pbkdf2, hlen]
    rw [if_pos hfit, hnil, hlen, pbkdf2Sha1_def, wholeBlocks_short (by decide)]
    rfl
  · by_cases hblock : BlockFits S c
    · have hfit : IntsFit S c len ↔ HS * (len / 20 + 1) ≤ INT_MAX := by
        constructor
        · intro h
          exact (h.resolve_left hlen).2
        · intro h
          exact Or.inr ⟨hblock, h⟩
      rw [pbkdf2Sha1_fit hblock, if_congr hfit rfl rfl]
    · have hnot : ¬ IntsFit S c len := fun h => hblock (h.resolve_left hlen).1
      rw [pbkdf2Sha1_unfit hblock hlen, if_neg hnot]

/-- Either the passphrase fits into a block, or cutting it happens to make the key block
that hashing it makes. -/
def KeyFits (P : Bytes) : Prop := P.length ≤ 64 ∨ P.take 64 = Sha1.sha1 P ++ Bytes.zeros 44

theorem mac_eq (P : Bytes) : mac P = hmacStandard (P.take 64) := by
  funext I
  rw [mac, Sha1.hmacSha1_cut, hmac_sha1_eq]

theorem KeyFits.mac_eq (h : KeyFits P) : mac P = hmacStandard P := by
  by_cases hshort : P.length ≤ 64
  · rw [Pbkdf2.mac_eq, List.take_of_length_le hshort]
  · have hlong : 64 < P.length := Nat.lt_of_not_le hshort
    have hcut : P.take 64 = Sha1.sha1 P ++ Bytes.zeros 44 := h.resolve_left hshort
    have hlen : (SecureHash.sha1 P).length = 20 := rfl
    have hblock : KeyedHash.keyBlock SecureHash.sha1 64 (P.take 64) = KeyedHash.keyBlock SecureHash.sha1 64 P := by
      have htake : (P.take 64).length = 64 := List.length_take_of_le (Nat.le_of_lt hlong)
      have hnone : Bytes.zeros (64 - (P.take 64).length) = [] := by
        rw [htake]
        rfl
      rw [KeyedHash.keyBlock_short (Nat.le_of_eq htake), KeyedHash.keyBlock_long hlong, hnone, List.append_nil, hcut,
        hlen, Sha1.sha1_eq]
    funext I
    rw [Pbkdf2.mac_eq, hmacStandard, KeyedHash.hmac, KeyedHash.hmac, hblock]

end Blocks

/-- What is written is the first `len` bytes of the standard's blocks. -/
def Derives (len : ℕ) (pass salt : Bytes) (iters : ℕ) : Prop :=
  pbkdf2Sha1 len pass salt iters = some (pbkdf2 hmacStandard 20 pass salt iters len) ∧
    (pbkdf2 hmacStandard 20 pass salt iters len).length = len

theorem derives_iff {len : ℕ} {pass salt : Bytes} {iters : ℕ} (h : len = 0 ∨ KeyFits pass) :
    Derives len pass salt iters ↔ IntsFit salt iters len := by
  have hkey : pbkdf2 mac 20 pass salt iters len = pbkdf2 hmacStandard 20 pass salt iters len := by
    cases h with
    | inl hlen => rw [hlen, pbkdf2, pbkdf2, List.take_zero, List.take_zero]
    | inr hfits => exact KeyedHash.pbkdf2_congr hfits.mac_eq salt iters len
  have hlength : (pbkdf2 hmacStandard 20 pass salt iters len).length = len := by
    rw [← hkey]
    exact length_pbkdf2
  rw [Derives, pbkdf2Sha1_eq, hkey]
  constructor
  · intro hderives
    by_contra hunfit
    rw [if_neg hunfit] at hderives
    exact Option.some_ne_none _ hderives.1.symm
  · intro hfits
    rw [if_pos hfits]
    exact ⟨rfl, hlength⟩

/-- What is not refused has neither no bytes nor too many for the buffer. -/
theorem length_inputPassphrase {buf pass : Bytes} (h : inputPassphrase buf = some pass) :
    1 ≤ pass.length ∧ pass.length ≤ 255 := by
  have hkept {q : Bytes} (hq : (if q = [] then none else some q) = some pass) : 1 ≤ q.length ∧ q = pass := by
    by_cases hempty : q = []
    · rw [if_pos hempty] at hq
      exact absurd hq (Option.some_ne_none pass).symm
    · rw [if_neg hempty] at hq
      exact ⟨List.length_pos_of_ne_nil hempty, Option.some.inj hq⟩
  have hdrop : buf.dropLast.length = buf.length - 1 := List.length_dropLast
  unfold inputPassphrase at h
  by_cases hlong : 256 ≤ buf.length
  · rw [if_pos hlong] at h
    exact absurd h (Option.some_ne_none pass).symm
  · rw [if_neg hlong] at h
    by_cases hnewline : buf.getLast? = some 10
    · rw [if_pos hnewline] at h
      obtain ⟨hpos, rfl⟩ := hkept h
      exact ⟨hpos, by omega⟩
    · rw [if_neg hnewline] at h
      obtain ⟨hpos, rfl⟩ := hkept h
      exact ⟨hpos, by omega⟩

/-- With a passphrase of up to 64 bytes the standard's key is derived exactly if no int
overflows, for any salt, count and length; for any passphrase it is the key of the first
64 bytes. The tool sends the standard's key for those it lets through that fit. -/
theorem pbkdf2Sha1_derives (len : ℕ) (pass salt : Bytes) (iters : ℕ) :
    (len = 0 ∨ KeyFits pass → (Derives len pass salt iters ↔ IntsFit salt iters len)) ∧
    (Derives len pass salt iters → IntsFit salt iters len) ∧
    (IntsFit salt iters len →
      pbkdf2Sha1 len pass salt iters = some (pbkdf2 hmacStandard 20 (pass.take 64) salt iters len)) ∧
    ∀ buf, inputPassphrase buf = some pass → (1 ≤ pass.length ∧ pass.length ≤ 255) ∧
      (KeyFits pass → salt.length + 4 ≤ INT_MAX →
        putPsk salt pass = some (pbkdf2 hmacStandard 20 pass salt 4096 32)) := by
  constructor
  · exact derives_iff
  constructor
  · intro hderives
    by_contra hunfit
    rw [Derives, pbkdf2Sha1_eq, if_neg hunfit] at hderives
    exact Option.some_ne_none _ hderives.1.symm
  constructor
  · intro hfits
    rw [pbkdf2Sha1_eq, if_pos hfits, KeyedHash.pbkdf2_congr (mac_eq pass)]
  · intro buf hbuf
    constructor
    · exact length_inputPassphrase hbuf
    · intro hkey hsalt
      have hfits : IntsFit salt 4096 32 := Or.inr ⟨⟨hsalt, by decide⟩, by decide⟩
      exact ((derives_iff (Or.inr hkey)).mpr hfits).1

theorem shortPassphrase_derives :
    KeyFits (List.replicate 64 0x61) ∧ IntsFit [0x6E, 0x65, 0x74] 4096 32 ∧
      Derives 32 (List.replicate 64 0x61) [0x6E, 0x65, 0x74] 4096 :=
  have hkey : KeyFits (List.replicate 64 0x61) := Or.inl (by decide)
  have hfits : IntsFit [0x6E, 0x65, 0x74] 4096 32 := by decide
  ⟨hkey, hfits,
    ((pbkdf2Sha1_derives 32 (List.replicate 64 0x61) [0x6E, 0x65, 0x74] 4096).1 (Or.inr hkey)).mpr hfits⟩

/-- A passphrase of one byte more than a block. The key derived is not the standard's,
but that of the first 64 bytes. -/
theorem longPassphrase_cut :
    inputPassphrase (List.replicate 65 0x61 ++ [10]) = some (List.replicate 65 0x61) ∧
      ¬ Derives 20 (List.replicate 65 0x61) [0x6E, 0x65, 0x74] 1 := by
  constructor
  · decide
  · intro hderives
    have hstandard := hderives.1
    rw [← hmac_sha1_eq] at hstandard
    exact absurd hstandard (by decide +kernel)

end Wsupp.Pbkdf2

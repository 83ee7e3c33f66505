import Mathlib.Data.Finite.Vector
import Wsupp.Crypto.Aes128
import Wsupp.Crypto.Loops

/-!
# The block cipher undone

Each step of a round has its inverse among the steps of the other direction. The
tables and the column factors are checked byte by byte; a column is a sum of
products, and multiplication by a constant is linear, so what holds of the factors
holds of columns.

The rounds of either direction use the same round keys in opposite order, and with
every step undone a block that is encrypted and decrypted again is the block it was,
for every key. The converse is proved in the same way. Nothing here says how hard
the cipher is to break; it is the round trip that the key wrap needs.
-/
namespace Wsupp.Aes128

section Words
variable {a b c d : UInt8} {x y : UInt32}

theorem or_low (m i : ℕ) {n : ℕ} (h : n < 2 ^ i) : m * 2 ^ i ||| n = m * 2 ^ i + n := by
  rw [Nat.mul_comm, Nat.two_pow_add_eq_or_of_lt h]

theorem shiftLeft_eq {z n : ℕ} (h : z * 2 ^ n < 2 ^ 32) : z <<< n % 2 ^ 32 = z * 2 ^ n := by
  rw [Nat.shiftLeft_eq, Nat.mod_eq_of_lt h]

theorem toNat_w (a b c d : UInt8) :
    (w a b c d).toNat = a.toNat * 2 ^ 24 + b.toNat * 2 ^ 16 + c.toNat * 2 ^ 8 + d.toNat := by
  have ha := a.toNat_lt
  have hb := b.toNat_lt
  have hc := c.toNat_lt
  have hd := d.toNat_lt
  have hw : (w a b c d).toNat = a.toNat <<< 24 % 2 ^ 32 ||| b.toNat <<< 16 % 2 ^ 32 |||
      c.toNat <<< 8 % 2 ^ 32 ||| d.toNat := by
    unfold w
    rw [UInt32.toNat_or, UInt32.toNat_or, UInt32.toNat_or, UInt32.toNat_shiftLeft,
      UInt32.toNat_shiftLeft, UInt32.toNat_shiftLeft]
    rfl
  have hab : a.toNat * 2 ^ 24 ||| b.toNat * 2 ^ 16 = (a.toNat * 2 ^ 8 + b.toNat) * 2 ^ 16 := by
    rw [or_low _ 24 (by omega)]
    omega
  have habc : (a.toNat * 2 ^ 8 + b.toNat) * 2 ^ 16 ||| c.toNat * 2 ^ 8 =
      ((a.toNat * 2 ^ 8 + b.toNat) * 2 ^ 8 + c.toNat) * 2 ^ 8 := by
    rw [or_low _ 16 (by omega)]
    omega
  rw [shiftLeft_eq (by omega), shiftLeft_eq (by omega), shiftLeft_eq (by omega), hab, habc,
    or_low _ 8 (by omega)] at hw
  rw [hw]
  ring

theorem toNat_b0 (x : UInt32) : (b0 x).toNat = x.toNat / 2 ^ 24 % 256 := by
  unfold b0
  rw [UInt32.toNat_toUInt8, UInt32.toNat_shiftRight, Nat.shiftRight_eq_div_pow]
  rfl

theorem toNat_b1 (x : UInt32) : (b1 x).toNat = x.toNat / 2 ^ 16 % 256 := by
  unfold b1
  rw [UInt32.toNat_toUInt8, UInt32.toNat_shiftRight, Nat.shiftRight_eq_div_pow]
  rfl

theorem toNat_b2 (x : UInt32) : (b2 x).toNat = x.toNat / 2 ^ 8 % 256 := by
  unfold b2
  rw [UInt32.toNat_toUInt8, UInt32.toNat_shiftRight, Nat.shiftRight_eq_div_pow]
  rfl

theorem toNat_b3 (x : UInt32) : (b3 x).toNat = x.toNat % 256 := UInt32.toNat_toUInt8 x

@[simp] theorem b0_w : b0 (w a b c d) = a := by
  have ha := a.toNat_lt
  have hb := b.toNat_lt
  have hc := c.toNat_lt
  have hd := d.toNat_lt
  apply UInt8.toNat_inj.mp
  rw [toNat_b0, toNat_w]
  omega

@[simp] theorem b1_w : b1 (w a b c d) = b := by
  have hb := b.toNat_lt
  have hc := c.toNat_lt
  have hd := d.toNat_lt
  apply UInt8.toNat_inj.mp
  rw [toNat_b1, toNat_w]
  omega

@[simp] theorem b2_w : b2 (w a b c d) = c := by
  have hc := c.toNat_lt
  have hd := d.toNat_lt
  apply UInt8.toNat_inj.mp
  rw [toNat_b2, toNat_w]
  omega

@[simp] theorem b3_w : b3 (w a b c d) = d := by
  have hd := d.toNat_lt
  apply UInt8.toNat_inj.mp
  rw [toNat_b3, toNat_w]
  omega

@[simp] theorem w_bytes (x : UInt32) : w (b0 x) (b1 x) (b2 x) (b3 x) = x := by
  have hx := x.toNat_lt
  apply UInt32.toNat_inj.mp
  rw [toNat_w, toNat_b0, toNat_b1, toNat_b2, toNat_b3]
  omega

end Words

/-- What holds of the numbers up to 255 holds of all bytes. -/
theorem forall_byte {P : UInt8 → Prop} (h : ∀ n : Fin 256, P (UInt8.ofNat n)) (x : UInt8) : P x := by
  have hx := h ⟨x.toNat, x.toNat_lt⟩
  rwa [UInt8.ofNat_toNat] at hx

instance finite_byte : Finite UInt8 := Finite.of_injective UInt8.toFin fun _ _ => UInt8.toFin_inj.mp

theorem rbox_sbox : ∀ x : UInt8, rbox.at' (sbox.at' x.toNat).toNat = x :=
  forall_byte (by decide +kernel)

/-- On a finite type there is no difference between undoing and being undone. -/
theorem right_of_left {α : Type} [Finite α] {f g : α → α} (h : Function.LeftInverse g f) :
    Function.RightInverse g f :=
  h.rightInverse_of_surjective (Finite.surjective_of_injective h.injective)

theorem subword_subword {box box' : Bytes} (h : ∀ z : UInt8, box'.at' (box.at' z.toNat).toNat = z)
    (x : UInt32) : subword (subword x box) box' = x := by
  unfold subword
  rw [b0_w, b1_w, b2_w, b3_w, h, h, h, h, w_bytes]

section Factors
variable {x y : UInt8}

theorem xor_xor_xor_comm (a b c d : UInt8) : (a ^^^ b) ^^^ (c ^^^ d) = (a ^^^ c) ^^^ (b ^^^ d) := by
  rw [UInt8.xor_assoc, ← UInt8.xor_assoc b, UInt8.xor_comm b c, UInt8.xor_assoc c, ← UInt8.xor_assoc]

/-- Doubling is linear: the bits shifted out are added up on their own. -/
theorem xtime_xor (x y : UInt8) : xtime (x ^^^ y) = xtime x ^^^ xtime y := by
  have hcarry : ∀ b c : UInt8, b = 0 ∨ b = 1 → c = 0 ∨ c = 1 → (b ^^^ c) * 0x1b = b * 0x1b ^^^ c * 0x1b := by
    intro b c hb hc
    obtain rfl | rfl := hb <;> obtain rfl | rfl := hc <;> rfl
  have hbit : ∀ z : UInt8, z >>> 7 = 0 ∨ z >>> 7 = 1 := forall_byte (by decide +kernel)
  have htop : ∀ z : UInt8, (z >>> 7) &&& (1 : UInt8) = z >>> 7 := forall_byte (by decide +kernel)
  unfold xtime
  rw [htop, htop, htop, UInt8.shiftLeft_xor, UInt8.shiftRight_xor, hcarry _ _ (hbit x) (hbit y),
    xor_xor_xor_comm]

theorem xmulLoop_xor (n : ℕ) (x x' y m m' : UInt8) :
    xmulLoop n (x ^^^ x') y (m ^^^ m') = xmulLoop n x y m ^^^ xmulLoop n x' y m' := by
  induction n generalizing x x' y m m' with
  | zero => rfl
  | succ n ih =>
      unfold xmulLoop
      rw [xtime_xor, ← ih]
      by_cases hy : y &&& 1 = 1
      · rw [if_pos hy, if_pos hy, if_pos hy, xor_xor_xor_comm]
      · rw [if_neg hy, if_neg hy, if_neg hy]

theorem xmul_xor (x x' y : UInt8) : xmul (x ^^^ x') y = xmul x y ^^^ xmul x' y :=
  xmulLoop_xor 5 x x' y 0 0

end Factors

section Columns
variable (z a b c d p q r s : UInt8) (x : UInt32)

/-- The factors of every row are those of the row above, moved on by one. -/
def mix (a b c d : UInt8) (x : UInt32) : UInt32 :=
  w (colmul x a b c d) (colmul x d a b c) (colmul x c d a b) (colmul x b c d a)

/-- What a single byte adds to a byte two multiplications later. -/
def share (z a b c d p q r s : UInt8) : UInt8 :=
  xmul (xmul z a) p ^^^ xmul (xmul z b) q ^^^ xmul (xmul z c) r ^^^ xmul (xmul z d) s

theorem share_rotate : share z a b c d p q r s = share z b c d a q r s p := by
  unfold share
  ac_rfl

theorem colmul_mix : colmul (mix a b c d x) p q r s =
    share (b0 x) a d c b p q r s ^^^ share (b1 x) b a d c p q r s ^^^
      share (b2 x) c b a d p q r s ^^^ share (b3 x) d c b a p q r s := by
  unfold mix share
  rw [colmul, b0_w, b1_w, b2_w, b3_w]
  unfold colmul
  simp only [xmul_xor]
  ac_rfl

/-- Two rows of factors are inverse to each other if the first byte gets all of
itself back and nothing of the others. -/
theorem mix_mix (h₀ : ∀ z, share z a d c b p q r s = z) (h₁ : ∀ z, share z b a d c p q r s = 0)
    (h₂ : ∀ z, share z c b a d p q r s = 0) (h₃ : ∀ z, share z d c b a p q r s = 0) :
    mix p q r s (mix a b c d x) = x := by
  have hrow₀ : colmul (mix a b c d x) p q r s = b0 x := by
    rw [colmul_mix, h₀, h₁, h₂, h₃, UInt8.xor_zero, UInt8.xor_zero, UInt8.xor_zero]
  have hrow₁ : colmul (mix a b c d x) s p q r = b1 x := by
    have hturn (z a b c d : UInt8) : share z a b c d s p q r = share z b c d a p q r s := share_rotate ..
    rw [colmul_mix, hturn, hturn, hturn, hturn, h₃, h₀, h₁, h₂, UInt8.zero_xor, UInt8.xor_zero, UInt8.xor_zero]
  have hrow₂ : colmul (mix a b c d x) r s p q = b2 x := by
    have hturn (z a b c d : UInt8) : share z a b c d r s p q = share z c d a b p q r s :=
      (share_rotate ..).trans (share_rotate ..)
    rw [colmul_mix, hturn, hturn, hturn, hturn, h₂, h₃, h₀, h₁, UInt8.zero_xor, UInt8.zero_xor, UInt8.xor_zero]
  have hrow₃ : colmul (mix a b c d x) q r s p = b3 x := by
    have hturn (z a b c d : UInt8) : share z a b c d q r s p = share z d a b c p q r s := (share_rotate ..).symm
    rw [colmul_mix, hturn, hturn, hturn, hturn, h₁, h₂, h₃, h₀, UInt8.zero_xor, UInt8.zero_xor, UInt8.zero_xor]
  change w (colmul (mix a b c d x) p q r s) (colmul (mix a b c d x) s p q r)
    (colmul (mix a b c d x) r s p q) (colmul (mix a b c d x) q r s p) = x
  rw [hrow₀, hrow₁, hrow₂, hrow₃, w_bytes]

theorem invMixColumn_mix : mix 0x0E 0x0B 0x0D 0x09 (mix 0x02 0x03 0x01 0x01 x) = x := by
  apply mix_mix
  · exact forall_byte (by decide +kernel)
  · exact forall_byte (by decide +kernel)
  · exact forall_byte (by decide +kernel)
  · exact forall_byte (by decide +kernel)

end Columns

section Steps
variable (t : State) (W : List UInt32) (i : ℕ)

theorem invSubBytes_fwdSubBytes : invSubBytes (fwdSubBytes t) = t := by
  unfold invSubBytes fwdSubBytes State.map
  simp only [subword_subword rbox_sbox]

theorem invShiftRows_fwdShiftRows : invShiftRows (fwdShiftRows t) = t := by
  unfold invShiftRows fwdShiftRows rowshift
  simp only [b0_w, b1_w, b2_w, b3_w, w_bytes]

theorem invMixColumns_fwdMixColumns : invMixColumns (fwdMixColumns t) = t := by
  change State.map (mix 0x0E 0x0B 0x0D 0x09) (State.map (mix 0x02 0x03 0x01 0x01) t) = t
  unfold State.map
  simp only [invMixColumn_mix]

theorem addRoundKey_addRoundKey : addRoundKey (addRoundKey t W i) W i = t := by
  unfold addRoundKey
  simp only [UInt32.xor_assoc, UInt32.xor_self, UInt32.xor_zero]

theorem loadBlock_saveBlock : loadBlock (saveBlock t) = t := by
  change (⟨w (b0 t.s0) (b1 t.s0) (b2 t.s0) (b3 t.s0), w (b0 t.s1) (b1 t.s1) (b2 t.s1) (b3 t.s1),
    w (b0 t.s2) (b1 t.s2) (b2 t.s2) (b3 t.s2), w (b0 t.s3) (b1 t.s3) (b2 t.s3) (b3 t.s3)⟩ : State) = t
  simp only [w_bytes]

theorem saveWord_w (a b c d : UInt8) : saveWord (w a b c d) = [a, b, c, d] := by
  unfold saveWord
  rw [b0_w, b1_w, b2_w, b3_w]

theorem saveBlock_loadBlock {b : Bytes} (h : b.length = 16) : saveBlock (loadBlock b) = b := by
  have hb : (List.range 16).map b.at' = b := h ▸ b.map_at'
  unfold saveBlock loadBlock loadWord
  simp only [saveWord_w]
  exact hb

end Steps

section Rounds
variable (W : List UInt32)

/-- A round of the encryption begins where its key is added: the substitution and
the row shift of the round before it are put in front. -/
def enciphered (t : State) : State := fwdShiftRows (fwdSubBytes t)

def roundUp (i : ℕ) (t : State) : State := enciphered (addRoundKey (fwdMixColumns t) W (i + 1))

def roundDown (i : ℕ) (t : State) : State :=
  invMixColumns (addRoundKey (invSubBytes (invShiftRows t)) W (i + 1))

theorem invSubBytes_enciphered (t : State) : invSubBytes (invShiftRows (enciphered t)) = t := by
  rw [enciphered, invShiftRows_fwdShiftRows, invSubBytes_fwdSubBytes]

theorem rounds_undo (n : ℕ) : Loops.Undoes (fun _ => True) (roundDown W) (roundUp W) n := by
  intro i _ t _
  rw [roundDown, roundUp, invSubBytes_enciphered, addRoundKey_addRoundKey, invMixColumns_fwdMixColumns]

theorem decryptRounds_eq (n : ℕ) (t : State) : decryptRounds W n t = Loops.down (roundDown W) n t := by
  induction n generalizing t with
  | zero => rfl
  | succ n ih => exact ih _

theorem enciphered_encryptRounds {n k : ℕ} (hk : k ≤ n) (t : State) :
    enciphered (encryptRounds W k (n - k + 1) t) = Loops.up (roundUp W) n k (enciphered t) := by
  induction k generalizing t with
  | zero => rfl
  | succ k ih =>
      have hnext : n - (k + 1) + 1 = n - k := by omega
      rw [encryptRounds, hnext, ih (by omega), Loops.up, roundUp, hnext]
      rfl

theorem decrypt_encrypt {b : Bytes} (h : b.length = 16) : decrypt W (encrypt W b) = b := by
  have hrounds : decryptRounds W 9 (enciphered (encryptRounds W 9 1 (addRoundKey (loadBlock b) W 0))) =
      enciphered (addRoundKey (loadBlock b) W 0) := by
    rw [decryptRounds_eq, enciphered_encryptRounds W (Nat.le_refl 9)]
    exact (rounds_undo W 9).down_up (fun _ _ _ _ => trivial) trivial
  rw [decrypt, encrypt, loadBlock_saveBlock, addRoundKey_addRoundKey, ← enciphered, hrounds,
    invSubBytes_enciphered, addRoundKey_addRoundKey, saveBlock_loadBlock h]

theorem length_encrypt (b : Bytes) : (encrypt W b).length = 16 := rfl

theorem length_decrypt (b : Bytes) : (decrypt W b).length = 16 := rfl

/-- There are as many blocks on one side as on the other. -/
theorem encrypt_decrypt {b : Bytes} (h : b.length = 16) : encrypt W (decrypt W b) = b := by
  have hleft : Function.LeftInverse (fun v : List.Vector UInt8 16 => (⟨decrypt W v.1, rfl⟩ : List.Vector UInt8 16))
      fun v => ⟨encrypt W v.1, rfl⟩ := fun v => Subtype.ext (decrypt_encrypt W v.2)
  exact congrArg Subtype.val (right_of_left (α := List.Vector UInt8 16) hleft ⟨b, h⟩)

end Rounds

/-- With the round keys of any key, each direction undoes the other, for every block of
16 bytes. No property of the key schedule is used but that both directions have the same
one. -/
theorem block_round_trip (key : Bytes) {b : Bytes} (h : b.length = 16) :
    decrypt (init key) (encrypt (init key) b) = b ∧ encrypt (init key) (decrypt (init key) b) = b :=
  ⟨decrypt_encrypt _ h, encrypt_decrypt _ h⟩

theorem block_round_trip_zeros :
    (Bytes.zeros 16).length = 16 ∧
      decrypt (init (Bytes.zeros 16)) (encrypt (init (Bytes.zeros 16)) (Bytes.zeros 16)) = Bytes.zeros 16 ∧
      encrypt (init (Bytes.zeros 16)) (decrypt (init (Bytes.zeros 16)) (Bytes.zeros 16)) = Bytes.zeros 16 :=
  ⟨rfl, block_round_trip (Bytes.zeros 16) rfl⟩

/-- The known vector for the key 00..0F. -/
example : encrypt (init ((List.range 16).map UInt8.ofNat)) ((List.range 16).map fun i => UInt8.ofNat (17 * i)) =
    [0x69, 0xc4, 0xe0, 0xd8, 0x6a, 0x7b, 0x04, 0x30, 0xd8, 0xcd, 0xb7, 0x80, 0x70, 0xb4, 0xc5, 0x5a] := by
  decide +kernel

end Wsupp.Aes128

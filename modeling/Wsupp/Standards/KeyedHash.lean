import Wsupp.Bytes

/-!
# Keyed hashing and the keys derived with it

HMAC (RFC 2104) over any hash, and over any such function of a key and a text the
PRF of IEEE 802.11 and the PBKDF2 of RFC 2898.

The hash is a function from byte strings to byte strings with a block size; a key
longer than a block is hashed first, as the standard has it. The PRF and the
derivation from passphrases take the first bytes of a sequence of blocks, of any
length that is asked for. Minimum and maximum of byte strings are those of the
numbers they spell, with the laws that make them independent of the order of the
arguments.
-/
namespace KeyedHash

section Hmac
variable (H : Bytes → Bytes) (B : ℕ)

/-- The key as one block: hashed first if it is longer, then filled up with zeros. -/
def keyBlock (key : Bytes) : Bytes :=
  let K := if B < key.length then H key else key
  K ++ Bytes.zeros (B - K.length)

/-- One pass over what goes behind the key block. -/
def pass (pad : UInt8) (block text : Bytes) : Bytes := H (block.map (· ^^^ pad) ++ text)

def hmac (key text : Bytes) : Bytes :=
  let K := keyBlock H B key
  pass H 0x5C K (pass H 0x36 K text)

variable {H B}

theorem keyBlock_short {key : Bytes} (h : key.length ≤ B) :
    keyBlock H B key = key ++ Bytes.zeros (B - key.length) := by
  rw [keyBlock, if_neg (by omega)]

theorem keyBlock_long {key : Bytes} (h : B < key.length) :
    keyBlock H B key = H key ++ Bytes.zeros (B - (H key).length) := by
  rw [keyBlock, if_pos h]

end Hmac

section Derived
variable (mac : Bytes → Bytes → Bytes) (size : ℕ)

/-- As many blocks as there are to be bytes, counted from zero; `A` is the label. -/
def prf (K A B : Bytes) (len : ℕ) : Bytes :=
  ((List.range ((len + (size - 1)) / size)).flatMap fun i =>
    mac K (A ++ [0] ++ B ++ [UInt8.ofNat i])).take len

/-- The smaller of two numbers, the most significant byte first. -/
def beMin (a b : Bytes) : Bytes := if a.beNat ≤ b.beNat then a else b

def beMax (a b : Bytes) : Bytes := if a.beNat ≤ b.beNat then b else a

section Order
variable {a b : Bytes}

theorem beMin_comm (h : a.length = b.length) : beMin a b = beMin b a := by
  unfold beMin
  split_ifs with hab hba hba
  · exact Bytes.beNat_inj h (Nat.le_antisymm hab hba)
  · rfl
  · rfl
  · omega

theorem beMax_comm (h : a.length = b.length) : beMax a b = beMax b a := by
  unfold beMax
  split_ifs with hab hba hba
  · exact Bytes.beNat_inj h.symm (Nat.le_antisymm hba hab)
  · rfl
  · rfl
  · omega

theorem beMin_of_lt (h : a.beNat < b.beNat) : beMin a b = a := if_pos (Nat.le_of_lt h)

theorem beMax_of_lt (h : a.beNat < b.beNat) : beMax a b = b := if_pos (Nat.le_of_lt h)

end Order

/-- A number in four bytes, the most significant one first. -/
def int32 (i : ℕ) : Bytes := (List.range 4).map fun k => UInt8.ofNat (i / 256 ^ (3 - k))

/-- The iterates of a block, the first one numbered zero. -/
def U (P S : Bytes) (i : ℕ) : ℕ → Bytes
  | 0 => mac P (S ++ int32 i)
  | j + 1 => mac P (U P S i j)

/-- The first iterates of a block, added up. -/
def sum (P S : Bytes) (i : ℕ) : ℕ → Bytes
  | 0 => U mac P S i 0
  | j + 1 => (sum P S i j).xor (U mac P S i (j + 1))

def T (P S : Bytes) (c i : ℕ) : Bytes := sum mac P S i (c - 1)

def pbkdf2 (P S : Bytes) (c len : ℕ) : Bytes :=
  ((List.range ((len + (size - 1)) / size)).flatMap fun i => T mac P S c (i + 1)).take len

variable {mac size} {mac' : Bytes → Bytes → Bytes} {P P' : Bytes}

/-- Of the function and the passphrase only what they make of texts matters. -/
theorem pbkdf2_congr (h : mac P = mac' P') (S : Bytes) (c len : ℕ) :
    pbkdf2 mac size P S c len = pbkdf2 mac' size P' S c len := by
  have hU (i j : ℕ) : U mac P S i j = U mac' P' S i j := by
    induction j with
    | zero => rw [U, U, h]
    | succ j ih => rw [U, U, h, ih]
  have hsum (i j : ℕ) : sum mac P S i j = sum mac' P' S i j := by
    induction j with
    | zero => exact hU i 0
    | succ j ih => rw [sum, sum, ih, hU]
  have hT : (fun i => T mac P S c (i + 1)) = fun i => T mac' P' S c (i + 1) := by
    funext i
    exact hsum (i + 1) (c - 1)
  rw [pbkdf2, pbkdf2, hT]

end Derived

end KeyedHash

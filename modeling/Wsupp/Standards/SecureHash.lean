import Wsupp.Bytes

/-!
# The Secure Hash Algorithm

SHA-1 as RFC 3174 has it, in the words of its section 3 to 6.1: a message is padded
to whole blocks, and the blocks are chained. `chain` is the chaining for any way of
taking in a block.

This is the specification, so it is written for reading: the schedule is a recursion
on the number of the word, a round is one step with its function and constant, and
the padding is a 1, zeros up to the length field, and the length. That chaining goes
through a concatenation part by part is what an implementation that takes in its
input in pieces is compared by.
-/
namespace SecureHash

/-- The whole blocks at the front of a message. -/
def blocks (size : ℕ) : ℕ → Bytes → List Bytes
  | 0, _ => []
  | n + 1, m => m.take size :: blocks size n (m.drop size)

section Chaining
variable {α : Type} (take : α → Bytes → α) (size : ℕ)

def chain (h : α) (m : Bytes) : α := (blocks size (m.length / size) m).foldl take h

variable {take size} {h : α} {b m : Bytes} {k : ℕ}

theorem chain_short (hm : m.length < size) : chain take size h m = h := by
  rw [chain, Nat.div_eq_of_lt hm]
  rfl

theorem chain_cons (hsize : 0 < size) (hm : size ≤ m.length) :
    chain take size h m = chain take size (take h (m.take size)) (m.drop size) := by
  have hlen : m.length / size = (m.drop size).length / size + 1 := by
    rw [List.length_drop, Nat.div_eq_sub_div hsize hm]
  rw [chain, chain, hlen]
  rfl

theorem chain_block (hsize : 0 < size) (hb : b.length = size) :
    chain take size h (b ++ m) = chain take size (take h b) m := by
  have hle : size ≤ (b ++ m).length := by
    rw [List.length_append]
    omega
  rw [chain_cons hsize hle, ← hb, List.take_left, List.drop_left]

theorem chain_one (hsize : 0 < size) (hb : b.length = size) : chain take size h b = take h b := by
  have hnil : ([] : Bytes).length < size := hsize
  have hchain : chain take size h (b ++ []) = chain take size (take h b) [] := chain_block hsize hb
  rw [List.append_nil, chain_short hnil] at hchain
  exact hchain

end Chaining

/-- A number in eight bytes, the most significant one first. -/
def size64 (n : ℕ) : Bytes := (List.range 8).map fun i => UInt8.ofNat (n / 256 ^ (7 - i))

/-- A one bit, as few zeros as there can be, and the length in bits. -/
def padding (len : ℕ) : Bytes :=
  0x80 :: Bytes.zeros ((64 - (len + 9) % 64) % 64) ++ size64 (8 * len)

/-- The circular left shift. -/
def S (n : UInt32) (x : UInt32) : UInt32 := (x <<< n) ||| (x >>> (32 - n))

def f (t : ℕ) (b c d : UInt32) : UInt32 :=
  if t ≤ 19 then (b &&& c) ||| (~~~b &&& d)
  else if t ≤ 39 then b ^^^ c ^^^ d
  else if t ≤ 59 then (b &&& c) ||| (b &&& d) ||| (c &&& d)
  else b ^^^ c ^^^ d

def K (t : ℕ) : UInt32 :=
  if t ≤ 19 then 0x5A827999
  else if t ≤ 39 then 0x6ED9EBA1
  else if t ≤ 59 then 0x8F1BBCDC
  else 0xCA62C1D6

/-- The words of a block, and those computed from them. -/
def W (M : Bytes) (t : ℕ) : UInt32 :=
  if t < 16 then UInt32.ofNat (M.slice (4 * t) 4).beNat
  else S 1 (W M (t - 3) ^^^ W M (t - 8) ^^^ W M (t - 14) ^^^ W M (t - 16))

structure Words where
  A : UInt32
  B : UInt32
  C : UInt32
  D : UInt32
  E : UInt32

def step (M : Bytes) (r : Words) (t : ℕ) : Words :=
  ⟨S 5 r.A + f t r.B r.C r.D + r.E + W M t + K t, r.A, S 30 r.B, r.C, r.D⟩

def compress (H : Words) (M : Bytes) : Words :=
  let r := (List.range 80).foldl (step M) H
  ⟨H.A + r.A, H.B + r.B, H.C + r.C, H.D + r.D, H.E + r.E⟩

def H0 : Words := ⟨0x67452301, 0xEFCDAB89, 0x98BADCFE, 0x10325476, 0xC3D2E1F0⟩

/-- A word in four bytes, the most significant one first. -/
def bytesOf (w : UInt32) : Bytes := (List.range 4).map fun i => UInt8.ofNat (w.toNat / 256 ^ (3 - i))

def Words.digest (H : Words) : Bytes :=
  bytesOf H.A ++ bytesOf H.B ++ bytesOf H.C ++ bytesOf H.D ++ bytesOf H.E

def sha1 (m : Bytes) : Bytes := (chain compress 64 H0 (m ++ padding m.length)).digest

end SecureHash

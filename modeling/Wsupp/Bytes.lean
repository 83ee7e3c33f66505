import Mathlib.Data.List.Basic
import Mathlib.Tactic.Linarith
import Mathlib.Tactic.Ring

/-!
# Byte strings

Arrays of bytes are lists. `memcpy` and `memcmp` are the C functions on them,
`beNat` is the number a byte string spells with the most significant byte first,
`leNat` with the least significant one first. `poke` writes into an array at an
offset, `slice` reads from one.

The functions are total: what would lie behind the end of an array is simply not
there, so a slice can be shorter than was asked for. Wherever the source might read
or write outside an array, the modules above say so themselves; here are only the
laws of lengths, of reading what has been written and of comparing numbers by their
bytes.
-/

abbrev Bytes := List UInt8

namespace Bytes

def zeros (n : ℕ) : Bytes := List.replicate n 0

/-- The byte at an offset; a byte past the end reads as zero. -/
def at' (b : Bytes) (i : ℕ) : UInt8 := b.getD i 0

def slice (b : Bytes) (off n : ℕ) : Bytes := (b.drop off).take n

/-- `memcpy(dst, src, n)`: the rest of `dst` keeps its bytes. -/
def memcpy (dst src : Bytes) (n : ℕ) : Bytes := src.take n ++ dst.drop n

/-- The sign of `memcmp` on equally long strings. -/
def memcmp : Bytes → Bytes → Int
  | a :: as, b :: bs => if a < b then -1 else if b < a then 1 else memcmp as bs
  | _, _ => 0

def beNat (b : Bytes) : ℕ := b.foldl (fun n x => 256 * n + x.toNat) 0

def be16 (b : Bytes) (off : ℕ) : ℕ := 256 * (b.at' off).toNat + (b.at' (off + 1)).toNat

/-- `htons` of a 16-bit field, in memory order. -/
def ofBe16 (n : ℕ) : Bytes := [UInt8.ofNat (n / 256), UInt8.ofNat n]

def xor (a b : Bytes) : Bytes := List.zipWith (· ^^^ ·) a b

def leNat : Bytes → ℕ
  | [] => 0
  | x :: b => x.toNat + 256 * leNat b

/-- `n` in `k` bytes, in the order of a little-endian machine. -/
def ofLe : ℕ → ℕ → Bytes
  | 0, _ => []
  | k + 1, n => UInt8.ofNat n :: ofLe k (n / 256)

def le16 (b : Bytes) (off : ℕ) : ℕ := leNat (b.slice off 2)

def le32 (b : Bytes) (off : ℕ) : ℕ := leNat (b.slice off 4)

/-- The bytes from an offset on, overwritten. -/
def poke (mem : Bytes) (off : ℕ) (b : Bytes) : Bytes := mem.take off ++ b ++ mem.drop (off + b.length)

theorem map_at' (b : Bytes) : (List.range b.length).map b.at' = b := by
  apply List.ext_getElem (by simp)
  intro i hi hb
  rw [List.getElem_map, List.getElem_range, at', List.getD_eq_getElem?_getD, List.getElem?_eq_getElem hb]
  rfl

theorem take_memcpy (dst : Bytes) {src : Bytes} {n : ℕ} (h : n ≤ src.length) :
    (memcpy dst src n).take n = src.take n := by
  rw [memcpy, List.take_append_of_le_length (by simp; omega), List.take_take, min_self]

theorem foldl_beNat (b : Bytes) (n : ℕ) :
    b.foldl (fun n x => 256 * n + x.toNat) n = n * 256 ^ b.length + beNat b := by
  induction b generalizing n with
  | nil => simp [beNat]
  | cons x b ih =>
      have hx : beNat (x :: b) = b.foldl (fun n x => 256 * n + x.toNat) x.toNat := by
        simp only [beNat, List.foldl_cons, Nat.mul_zero, Nat.zero_add]
      rw [hx, List.foldl_cons, ih, ih, List.length_cons, pow_succ]
      ring

theorem beNat_cons (x : UInt8) (b : Bytes) :
    beNat (x :: b) = x.toNat * 256 ^ b.length + beNat b := by
  simp only [beNat, List.foldl_cons, Nat.mul_zero, Nat.zero_add]
  exact foldl_beNat b _

theorem beNat_lt (b : Bytes) : beNat b < 256 ^ b.length := by
  induction b with
  | nil => simp [beNat]
  | cons x b ih =>
      have hx : x.toNat + 1 ≤ 256 := x.toNat_lt
      rw [beNat_cons, List.length_cons, pow_succ]
      nlinarith [Nat.mul_le_mul_right (256 ^ b.length) hx]

theorem beNat_inj {a b : Bytes} (h : a.length = b.length) (hn : beNat a = beNat b) : a = b := by
  induction a generalizing b with
  | nil => exact (List.length_eq_zero_iff.mp h.symm).symm
  | cons x a ih =>
      obtain _ | ⟨y, b⟩ := b
      · simp at h
      have hl : a.length = b.length := by simpa using h
      have ha := beNat_lt a
      have hb := beNat_lt b
      rw [beNat_cons, beNat_cons, ← hl] at hn
      rw [← hl] at hb
      have hm : beNat a = beNat b := by
        have hm := congrArg (· % 256 ^ a.length) hn
        simpa only [Nat.mul_add_mod_of_lt ha, Nat.mul_add_mod_of_lt hb] using hm
      have hx : x.toNat * 256 ^ a.length = y.toNat * 256 ^ a.length := by omega
      have hx := Nat.eq_of_mul_eq_mul_right (Nat.pow_pos (by decide)) hx
      rw [UInt8.toNat_inj.mp hx, ih hl hm]

/-- On equally long strings `memcmp` compares the numbers they spell. -/
theorem memcmp_neg_iff {a b : Bytes} (h : a.length = b.length) :
    memcmp a b < 0 ↔ beNat a < beNat b := by
  induction a generalizing b with
  | nil =>
      obtain rfl : b = [] := List.length_eq_zero_iff.mp h.symm
      simp [memcmp]
  | cons x a ih =>
      obtain _ | ⟨y, b⟩ := b
      · simp at h
      have hl : a.length = b.length := by simpa using h
      have ha := beNat_lt a
      have hb := beNat_lt b
      rw [beNat_cons, beNat_cons, ← hl]
      rw [← hl] at hb
      simp only [memcmp]
      split_ifs with hxy hyx
      · have hn : x.toNat + 1 ≤ y.toNat := UInt8.lt_iff_toNat_lt.mp hxy
        have := Nat.mul_le_mul_right (256 ^ a.length) hn
        constructor
        · intro _
          nlinarith
        · intro _
          norm_num
      · have hn : y.toNat + 1 ≤ x.toNat := UInt8.lt_iff_toNat_lt.mp hyx
        have := Nat.mul_le_mul_right (256 ^ a.length) hn
        constructor
        · intro h1
          norm_num at h1
        · intro h1
          nlinarith
      · have he : x.toNat = y.toNat := by
          have h1 := mt UInt8.lt_iff_toNat_lt.mpr hxy
          have h2 := mt UInt8.lt_iff_toNat_lt.mpr hyx
          omega
        rw [ih hl, he]
        omega

theorem leNat_lt (b : Bytes) : leNat b < 256 ^ b.length := by
  induction b with
  | nil => simp [leNat]
  | cons x b ih =>
      have hx : x.toNat < 256 := x.toNat_lt
      rw [leNat, List.length_cons, pow_succ]
      omega

@[simp] theorem length_ofLe (k n : ℕ) : (ofLe k n).length = k := by
  induction k generalizing n with
  | zero => rfl
  | succ k ih => rw [ofLe, List.length_cons, ih]

theorem leNat_ofLe (k n : ℕ) : leNat (ofLe k n) = n % 256 ^ k := by
  induction k generalizing n with
  | zero => simp [leNat, ofLe, Nat.mod_one]
  | succ k ih =>
      have hx : (UInt8.ofNat n).toNat = n % 256 := UInt8.toNat_ofNat'
      rw [ofLe, leNat, ih, hx, pow_succ, Nat.mul_comm (256 ^ k), Nat.mod_mul]

section Offsets
variable {mem b : Bytes} {off o n : ℕ}

theorem length_slice (h : off + n ≤ mem.length) : (mem.slice off n).length = n := by
  rw [slice, List.length_take, List.length_drop]
  omega

theorem length_slice_le : (mem.slice off n).length ≤ n := by
  rw [slice, List.length_take]
  omega

theorem slice_four (h : off + 4 ≤ b.length) :
    b.slice off 4 = [b.at' off, b.at' (off + 1), b.at' (off + 2), b.at' (off + 3)] := by
  have hget (k : ℕ) : (b.drop off).getD k 0 = b.at' (off + k) := by
    simp only [at', List.getD_eq_getElem?_getD, List.getElem?_drop]
  have hlen : (b.drop off).length = b.length - off := List.length_drop
  rw [slice]
  match hd : b.drop off with
  | [] | [_] | [_, _] | [_, _, _] =>
      rw [hd] at hlen
      simp only [List.length_cons, List.length_nil] at hlen
      omega
  | x :: y :: z :: t :: r =>
      rw [hd] at hget
      have h0 : x = b.at' off := hget 0
      have h1 : y = b.at' (off + 1) := hget 1
      have h2 : z = b.at' (off + 2) := hget 2
      have h3 : t = b.at' (off + 3) := hget 3
      rw [← h0, ← h1, ← h2, ← h3]
      rfl

theorem slice_append_left (h : off + n ≤ mem.length) : (mem ++ b).slice off n = mem.slice off n := by
  rw [slice, slice, List.drop_append_of_le_length (by omega), List.take_append_of_le_length]
  rw [List.length_drop]
  omega

theorem slice_append_right {p : ℕ} (h : mem.length = p) : (mem ++ b).slice (p + off) n = b.slice off n := by
  rw [slice, slice, ← h, List.drop_length_add_append]

theorem be16_append_right {p : ℕ} (h : mem.length = p) : (mem ++ b).be16 p = b.be16 0 := by
  have hat (i : ℕ) : (mem ++ b).at' (p + i) = b.at' i := by
    rw [at', at', List.getD_eq_getElem?_getD, List.getD_eq_getElem?_getD, ← h,
      List.getElem?_append_right (Nat.le_add_right ..), Nat.add_sub_cancel_left]
  exact congrArg₂ (fun x y : UInt8 => 256 * x.toNat + y.toNat) (hat 0) (hat 1)

theorem slice_slice (mem : Bytes) (h : o + n ≤ off) (p : ℕ) : (mem.slice p off).slice o n = mem.slice (p + o) n := by
  rw [slice, slice, slice, List.drop_take, List.take_take, List.drop_drop, min_eq_left (by omega)]

theorem length_poke (h : off + b.length ≤ mem.length) : (poke mem off b).length = mem.length := by
  simp only [poke, List.length_append, List.length_take, List.length_drop]
  omega

theorem slice_poke_in (h : off ≤ mem.length) (hn : o + n ≤ b.length) :
    (poke mem off b).slice (off + o) n = b.slice o n := by
  have hlen : (mem.take off).length = off := List.length_take_of_le h
  rw [poke, List.append_assoc, slice_append_right hlen, slice_append_left hn]

theorem slice_poke (h : off ≤ mem.length) : (poke mem off b).slice off b.length = b := by
  have hin : (poke mem off b).slice (off + 0) b.length = b.slice 0 b.length :=
    slice_poke_in h (by omega)
  rw [Nat.add_zero] at hin
  rw [hin, slice, List.drop_zero, List.take_length]

theorem slice_poke_before (h : off ≤ mem.length) (hn : o + n ≤ off) :
    (poke mem off b).slice o n = mem.slice o n := by
  have hlen : (mem.take off).length = off := List.length_take_of_le h
  rw [poke, List.append_assoc, slice_append_left (by rw [hlen]; exact hn)]
  rw [slice, slice, List.drop_take, List.take_take, min_eq_left (by omega)]

theorem slice_poke_after (h : off ≤ mem.length) (hn : off + b.length ≤ o) :
    (poke mem off b).slice o n = mem.slice o n := by
  have hlen : (mem.take off ++ b).length = off + b.length := by
    rw [List.length_append, List.length_take_of_le h]
  obtain ⟨k, rfl⟩ := Nat.exists_eq_add_of_le hn
  rw [poke, slice_append_right hlen, slice, slice, List.drop_drop]

end Offsets

end Bytes

import Wsupp.Nlusctl.Put

/-!
# Control messages, put and read back

A message is read back as far as it was put. The fields decide how far that goes:
keys have 16 bits, and the length of a message has 32.

For any sequence of calls, nests and overflows included, the functions that read
find exactly the attributes that were put before the first that did not fit, each
with its contents and each nest with what is in it. A key beyond its field is found
under another number, and the length of a message of four gigabytes wraps; these two
are the only ways in which more is lost.
-/
namespace Wsupp.Nlusctl
open Wire

/-- The message built by these calls is accepted and holds the longest part of `G`,
from its start, for which the buffer has room. -/
def RoundTrip (buf : Bytes) (cmd : Int) (F : Puts) (G : Attrs) : Prop :=
  ∃ n, (n = G.count ∨ n < G.count ∧ buf.length < 8 + (G.take (n + 1)).size) ∧
    8 + (G.take n).size ≤ buf.length ∧ Holds (F.sent buf cmd) cmd (G.take n)

/-- Whatever is put, in whatever nesting: up to the first call that did not fit,
everything is read back under its key, each nest with what is in it, and nothing else
is. Values and lengths that their fields cannot hold are excluded by name. -/
theorem puts_read_back {buf : Bytes} {cmd : Int} {F : Puts} (h : 8 ≤ buf.length)
    (hlo : -2 ^ 31 ≤ cmd) (hhi : cmd < 2 ^ 31) (hsmall : F.attrs.Small)
    (hlen : buf.length < 2 ^ 32 ∨ 8 + F.attrs.size < 2 ^ 32) : RoundTrip buf cmd F F.attrs := by
  obtain ⟨n, hn, hholds⟩ := F.sent_holds h hlo hhi hsmall hlen
  exact ⟨n, hn.imp_left And.right, hholds⟩

namespace Sample

/-- A nest that does not fit as a whole. -/
def cutNest : Puts := .int 9 (-1) (.nest 8 (.str 10 [97, 0, 98] (.bin 1 [1, 2, 3, 4, 5] .done)) (.flag 3 .done))

end Sample

theorem cut_read_back : RoundTrip (Bytes.zeros 32) (-38) Sample.cutNest Sample.cutNest.attrs :=
  puts_read_back (by decide) (by decide) (by decide)
    ⟨by decide, by decide, ⟨by decide, by decide, trivial⟩, by decide, trivial⟩ (.inl (by decide))

/-- The attributes with the keys they were put under. -/
def Puts.exact : Puts → Attrs := Puts.attrsBy Int.toNat

def Puts.flags : ℕ → Puts
  | 0 => .done
  | n + 1 => .flag 1 (flags n)

namespace Puts

theorem flags_attrs (n : ℕ) : (flags n).attrs = (flags n).exact := by
  induction n with
  | zero => rfl
  | succ n ih =>
      rw [attrs, exact] at ih
      rw [attrs, exact, flags, attrsBy, attrsBy, ih]
      rfl

theorem flags_small (n : ℕ) : (flags n).exact.Small := by
  induction n with
  | zero => trivial
  | succ n ih => exact ⟨by decide, ih⟩

theorem flags_size (n : ℕ) : (flags n).exact.size = 4 * n := by
  induction n with
  | zero => rfl
  | succ n ih =>
      have h4 : align4 4 = 4 := rfl
      rw [exact] at ih
      rw [exact, flags, attrsBy, Attrs.size, ih, List.length_nil, Nat.add_zero, h4]
      omega

end Puts

/-- Where the length of the whole message is 8 modulo `2^32`, the message that is
sent holds nothing. -/
theorem flags_lost {n : ℕ} (hn : 0 < n) (hlen : (8 + 4 * n) % 2 ^ 32 = 8) :
    ¬ RoundTrip (Bytes.zeros (8 + 4 * n)) 0 (.flags n) (Puts.flags n).exact := by
  have hbuf : (Bytes.zeros (8 + 4 * n)).length = 8 + 4 * n := List.length_replicate
  have hall : ∀ m, m = (Puts.flags n).exact.count ∨ m < (Puts.flags n).exact.count ∧
      (Bytes.zeros (8 + 4 * n)).length < 8 + ((Puts.flags n).exact.take (m + 1)).size →
      (Puts.flags n).exact.take m = (Puts.flags n).exact := by
    intro m hm
    have hle := Attrs.size_take_le (m + 1) (Puts.flags n).exact
    rw [Puts.flags_size] at hle
    obtain hm | ⟨-, hfull⟩ := hm
    · exact Attrs.take_of_count_le hm.ge
    · rw [hbuf] at hfull
      omega
  have hsmall : (Puts.flags n).attrs.Small := by
    rw [Puts.flags_attrs]
    exact Puts.flags_small n
  obtain ⟨m, hm, -, -, hfield, -, -⟩ := (Puts.flags n).sent_spec 0 (by rw [hbuf]; omega) hsmall
  rw [Puts.flags_attrs] at hm hfield
  rw [hall m (hm.imp_left And.right), Puts.flags_size] at hfield
  have height : Ucmsg.len ((Puts.flags n).sent (Bytes.zeros (8 + 4 * n)) 0) = 8 := hfield.trans hlen
  have hnone : ucGet0 ((Puts.flags n).sent (Bytes.zeros (8 + 4 * n)) 0) = none := by
    rw [ucGet0, height]
    rfl
  intro hround
  obtain ⟨k, hk, -, hholds⟩ := hround
  have hdec := hholds.attrs
  obtain ⟨n, rfl⟩ : ∃ m, n = m + 1 := ⟨n - 1, by omega⟩
  rw [hall k hk, hnone] at hdec
  exact hdec

/-- A key that needs more than 16 bits is found under another number, and the length of
a message of four gigabytes comes out as a small one. -/
theorem wide_lost : ¬ RoundTrip (Bytes.zeros 12) 0 (.flag 65536 .done) (Puts.flag 65536 .done).exact ∧
    ¬ RoundTrip (Bytes.zeros (8 + 4 * 2 ^ 30)) 0 (.flags (2 ^ 30)) (Puts.flags (2 ^ 30)).exact := by
  constructor
  · intro hround
    obtain ⟨n, hn, -, hholds⟩ := hround
    have hkey := hholds.attrs
    have hone : n = 1 := by
      obtain hn | ⟨hn, hfull⟩ := hn
      · exact hn
      · have hzero : n = 0 := by
          have hcount : (Puts.flag 65536 .done).exact.count = 1 := rfl
          omega
        subst hzero
        exact absurd hfull (by decide)
    subst hone
    cases hfirst : ucGet0 ((Puts.flag 65536 .done).sent (Bytes.zeros 12) 0) with
    | none =>
        rw [hfirst] at hkey
        exact hkey
    | some p =>
        rw [hfirst] at hkey
        have hwide : attrKey ((Puts.flag 65536 .done).sent (Bytes.zeros 12) 0) p = 65536 := hkey.2.1
        have hlt := attrLen_lt ((Puts.flag 65536 .done).sent (Bytes.zeros 12) 0) (p + 2)
        rw [attrKey] at hwide
        rw [attrLen] at hlt
        omega
  · exact flags_lost (by norm_num) (by norm_num)

end Wsupp.Nlusctl

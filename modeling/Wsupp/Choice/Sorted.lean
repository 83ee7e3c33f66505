import Mathlib.Data.List.Perm.Basic
import Mathlib.Data.Prod.Lex
import Mathlib.Order.OrderDual

/-!
# Sorting by a comparison

A sort that is given a comparison of two elements, as a number below, at or above
zero. All that is known of it is that it keeps the elements and puts them in order,
where the comparison is one of keys; comparisons of keys can be negated and put one
after the other.

That is what the C library promises of `qsort`, which need not be stable, so nothing
is said about the order of elements with equal keys, and a result holds for every
sort of this kind. A merge sort is one. A sort of positions carries over to what the
positions stand for, along any relation.
-/
namespace Choice

section Sorting
variable {α β γ δ : Type*} [LinearOrder β] [LinearOrder γ]

/-- The comparison is the one of keys: it is negative, zero or positive as the key of
the first element is less than, equal to or greater than that of the second. -/
structure Ranks (cmp : α → α → Int) (key : α → β) : Prop where
  lt : ∀ x y, cmp x y < 0 ↔ key x < key y
  gt : ∀ x y, 0 < cmp x y ↔ key y < key x

/-- What a comparison has to be for a sort to be defined: any two elements can be
compared, in either order with opposite results, and the results are transitive. -/
structure Consistent (cmp : α → α → Int) : Prop where
  swap : ∀ x y, cmp x y < 0 ↔ 0 < cmp y x
  trans : ∀ x y z, cmp x y ≤ 0 → cmp y z ≤ 0 → cmp x z ≤ 0

/-- A sort, as far as it is promised: a permutation of the list, in the order of the
comparison. Equal elements may come in any order. -/
structure Sorts (sort : (α → α → Int) → List α → List α) : Prop where
  perm : ∀ cmp l, (sort cmp l).Perm l
  sorted : ∀ cmp l, Consistent cmp → (sort cmp l).Pairwise fun x y => cmp x y ≤ 0

namespace Ranks
variable {cmp cmp' : α → α → Int} {key : α → β} {key' : α → γ}

theorem le (h : Ranks cmp key) (x y : α) : cmp x y ≤ 0 ↔ key x ≤ key y := by
  have hgt := h.gt x y
  rw [← not_lt, hgt, not_lt]

theorem eq (h : Ranks cmp key) (x y : α) : cmp x y = 0 ↔ key x = key y := by
  have hlt := h.lt x y
  have hgt := h.gt x y
  constructor
  · intro hzero
    apply le_antisymm
    · exact (h.le x y).mp hzero.le
    · rw [← not_lt, ← hlt, hzero]
      exact lt_irrefl 0
  · intro hkey
    rw [hkey] at hlt hgt
    have hnlt : ¬ cmp x y < 0 := fun hneg => lt_irrefl _ (hlt.mp hneg)
    have hngt : ¬ 0 < cmp x y := fun hpos => lt_irrefl _ (hgt.mp hpos)
    omega

theorem consistent (h : Ranks cmp key) : Consistent cmp := by
  constructor
  · intro x y
    rw [h.lt, h.gt]
  · intro x y z hxy hyz
    exact (h.le x z).mpr (((h.le x y).mp hxy).trans ((h.le y z).mp hyz))

theorem neg (h : Ranks cmp key) : Ranks (fun x y => -cmp x y) fun x => OrderDual.toDual (key x) := by
  constructor
  · intro x y
    rw [OrderDual.toDual_lt_toDual, ← h.gt]
    omega
  · intro x y
    rw [OrderDual.toDual_lt_toDual, ← h.lt]
    omega

/-- One comparison, and another one where it does not decide. -/
theorem lex (h : Ranks cmp key) (h' : Ranks cmp' key') :
    Ranks (fun x y => if cmp x y ≠ 0 then cmp x y else cmp' x y) fun x => toLex (key x, key' x) := by
  have heq := h.eq
  constructor
  · intro x y
    rw [Prod.Lex.toLex_lt_toLex, ← h.lt, ← heq, ← h'.lt]
    split
    · omega
    · omega
  · intro x y
    have hsymm : key y = key x ↔ cmp x y = 0 := by rw [heq, eq_comm]
    rw [Prod.Lex.toLex_lt_toLex, ← h.gt, hsymm, ← h'.gt]
    split
    · omega
    · omega

end Ranks

namespace Sorts
variable {sort : (α → α → Int) → List α → List α} {cmp : α → α → Int} {key : α → β}

theorem ranked (h : Sorts sort) (hcmp : Ranks cmp key) (l : List α) :
    (sort cmp l).Pairwise fun x y => key x ≤ key y :=
  (h.sorted cmp l hcmp.consistent).imp fun hle => (hcmp.le _ _).mp hle

/-- What goes with the elements, goes with them in the new order. -/
theorem along (h : Sorts sort) (cmp : α → α → Int) {R : α → δ → Prop} {l : List α} {l' : List δ} (hl : List.Forall₂ R l l') :
    ∃ m, List.Forall₂ R (sort cmp l) m ∧ m.Perm l' := by
  obtain ⟨m, hm, hperm⟩ := List.perm_comp_forall₂ (h.perm cmp l) hl
  exact ⟨m, hm, hperm⟩

theorem mergeSort : Sorts fun (cmp : α → α → Int) l => l.mergeSort fun x y => cmp x y ≤ 0 := by
  constructor
  · intro cmp l
    exact List.mergeSort_perm l _
  · intro cmp l hcmp
    have hsorted : (l.mergeSort fun x y => decide (cmp x y ≤ 0)).Pairwise fun x y => decide (cmp x y ≤ 0) = true := by
      apply List.pairwise_mergeSort
      · intro x y z hxy hyz
        exact decide_eq_true (hcmp.trans x y z (of_decide_eq_true hxy) (of_decide_eq_true hyz))
      · intro x y
        have hswap := hcmp.swap x y
        rw [Bool.or_eq_true, decide_eq_true_iff, decide_eq_true_iff]
        omega
    exact hsorted.imp fun hle => of_decide_eq_true hle

end Sorts

end Sorting

section Along
variable {α β δ : Type*} {R : α → δ → Prop} {l : List α} {m : List δ}

theorem pairwise_along (h : List.Forall₂ R l m) {P : α → α → Prop} {Q : δ → δ → Prop} (hl : l.Pairwise P)
    (hPQ : ∀ x y x' y', R x x' → R y y' → P x y → Q x' y') : m.Pairwise Q := by
  have hlen := h.length_eq
  rw [List.pairwise_iff_getElem] at *
  intro i j hi hj hij
  have hi' : i < l.length := by omega
  have hj' : j < l.length := by omega
  exact hPQ _ _ _ _ (h.get hi' hi) (h.get hj' hj) (hl i j hi' hj' hij)

theorem flatMap_along (h : List.Forall₂ R l m) {f : α → List β} {g : δ → List β} (hfg : ∀ x y, R x y → f x = g y) :
    l.flatMap f = m.flatMap g := by
  induction h with
  | nil => rfl
  | cons hxy _ ih => rw [List.flatMap_cons, List.flatMap_cons, hfg _ _ hxy, ih]

end Along
end Choice

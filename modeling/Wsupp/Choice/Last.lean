import Mathlib.Data.List.Induction
import Mathlib.Order.Lattice

/-!
# The last of several

A scan that takes whatever comes later ends with the last value it is given, or with
what it has had in the beginning.

This is how a loop over a list leaves a variable that it may assign to several
times: what a later element says overrides what an earlier one has said, and
elements that say nothing are passed over. The elements are in ascending order and
may be anything that is ordered, and so is the one whose value is left found; the
values are of any type.
-/
namespace Choice

section Scan
variable {α β : Type*}

def last (f : α → Option β) (l : List α) (b : β) : β := l.foldl (fun b a => (f a).getD b) b

/-- The value comes from the last place that gives one. -/
theorem last_spec [LinearOrder α] {f : α → Option β} {l : List α} (hsorted : l.Pairwise (· < ·)) (b : β) :
    (∃ a ∈ l, f a = some (last f l b) ∧ ∀ a' ∈ l, f a' ≠ none → a' ≤ a) ∨
      (∀ a ∈ l, f a = none) ∧ last f l b = b := by
  induction l using List.reverseRecOn with
  | nil => exact .inr ⟨List.forall_mem_nil _, rfl⟩
  | append_singleton l a ih =>
      obtain ⟨hl, -, hlt⟩ := List.pairwise_append.mp hsorted
      have hstep : last f (l ++ [a]) b = (f a).getD (last f l b) := by
        rw [last, List.foldl_append]
        rfl
      rw [hstep]
      cases ha : f a with
      | some v =>
          refine .inl ⟨a, List.mem_append_right _ List.mem_cons_self, ha, ?_⟩
          intro a' ha' _
          cases List.mem_append.mp ha' with
          | inl hmem => exact (hlt a' hmem a List.mem_cons_self).le
          | inr hmem => exact (List.mem_singleton.mp hmem).le
      | none =>
          rw [Option.getD_none]
          cases ih hl with
          | inl hfound =>
              obtain ⟨p, hp, hvalue, hlatest⟩ := hfound
              refine .inl ⟨p, List.mem_append_left _ hp, hvalue, ?_⟩
              intro a' ha' hgives
              cases List.mem_append.mp ha' with
              | inl hmem => exact hlatest a' hmem hgives
              | inr hmem =>
                  rw [List.mem_singleton.mp hmem] at hgives
                  exact absurd ha hgives
          | inr hnothing =>
              refine .inr ⟨?_, hnothing.2⟩
              intro a' ha'
              cases List.mem_append.mp ha' with
              | inl hmem => exact hnothing.1 a' hmem
              | inr hmem =>
                  rw [List.mem_singleton.mp hmem]
                  exact ha

end Scan

end Choice

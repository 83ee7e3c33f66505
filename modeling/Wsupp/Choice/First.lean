import Mathlib.Data.Prod.Lex
import Mathlib.Data.Fintype.Card

/-!
# The first of the best

Candidates are numbered and have a key. One goes before another if its key is
greater, or if the keys are equal and its number is smaller. A scan that only gives
up what it has for something strictly better ends with the candidate that goes
before all others.

Keys come from any linear order, and which numbers are candidates is any predicate
that can be computed. That the numbers are taken in ascending order is what makes
the first of several equal ones win. This is all that a search through a table
needs; nothing is said about what the keys mean.
-/
namespace Choice

section Scan
variable {β : Type*} [LinearOrder β] (key : ℕ → β) (ok : ℕ → Bool)

/-- Greater keys first, and smaller numbers first among equal keys. -/
def Before (i j : ℕ) : Prop := key j < key i ∨ key i = key j ∧ i < j

instance (i j : ℕ) : Decidable (Before key i j) := inferInstanceAs (Decidable (_ ∨ _))

def scan : List ℕ → Option ℕ → Option ℕ
  | [], best => best
  | i :: is, best => scan is (if ok i && best.all (fun b => key b < key i) then some i else best)

variable {key ok}

theorem Before.trans {i j k : ℕ} (h : Before key i j) (h' : Before key j k) : Before key i k := by
  obtain hlt | ⟨heq, hij⟩ := h
  · obtain hlt' | ⟨heq', -⟩ := h'
    · exact .inl (hlt'.trans hlt)
    · exact .inl (heq' ▸ hlt)
  · obtain hlt' | ⟨heq', hjk⟩ := h'
    · exact .inl (heq ▸ hlt')
    · exact .inr ⟨heq.trans heq', hij.trans hjk⟩

theorem Before.irrefl (i : ℕ) : ¬ Before key i i := by
  intro h
  obtain hlt | ⟨-, hlt⟩ := h
  · exact lt_irrefl _ hlt
  · exact lt_irrefl _ hlt

theorem Before.asymm {i j : ℕ} (h : Before key i j) : ¬ Before key j i :=
  fun h' => Before.irrefl i (h.trans h')

theorem before_total {i j : ℕ} (h : i ≠ j) : Before key i j ∨ Before key j i := by
  obtain hlt | heq | hlt := lt_trichotomy (key i) (key j)
  · exact .inr (.inl hlt)
  · obtain hij | hij := lt_or_gt_of_ne h
    · exact .inl (.inr ⟨heq, hij⟩)
    · exact .inr (.inr ⟨heq.symm, hij⟩)
  · exact .inl (.inl hlt)

/-- A candidate found earlier stands unless what is found goes before it. -/
theorem scan_some {is : List ℕ} {best : Option ℕ} {i : ℕ} (hsorted : is.Pairwise (· < ·))
    (hbest : ∀ b ∈ best, ∀ j ∈ is, b < j) (h : scan key ok is best = some i) :
    (best = some i ∨ i ∈ is ∧ ok i = true) ∧ (∀ b ∈ best, b = i ∨ Before key i b) ∧
      ∀ j ∈ is, ok j = true → j = i ∨ Before key i j := by
  induction is generalizing best with
  | nil =>
      refine ⟨.inl h, fun b hb => ?_, fun j hj => absurd hj List.not_mem_nil⟩
      exact .inl (Option.some.inj (hb.symm.trans h))
  | cons k is ih =>
      obtain ⟨hk, hsorted⟩ := List.pairwise_cons.mp hsorted
      unfold scan at h
      split at h
      · next htaken =>
          rw [Bool.and_eq_true] at htaken
          obtain ⟨hfound, hfirst, hrest⟩ := ih hsorted (fun b hb j hj => by cases hb; exact hk j hj) h
          have hki : k = i ∨ Before key i k := hfirst k rfl
          refine ⟨.inr ?_, fun b hb => .inr ?_, fun j hj hok => ?_⟩
          · obtain hfound | ⟨hi, hok⟩ := hfound
            · cases hfound
              exact ⟨List.mem_cons_self, htaken.1⟩
            · exact ⟨List.mem_cons_of_mem _ hi, hok⟩
          · have hlt : key b < key k := by
              have hall := htaken.2
              rw [Option.mem_def.mp hb] at hall
              exact of_decide_eq_true hall
            obtain rfl | hki := hki
            · exact .inl hlt
            · exact hki.trans (.inl hlt)
          · obtain rfl | hj := List.mem_cons.mp hj
            · exact hki
            · exact hrest j hj hok
      · next hleft =>
          obtain ⟨hfound, hfirst, hrest⟩ :=
            ih hsorted (fun b hb j hj => hbest b hb j (List.mem_cons_of_mem _ hj)) h
          refine ⟨hfound.imp_right fun hi => ⟨List.mem_cons_of_mem _ hi.1, hi.2⟩, hfirst, fun j hj hok => ?_⟩
          obtain rfl | hj := List.mem_cons.mp hj
          · -- not taken, because what there was is as good
            rw [hok, Bool.true_and] at hleft
            cases best with
            | none => exact absurd rfl hleft
            | some b =>
                have hbj : Before key b j := by
                  have hle : key j ≤ key b := by simpa using hleft
                  obtain hlt | heq := hle.lt_or_eq
                  · exact .inl hlt
                  · exact .inr ⟨heq.symm, hbest b rfl j List.mem_cons_self⟩
                obtain rfl | hib := hfirst b rfl
                · exact .inr hbj
                · exact .inr (hib.trans hbj)
          · exact hrest j hj hok

theorem scan_none {is : List ℕ} {best : Option ℕ} (h : scan key ok is best = none) :
    best = none ∧ ∀ j ∈ is, ok j = false := by
  induction is generalizing best with
  | nil => exact ⟨h, fun j hj => absurd hj List.not_mem_nil⟩
  | cons k is ih =>
      unfold scan at h
      split at h
      · cases (ih h).1
      · next hleft =>
          obtain ⟨rfl, hrest⟩ := ih h
          refine ⟨rfl, fun j hj => ?_⟩
          obtain rfl | hj := List.mem_cons.mp hj
          · exact eq_false_of_ne_true fun hok => hleft (by rw [hok]; rfl)
          · exact hrest j hj

end Scan

end Choice

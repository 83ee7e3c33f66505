import Mathlib.Data.Nat.Notation

/-!
# Programs that access memory

Programs of which each access to one of a number of regions is recorded, and which
may have loops that do not end. `Runs` says that a program ends, that its accesses
are all of a kind, and what holds of its result; the rules compute it along the
program.

An access names a region, an offset and a length. Which accesses are good is a
parameter, so one walk through a program proves both that it stays inside its
buffers and that it computes what a plainer function does. Nothing is fixed about
what the regions are.
-/
namespace Memory

structure Access (ρ : Type) where
  region : ρ
  off : ℕ
  len : ℕ
deriving DecidableEq, Repr

/-- The result with the accesses made; nothing if a loop is cut off. -/
def Traced (ρ α : Type) := Option (α × List (Access ρ))

variable {ρ α β : Type}

namespace Traced

def ret (a : α) : Traced ρ α := some (a, [])

/-- Accesses made before come first. -/
def after (l : List (Access ρ)) (m : Traced ρ α) : Traced ρ α := Option.map (fun r => (r.1, l ++ r.2)) m

def andThen (m : Traced ρ α) (f : α → Traced ρ β) : Traced ρ β := Option.bind m fun r => (f r.1).after r.2

instance instMonad : Monad (Traced ρ) where
  pure := ret
  bind := andThen

/-- `len` bytes of a region, from an offset on. -/
def touch (region : ρ) (off len : ℕ) : Traced ρ Unit := some ((), [⟨region, off, len⟩])

/-- A loop that should have ended by now. -/
def cutOff : Traced ρ α := none

theorem bind_none {m : Traced ρ α} {f : α → Traced ρ β} (hm : m = none) : m >>= f = none := by
  rw [hm]
  rfl

theorem bind_some {m : Traced ρ α} {f : α → Traced ρ β} {r : α × List (Access ρ)} (hm : m = some r) :
    m >>= f = (f r.1).after r.2 := by
  rw [hm]
  rfl

theorem after_some {m : Traced ρ α} {a : α} {l l₁ : List (Access ρ)} (h : m.after l₁ = some (a, l)) :
    ∃ l₂, m = some (a, l₂) ∧ l = l₁ ++ l₂ := by
  obtain ⟨r, hm, heq⟩ := Option.map_eq_some_iff.mp h
  cases heq
  exact ⟨r.2, hm, rfl⟩

end Traced

/-- The program ends, with accesses of one kind only, and a result of another. -/
def Runs (P : Access ρ → Prop) (m : Traced ρ α) (Q : α → Prop) : Prop :=
  ∃ a l, m = some (a, l) ∧ (∀ x ∈ l, P x) ∧ Q a

section Rules
variable {P : Access ρ → Prop} {Q Q' : α → Prop} {R : β → Prop} {m : Traced ρ α} {f : α → Traced ρ β}

@[simp] theorem runs_pure {a : α} : Runs P (pure a : Traced ρ α) Q ↔ Q a := by
  constructor
  · intro h
    obtain ⟨a, l, heq, -, hQ⟩ := h
    cases heq
    exact hQ
  · intro h
    exact ⟨a, [], rfl, fun x hx => absurd hx List.not_mem_nil, h⟩

@[simp] theorem runs_touch {Q : Unit → Prop} {region : ρ} {off len : ℕ} :
    Runs P (Traced.touch region off len) Q ↔ P ⟨region, off, len⟩ ∧ Q () := by
  constructor
  · intro h
    obtain ⟨a, l, heq, hl, hQ⟩ := h
    cases heq
    exact ⟨hl _ List.mem_cons_self, hQ⟩
  · intro h
    exact ⟨(), _, rfl, fun x hx => (List.mem_singleton.mp hx).symm ▸ h.1, h.2⟩

@[simp] theorem runs_bind : Runs P (m >>= f) R ↔ Runs P m fun a => Runs P (f a) R := by
  constructor
  · intro h
    obtain ⟨b, l, heq, hl, hR⟩ := h
    cases hm : (m : Option (α × List (Access ρ))) with
    | none =>
        rw [Traced.bind_none hm] at heq
        cases heq
    | some r =>
        obtain ⟨l', hf, rfl⟩ := Traced.after_some ((Traced.bind_some hm).symm.trans heq)
        exact ⟨r.1, r.2, rfl, fun x hx => hl x (List.mem_append_left _ hx),
          b, l', hf, fun x hx => hl x (List.mem_append_right _ hx), hR⟩
  · intro h
    obtain ⟨a, l₁, hm, hl₁, b, l₂, hf, hl₂, hR⟩ := h
    refine ⟨b, l₁ ++ l₂, ?_, ?_, hR⟩
    · rw [Traced.bind_some hm, hf]
      rfl
    · intro x hx
      cases List.mem_append.mp hx with
      | inl hx => exact hl₁ x hx
      | inr hx => exact hl₂ x hx

theorem Runs.mono (h : Runs P m Q) (hQ : ∀ a, Q a → Q' a) : Runs P m Q' := by
  obtain ⟨a, l, heq, hl, ha⟩ := h
  exact ⟨a, l, heq, hl, hQ a ha⟩

theorem Runs.bind {a : α} (h : Runs P m (· = a)) (hf : Runs P (f a) R) : Runs P (m >>= f) R := by
  rw [runs_bind]
  apply h.mono
  intro a' ha'
  rwa [ha']

theorem runs_bind_iff {a : α} (h : Runs P m (· = a)) : Runs P (m >>= f) R ↔ Runs P (f a) R := by
  rw [runs_bind]
  obtain ⟨a', l, heq, hl, rfl⟩ := h
  constructor
  · intro hrun
    obtain ⟨a'', l', heq', -, hR⟩ := hrun
    rw [heq] at heq'
    cases heq'
    exact hR
  · intro hR
    exact ⟨a', l, heq, hl, hR⟩

end Rules

end Memory

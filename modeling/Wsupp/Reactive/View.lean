import Wsupp.Reactive.Prog

/-!
# Handlers seen through a view

A view keeps a part of the state and some of the outputs. `Does` says what a handler
can do as far as the view shows it, as a relation between the outputs shown and the
outcome; a handler that shows nothing and leaves the part of the state alone is
quiet. Relations of callees compose along the text of the caller.

What is hidden may still be read, since a handler is looked at in a given state. An
outcome is a value with the part of the state that is kept, or the end of the
process, so that nothing has to be said about a state that no one sees any more.
-/
namespace Reactive

/-- How a handler comes out, with the part of the state that is kept: it goes on with a
result, or the process has ended. -/
inductive Outcome (α κ : Type) where
  | goes (a : α) (c : κ)
  | ends

/-- The outcome without the value returned. -/
def Outcome.void {α κ : Type} : Outcome α κ → Outcome Unit κ
  | .goes _ c => .goes () c
  | .ends => .ends

/-- What holds if the handler comes back. -/
def Outcome.Returns {α κ : Type} (P : κ → Prop) : Outcome α κ → Prop
  | .goes _ c => P c
  | .ends => True

structure View (σ ω κ : Type) where
  state : σ → κ
  shows : ω → Bool

namespace View
open Prog
variable {σ ω κ α β : Type} (V : View σ ω κ)

def outputs (l : List ω) : List ω := l.filter V.shows

def Does (m : Prog σ ω α) (s : σ) (E : List ω → Outcome α κ → Prop) : Prop :=
  wp m (fun a s' l => E (V.outputs l) (.goes a (V.state s'))) (fun _ l => E (V.outputs l) .ends) s

/-- Nothing of what the handler does shows, and it returns. The part of the state that
is kept is what it was. -/
structure Quiet (m : Prog σ ω α) : Prop where
  does : ∀ s, V.Does m s fun ks o => ks = [] ∧ ∃ a, o = .goes a (V.state s)

variable {V}

@[simp] theorem outputs_nil : V.outputs [] = [] := rfl

@[simp] theorem outputs_append (l l' : List ω) :
    V.outputs (l ++ l') = V.outputs l ++ V.outputs l' := List.filter_append ..

theorem outputs_shown {a : ω} (h : V.shows a = true) : V.outputs [a] = [a] := by
  simp [outputs, h]

theorem outputs_hidden {a : ω} (h : V.shows a = false) : V.outputs [a] = [] := by
  simp [outputs, h]

section Rules
variable {s : σ} {E : List ω → Outcome α κ → Prop}

@[simp] theorem does_pure (a : α) :
    V.Does (pure a) s E ↔ E [] (.goes a (V.state s)) := Iff.rfl

@[simp] theorem does_exit : V.Does (exit : Prog σ ω α) s E ↔ E [] .ends := Iff.rfl

@[simp] theorem does_update {E : List ω → Outcome Unit κ → Prop} (f : σ → σ) :
    V.Does (update f) s E ↔ E [] (.goes () (V.state (f s))) := Iff.rfl

@[simp] theorem does_emit {E : List ω → Outcome Unit κ → Prop} (a : ω) :
    V.Does (emit a) s E ↔ E (V.outputs [a]) (.goes () (V.state s)) := Iff.rfl

@[simp] theorem does_read_bind (f : σ → Prog σ ω α) : V.Does (read >>= f) s E ↔ V.Does (f s) s E := by
  simp [Does]

@[simp] theorem does_update_bind (g : σ → σ) (f : Unit → Prog σ ω α) :
    V.Does (update g >>= f) s E ↔ V.Does (f ()) (g s) E := by
  simp [Does]

@[simp] theorem does_emit_bind (a : ω) (f : Unit → Prog σ ω α) :
    V.Does (emit a >>= f) s E ↔ V.Does (f ()) s fun ks o => E (V.outputs [a] ++ ks) o := by
  simp [Does, ← outputs_append]

@[simp] theorem does_pure_bind (b : β) (f : β → Prog σ ω α) :
    V.Does (pure b >>= f) s E ↔ V.Does (f b) s E := by
  simp [Does]

theorem does_congr {m n : Prog σ ω α} (h : m s = n s) : V.Does m s E ↔ V.Does n s E := by
  unfold Does wp
  rw [h]

theorem does_mono {m : Prog σ ω α} {E' : List ω → Outcome α κ → Prop} (h : V.Does m s E)
    (hE : ∀ ks o, E ks o → E' ks o) : V.Does m s E' :=
  wp_mono h (fun _ _ _ => hE _ _) (fun _ _ => hE _ _)

theorem does_of_forall {m : Prog σ ω α} (h : ∀ ks o, E ks o) : V.Does m s E := by
  unfold Does wp
  cases m s with
  | ok a s' l => exact h _ _
  | halt s' l => exact h _ _

/-- Two relations of one run have its outputs and its outcome in common. -/
theorem does_common {m : Prog σ ω α} {E' : List ω → Outcome α κ → Prop} (h : V.Does m s E)
    (h' : V.Does m s E') : ∃ ks o, E ks o ∧ E' ks o := by
  unfold Does wp at h h'
  cases hm : m s with
  | ok a s' l =>
      rw [hm] at h h'
      exact ⟨_, _, h, h'⟩
  | halt s' l =>
      rw [hm] at h h'
      exact ⟨_, _, h, h'⟩

/-- Sequencing, with what is known of the whole state after the first part. -/
theorem does_bind_wp {m : Prog σ ω β} {f : β → Prog σ ω α} {Q : β → σ → List ω → Prop}
    {R : List ω → Prop}
    (h : wp m (fun b s' l => Q b s' (V.outputs l)) (fun _ l => R (V.outputs l)) s)
    (hf : ∀ ks b s', Q b s' ks → V.Does (f b) s' fun ks' o => E (ks ++ ks') o)
    (hend : ∀ ks, R ks → E ks .ends) : V.Does (m >>= f) s E := by
  unfold Does at *
  rw [wp_bind]
  refine wp_mono h (fun b s' l h₁ => ?_) (fun s' l h₁ => hend _ h₁)
  simpa only [outputs_append] using hf _ b s' h₁

/-- Sequencing: what the second part does is added to each outcome of the first. -/
theorem does_bind {m : Prog σ ω β} {f : β → Prog σ ω α} {E₁ : List ω → Outcome β κ → Prop}
    (h : V.Does m s E₁)
    (hf : ∀ ks b c, E₁ ks (.goes b c) → ∀ s', V.state s' = c →
      V.Does (f b) s' fun ks' o => E (ks ++ ks') o)
    (hend : ∀ ks, E₁ ks .ends → E ks .ends) : V.Does (m >>= f) s E :=
  does_bind_wp (Q := fun b s' ks => E₁ ks (.goes b (V.state s'))) (R := fun ks => E₁ ks .ends) h
    (fun ks b s' h₁ => hf ks b _ h₁ s' rfl) hend

/-- A quiet first part may be judged in a view `W` that keeps more. -/
theorem does_bind_quiet_of {κ' : Type} {W : View σ ω κ'} {m : Prog σ ω β} {f : β → Prog σ ω α}
    (h : W.Quiet m) (hshows : W.shows = V.shows)
    (hf : ∀ b s', W.state s' = W.state s → V.Does (f b) s' E) : V.Does (m >>= f) s E := by
  have hout (l : List ω) : V.outputs l = W.outputs l := by rw [outputs, outputs, hshows]
  refine does_bind_wp (Q := fun _ s' ks => ks = [] ∧ W.state s' = W.state s) (R := fun _ => False)
    (wp_mono (h.does s) ?_ ?_) ?_ (fun _ h => h.elim)
  · rintro b s' l ⟨hl, a, ha⟩
    injection ha with _ hc
    exact ⟨(hout l).trans hl, hc⟩
  · rintro s' l ⟨-, a, ha⟩
    cases ha
  · rintro ks b s' ⟨rfl, hs⟩
    simpa using hf b s' hs

theorem does_bind_quiet {m : Prog σ ω β} {f : β → Prog σ ω α} (h : V.Quiet m)
    (hf : ∀ b s', V.state s' = V.state s → V.Does (f b) s' E) : V.Does (m >>= f) s E :=
  does_bind_quiet_of h rfl hf

end Rules

theorem quiet_pure (a : α) : V.Quiet (pure a) := ⟨fun _ => ⟨rfl, a, rfl⟩⟩

theorem quiet_read : V.Quiet (read : Prog σ ω σ) := ⟨fun s => ⟨rfl, s, rfl⟩⟩

theorem quiet_update {f : σ → σ} (h : ∀ s, V.state (f s) = V.state s) : V.Quiet (update f) :=
  ⟨fun s => ⟨rfl, (), congrArg _ (h s)⟩⟩

theorem quiet_emit {a : ω} (h : V.shows a = false) : V.Quiet (emit a) :=
  ⟨fun _ => ⟨outputs_hidden h, (), rfl⟩⟩

theorem quiet_bind {m : Prog σ ω β} {f : β → Prog σ ω α} (hm : V.Quiet m)
    (hf : ∀ b, V.Quiet (f b)) : V.Quiet (m >>= f) := by
  constructor
  intro s
  refine does_bind_quiet hm fun b s' hs => ?_
  rw [← hs]
  exact (hf b).does s'

/-- A quiet handler may depend on the state it finds. -/
theorem quiet_read_bind {f : σ → Prog σ ω α} (hf : ∀ s, V.Quiet (f s)) : V.Quiet (read >>= f) :=
  quiet_bind quiet_read hf

theorem quiet_ite {c : Prop} [Decidable c] {m n : Prog σ ω α} (hm : V.Quiet m) (hn : V.Quiet n) :
    V.Quiet (if c then m else n) := by
  split
  · exact hm
  · exact hn

theorem quiet_when {c : Prop} [Decidable c] {m : Prog σ ω Unit} (hm : V.Quiet m) :
    V.Quiet (when c m) :=
  quiet_ite hm (quiet_pure ())

theorem does_quiet {m : Prog σ ω Unit} (h : V.Quiet m) {s : σ} {E : List ω → Outcome Unit κ → Prop}
    (hE : E [] (.goes () (V.state s))) : V.Does m s E := by
  refine does_mono (h.does s) ?_
  rintro ks o ⟨rfl, ⟨⟩, rfl⟩
  exact hE

end View
end Reactive

import Wsupp.Reactive.Machine
import Wsupp.Reactive.Prog

/-!
# Handlers as paths of changes

Whatever a handler does is a path of single changes, each with its outputs. Once it
is known which changes there are, invariants and monitors are about one change, and
neither a handler nor the way it comes by its changes has to be looked at again.

`Treads` says that a handler, started in a state, leads along a path to wherever it
ends, with its outputs in a row. The rules are those of the text of a handler.
Changes are a relation between two states and the outputs in between, of any kind.
-/
namespace Reactive
variable {σ ω α β μ : Type}

theorem Monitor.run_append (D : Monitor ω μ) (m : μ) (as bs : List ω) : D.run m (as ++ bs) = D.run (D.run m as) bs := by
  induction as generalizing m with
  | nil => rfl
  | cons a as ih => exact ih (D.next m a)

/-- From `s` to `t` by changes along `M`, with their outputs in a row. -/
inductive Path (M : σ → List ω → σ → Prop) : σ → List ω → σ → Prop where
  | refl (s : σ) : Path M s [] s
  | step {s t u : σ} {k l : List ω} (h : M s k t) (hrest : Path M t l u) : Path M s (k ++ l) u

namespace Path
variable {M : σ → List ω → σ → Prop} {s t u : σ} {k l : List ω}

theorem single (h : M s k t) : Path M s k t := by
  have hstep := Path.step h (.refl t)
  rw [List.append_nil] at hstep
  exact hstep

theorem trans (h : Path M s k t) (h' : Path M t l u) : Path M s (k ++ l) u := by
  induction h with
  | refl => exact h'
  | step hM _ ih =>
      rw [List.append_assoc]
      exact .step hM (ih h')

theorem invariant {I : σ → Prop} (hM : ∀ s k t, I s → M s k t → I t) (h : Path M s l t) (hs : I s) : I t := by
  induction h with
  | refl => exact hs
  | step h _ ih => exact ih (hM _ _ _ hs h)

/-- A monitor that keeps up with the state through every change. -/
theorem monitored {D : Monitor ω μ} {J : μ → σ → Prop}
    (hM : ∀ m s k t, J m s → M s k t → D.Accepts m k ∧ J (D.run m k) t) (h : Path M s l t) {m : μ} (hs : J m s) :
    D.Accepts m l ∧ J (D.run m l) t := by
  induction h generalizing m with
  | refl => exact ⟨trivial, hs⟩
  | step h _ ih =>
      obtain ⟨haccepts, hnext⟩ := hM _ _ _ _ hs h
      obtain ⟨hrest, hlast⟩ := ih hnext
      rw [Monitor.accepts_append, Monitor.run_append]
      exact ⟨⟨haccepts, hrest⟩, hlast⟩

end Path

namespace Machine
variable {ε : Type} {D : Monitor ω μ} {N : Machine σ ε ω} {J : μ → σ → Prop}

/-- A monitor that keeps up with the state in every step does so over runs. -/
theorem monitored (hstep : ∀ m s e, J m s → N.enabled s e →
      D.Accepts m (N.step s e).2 ∧ J (D.run m (N.step s e).2) (N.step s e).1)
    {m : μ} {s : σ} {es : List ε} (hv : N.Valid s es) (hs : J m s) :
    D.Accepts m (N.outputs s es) ∧ J (D.run m (N.outputs s es)) (N.after s es) := by
  induction es generalizing m s with
  | nil => exact ⟨trivial, hs⟩
  | cons e es ih =>
      obtain ⟨haccepts, hnext⟩ := hstep m s e hs hv.1
      obtain ⟨hrest, hlast⟩ := ih hv.2 hnext
      rw [outputs, Monitor.accepts_append, Monitor.run_append]
      exact ⟨⟨haccepts, hrest⟩, hlast⟩

end Machine

namespace Prog

/-- From here the program goes along a path of changes, whether it comes back or not. -/
def Treads (M : σ → List ω → σ → Prop) (m : Prog σ ω α) (s : σ) : Prop :=
  wp m (fun _ t l => Path M s l t) (fun t l => Path M s l t) s

section Rules
variable {M : σ → List ω → σ → Prop} {m : Prog σ ω α} {f : α → Prog σ ω β} {s : σ}

theorem treads_pure (a : α) : Treads M (pure a : Prog σ ω α) s := .refl s

theorem treads_exit : Treads M (exit : Prog σ ω α) s := .refl s

theorem treads_update {g : σ → σ} (h : M s [] (g s)) : Treads M (update g) s := .single h

theorem treads_emit {a : ω} (h : M s [a] s) : Treads M (emit a) s := .single h

theorem treads_bind (hm : Treads M m s) (hf : ∀ a t, Treads M (f a) t) : Treads M (m >>= f) s := by
  unfold Treads at *
  rw [wp_bind]
  refine wp_mono hm ?_ fun t l h => h
  intro a t l hpath
  exact wp_mono (hf a t) (fun b u l' h => hpath.trans h) fun u l' h => hpath.trans h

theorem treads_read_bind {g : σ → Prog σ ω α} (h : Treads M (g s) s) : Treads M (read >>= g) s := by
  unfold Treads wp at *
  rw [read_bind]
  exact h

theorem treads_update_bind {g : σ → σ} {f : Unit → Prog σ ω β} (h : M s [] (g s)) (hf : Treads M (f ()) (g s)) :
    Treads M (update g >>= f) s := by
  unfold Treads at *
  rw [wp_bind, wp_update]
  exact wp_mono hf (fun b u l' hpath => .step h hpath) fun u l' hpath => .step h hpath

theorem treads_emit_bind {a : ω} {f : Unit → Prog σ ω β} (h : M s [a] s) (hf : Treads M (f ()) s) :
    Treads M (emit a >>= f) s := by
  unfold Treads at *
  rw [wp_bind, wp_emit]
  exact wp_mono hf (fun b u l' hpath => .step h hpath) fun u l' hpath => .step h hpath

theorem treads_ite {c : Prop} [Decidable c] {m n : Prog σ ω α} (hm : c → Treads M m s) (hn : ¬c → Treads M n s) :
    Treads M (if c then m else n) s := by
  split
  · next h => exact hm h
  · next h => exact hn h

end Rules
end Prog
end Reactive

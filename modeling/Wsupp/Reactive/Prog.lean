import Mathlib.Logic.Basic

/-!
# Handler programs with output and early exit

A handler of an event-driven process reads and writes one state, leaves a list of
outputs behind and may end the process in the middle. `Prog` is that kind of
program; `Prog.wp` says what holds after it, separately for a normal return and for
an exit. The rules compute `wp` by the structure of the program, so a proof about a
handler follows its text and cites one lemma for each callee.

Programs are functions, so they can be run on a state as well as reasoned about, and
two of them can be compared at one state. State, outputs and results are of any
type.
-/
namespace Reactive

universe u

/-- A handler either returns or ends the process. The outputs are its own: those
of the handlers called before it are not repeated. -/
inductive Res (σ ω α : Type) where
  | ok (a : α) (s : σ) (out : List ω)
  | halt (s : σ) (out : List ω)

def Prog (σ ω α : Type) := σ → Res σ ω α

variable {σ ω α β : Type}

/-- Outputs of a callee come after those already made. -/
def Res.after (l : List ω) : Res σ ω α → Res σ ω α
  | .ok a s out => .ok a s (l ++ out)
  | .halt s out => .halt s (l ++ out)

namespace Prog

def ret (a : α) : Prog σ ω α := fun s => .ok a s []

def andThen (m : Prog σ ω α) (f : α → Prog σ ω β) : Prog σ ω β := fun s =>
  match m s with
  | .ok a s' out => (f a s').after out
  | .halt s' out => .halt s' out

instance : Monad (Prog σ ω) where
  pure := ret
  bind := andThen

/-- The whole state, as the handler finds it. -/
def read : Prog σ ω σ := fun s => .ok s s []

def update (f : σ → σ) : Prog σ ω Unit := fun s => .ok () (f s) []

def emit (a : ω) : Prog σ ω Unit := fun s => .ok () s [a]

/-- The process ends here: nothing that was to follow runs. -/
def exit : Prog σ ω α := fun s => .halt s []

/-- A step taken only under a condition. -/
def when (c : Prop) [Decidable c] (m : Prog σ ω Unit) : Prog σ ω Unit := if c then m else pure ()

/-- `Q` after a normal return, `R` after an exit. -/
def wp (m : Prog σ ω α) (Q : α → σ → List ω → Prop) (R : σ → List ω → Prop) (s : σ) : Prop :=
  match m s with
  | .ok a s' out => Q a s' out
  | .halt s' out => R s' out

theorem read_bind (f : σ → Prog σ ω α) (s : σ) : (read >>= f) s = f s s := by
  change Res.after [] (f s s) = f s s
  cases f s s <;> rfl

variable {Q Q' : α → σ → List ω → Prop} {R R' : σ → List ω → Prop} {s : σ}

@[simp] theorem wp_pure (a : α) : wp (pure a : Prog σ ω α) Q R s ↔ Q a s [] := Iff.rfl

@[simp] theorem wp_read {Q : σ → σ → List ω → Prop} :
    wp (read : Prog σ ω σ) Q R s ↔ Q s s [] := Iff.rfl

@[simp] theorem wp_update {Q : Unit → σ → List ω → Prop} (f : σ → σ) :
    wp (update f : Prog σ ω Unit) Q R s ↔ Q () (f s) [] := Iff.rfl

@[simp] theorem wp_emit {Q : Unit → σ → List ω → Prop} (a : ω) :
    wp (emit a : Prog σ ω Unit) Q R s ↔ Q () s [a] := Iff.rfl

@[simp] theorem wp_exit : wp (exit : Prog σ ω α) Q R s ↔ R s [] := Iff.rfl

/-- Sequencing: the continuation is judged on the outputs of both parts. -/
@[simp] theorem wp_bind (m : Prog σ ω α) (f : α → Prog σ ω β) {Q : β → σ → List ω → Prop} :
    wp (m >>= f) Q R s ↔
      wp m (fun a s₁ l₁ => wp (f a) (fun b s₂ l₂ => Q b s₂ (l₁ ++ l₂))
        (fun s₂ l₂ => R s₂ (l₁ ++ l₂)) s₁) R s := by
  change wp (andThen m f) Q R s ↔ _
  unfold wp andThen
  cases m s with
  | ok a s₁ l₁ =>
      dsimp only
      cases f a s₁ <;> rfl
  | halt s₁ l₁ => rfl

theorem wp_mono {m : Prog σ ω α} (h : wp m Q R s)
    (hQ : ∀ a s' l, Q a s' l → Q' a s' l) (hR : ∀ s' l, R s' l → R' s' l) : wp m Q' R' s := by
  unfold wp at *
  cases hm : m s with
  | ok a s' l => rw [hm] at h; exact hQ a s' l h
  | halt s' l => rw [hm] at h; exact hR s' l h

/-- A program that does not end the process comes back. -/
theorem wp_returns {m : Prog σ ω α} (h : wp m Q (fun _ _ => False) s) :
    ∃ a s' l, m s = .ok a s' l ∧ Q a s' l := by
  unfold wp at h
  cases hm : m s with
  | ok a s' l =>
      rw [hm] at h
      exact ⟨a, s', l, rfl, h⟩
  | halt s' l =>
      rw [hm] at h
      exact h.elim

theorem wp_of_ok {m : Prog σ ω α} {a : α} {s' : σ} {l : List ω} (h : m s = .ok a s' l) :
    wp m Q R s ↔ Q a s' l := by
  unfold wp
  rw [h]

theorem wp_of_after {m n : Prog σ ω α} {s' : σ} {l : List ω} (h : m s = (n s').after l) :
    wp m Q R s ↔ wp n (fun a t l' => Q a t (l ++ l')) (fun t l' => R t (l ++ l')) s' := by
  unfold wp
  rw [h]
  cases n s' <;> rfl

theorem bind_of_ok {m : Prog σ ω α} {f : α → Prog σ ω β} {a : α} {s' : σ} {l : List ω}
    (h : m s = .ok a s' l) : (m >>= f) s = (f a s').after l := by
  change andThen m f s = _
  unfold andThen
  rw [h]

theorem bind_of_halt {m : Prog σ ω α} {f : α → Prog σ ω β} {s' : σ} {l : List ω}
    (h : m s = .halt s' l) : (m >>= f) s = .halt s' l := by
  change andThen m f s = _
  unfold andThen
  rw [h]

/-- A first part that has come back with nothing to show. -/
theorem bind_of_silent {m : Prog σ ω α} {f : α → Prog σ ω β} {a : α} {s' : σ}
    (h : m s = .ok a s' []) : (m >>= f) s = f a s' := by
  rw [bind_of_ok h]
  cases f a s' <;> rfl

theorem bind_congr_at {m n : Prog σ ω α} {f : α → Prog σ ω β} (h : m s = n s) :
    (m >>= f) s = (n >>= f) s := by
  change andThen m f s = andThen n f s
  unfold andThen
  rw [h]

theorem bind_of_after {m n : Prog σ ω α} {f : α → Prog σ ω β} {s' : σ} {l : List ω}
    (h : m s = (n s').after l) : (m >>= f) s = ((n >>= f) s').after l := by
  change andThen m f s = (andThen n f s').after l
  unfold andThen
  rw [h]
  cases n s' with
  | halt s'' l' => rfl
  | ok a s'' l' =>
      simp only [Res.after]
      cases f a s'' <;> simp

theorem update_bind (g : σ → σ) (f : Unit → Prog σ ω β) (s : σ) : (update g >>= f) s = f () (g s) :=
  bind_of_silent rfl

theorem bind_assoc_at (m : Prog σ ω α) {β γ : Type} (f : α → Prog σ ω β) (g : β → Prog σ ω γ) (s : σ) :
    ((m >>= f) >>= g) s = (m >>= fun a => f a >>= g) s := by
  change andThen (andThen m f) g s = andThen m (fun a => andThen (f a) g) s
  unfold andThen
  cases m s with
  | halt s' l => rfl
  | ok a s' l =>
      dsimp only
      cases f a s' with
      | halt s' l' => rfl
      | ok b s'' l' =>
          simp only [Res.after]
          cases g b s'' <;> simp

theorem wp_ok {m : Prog σ ω α} (h : wp m Q R s) {a : α} {s' : σ} {l : List ω}
    (hm : m s = .ok a s' l) : Q a s' l := by
  unfold wp at h
  rwa [hm] at h

end Prog
end Reactive

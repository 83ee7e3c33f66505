import Mathlib.Logic.Relation
import Wsupp.Reactive.View

/-!
# Handlers that move a view

What most handlers do to the part of the state that is kept is a sequence of small
moves. A handler that moves shows nothing meanwhile; one that closes may show a
single output in the end, in a state that fits it. With no moves allowed the kept
part stays as it is.

The moves are a relation of any kind on the kept part, and the rules compose them
along the text of a handler. So a lemma about a handler says which moves it makes up
to and is put together from those of the handlers it calls.
-/
namespace Reactive
namespace View
open Prog Relation
variable {σ ω κ α β : Type} (V : View σ ω κ) (M M' : κ → κ → Prop) (P : α → κ → ω → Prop)

/-- From `c`, moves along `M` and nothing shown. -/
def Moving (c : κ) (ks : List ω) (o : Outcome α κ) : Prop := ks = [] ∧ o.Returns (ReflTransGen M c)

/-- After the moves there may be an output, which `P` has of it and of what is
returned. -/
def Closing (c : κ) (ks : List ω) (o : Outcome α κ) : Prop :=
  Moving M c ks o ∨ ∃ a x c', ks = [a] ∧ o = .goes x c' ∧ ReflTransGen M c c' ∧ P x c' a

def MovesFrom (m : Prog σ ω α) (s : σ) : Prop := V.Does m s (Moving M (V.state s))

def Moves (m : Prog σ ω α) : Prop := ∀ s, V.MovesFrom M m s

def ClosesFrom (m : Prog σ ω α) (s : σ) : Prop := V.Does m s (Closing M P (V.state s))

def Closes (m : Prog σ ω α) : Prop := ∀ s, V.ClosesFrom M P m s

def stay (_ _ : κ) : Prop := False

variable {V M M' P}

theorem stays_eq {c c' : κ} (h : ReflTransGen stay c c') : c' = c := by
  induction h with
  | refl => rfl
  | tail _ h _ => exact h.elim

theorem Moving.after {c c' : κ} {ks : List ω} {o : Outcome α κ} (h : ReflTransGen M c c')
    (ho : Moving M c' ks o) : Moving M c ks o := by
  refine ⟨ho.1, ?_⟩
  cases o with
  | ends => trivial
  | goes a d => exact h.trans ho.2

theorem Closing.after {c c' : κ} {ks : List ω} {o : Outcome α κ} (h : ReflTransGen M c c')
    (ho : Closing M P c' ks o) : Closing M P c ks o := by
  rcases ho with ho | ⟨a, x, d, rfl, rfl, hd, hP⟩
  · exact .inl (ho.after h)
  · exact .inr ⟨a, x, d, rfl, rfl, h.trans hd, hP⟩

section Rules
variable {m : Prog σ ω α} {f : α → Prog σ ω β} {Q : β → κ → ω → Prop} {s : σ}

theorem moves_pure (a : α) : V.Moves M (pure a : Prog σ ω α) := fun _ => ⟨rfl, .refl⟩

theorem moves_exit : V.Moves M (exit : Prog σ ω α) := fun _ => ⟨rfl, trivial⟩

theorem moves_emit {a : ω} (h : V.shows a = false) : V.Moves M (emit a) :=
  fun _ => ⟨outputs_hidden h, .refl⟩

theorem moves_keep {g : σ → σ} (h : ∀ s, V.state (g s) = V.state s) : V.Moves M (update g) :=
  fun s => ⟨rfl, by rw [h]; exact .refl⟩

theorem moves_update {g : σ → σ} (h : ∀ s, M (V.state s) (V.state (g s))) : V.Moves M (update g) :=
  fun s => ⟨rfl, .single (h s)⟩

theorem MovesFrom.mono (hM : ∀ c c', M c c' → M' c c') (h : V.MovesFrom M m s) :
    V.MovesFrom M' m s := by
  refine does_mono h fun ks o ho => ⟨ho.1, ?_⟩
  cases o with
  | ends => trivial
  | goes a c => exact ReflTransGen.mono hM _ _ ho.2

theorem Moves.mono (hM : ∀ c c', M c c' → M' c c') (h : V.Moves M m) : V.Moves M' m :=
  fun s => (h s).mono hM

/-- What leaves everything as it is may stand wherever there are moves. -/
theorem Moves.of_stay (h : V.Moves stay m) : V.Moves M m := h.mono fun _ _ => False.elim

theorem Quiet.moves (h : V.Quiet m) : V.Moves M m := by
  intro s
  refine does_mono (h.does s) ?_
  rintro ks o ⟨rfl, a, rfl⟩
  exact ⟨rfl, .refl⟩

theorem MovesFrom.bind (hm : V.MovesFrom M m s)
    (hf : ∀ a s', ReflTransGen M (V.state s) (V.state s') → V.MovesFrom M (f a) s') :
    V.MovesFrom M (m >>= f) s := by
  refine does_bind hm ?_ ?_
  · rintro ks a c ⟨rfl, hc⟩ s' rfl
    exact does_mono (hf a s' hc) fun ks o ho => ho.after hc
  · rintro ks ⟨rfl, -⟩
    exact ⟨rfl, trivial⟩

theorem moves_bind (hm : V.Moves M m) (hf : ∀ a, V.Moves M (f a)) : V.Moves M (m >>= f) :=
  fun s => (hm s).bind fun a s' _ => hf a s'

theorem movesFrom_read_bind {g : σ → Prog σ ω α} : V.MovesFrom M (read >>= g) s ↔
    V.MovesFrom M (g s) s := by
  unfold MovesFrom
  rw [does_read_bind]

theorem moves_read_bind {g : σ → Prog σ ω α} (h : ∀ s, V.MovesFrom M (g s) s) :
    V.Moves M (read >>= g) :=
  fun s => movesFrom_read_bind.mpr (h s)

theorem moves_read {g : σ → Prog σ ω α} (h : ∀ s, V.Moves M (g s)) : V.Moves M (read >>= g) :=
  moves_read_bind fun s => h s s

theorem moves_ite {c : Prop} [Decidable c] {m n : Prog σ ω α} (hm : V.Moves M m)
    (hn : V.Moves M n) : V.Moves M (if c then m else n) := by
  split
  · exact hm
  · exact hn

theorem moves_when {c : Prop} [Decidable c] {m : Prog σ ω Unit} (hm : V.Moves M m) :
    V.Moves M (when c m) :=
  moves_ite hm (moves_pure ())

theorem MovesFrom.closes (h : V.MovesFrom M m s) : V.ClosesFrom M P m s :=
  does_mono h fun _ _ ho => .inl ho

theorem Moves.closes (h : V.Moves M m) : V.Closes M P m := fun s => (h s).closes

theorem MovesFrom.bind_closes (hm : V.MovesFrom M m s)
    (hf : ∀ a s', ReflTransGen M (V.state s) (V.state s') → V.ClosesFrom M Q (f a) s') :
    V.ClosesFrom M Q (m >>= f) s := by
  refine does_bind hm ?_ ?_
  · rintro ks a c ⟨rfl, hc⟩ s' rfl
    exact does_mono (hf a s' hc) fun ks o ho => ho.after hc
  · rintro ks ⟨rfl, -⟩
    exact .inl ⟨rfl, trivial⟩

theorem Moves.does_bind {E : List ω → Outcome β κ → Prop} (hm : V.Moves stay m)
    (hend : E [] .ends) (hf : ∀ a s', V.state s' = V.state s → V.Does (f a) s' E) :
    V.Does (m >>= f) s E := by
  refine View.does_bind (hm s) ?_ ?_
  · rintro ks a c ⟨rfl, hc⟩ s' rfl
    exact hf a s' (stays_eq hc)
  · rintro ks ⟨rfl, -⟩
    exact hend

theorem Moves.bind_closes_stay (hm : V.Moves stay m)
    (hf : ∀ a s', V.state s' = V.state s → V.ClosesFrom M Q (f a) s') :
    V.ClosesFrom M Q (m >>= f) s := by
  refine hm.does_bind (.inl ⟨rfl, trivial⟩) fun a s' hs' => ?_
  have hclose := hf a s' hs'
  unfold ClosesFrom at hclose
  rwa [hs'] at hclose

/-- The second part goes on if nothing has been shown, and otherwise only has to
come to an end. -/
theorem ClosesFrom.bind (hm : V.ClosesFrom M P m s)
    (hf : ∀ a s', ReflTransGen M (V.state s) (V.state s') → V.ClosesFrom M Q (f a) s')
    (hend : ∀ a s' x, P a (V.state s') x → V.Does (f a) s' fun ks o =>
      ks = [] ∧ ∃ b, o = .goes b (V.state s') ∧ Q b (V.state s') x) :
    V.ClosesFrom M Q (m >>= f) s := by
  refine does_bind hm ?_ ?_
  · rintro ks a c (⟨rfl, hc⟩ | ⟨x, a, c, rfl, ⟨⟩, hc, hP⟩) s' rfl
    · exact does_mono (hf a s' hc) fun ks o ho => ho.after hc
    · refine does_mono (hend a s' x hP) ?_
      rintro ks o ⟨rfl, b, rfl, hQ⟩
      exact .inr ⟨x, b, _, rfl, rfl, hc, hQ⟩
  · rintro ks (⟨rfl, -⟩ | ⟨-, -, -, -, ⟨⟩, -⟩)
    exact .inl ⟨rfl, trivial⟩

theorem ClosesFrom.bind_quiet (hm : V.ClosesFrom M P m s) (hf : ∀ a, V.Quiet (f a))
    (hQ : ∀ a b c x, P a c x → Q b c x) : V.ClosesFrom M Q (m >>= f) s := by
  refine hm.bind (fun a s' _ => ((hf a).moves s').closes) fun a s' x hP => ?_
  refine does_mono ((hf a).does s') ?_
  rintro ks o ⟨rfl, b, rfl⟩
  exact ⟨rfl, b, rfl, hQ a b _ x hP⟩

theorem closesFrom_read_bind {g : σ → Prog σ ω α} : V.ClosesFrom M P (read >>= g) s ↔
    V.ClosesFrom M P (g s) s := by
  unfold ClosesFrom
  rw [does_read_bind]

end Rules
end View
end Reactive

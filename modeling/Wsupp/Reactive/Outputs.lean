import Mathlib.Data.List.Forall2
import Wsupp.Reactive.Prog

/-!
# What a program puts out

A program that is told in other words: each of its outputs is one of the deeds of a
list, in the same order. The rules follow the text of the program from its start, so
that what comes after a call is known together with what the call gave.

Deeds are of any type, with a relation that says which output is one of which deed.
This suits programs that are run to their end and of which only the outputs count,
such as a tool for the command line; what the state is in between does not appear in
a result.
-/
namespace Reactive
variable {σ ω α β γ δ : Type}

def Res.out : Res σ ω α → List ω
  | .ok _ _ out | .halt _ out => out

theorem Res.out_after (l : List ω) (r : Res σ ω α) : (r.after l).out = l ++ r.out := by
  cases r with
  | ok a s out => rfl
  | halt s out => rfl

namespace Prog

/-- From here the outputs are these deeds. -/
def Performs (Of : δ → ω → Prop) (m : Prog σ ω α) (s : σ) (ds : List δ) : Prop := List.Forall₂ Of ds (m s).out

section Rules
variable {Of : δ → ω → Prop} {s : σ} {d : δ} {ds : List δ}

theorem performs_pure (a : α) : Performs Of (pure a) s [] := .nil

theorem performs_read {f : σ → Prog σ ω α} (h : Performs Of (f s) s ds) : Performs Of (read >>= f) s ds := by
  unfold Performs at *
  rw [read_bind]
  exact h

theorem performs_update {g : σ → σ} {f : Unit → Prog σ ω α} (h : Performs Of (f ()) (g s) ds) :
    Performs Of (update g >>= f) s ds := by
  unfold Performs at *
  rw [update_bind]
  exact h

theorem performs_after {m : Prog σ ω α} {f : α → Prog σ ω β} {a : α} {t : σ} {l : List ω} {ds' : List δ}
    (hm : m s = .ok a t l) (hl : List.Forall₂ Of ds' l) (h : Performs Of (f a) t ds) :
    Performs Of (m >>= f) s (ds' ++ ds) := by
  unfold Performs at *
  rw [bind_of_ok hm, Res.out_after]
  exact List.rel_append hl h

theorem performs_emit {a : ω} {f : Unit → Prog σ ω α} (ha : Of d a) (h : Performs Of (f ()) s ds) :
    Performs Of (emit a >>= f) s (d :: ds) :=
  performs_after (rfl : (emit a : Prog σ ω Unit) s = .ok () s [a]) (.cons ha .nil) h

theorem performs_silent {m : Prog σ ω α} {f : α → Prog σ ω β} {a : α} {t : σ} (hm : m s = .ok a t [])
    (h : Performs Of (f a) t ds) : Performs Of (m >>= f) s ds :=
  performs_after hm .nil h

theorem performs_value {a : α} {f : α → Prog σ ω β} (h : Performs Of (f a) s ds) : Performs Of (pure a >>= f) s ds :=
  performs_silent (rfl : (pure a : Prog σ ω α) s = .ok a s []) h

theorem performs_assoc {m : Prog σ ω α} {f : α → Prog σ ω β} {g : β → Prog σ ω γ}
    (h : Performs Of (m >>= fun a => f a >>= g) s ds) : Performs Of ((m >>= f) >>= g) s ds := by
  unfold Performs at *
  rw [bind_assoc_at]
  exact h

theorem performs_last {m : Prog σ ω α} (h : Performs Of (m >>= pure) s ds) : Performs Of m s ds := by
  unfold Performs at *
  cases hm : m s with
  | ok a t l =>
      have hback : (pure a : Prog σ ω α) t = .ok a t [] := rfl
      rw [bind_of_ok hm, Res.out_after, hback, Res.out, List.append_nil] at h
      exact h
  | halt t l =>
      rw [bind_of_halt hm] at h
      exact h

theorem performs_exits {f : α → Prog σ ω β} : Performs Of ((exit : Prog σ ω α) >>= f) s [] := by
  unfold Performs
  rw [bind_of_halt (rfl : (exit : Prog σ ω α) s = .halt s [])]
  exact .nil

section Ite
variable {c : Prop} [Decidable c] {m n : Prog σ ω α} {ds' : List δ}

theorem performs_ite (hm : c → Performs Of m s ds) (hn : ¬c → Performs Of n s ds') :
    Performs Of (if c then m else n) s (if c then ds else ds') := by
  by_cases h : c
  · rw [if_pos h, if_pos h]
    exact hm h
  · rw [if_neg h, if_neg h]
    exact hn h

theorem performs_ite_bind {f : α → Prog σ ω β} (hm : c → Performs Of (m >>= f) s ds) (hn : ¬c → Performs Of (n >>= f) s ds') :
    Performs Of ((if c then m else n) >>= f) s (if c then ds else ds') := by
  by_cases h : c
  · rw [if_pos h, if_pos h]
    exact hm h
  · rw [if_neg h, if_neg h]
    exact hn h

end Ite

end Rules
end Prog
end Reactive

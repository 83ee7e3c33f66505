import Wsupp.Reactive.Machine

/-!
# Simulation of machines

One machine does in a step what another one does in several, or in none. As far as
`obs` shows, both put out the same; what holds of all reachable states of the second
one then holds, by the relation, of those of the first.

`Follows` is the obligation for one step: events of the second machine, valid from
the related state, that lead to a related state with the same outputs shown. From it
the rules get whole runs and reachable states. The relation is any relation between
the states of the two machines.
-/
namespace Reactive
namespace Machine
variable {σ ε σ' ε' ω : Type}

theorem outputs_append {M : Machine σ ε ω} (s : σ) (es fs : List ε) :
    M.outputs s (es ++ fs) = M.outputs s es ++ M.outputs (M.after s es) fs := by
  induction es generalizing s with
  | nil => rfl
  | cons e es ih =>
      rw [List.cons_append, outputs, outputs, ih, List.append_assoc]
      rfl

/-- What `M` does in a step, `N` does in some run: valid events lead it to a state that
is related again, and what is shown of the outputs is the same. -/
def Follows (N : Machine σ' ε' ω) (obs : ω → Bool) (R : σ → σ' → Prop) (s' : σ') (s : σ) (out : List ω) : Prop :=
  ∃ es, N.Valid s' es ∧ R s (N.after s' es) ∧ (N.outputs s' es).filter obs = out.filter obs

def Simulates (M : Machine σ ε ω) (N : Machine σ' ε' ω) (obs : ω → Bool) (R : σ → σ' → Prop) : Prop :=
  ∀ s s' e, R s s' → M.enabled s e → N.Follows obs R s' (M.step s e).1 (M.step s e).2

variable {M : Machine σ ε ω} {N : Machine σ' ε' ω} {obs : ω → Bool} {R : σ → σ' → Prop} {s : σ} {s' : σ'}

theorem Follows.refl (h : R s s') : N.Follows obs R s' s [] := ⟨[], trivial, h, rfl⟩

theorem Follows.after {es : List ε'} {out : List ω} (hv : N.Valid s' es)
    (h : N.Follows obs R (N.after s' es) s out) : N.Follows obs R s' s (N.outputs s' es ++ out) := by
  obtain ⟨fs, hfs, hR, hout⟩ := h
  refine ⟨es ++ fs, (valid_append ..).mpr ⟨hv, hfs⟩, ?_, ?_⟩
  · rw [after_append]
    exact hR
  · rw [outputs_append, List.filter_append, hout, List.filter_append]

theorem Follows.step {e : ε'} {out : List ω} (he : N.enabled s' e)
    (h : N.Follows obs R (N.step s' e).1 s out) : N.Follows obs R s' s ((N.step s' e).2 ++ out) := by
  have hvalid : N.Valid s' [e] := ⟨he, trivial⟩
  have hafter := Follows.after hvalid h
  rw [outputs, outputs, List.append_nil] at hafter
  exact hafter

theorem Simulates.run (h : M.Simulates N obs R) (hR : R s s') {es : List ε} (hv : M.Valid s es) :
    N.Follows obs R s' (M.after s es) (M.outputs s es) := by
  induction es generalizing s s' with
  | nil => exact .refl hR
  | cons e es ih =>
      obtain ⟨fs, hfs, hnext, hout⟩ := h s s' e hR hv.1
      obtain ⟨gs, hgs, hlast, hrest⟩ := ih hnext hv.2
      refine ⟨fs ++ gs, (valid_append ..).mpr ⟨hfs, hgs⟩, ?_, ?_⟩
      · rw [after_append]
        exact hlast
      · rw [outputs_append, outputs, List.filter_append, List.filter_append, hout, hrest]

theorem Simulates.reachable (h : M.Simulates N obs R) {init : σ → Prop} {init' : σ' → Prop}
    (hinit : ∀ s, init s → ∃ s', init' s' ∧ R s s') (hs : M.Reachable init s) :
    ∃ s', N.Reachable init' s' ∧ R s s' := by
  obtain ⟨s₀, es, h₀, hv, rfl⟩ := hs
  obtain ⟨s₀', h₀', hR⟩ := hinit s₀ h₀
  obtain ⟨fs, hfs, hlast, -⟩ := h.run hR hv
  exact ⟨N.after s₀' fs, ⟨s₀', fs, h₀', hfs, rfl⟩, hlast⟩

end Machine
end Reactive

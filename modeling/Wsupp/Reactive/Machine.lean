import Mathlib.Data.List.Basic

/-!
# Runs of an event-driven machine

A machine takes one enabled event at a time and leaves a list of outputs. A run is
the list of its events; `after`, `outputs`, `Always` and `Every` read the final
state, the outputs, the visited states and the steps off that list. The rules turn
what one step preserves into what a whole run preserves, in the plain form, under a
condition on the steps, and in the exact form in which the condition on the steps
and the property of the states say the same.

A record may be kept beside the machine without being seen by it, and a monitor
reads the outputs one by one, with a condition on which output its state allows.
States, events and outputs are of any type.
-/
namespace Reactive

structure Machine (σ ε ω : Type) where
  enabled : σ → ε → Prop
  step : σ → ε → σ × List ω

namespace Machine
variable {σ ε ω : Type} (M : Machine σ ε ω)

def after (s : σ) : List ε → σ
  | [] => s
  | e :: es => after (M.step s e).1 es

/-- Everything a run puts out, in order. -/
def outputs (s : σ) : List ε → List ω
  | [] => []
  | e :: es => (M.step s e).2 ++ outputs (M.step s e).1 es

/-- Each event of the run is enabled when it is taken. -/
def Valid (s : σ) : List ε → Prop
  | [] => True
  | e :: es => M.enabled s e ∧ Valid (M.step s e).1 es

/-- `C` holds of every step of the run: of the state before it and its event. -/
def Every (C : σ → ε → Prop) (s : σ) : List ε → Prop
  | [] => True
  | e :: es => C s e ∧ Every C (M.step s e).1 es

/-- `P` holds of every state the run visits, the first and the last included. -/
def Always (P : σ → Prop) (s : σ) : List ε → Prop
  | [] => P s
  | e :: es => P s ∧ Always P (M.step s e).1 es

/-- What some run from an initial state ends in. -/
def Reachable (init : σ → Prop) (s : σ) : Prop :=
  ∃ s₀ es, init s₀ ∧ M.Valid s₀ es ∧ M.after s₀ es = s

instance decidableValid [∀ s e, Decidable (M.enabled s e)] (s : σ) (es : List ε) :
    Decidable (M.Valid s es) :=
  match es with
  | [] => .isTrue trivial
  | e :: es =>
      haveI := decidableValid (M.step s e).1 es
      inferInstanceAs (Decidable (_ ∧ _))

instance decidableEvery (C : σ → ε → Prop) [∀ s e, Decidable (C s e)] (s : σ) (es : List ε) :
    Decidable (M.Every C s es) :=
  match es with
  | [] => .isTrue trivial
  | e :: es =>
      haveI := decidableEvery C (M.step s e).1 es
      inferInstanceAs (Decidable (_ ∧ _))

instance decidableAlways (P : σ → Prop) [∀ s, Decidable (P s)] (s : σ) (es : List ε) :
    Decidable (M.Always P s es) :=
  match es with
  | [] => inferInstanceAs (Decidable (P s))
  | e :: es =>
      haveI := decidableAlways P (M.step s e).1 es
      inferInstanceAs (Decidable (_ ∧ _))

variable {M}

theorem after_append (s : σ) (es fs : List ε) :
    M.after s (es ++ fs) = M.after (M.after s es) fs := by
  induction es generalizing s with
  | nil => rfl
  | cons e es ih => exact ih _

theorem valid_append (s : σ) (es fs : List ε) :
    M.Valid s (es ++ fs) ↔ M.Valid s es ∧ M.Valid (M.after s es) fs := by
  induction es generalizing s with
  | nil => simp only [List.nil_append, Valid, after, true_and]
  | cons e es ih => simp only [List.cons_append, Valid, after, ih, and_assoc]

section Run
variable {I P Q : σ → Prop} {C : σ → ε → Prop} {init : σ → Prop}

theorem Reachable.after {s : σ} (h : M.Reachable init s) {es : List ε} (hv : M.Valid s es) :
    M.Reachable init (M.after s es) := by
  obtain ⟨s₀, fs, h₀, hf, rfl⟩ := h
  exact ⟨s₀, fs ++ es, h₀, (valid_append ..).mpr ⟨hf, hv⟩, after_append ..⟩

theorem Reachable.step {s : σ} (h : M.Reachable init s) {e : ε} (he : M.enabled s e) :
    M.Reachable init (M.step s e).1 := by
  have hv : M.Valid s [e] := ⟨he, trivial⟩
  exact h.after hv

/-- A property kept by every step holds throughout a run. -/
theorem always_of_step (hstep : ∀ s e, I s → M.enabled s e → I (M.step s e).1)
    {s : σ} (hs : I s) {es : List ε} (hv : M.Valid s es) : M.Always I s es := by
  induction es generalizing s with
  | nil => exact hs
  | cons e es ih => exact ⟨hs, ih (hstep s e hs hv.1) hv.2⟩

/-- A property kept by the steps that meet `C` holds throughout a run whose
steps all meet `C`. -/
theorem always_of_every (hstep : ∀ s e, I s → M.enabled s e → C s e → I (M.step s e).1)
    {s : σ} (hs : I s) {es : List ε} (hv : M.Valid s es) (hc : M.Every C s es) :
    M.Always I s es := by
  induction es generalizing s with
  | nil => exact hs
  | cons e es ih => exact ⟨hs, ih (hstep s e hs hv.1 hc.1) hv.2 hc.2⟩

theorem Always.mono (h : ∀ s, I s → P s) {s : σ} {es : List ε} (ha : M.Always I s es) :
    M.Always P s es := by
  induction es generalizing s with
  | nil => exact h s ha
  | cons e es ih => exact ⟨h s ha.1, ih ha.2⟩

/-- Where the invariant holds throughout, properties it makes the same are the same. -/
theorem Always.congr (h : ∀ s, I s → (P s ↔ Q s)) {s : σ} {es : List ε} (ha : M.Always I s es) :
    M.Always P s es ↔ M.Always Q s es := by
  induction es generalizing s with
  | nil => exact h s ha
  | cons e es ih => exact and_congr (h s ha.1) (ih ha.2)

theorem Always.head {s : σ} {es : List ε} (h : M.Always P s es) : P s := by
  cases es with
  | nil => exact h
  | cons e es => exact h.1

theorem Always.last {s : σ} {es : List ε} (h : M.Always P s es) : P (M.after s es) := by
  induction es generalizing s with
  | nil => exact h
  | cons e es ih => exact ih h.2

theorem Reachable.invariant (hinit : ∀ s, init s → I s)
    (hstep : ∀ s e, I s → M.enabled s e → I (M.step s e).1)
    {s : σ} (h : M.Reachable init s) : I s := by
  obtain ⟨s₀, es, h₀, hv, rfl⟩ := h
  exact (always_of_step hstep (hinit s₀ h₀) hv).last

/-- Where a step keeps `P` exactly if it meets `C`, a run stays in `P` exactly
if all its steps meet `C`: the first step that does not is the one that leaves. -/
theorem always_iff_every (hI : ∀ s e, I s → M.enabled s e → I (M.step s e).1)
    (hP : ∀ s e, I s → P s → M.enabled s e → (P (M.step s e).1 ↔ C s e))
    {s : σ} (hs : I s) (hp : P s) {es : List ε} (hv : M.Valid s es) :
    M.Always P s es ↔ M.Every C s es := by
  induction es generalizing s with
  | nil => exact ⟨fun _ => trivial, fun _ => hp⟩
  | cons e es ih =>
      have hnext := hP s e hs hp hv.1
      constructor
      · intro h
        have hp' := h.2.head
        exact ⟨hnext.mp hp', (ih (hI s e hs hv.1) hp' hv.2).mp h.2⟩
      · intro h
        have hp' := hnext.mpr h.1
        exact ⟨hp, (ih (hI s e hs hv.1) hp' hv.2).mpr h.2⟩

/-- Where the steps that meet `C` keep an invariant that implies `P`, and any other
step leaves `P`, the same holds. -/
theorem always_iff_every_of_inv (hP : ∀ s, I s → P s)
    (hkeep : ∀ s e, I s → M.enabled s e → C s e → I (M.step s e).1)
    (hleave : ∀ s e, I s → M.enabled s e → ¬ C s e → ¬ P (M.step s e).1)
    {s : σ} (hs : I s) {es : List ε} (hv : M.Valid s es) :
    M.Always P s es ↔ M.Every C s es := by
  induction es generalizing s with
  | nil => exact ⟨fun _ => trivial, fun _ => hP s hs⟩
  | cons e es ih =>
      constructor
      · intro h
        have hc : C s e := by
          by_contra hnot
          exact hleave s e hs hv.1 hnot h.2.head
        exact ⟨hc, (ih (hkeep s e hs hv.1 hc) hv.2).mp h.2⟩
      · intro h
        exact ⟨hP s hs, (ih (hkeep s e hs hv.1 h.1) hv.2).mpr h.2⟩

/-- A condition met by every step from the invariant is met along every run. -/
theorem every_of_step (hI : ∀ s e, I s → M.enabled s e → I (M.step s e).1)
    (h : ∀ s e, I s → M.enabled s e → C s e) {s : σ} (hs : I s) {es : List ε} (hv : M.Valid s es) :
    M.Every C s es := by
  induction es generalizing s with
  | nil => trivial
  | cons e es ih => exact ⟨h s e hs hv.1, ih (hI s e hs hv.1) hv.2⟩

/-- The steps that meet `C` keep the invariant and meet `D`. -/
theorem Every.imp {D : σ → ε → Prop} (hI : ∀ s e, I s → M.enabled s e → C s e → I (M.step s e).1)
    (h : ∀ s e, I s → M.enabled s e → C s e → D s e) {s : σ} (hs : I s) {es : List ε}
    (hv : M.Valid s es) (hc : M.Every C s es) : M.Every D s es := by
  induction es generalizing s with
  | nil => trivial
  | cons e es ih => exact ⟨h s e hs hv.1 hc.1, ih (hI s e hs hv.1 hc.1) hv.2 hc.2⟩

theorem every_iff {D : σ → ε → Prop} (h : ∀ s e, C s e ↔ D s e) (s : σ) (es : List ε) :
    M.Every C s es ↔ M.Every D s es := by
  induction es generalizing s with
  | nil => exact Iff.rfl
  | cons e es ih => exact and_congr (h s e) (ih _)

/-- Conditions that say the same where the steps that meet them lead, in a run whose steps
meet `U`. -/
theorem every_congr_of {D U : σ → ε → Prop}
    (hI : ∀ s e, I s → M.enabled s e → U s e → C s e → I (M.step s e).1)
    (h : ∀ s e, I s → M.enabled s e → U s e → (C s e ↔ D s e))
    {s : σ} (hs : I s) {es : List ε} (hv : M.Valid s es) (hu : M.Every U s es) :
    M.Every C s es ↔ M.Every D s es := by
  induction es generalizing s with
  | nil => exact Iff.rfl
  | cons e es ih =>
      have hstep := h s e hs hv.1 hu.1
      constructor
      · intro ⟨hc, hrest⟩
        exact ⟨hstep.mp hc, (ih (hI s e hs hv.1 hu.1 hc) hv.2 hu.2).mp hrest⟩
      · intro ⟨hd, hrest⟩
        have hc := hstep.mpr hd
        exact ⟨hc, (ih (hI s e hs hv.1 hu.1 hc) hv.2 hu.2).mpr hrest⟩

theorem every_congr {D : σ → ε → Prop} (hI : ∀ s e, I s → M.enabled s e → C s e → I (M.step s e).1)
    (h : ∀ s e, I s → M.enabled s e → (C s e ↔ D s e))
    {s : σ} (hs : I s) {es : List ε} (hv : M.Valid s es) :
    M.Every C s es ↔ M.Every D s es := by
  have hall : M.Every (fun _ _ => True) s es :=
    every_of_step (I := fun _ => True) (fun _ _ _ _ => trivial) (fun _ _ _ _ => trivial) trivial hv
  exact every_congr_of (fun s e hs he _ => hI s e hs he) (fun s e hs he _ => h s e hs he) hs hv hall

theorem every_outputs {p : ω → Prop} {s : σ} {es : List ε} :
    (∀ a ∈ M.outputs s es, p a) ↔ M.Every (fun s e => ∀ a ∈ (M.step s e).2, p a) s es := by
  induction es generalizing s with
  | nil => simp [outputs, Every]
  | cons e es ih => simp only [outputs, List.forall_mem_append, Every, ih]

end Run

/-- The events are of the given kinds, one after the other, with pauses anywhere between
them. Events of no kind at all are not in such a run. -/
inductive InOrder (pause : ε → Prop) : List (ε → Prop) → List ε → Prop where
  | nil : InOrder pause [] []
  | pause {ps e es} : pause e → InOrder pause ps es → InOrder pause ps (e :: es)
  | next {p ps e es} : p e → InOrder pause ps es → InOrder pause (p :: ps) (e :: es)

section InOrder
variable {pause p : ε → Prop} {ps : List (ε → Prop)} {I J : σ → Prop}

/-- Pauses keep `I`, and the first event to come makes `J` of it. -/
theorem InOrder.peel (hpause : ∀ s e, I s → M.enabled s e → pause e → I (M.step s e).1)
    (hnext : ∀ s e, I s → M.enabled s e → p e → J (M.step s e).1) {s : σ} {es : List ε}
    (h : InOrder pause (p :: ps) es) (hs : I s) (hv : M.Valid s es) :
    ∃ s' es', J s' ∧ InOrder pause ps es' ∧ M.Valid s' es' ∧ M.after s es = M.after s' es' := by
  induction es generalizing s with
  | nil => cases h
  | cons e es ih =>
      cases h with
      | pause he h => exact ih h (hpause s e hs hv.1 he) hv.2
      | next he h => exact ⟨_, es, hnext s e hs hv.1 he, h, hv.2, rfl⟩

theorem InOrder.rest (hpause : ∀ s e, I s → M.enabled s e → pause e → I (M.step s e).1)
    {s : σ} {es : List ε} (h : InOrder pause [] es) (hs : I s) (hv : M.Valid s es) :
    I (M.after s es) := by
  induction es generalizing s with
  | nil => exact hs
  | cons e es ih =>
      cases h with
      | pause he h => exact ih h (hpause s e hs hv.1 he) hv.2

end InOrder

section Record
variable {β : Type} (f : σ → ε → List ω → β → β)

/-- The machine with a record of its steps kept beside it. The record sees the state,
the event and the outputs of each step, and has no influence on them. -/
def record (M : Machine σ ε ω) : Machine (σ × β) ε ω where
  enabled x e := M.enabled x.1 e
  step x e := (((M.step x.1 e).1, f x.1 e (M.step x.1 e).2 x.2), (M.step x.1 e).2)

theorem record_valid (s : σ) (b : β) (es : List ε) : (M.record f).Valid (s, b) es ↔ M.Valid s es := by
  induction es generalizing s b with
  | nil => exact Iff.rfl
  | cons e es ih => exact and_congr Iff.rfl (ih _ _)

theorem record_every {C : σ → ε → Prop} (s : σ) (b : β) (es : List ε) :
    (M.record f).Every (fun x e => C x.1 e) (s, b) es ↔ M.Every C s es := by
  induction es generalizing s b with
  | nil => exact Iff.rfl
  | cons e es ih => exact and_congr Iff.rfl (ih _ _)

theorem record_always {P : σ → Prop} (s : σ) (b : β) (es : List ε) :
    (M.record f).Always (fun x => P x.1) (s, b) es ↔ M.Always P s es := by
  induction es generalizing s b with
  | nil => exact Iff.rfl
  | cons e es ih => exact and_congr Iff.rfl (ih _ _)

end Record

end Machine

structure Monitor (ω μ : Type) where
  next : μ → ω → μ
  ok : μ → ω → Prop

namespace Monitor
variable {σ ε ω μ : Type} (D : Monitor ω μ)

def run (m : μ) : List ω → μ
  | [] => m
  | a :: as => run (D.next m a) as

def Accepts (m : μ) : List ω → Prop
  | [] => True
  | a :: as => D.ok m a ∧ Accepts (D.next m a) as

instance decidableAccepts [∀ m a, Decidable (D.ok m a)] (m : μ) (as : List ω) :
    Decidable (D.Accepts m as) :=
  match as with
  | [] => .isTrue trivial
  | a :: as =>
      haveI := decidableAccepts (D.next m a) as
      inferInstanceAs (Decidable (_ ∧ _))

variable {D}

@[simp] theorem run_nil (m : μ) : D.run m [] = m := rfl

@[simp] theorem run_cons (m : μ) (a : ω) (as : List ω) :
    D.run m (a :: as) = D.run (D.next m a) as := rfl

@[simp] theorem accepts_nil (m : μ) : D.Accepts m [] := trivial

@[simp] theorem accepts_cons (m : μ) (a : ω) (as : List ω) :
    D.Accepts m (a :: as) ↔ D.ok m a ∧ D.Accepts (D.next m a) as := Iff.rfl

@[simp] theorem accepts_append (m : μ) (as bs : List ω) :
    D.Accepts m (as ++ bs) ↔ D.Accepts m as ∧ D.Accepts (D.run m as) bs := by
  induction as generalizing m with
  | nil => simp
  | cons a as ih => simp only [List.cons_append, accepts_cons, run_cons, ih, and_assoc]

/-- An output the monitor takes no notice of. -/
def Ignores (D : Monitor ω μ) (a : ω) : Prop := ∀ m, D.next m a = m ∧ D.ok m a

theorem ignored_run {as : List ω} (h : ∀ a ∈ as, D.Ignores a) (m : μ) :
    D.run m as = m ∧ D.Accepts m as := by
  induction as with
  | nil => exact ⟨rfl, trivial⟩
  | cons a as ih =>
      obtain ⟨hnext, hok⟩ := h a List.mem_cons_self m
      obtain ⟨hrun, hacc⟩ := ih fun b hb => h b (List.mem_cons_of_mem _ hb)
      rw [run_cons, accepts_cons, hnext]
      exact ⟨hrun, hok, hacc⟩

/-- A monitor may skip what it takes no notice of. -/
theorem run_filter {p : ω → Bool} (h : ∀ a, p a = false → D.Ignores a) (m : μ) (as : List ω) :
    D.run m (as.filter p) = D.run m as ∧ (D.Accepts m (as.filter p) ↔ D.Accepts m as) := by
  induction as generalizing m with
  | nil => exact ⟨rfl, Iff.rfl⟩
  | cons a as ih =>
      rw [List.filter_cons]
      split
      · exact ⟨(ih _).1, and_congr Iff.rfl (ih _).2⟩
      · next hp =>
          obtain ⟨hnext, hok⟩ := h a (eq_false_of_ne_true hp) m
          rw [run_cons, accepts_cons, hnext]
          exact ⟨(ih m).1, (ih m).2.trans (by simp [hok])⟩

/-- The machine with the monitor reading its outputs beside it, so that an invariant can
speak of the state of both. -/
def watch (D : Monitor ω μ) (M : Machine σ ε ω) : Machine (σ × μ) ε ω :=
  M.record fun _ _ out m => D.run m out

variable {M : Machine σ ε ω}

/-- The outputs of a run are acceptable exactly if each step's are, at the
monitor state the step finds. -/
theorem accepts_outputs (s : σ) (m : μ) (es : List ε) :
    D.Accepts m (M.outputs s es) ↔
      (watch D M).Every (fun x e => D.Accepts x.2 (M.step x.1 e).2) (s, m) es := by
  induction es generalizing s m with
  | nil => exact Iff.rfl
  | cons e es ih =>
      simp only [Machine.outputs, accepts_append, Machine.Every]
      exact and_congr Iff.rfl (ih _ _)

/-- A monitor that judges each step in the same way in all its states. -/
theorem accepts_iff_every {C : σ → ε → Prop}
    (h : ∀ s e m, D.Accepts m (M.step s e).2 ↔ C s e) (s : σ) (m : μ) (es : List ε) :
    D.Accepts m (M.outputs s es) ↔ M.Every C s es := by
  rw [accepts_outputs, ← Machine.record_every (fun _ _ out m => D.run m out) s m]
  induction es generalizing s m with
  | nil => exact Iff.rfl
  | cons e es ih => exact and_congr (h s e m) (ih _ _)

end Monitor
end Reactive

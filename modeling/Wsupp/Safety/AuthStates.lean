import Wsupp.Control.Turns

/-!
# The states of a connection

A connection goes through its states in order, a notification that does not fit
makes the daemon step back, and a disconnect that has been asked for is waited for.
Two notifications break this: CONNECT goes on after the takeover, and ASSOCIATE
after the abort of a reply it could not send.

The allowed moves of `authstate` are stated event by event, as a relation between
the state before and the control variables after. Both results are about whole runs
and exact: every step moves as it should if and only if none of the excluded events
comes in a state in which it does harm.
-/
namespace Wsupp
open Reactive

/-- The notification does not fit the state of the connection. -/
def Daemon.outOfOrder (s : Daemon) (k : EventKind) : Bool :=
  s.authstate ≠ .external && (s.notices .authenticate k && s.authstate ≠ .authenticating ||
    s.notices .associate k && s.authstate ≠ .associating ||
    s.notices .connect k && s.authstate ≠ .connecting)

/-- How `authstate` may move in one event: to each state only from the one before it, on
the notification that is waited for, or because another program has taken over. -/
structure AuthSteps (s : Daemon) (k : EventKind) (c : Control) : Prop where
  connected : c.authstate = .connected → s.authstate ≠ .connected →
    s.notices .connect k = true ∧ s.authstate = .connecting
  connecting : c.authstate = .connecting → s.authstate ≠ .connecting → s.authstate = .associating
  associating : c.authstate = .associating → s.authstate ≠ .associating →
    s.authstate = .authenticating
  takeover : s.outOfOrder k = true → c.authstate = .external ∧ c.opermode = .neutral

instance (s : Daemon) (k : EventKind) (c : Control) : Decidable (AuthSteps s k c) :=
  decidable_of_iff
    ((c.authstate = .connected → s.authstate ≠ .connected →
        s.notices .connect k = true ∧ s.authstate = .connecting) ∧
      (c.authstate = .connecting → s.authstate ≠ .connecting → s.authstate = .associating) ∧
      (c.authstate = .associating → s.authstate ≠ .associating → s.authstate = .authenticating) ∧
      (s.outOfOrder k = true → c.authstate = .external ∧ c.opermode = .neutral))
    ⟨fun ⟨h₁, h₂, h₃, h₄⟩ => ⟨h₁, h₂, h₃, h₄⟩, fun h => ⟨h.1, h.2, h.3, h.4⟩⟩

/-- A CONNECT notification that is not waited for: the handler declares a
takeover and then goes on. -/
def Daemon.undoesTakeover (s : Daemon) (k : EventKind) : Bool :=
  s.notices .connect k && s.authstate ≠ .external && s.authstate ≠ .connecting

section AuthSteps
variable {s : Daemon} {k : EventKind} {c : Control} {ks : List Act} {o : Outcome Unit Control}

theorem AuthSteps.of_eq (hk : s.outOfOrder k = false) (h : c.authstate = s.authstate) :
    AuthSteps s k c := by
  constructor
  · exact fun h₁ h₂ => absurd (h ▸ h₁) h₂
  · exact fun h₁ h₂ => absurd (h ▸ h₁) h₂
  · exact fun h₁ h₂ => absurd (h ▸ h₁) h₂
  · exact fun h => by rw [hk] at h; cases h

theorem AuthSteps.of_ne (hk : s.outOfOrder k = false) (h₁ : c.authstate ≠ .connected)
    (h₂ : c.authstate ≠ .connecting) (h₃ : c.authstate ≠ .associating) : AuthSteps s k c :=
  ⟨fun h => absurd h h₁, fun h => absurd h h₂, fun h => absurd h h₃,
    fun h => by rw [hk] at h; cases h⟩

theorem Turns.authSteps (hk : s.outOfOrder k = false) (h : Turns s k ks o) :
    o.Returns (AuthSteps s k) := by
  cases h with
  | keeps h => exact .of_eq hk h
  | falls _ h => rcases h with h | h <;> exact .of_ne hk (by simp [h]) (by simp [h]) (by simp [h])
  | starts _ _ _ _ _ h => exact .of_ne hk (by simp [h]) (by simp [h]) (by simp [h])
  | gives_up _ _ h => exact .of_ne hk (by simp [h]) (by simp [h]) (by simp [h])
  | ends => trivial

/-- `authstate` moves as it should in every event but the CONNECT notification
that is not waited for. -/
theorem EventKind.authSteps_iff (h : k.effect s ks o) :
    o.Returns (AuthSteps s k) ↔ s.undoesTakeover k = false := by
  by_cases hneg : s.negotiates k = true
  · obtain ⟨msg, rfl, hifi, hcmd⟩ := Daemon.negotiates_iff.mp hneg
    simp only [EventKind.effect, Netlink.MsgEffect, hifi, if_pos] at h
    unfold Netlink.GenEffect at h
    rcases hcmd with hcmd | hcmd | hcmd <;> simp only [hcmd] at h
    · have hu : s.undoesTakeover (.netlink (.gen msg)) = false := by
        simp [Daemon.undoesTakeover, Daemon.notices, hcmd]
      refine iff_of_true ?_ hu
      cases h with
      | external hext => exact .of_eq (by simp [Daemon.outOfOrder, hext]) rfl
      | snaps _ _ => exact ⟨by simp, by simp, by simp, fun _ => ⟨rfl, rfl⟩⟩
      | associates _ _ _ _ _ ha =>
          exact ⟨by simp, by simp, fun _ _ => ha,
            fun h => by simp [Daemon.outOfOrder, Daemon.notices, hcmd, ha] at h⟩
    · have hu : s.undoesTakeover (.netlink (.gen msg)) = false := by
        simp [Daemon.undoesTakeover, Daemon.notices, hcmd]
      refine iff_of_true ?_ hu
      cases h with
      | external hext => exact .of_eq (by simp [Daemon.outOfOrder, hext]) rfl
      | snaps _ _ => exact ⟨by simp, by simp, by simp, fun _ => ⟨rfl, rfl⟩⟩
      | allows ha _ | sends _ _ ha _ _ | overwrites _ _ _ ha _ _ =>
          exact ⟨by simp, fun _ _ => ha, by simp,
            fun h => by simp [Daemon.outOfOrder, Daemon.notices, hcmd, ha] at h⟩
    · have hu : s.undoesTakeover (.netlink (.gen msg)) =
          (s.authstate ≠ .external && s.authstate ≠ .connecting) := by
        simp [Daemon.undoesTakeover, Daemon.notices, hifi, hcmd]
      rw [hu]
      cases h with
      | external hext =>
          exact iff_of_true (.of_eq (by simp [Daemon.outOfOrder, hext]) rfl) (by simp [hext])
      | overwrites h₁ h₂ =>
          refine iff_of_false (fun h => ?_) (by simp [h₁, h₂])
          have hout : s.outOfOrder (.netlink (.gen msg)) = true := by
            simp [Daemon.outOfOrder, Daemon.notices, hifi, hcmd, h₁, h₂]
          have hext := (h.takeover hout).1
          cases hext
      | connects ha =>
          refine iff_of_true ?_ (by simp [ha])
          exact ⟨fun _ _ => ⟨by simp [Daemon.notices, hifi, hcmd], ha⟩, by simp, by simp,
            fun h => by simp [Daemon.outOfOrder, Daemon.notices, hcmd, ha] at h⟩
  · rw [Bool.not_eq_true] at hneg
    have hn := hneg
    simp only [Daemon.negotiates, Bool.or_eq_false_iff] at hn
    obtain ⟨⟨h₁, h₂⟩, h₃⟩ := hn
    exact iff_of_true ((EventKind.turns hneg h).authSteps (by simp [Daemon.outOfOrder, h₁, h₂, h₃]))
      (by simp [Daemon.undoesTakeover, h₃])

end AuthSteps

/-- In a run from any state, `authstate` moves as it should exactly if no CONNECT
notification comes that is not waited for. On such a one the handler declares a takeover
and then goes on to the connected state. -/
theorem auth_steps_iff (x : System) (es : List Event) :
    supplicant.Every (fun y e => (y.step e).1.halted = false →
      AuthSteps (y.before e) e.kind (y.step e).1.toControl) x es ↔
    supplicant.Every (fun y e => (y.before e).undoesTakeover e.kind = false) x es := by
  refine Machine.every_iff (fun y e => ?_) x es
  rw [← EventKind.authSteps_iff (y.step_effect e)]
  exact (System.outcome_returns _).symm

/-- Another program connects the interface while the daemon is idle. The takeover is
declared and undone in the same step. -/
theorem stray_connect_undoes : Sample.start.Initial ∧
    supplicant.Valid Sample.start [Sample.notice .connect] ∧
    ¬ supplicant.Every (fun y e => (y.step e).1.halted = false →
      AuthSteps (y.before e) e.kind (y.step e).1.toControl) Sample.start [Sample.notice .connect] :=
  ⟨Sample.start_initial, by decide +kernel, by decide +kernel⟩

def Act.disconnects : Act → Bool
  | .nl .disconnect _ => true
  | _ => false

/-- The event may end the wait for a disconnect. -/
def Daemon.settles (s : Daemon) (k : EventKind) : Bool :=
  s.negotiates k || s.notices .disconnect k || match k with
  | .netlink (.err ..) => true
  | _ => false

/-- A disconnect is waited for after the step. -/
def System.awaits (x : System) (e : Event) (out : List Act) (waits : Bool) : Bool :=
  out.any Act.disconnects || waits && !(x.before e).settles e.kind

/-- ASSOCIATE comes when packet 1/4 has been taken, and packet 2/4 does not go out. -/
def Daemon.overwritesAbort (s : Daemon) (k : EventKind) : Bool :=
  s.notices .associate k && s.authstate = .associating && s.eapolstate ≠ .waiting14 &&
    !s.sends (EapolKey.size + s.ap.ies.length)

/-- What is to hold of the state after an event that has sent a disconnect. -/
def Control.Awaits (waits : Bool) (c : Control) : Prop := waits = true → c.authstate = .disconnecting

instance (waits : Bool) (c : Control) : Decidable (c.Awaits waits) :=
  inferInstanceAs (Decidable (_ → _))

section Awaits
variable {s : Daemon} {k : EventKind} {ks : List Act} {o : Outcome Unit Control} {waits : Bool}

theorem Act.disconnects_mlme (ks : List Act) :
    (ks.filter Act.mlme).any Act.disconnects = ks.any Act.disconnects := by
  rw [List.any_filter]
  refine List.any_congr rfl fun a => ?_
  cases a with
  | nl cmd sent => cases cmd <;> rfl
  | call c => cases c <;> rfl
  | _ => rfl

/-- In the state that waits, only an event that settles the matter ends it. -/
theorem Daemon.loose_settles (ha : s.authstate = .disconnecting) (h : s.loose k = true) :
    s.settles k = true := by
  have hbusy : s.busy = false := by simp [Daemon.busy, ha]
  simp only [Daemon.loose, ha, Bool.or_eq_true, decide_eq_true_eq, reduceCtorEq, false_or] at h
  rcases h with h | h
  · unfold Daemon.givesUp at h
    split at h <;> simp_all [Daemon.settles]
  · simp [Daemon.settles, h]

theorem Turns.awaits (hs : s.toControl.Awaits waits) (h : Turns s k ks o) :
    o.Returns (Control.Awaits (ks.any Act.disconnects || waits && !s.settles k)) := by
  have hloose (hl : s.loose k = true) : (waits && !s.settles k) = false := by
    cases hw : waits with
    | false => rfl
    | true => rw [Daemon.loose_settles (hs hw) hl]; rfl
  cases h with
  | keeps h =>
      intro hw
      simp only [List.any_nil, Bool.false_or, Bool.and_eq_true] at hw
      exact h.trans (hs hw.1)
  | falls hl _ =>
      intro hw
      simp [hloose hl] at hw
  | starts _ _ _ _ hl _ =>
      intro hw
      simp [hloose hl, Act.disconnects] at hw
  | gives_up _ _ h => exact fun _ => h
  | ends => trivial

/-- With no disconnect asked for there is nothing to wait for. -/
theorem awaits_nothing (h : ks.any Act.disconnects = false) :
    o.Returns (Control.Awaits (ks.any Act.disconnects)) := by
  rw [h]
  cases o with
  | goes _ c => exact fun hw => by cases hw
  | ends => trivial

theorem EventKind.awaits_iff (hs : s.toControl.Awaits waits) (h : k.effect s ks o) :
    o.Returns (Control.Awaits (ks.any Act.disconnects || waits && !s.settles k)) ↔
      s.overwritesAbort k = false := by
  by_cases hneg : s.negotiates k = true
  · have hsettles : s.settles k = true := by simp [Daemon.settles, hneg]
    obtain ⟨msg, rfl, hifi, hcmd⟩ := Daemon.negotiates_iff.mp hneg
    simp only [EventKind.effect, Netlink.MsgEffect, hifi, if_pos] at h
    unfold Netlink.GenEffect at h
    rw [hsettles, Bool.not_true, Bool.and_false, Bool.or_false]
    rcases hcmd with hcmd | hcmd | hcmd <;> simp only [hcmd] at h
    · refine iff_of_true ?_ (by simp [Daemon.overwritesAbort, Daemon.notices, hcmd])
      cases h <;> exact awaits_nothing rfl
    · have ho : s.overwritesAbort (.netlink (.gen msg)) = (s.authstate = .associating &&
          s.eapolstate ≠ .waiting14 && !s.sends (EapolKey.size + s.ap.ies.length)) := by
        simp [Daemon.overwritesAbort, Daemon.notices, hifi, hcmd]
      rw [ho]
      cases h with
      | external hext => exact iff_of_true (awaits_nothing rfl) (by simp [hext])
      | snaps _ hne => exact iff_of_true (awaits_nothing rfl) (by simp [hne])
      | allows _ hs => exact iff_of_true (awaits_nothing rfl) (by simp [hs])
      | sends _ _ _ _ hok => exact iff_of_true (awaits_nothing rfl) (by simp [hok])
      | overwrites _ _ _ ha hs hno =>
          exact iff_of_false (fun h => by cases h rfl) (by simp [ha, hs, hno])
    · refine iff_of_true ?_ (by simp [Daemon.overwritesAbort, Daemon.notices, hcmd])
      cases h <;> exact awaits_nothing rfl
  · rw [Bool.not_eq_true] at hneg
    have hn := hneg
    simp only [Daemon.negotiates, Bool.or_eq_false_iff] at hn
    have h := (EventKind.turns hneg h).awaits hs
    rw [Act.disconnects_mlme] at h
    exact iff_of_true h (by simp [Daemon.overwritesAbort, hn.1.2])

end Awaits

/-- Over any run, a disconnect that is sent is waited for until it is settled, exactly
if no ASSOCIATE notification overwrites the abort of a reply. A monitor keeps the abort
that is pending. -/
theorem aborts_kept_iff {x : System} {es : List Event} (hv : supplicant.Valid x es) :
    (supplicant.record System.awaits).Always
      (fun y => y.1.halted = false → y.1.toControl.Awaits y.2) (x, false) es ↔
    supplicant.Every (fun y e => (y.before e).overwritesAbort e.kind = false) x es := by
  rw [← Machine.record_every System.awaits x false]
  refine Machine.always_iff_every (I := fun _ => True) (fun _ _ _ _ => trivial) ?_ trivial ?_
    ((Machine.record_valid ..).mpr hv)
  · intro y e _ hy he
    have hshown (a : Act) (h : a.disconnects = true) : a.shown = true := by
      cases a with
      | nl cmd sent => cases cmd <;> first | rfl | cases h
      | _ => cases h
    rw [← EventKind.awaits_iff (s := y.1.before e) (hy he.1) (y.1.step_effect e),
      control_any hshown]
    exact (System.outcome_returns _).symm
  · exact fun _ hw => by cases hw

namespace Sample

/-- Packet 1/4 comes before ASSOCIATE, as the EAPOL machine is prepared for. -/
def earlyPacket : List Event := joining ++ [notice .authenticate, packet1 5, event .turn]

end Sample

theorem earlyPacket_kept : (supplicant.record System.awaits).Always
    (fun y => y.1.halted = false → y.1.toControl.Awaits y.2) (Sample.start, false)
      (Sample.earlyPacket ++ [Sample.notice .associate, Sample.event .turn, Sample.asks .neutral]) :=
  (aborts_kept_iff (by decide +kernel)).mpr (by decide +kernel)

/-- Packet 1/4 has come before the notification and its reply is refused: the abort is
begun, and the handler then sets the state as if nothing had happened. -/
theorem earlyPacket_overwritten : Sample.start.Initial ∧
    supplicant.Valid Sample.start (Sample.earlyPacket ++ [Sample.refused (Sample.notice .associate)]) ∧
    ¬ (supplicant.record System.awaits).Always
      (fun y => y.1.halted = false → y.1.toControl.Awaits y.2) (Sample.start, false)
        (Sample.earlyPacket ++ [Sample.refused (Sample.notice .associate)]) :=
  ⟨Sample.start_initial, by decide +kernel, by decide +kernel⟩

end Wsupp

import Wsupp.Control.Step

/-!
# Rfkill and a device that goes down

When the device is killed by radio while the daemon scans to get a lost connection
back, the scan fails with `-ENETDOWN` and rfkill reports the kill, in no fixed
order. Coming back is recognised by the state the failed scan leaves behind, and
that state differs between the two orders.

Both orders are shapes of runs, in which turns may end in between. For every state
with a lost connection and every pair of runs in the two orders the outcomes differ:
gone down first, the device is scanned for again when it comes back; killed first,
it is not.
-/
namespace Wsupp
open Reactive Prog View

/-- A connection was lost, a scan to get it back is under way, and the rfkill
device below the interface is known. -/
structure System.Lost (x : System) : Prop where
  running : x.halted = false
  opermode : x.opermode = .rescan
  authstate : x.authstate = .idle
  scanstate : x.scanstate = .scanning
  rfkidx : 0 ≤ x.rfkidx

def EventKind.endsTurn : EventKind → Bool
  | .turn => true
  | _ => false

def EventKind.netdown : EventKind → Prop
  | .netlink (.err _ err) => err = -ENETDOWN
  | _ => False

def EventKind.kills (idx : Int) : EventKind → Prop
  | .rfkill re => re.wlan = true ∧ re.idx = idx ∧ (re.soft || re.hard) = true
  | _ => False

def EventKind.revives (idx : Int) : EventKind → Prop
  | .rfkill re => re.wlan = true ∧ re.idx = idx ∧ (re.soft || re.hard) = false
  | _ => False

/-- The scan fails, then rfkill tells why, and then the device is back; the ends of
turns may come in between. -/
def DownFirst (idx : Int) (es : List Event) : Prop :=
  Machine.InOrder (fun e : Event => e.kind.endsTurn = true)
    [fun e => e.kind.netdown, fun e => e.kind.kills idx, fun e => e.kind.revives idx] es

def KilledFirst (idx : Int) (es : List Event) : Prop :=
  Machine.InOrder (fun e : Event => e.kind.endsTurn = true)
    [fun e => e.kind.kills idx, fun e => e.kind.netdown, fun e => e.kind.revives idx] es

/-- In the run a scan for the current access point is started, which still runs. -/
def System.Rescans (x : System) (es : List Event) : Prop :=
  (∃ sent, Act.nl (.triggerScan (if 0 < x.ap.freq then some x.ap.freq else none)) sent ∈
    supplicant.outputs x es) ∧ (supplicant.after x es).scanstate = .scanning

/-- The two runs end alike: neither has ended, the daemon is in the same states with the
same time to wait, and each has started a scan for the access point. -/
structure System.Agree (x : System) (es fs : List Event) : Prop where
  running : (supplicant.after x es).halted = false ∧ (supplicant.after x fs).halted = false
  authstate : (supplicant.after x es).authstate = (supplicant.after x fs).authstate
  scanstate : (supplicant.after x es).scanstate = (supplicant.after x fs).scanstate
  opermode : (supplicant.after x es).opermode = (supplicant.after x fs).opermode
  timerset : (supplicant.after x es).timerset = (supplicant.after x fs).timerset
  pollts : (supplicant.after x es).timerset = true →
    (supplicant.after x es).pollts = (supplicant.after x fs).pollts
  rescans : x.Rescans es ∧ x.Rescans fs

def rfkillDevice : View Daemon Act Int where
  state := Daemon.rfkidx
  shows _ := false

theorem rfkillDevice_turn (s : Daemon) : rfkillDevice.Does EventKind.turn.handler s fun _ o =>
    o.Returns fun idx => idx = s.rfkidx := by
  unfold EventKind.handler
  refine does_bind_quiet (m := saveConfig) ⟨fun _ => ⟨rfl, _, rfl⟩⟩ fun _ s₁ h₁ => ?_
  rw [does_read_bind]
  split
  · refine does_bind_quiet (quiet_read_bind fun _ => quiet_ite (quiet_emit rfl) (quiet_pure ()))
      fun _ _ _ => ?_
    trivial
  · exact h₁

theorem rfkillDevice_netdown (seq : ℕ) (s : Daemon) :
    rfkillDevice.Does (EventKind.netlink (.err seq (-ENETDOWN))).handler s fun _ o =>
      o.Returns fun idx => idx = s.rfkidx := by
  have hquiet : rfkillDevice.Quiet (Netlink.genlError seq (-ENETDOWN)) := by
    unfold Netlink.genlError Netlink.snapToNetdown
    refine quiet_read_bind fun s => ?_
    rw [if_pos rfl]
    refine quiet_bind (quiet_update fun _ => rfl) fun _ => quiet_read_bind fun s => ?_
    refine quiet_bind (quiet_update fun _ => rfl) fun _ => ?_
    exact quiet_bind (quiet_when (quiet_update fun _ => rfl)) fun _ =>
      quiet_read_bind fun _ => quiet_emit rfl
  unfold EventKind.handler Netlink.handleMsg
  rw [does_read_bind]
  exact does_quiet hquiet rfl

theorem rfkillDevice_kills {re : RfkillEvent} {s : Daemon} (hidx : 0 ≤ s.rfkidx)
    (h : (re.soft || re.hard) = true) : rfkillDevice.Does (handleRfkill re) s fun _ o =>
      o.Returns fun idx => idx = s.rfkidx := by
  unfold handleRfkill handleRfkillEvent switchRfkill clrTimer
  split
  · rw [does_read_bind, if_neg (by omega)]
    split
    · rfl
    · rw [does_update_bind, does_update]
      rfl
  · rfl

/-- While the process runs the device has this number, and `P` is known. -/
def System.Stage (idx : Int) (P : Control → Prop) (x : System) : Prop :=
  x.halted = false → x.rfkidx = idx ∧ P x.toControl

section Events
variable {x : System} {e : Event} {idx : Int} {P Q : Control → Prop}

theorem System.Stage.step (hx : x.Stage idx P) (he : x.Enabled e)
    (hidx : rfkillDevice.Does e.kind.handler (x.before e) fun _ o =>
      o.Returns fun idx => idx = x.rfkidx)
    (hQ : x.rfkidx = idx → P x.toControl → (x.step e).1.outcome.Returns Q) :
    (x.step e).1.Stage idx Q := by
  obtain ⟨hx, hP⟩ := hx he.1
  intro hrun
  refine ⟨?_, (outcome_returns _).mp (hQ hx hP) hrun⟩
  unfold View.Does wp at hidx
  unfold System.step at hrun ⊢
  cases hm : e.kind.handler (x.before e) with
  | ok a s out =>
      rw [hm] at hidx
      exact hidx.trans hx
  | halt s out =>
      rw [hm] at hrun
      cases hrun

variable {s : Daemon} {k : EventKind} {ks : List Act} {o : Outcome Unit Control}

/-- The end of a turn keeps what is known of the control variables. -/
theorem EventKind.turn_returns (h : k.effect s ks o) (hk : k.endsTurn = true)
    (hs : P s.toControl) : o.Returns P := by
  cases k <;> cases hk
  obtain ⟨-, rfl⟩ := h
  split
  · trivial
  · exact hs

theorem System.Stage.turn (hx : x.Stage idx P) (he : x.Enabled e) (hk : e.kind.endsTurn = true) :
    (x.step e).1.Stage idx P := by
  refine hx.step he ?_ fun _ hP => EventKind.turn_returns (x.step_effect e) hk hP
  cases hkind : e.kind <;> rw [hkind] at hk <;> cases hk
  exact rfkillDevice_turn _

/-- What an error `-ENETDOWN` makes of the control variables. -/
def Control.wentDown (c : Control) : Control :=
  if c.rfkilled then { c.resetScan with authstate := .idle }
  else { c.resetScan with authstate := .netdown, timerset := true }

theorem EventKind.netdown_effect (h : k.effect s ks o) (hk : k.netdown) :
    o = .goes () s.toControl.wentDown := by
  cases k with
  | netlink msg =>
      cases msg with
      | err seq err =>
          obtain rfl : err = -ENETDOWN := hk
          unfold Control.wentDown
          cases h with
          | killed _ hr => rw [if_pos hr]
          | netdown _ hr => rw [if_neg (by simp [hr])]
          | scan_ack h _ => cases h
          | rescans _ _ _ _ h => cases h
          | scan_fails h _ _ => exact absurd rfl h
          | idle h _ _ => exact absurd rfl h
          | disconnect_fails h _ _ _ => exact absurd rfl h
          | aborts h _ _ _ _ _ => exact absurd rfl h
      | _ => cases hk
  | _ => cases hk

theorem System.Stage.netdown (hx : x.Stage idx P) (he : x.Enabled e) (hk : e.kind.netdown)
    (hQ : ∀ c, P c → Q c.wentDown) : (x.step e).1.Stage idx Q := by
  have heff := x.step_effect e
  refine hx.step he ?_ fun _ hP => ?_
  · cases hkind : e.kind with
    | netlink msg =>
        rw [hkind] at hk
        cases msg with
        | err seq err =>
            obtain rfl : err = -ENETDOWN := hk
            exact rfkillDevice_netdown seq _
        | _ => cases hk
    | _ => rw [hkind] at hk; cases hk
  · rw [EventKind.netdown_effect heff hk]
    exact hQ _ hP

theorem Daemon.watches_of_rfkidx {re : RfkillEvent} (hwlan : re.wlan = true)
    (hidx : 0 ≤ s.rfkidx) (h : re.idx = s.rfkidx) : s.watches re = true := by
  have hneg : ¬ s.rfkidx < 0 := by omega
  simp [Daemon.watches, hwlan, hneg, h]

theorem EventKind.kills_effect (h : k.effect s ks o) (hidx : 0 ≤ s.rfkidx)
    (hk : k.kills s.rfkidx) :
    o = .goes () { s.toControl with rfkilled := true, timerset := false } := by
  cases k with
  | rfkill re =>
      obtain ⟨hwlan, hre, hkill⟩ := hk
      have hw : s.watches re = true := Daemon.watches_of_rfkidx hwlan hidx hre
      cases h with
      | kills _ _ => rfl
      | other h => rw [hw] at h; cases h
      | quits _ h _ _ => rw [hkill] at h; cases h
      | revives _ h _ _ => rw [hkill] at h; cases h
      | rescans _ _ _ h _ _ _ => rw [hkill] at h; cases h
      | reassesses _ h _ _ _ _ => rw [hkill] at h; cases h
  | _ => cases hk

theorem System.Stage.kills (hx : x.Stage idx P) (he : x.Enabled e) (hidx : 0 ≤ idx)
    (hk : e.kind.kills idx) (hQ : ∀ c, P c → Q { c with rfkilled := true, timerset := false }) :
    (x.step e).1.Stage idx Q := by
  have heff := x.step_effect e
  have hnum := (hx he.1).1
  refine hx.step he ?_ fun _ hP => ?_
  · cases hkind : e.kind with
    | rfkill re =>
        rw [hkind] at hk
        have h : 0 ≤ (x.before e).rfkidx := hidx.trans_eq hnum.symm
        exact rfkillDevice_kills h hk.2.2
    | _ => rw [hkind] at hk; cases hk
  · rw [← hnum] at hk hidx
    rw [EventKind.kills_effect heff hidx hk]
    exact hQ _ hP

theorem EventKind.revives_idle (h : k.effect s ks o) (hk : k.revives idx) (hs : s.Ready) :
    o.Returns fun c => c.scanstate = .idle := by
  cases k with
  | rfkill re =>
      cases h with
      | other _ => exact hs.2
      | kills _ _ => exact hs.2
      | quits _ _ _ _ => trivial
      | revives _ _ _ _ => exact hs.2
      | rescans _ _ _ _ _ h _ => rw [hs.1] at h; cases h
      | reassesses _ _ _ h _ _ => rw [hs.1] at h; cases h
  | _ => cases hk

/-- Back on, a device that went down while a connection was sought is scanned for it. -/
theorem EventKind.revives_rescans (h : k.effect s ks o) (hidx : 0 ≤ s.rfkidx)
    (hk : k.revives s.rfkidx) (hm : s.opermode = .rescan) (ha : s.authstate = .netdown)
    (hs : s.scanstate = .idle) : o.Returns fun c => c.scanstate = .scanning := by
  cases k with
  | rfkill re =>
      obtain ⟨hwlan, hre, hback⟩ := hk
      have hw : s.watches re = true := Daemon.watches_of_rfkidx hwlan hidx hre
      cases h with
      | other h => rw [hw] at h; cases h
      | kills _ h => rw [hback] at h; cases h
      | quits _ _ _ _ => trivial
      | revives _ _ _ h => exact absurd ha h
      | rescans freq seq _ _ _ _ _ => simp [Outcome.Returns, Control.startScan, hs]
      | reassesses _ _ _ _ h _ => exact absurd hm h
  | _ => cases hk

end Events

/-- The device went down while a connection was to be found again. -/
def Control.Down (c : Control) : Prop :=
  c.opermode = .rescan ∧ c.authstate = .netdown ∧ c.scanstate = .idle

section Orders
variable {x : System} {es fs : List Event}

theorem stage_pause (idx : Int) (P : Control → Prop) (y : System) (e : Event) (hy : y.Stage idx P)
    (he : supplicant.enabled y e) (hk : e.kind.endsTurn = true) : (y.step e).1.Stage idx P :=
  hy.turn he hk

theorem returns_pause (P : Control → Prop) (y : System) (e : Event) (hy : y.outcome.Returns P)
    (he : supplicant.enabled y e) (hk : e.kind.endsTurn = true) : (y.step e).1.outcome.Returns P :=
  EventKind.turn_returns (y.step_effect e) hk ((System.outcome_returns y).mp hy he.1)

/-- Killed before it goes down, the device comes back without a scan. -/
theorem KilledFirst.strands (hx : x.Lost) (h : KilledFirst x.rfkidx es)
    (hv : supplicant.Valid x es) :
    (supplicant.after x es).outcome.Returns fun c => c.scanstate = .idle := by
  obtain ⟨y₁, es₁, h₁, hes₁, hv₁, hafter₁⟩ := Machine.InOrder.peel
    (I := System.Stage x.rfkidx fun c => c.authstate = .idle)
    (J := System.Stage x.rfkidx fun c => c.authstate = .idle ∧ c.rfkilled = true)
    (stage_pause _ _) (fun y e hy he hk => hy.kills he hx.rfkidx hk fun c hc => ⟨hc, rfl⟩) h
    (fun _ => ⟨rfl, hx.authstate⟩) hv
  have hdown (c : Control) (hc : c.authstate = .idle ∧ c.rfkilled = true) : c.wentDown.Ready := by
    rw [Control.wentDown, if_pos hc.2]
    exact ⟨rfl, rfl⟩
  obtain ⟨y₂, es₂, h₂, hes₂, hv₂, hafter₂⟩ := Machine.InOrder.peel
    (J := System.Stage x.rfkidx Control.Ready)
    (stage_pause _ _) (fun y e hy he hk => hy.netdown he hk hdown) hes₁ h₁ hv₁
  obtain ⟨y₃, es₃, h₃, hes₃, hv₃, hafter₃⟩ := Machine.InOrder.peel
    (J := fun y => y.outcome.Returns fun c => c.scanstate = .idle)
    (stage_pause _ _) (fun y e hy he hk => EventKind.revives_idle (y.step_effect e) hk (hy he.1).2)
    hes₂ h₂ hv₂
  rw [hafter₁, hafter₂, hafter₃]
  exact hes₃.rest (returns_pause _) h₃ hv₃

theorem KilledFirst.disagrees (hx : x.Lost) (h : KilledFirst x.rfkidx fs)
    (hv : supplicant.Valid x fs) : ¬ x.Agree es fs := by
  intro hagree
  have hidle := (System.outcome_returns _).mp (h.strands hx hv) hagree.running.2
  have hscan := hagree.rescans.2.2
  rw [hidle] at hscan
  cases hscan

/-- Gone down first, it is scanned for again, provided it was not killed before. -/
theorem DownFirst.rescans (hx : x.Lost) (hr : x.rfkilled = false) (h : DownFirst x.rfkidx es)
    (hv : supplicant.Valid x es) :
    (supplicant.after x es).outcome.Returns fun c => c.scanstate = .scanning := by
  have hdown (c : Control) (hc : c.opermode = .rescan ∧ c.rfkilled = false) :
      c.wentDown.Down := by
    rw [Control.wentDown, if_neg (by simp [hc.2])]
    exact ⟨hc.1, rfl, rfl⟩
  obtain ⟨y₁, es₁, h₁, hes₁, hv₁, hafter₁⟩ := Machine.InOrder.peel
    (I := System.Stage x.rfkidx fun c => c.opermode = .rescan ∧ c.rfkilled = false)
    (J := System.Stage x.rfkidx Control.Down)
    (stage_pause _ _) (fun y e hy he hk => hy.netdown he hk hdown) h
    (fun _ => ⟨rfl, hx.opermode, hr⟩) hv
  obtain ⟨y₂, es₂, h₂, hes₂, hv₂, hafter₂⟩ := Machine.InOrder.peel
    (J := System.Stage x.rfkidx Control.Down)
    (stage_pause _ _) (fun y e hy he hk => hy.kills he hx.rfkidx hk fun c hc => hc) hes₁ h₁ hv₁
  have hback (y : System) (e : Event) (hy : y.Stage x.rfkidx Control.Down)
      (he : supplicant.enabled y e) (hk : e.kind.revives x.rfkidx) :
      (y.step e).1.outcome.Returns fun c => c.scanstate = .scanning := by
    obtain ⟨hidx, hm, ha, hs⟩ := hy he.1
    rw [← hidx] at hk
    exact EventKind.revives_rescans (y.step_effect e) (hidx ▸ hx.rfkidx) hk hm ha hs
  obtain ⟨y₃, es₃, h₃, hes₃, hv₃, hafter₃⟩ := Machine.InOrder.peel
    (J := fun y => y.outcome.Returns fun c => c.scanstate = .scanning)
    (stage_pause _ _) hback hes₂ h₂ hv₂
  rw [hafter₁, hafter₂, hafter₃]
  exact hes₃.rest (returns_pause _) h₃ hv₃

end Orders

/-- Wherever a connection was lost, the two orders do not come to the same: with the
kill first no scan is started again, with the failed scan first one is. This holds for
every such state and every pair of runs in the two orders. -/
theorem rfkill_order_matters {x : System} (hx : x.Lost) {es fs : List Event}
    (hes : DownFirst x.rfkidx es) (hfs : KilledFirst x.rfkidx fs)
    (hve : supplicant.Valid x es) (hvf : supplicant.Valid x fs) :
    ¬ x.Agree es fs ∧ (x.rfkilled = false →
      (supplicant.after x es).outcome.Returns fun c => c.scanstate = .scanning) := by
  constructor
  · exact hfs.disagrees hx hvf
  · intro hr
    exact hes.rescans hx hr hve

namespace Sample

def rfkillEvent (soft : Bool) : Event := event (.rfkill ⟨0, true, soft, false⟩)

/-- A connection, and its loss. -/
def losing : List Event :=
  [rfkillEvent false, event .turn] ++ handshake ++ [notice .disconnect, event .turn]

def netdown : Event := event (.netlink (.err 7 (-ENETDOWN)))

def downFirst : List Event := [netdown, rfkillEvent true, rfkillEvent false]

def killedFirst : List Event := [rfkillEvent true, event .turn, netdown, rfkillEvent false]

def lost : System := supplicant.after start losing

theorem losing_valid : supplicant.Valid start losing ∧ (lost.halted = false ∧
    lost.opermode = .rescan ∧ lost.authstate = .idle ∧ lost.scanstate = .scanning ∧
    lost.rfkidx = 0) ∧ supplicant.Valid lost downFirst ∧ supplicant.Valid lost killedFirst := by
  decide +kernel

theorem lost_lost : lost.Lost := by
  obtain ⟨hrun, hm, ha, hs, hidx⟩ := losing_valid.2.1
  exact ⟨hrun, hm, ha, hs, hidx.ge⟩

theorem downFirst_order : DownFirst lost.rfkidx downFirst := by
  have hidx := losing_valid.2.1.2.2.2.2
  exact .next rfl (.next ⟨rfl, hidx.symm, rfl⟩ (.next ⟨rfl, hidx.symm, rfl⟩ .nil))

theorem killedFirst_order : KilledFirst lost.rfkidx killedFirst := by
  have hidx := losing_valid.2.1.2.2.2.2
  exact .next ⟨rfl, hidx.symm, rfl⟩ (.pause rfl (.next rfl (.next ⟨rfl, hidx.symm, rfl⟩ .nil)))

end Sample

theorem losing_order_matters : ¬ Sample.lost.Agree Sample.downFirst Sample.killedFirst ∧
    (Sample.lost.rfkilled = false → (supplicant.after Sample.lost Sample.downFirst).outcome.Returns
      fun c => c.scanstate = .scanning) :=
  rfkill_order_matters Sample.lost_lost Sample.downFirst_order Sample.killedFirst_order
    Sample.losing_valid.2.2.1 Sample.losing_valid.2.2.2

/-- The same three events after a lost connection, in the two orders. In one of them the
daemon scans for its access point, in the other it stays idle. -/
theorem losing_stranded : Sample.start.Initial ∧ supplicant.Valid Sample.start Sample.losing ∧
    Sample.lost = supplicant.after Sample.start Sample.losing ∧ Sample.lost.Lost ∧
    DownFirst Sample.lost.rfkidx Sample.downFirst ∧
    KilledFirst Sample.lost.rfkidx Sample.killedFirst ∧
    ¬ Sample.lost.Agree Sample.downFirst Sample.killedFirst := by
  refine ⟨Sample.start_initial, Sample.losing_valid.1, rfl, Sample.lost_lost,
    Sample.downFirst_order, Sample.killedFirst_order, fun h => ?_⟩
  exact Sample.killedFirst_order.disagrees Sample.lost_lost Sample.losing_valid.2.2.2 h

end Wsupp

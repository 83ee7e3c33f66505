import Wsupp.Control.Link

/-!
# What the user has asked for

Two modes forbid new connections: the neutral one, and the two of a daemon that is
to exit. The retries check for the former in most places and for the latter in none;
this module says where each is broken.

A monitor reads the commands that start a connection together with the mode they are
sent in. In the neutral mode one handler starts a connection, the one that goes back
to the access point lost last; nothing else does, in any run. A request to exit is
kept in a run in which the steps that forget it are avoided: a retry that sets
another mode, and the failures that lead to one.
-/
namespace Wsupp
open Reactive

theorem Act.authenticates_shown (a : Act) (h : a.authenticates = true) : a.shown = true := by
  cases a with
  | nl cmd sent =>
      cases cmd with
      | authenticate => rfl
      | _ => cases h
  | _ => cases h

theorem System.step_any {p : Act → Bool} (hp : ∀ a, p a = true → a.shown = true) (x : System)
    (e : Event) : ∃ ks o, e.kind.effect (x.before e) ks o ∧ (x.step e).2.any p = ks.any p :=
  ⟨_, _, x.step_effect e, (control_any hp _).symm⟩

def EventKind.asksToConnect : EventKind → Bool
  | .connMsg _ msg => msg.cmd = .connect
  | _ => false

/-- A scan ends that has been started to reconnect, and finds the access point. -/
def Daemon.reconnects (s : Daemon) : EventKind → Bool
  | .netlink .done => s.scanstate = .scandump && s.scanreq.reconnectCurrent && s.authstate = .idle &&
      Netlink.currentFound s && s.socket
  | _ => false

theorem EventKind.reconnects {s : Daemon} {k : EventKind} {ks : List Act} {o : Outcome Unit Control}
    (h : k.effect s ks o) (hk : s.reconnects k = true) : ks.any Act.authenticates = true := by
  unfold Daemon.reconnects at hk
  split at hk
  swap
  · cases hk
  simp only [Bool.and_eq_true, decide_eq_true_eq] at hk
  obtain ⟨⟨⟨⟨hd, hr⟩, hidle⟩, hf⟩, hsock⟩ := hk
  cases h with
  | no_dump hno => exact absurd hd hno
  | reconnects _ _ _ h =>
      cases h with
      | busy hb => exact absurd hb (by simp [Control.reconnecting, Control.resetScan, hidle])
      | starts _ _ _ _ _ _ _ => rfl
      | ends _ _ hno => rw [hsock] at hno; cases hno
  | misses _ _ hno _ => rw [hf] at hno; cases hno
  | reassesses _ hno _ _ => rw [hr] at hno; cases hno
  | rests _ hno _ => rw [hr] at hno; cases hno

theorem Daemon.mayStart_neutral {s : Daemon} {k : EventKind} (hm : s.opermode = .neutral)
    (hk : k.asksToConnect = false) (h : s.mayStart k = true) : s.reconnects k = true := by
  unfold Daemon.mayStart at h
  split at h
  · next cn msg => simp_all [EventKind.asksToConnect]
  · simp only [hm, ne_eq, not_true_eq_false, decide_false, Bool.false_and] at h
    split at h
    · next hrf =>
        simp only [Bool.and_eq_true, decide_eq_true_eq] at h hrf
        simp [Daemon.reconnects, h, hrf]
    · simp at h
  all_goals simp [hm] at h

/-- In a run from any state, nothing but connect requests starts a connection in the
neutral mode, exactly if no scan that is to reconnect ends in it with the access point
found. That one path does not look at the mode, and all others do. -/
theorem neutral_starts_nothing_iff (x : System) (es : List Event) :
    supplicant.Every (fun y e => y.opermode = .neutral → e.kind.asksToConnect = false →
      (y.step e).2.any Act.authenticates = false) x es ↔
    supplicant.Every (fun y e => y.opermode = .neutral →
      (y.before e).reconnects e.kind = false) x es := by
  refine Machine.every_iff (fun y e => forall_congr' fun hm => ?_) x es
  obtain ⟨ks, o, h, hks⟩ := y.step_any Act.authenticates_shown e
  rw [hks]
  constructor
  · intro hno
    rw [← Bool.not_eq_true]
    intro hr
    have hask : e.kind.asksToConnect = false := by
      cases hk : e.kind <;> simp_all [Daemon.reconnects, EventKind.asksToConnect]
    rw [EventKind.reconnects h hr] at hno
    exact absurd (hno hask) (by simp)
  · intro hr hask
    rw [← Bool.not_eq_true]
    intro ha
    have hr' : (y.before e).reconnects e.kind = true :=
      Daemon.mayStart_neutral hm hask (EventKind.authenticates h ha)
    rw [hr'] at hr
    cases hr

namespace Sample

/-- The kernel no longer knows the access point, which is scanned for again; the
user gives up before the scan ends. -/
def lateReconnect : List Event :=
  joining ++ [event (.netlink (.err 5 (-ENOENT))), event .turn, asks .neutral, notice .newScanResults, found, event (.netlink .done)]

end Sample

/-- A client asks for the neutral mode while the lost access point is scanned for. The
scan finds it, and AUTHENTICATE is sent. -/
theorem lateReconnect_starts : Sample.start.Initial ∧
    supplicant.Valid Sample.start Sample.lateReconnect ∧
    ¬ supplicant.Every (fun y e => y.opermode = .neutral → e.kind.asksToConnect = false →
      (y.step e).2.any Act.authenticates = false) Sample.start Sample.lateReconnect :=
  ⟨Sample.start_initial, by decide +kernel, by decide +kernel⟩

/-- An exit is requested, and waits for the connection to end. -/
def Control.ExitPending (c : Control) : Prop :=
  c.opermode = .exitreq ∧ (c.authstate = .disconnecting ∨ c.authstate = .netdown) ∨
    c.opermode = .exit ∧ (c.authstate = .idle ∨ c.authstate = .disconnecting ∨ c.authstate = .netdown)

/-- The event takes the request back, or makes the daemon idle without
`handle_disconnect`. -/
def Daemon.dropsExit (s : Daemon) : EventKind → Bool
  | .connMsg _ msg => msg.cmd = .neutral
  | .netlink (.gen msg) => msg.ifi = some s.ifindex &&
      (msg.cmd = .authenticate || msg.cmd = .associate || msg.cmd = .connect)
  | .netlink (.err _ err) => err = -ENETDOWN && s.rfkilled && s.opermode = .exitreq
  | .timer => s.authstate = .netdown && s.rfkilled && s.opermode = .exitreq
  | _ => false

def Daemon.losesExit (s : Daemon) (k : EventKind) : Bool := s.mayStart k || s.dropsExit k

namespace Control.ExitPending
variable {c : Control}

theorem modes (h : c.ExitPending) : (c.opermode = .exitreq ∨ c.opermode = .exit) ∧
    (c.authstate = .idle → c.opermode = .exit) := by
  rcases h with ⟨hm, h | h⟩ | ⟨hm, h⟩
  · exact ⟨.inl hm, fun hi => by rw [h] at hi; cases hi⟩
  · exact ⟨.inl hm, fun hi => by rw [h] at hi; cases hi⟩
  · exact ⟨.inr hm, fun _ => hm⟩

theorem of_eq {c' : Control} (h : c.ExitPending) (hm : c'.opermode = c.opermode)
    (ha : c'.authstate = c.authstate) : c'.ExitPending := by
  unfold ExitPending
  rw [hm, ha]
  exact h

theorem beside {c' : Control} (h : c.ExitPending) (hb : Beside c c') : c'.ExitPending :=
  h.of_eq hb.opermode hb.authstate

theorem startScan (h : c.ExitPending) (freq : Int) (seq : ℕ) : (c.startScan freq seq).ExitPending :=
  h.of_eq (by simp) (by simp)

theorem exits (hm : c.opermode = .exit)
    (ha : c.authstate = .idle ∨ c.authstate = .disconnecting ∨ c.authstate = .netdown) :
    c.ExitPending := .inr ⟨hm, ha⟩

theorem mode_ne (h : c.ExitPending) : c.opermode ≠ .neutral ∧ c.opermode ≠ .oneshot ∧
    c.opermode ≠ .active ∧ c.opermode ≠ .rescan := by
  rcases h with ⟨hm, _⟩ | ⟨hm, _⟩ <;> simp [hm]

theorem authstate_ne (h : c.ExitPending) : c.authstate ≠ .external ∧ c.authstate ≠ .connected := by
  rcases h with ⟨_, h | h⟩ | ⟨_, h | h | h⟩ <;> simp [h]

end Control.ExitPending

section ExitPending
variable {c c' : Control} {ks : List Act}

theorem Reassess.exitPending (hc : c.ExitPending) (hks : ks.any Act.authenticates = false)
    (h : Reassess c ks (.goes () c')) : c'.ExitPending := by
  cases h with
  | stays _ => exact hc
  | starts _ _ _ _ _ _ => cases hks
  | gives_up hm _ => exact absurd hm hc.mode_ne.2.1
  | waits _ _ _ => exact hc.of_eq rfl rfl

theorem Abort.exitPending (hc : c.ExitPending) (hks : ks.any Act.authenticates = false)
    (h : Abort c ks (.goes () c')) : c'.ExitPending := by
  cases h with
  | disconnects _ h₁ h₂ h₃ => rcases hc with ⟨_, h | h⟩ | ⟨_, h | h | h⟩ <;> contradiction
  | stays _ => exact hc
  | reassesses _ h => exact h.exitPending hc hks

theorem HandleDisconnect.exitPending (hm : c.opermode = .exitreq ∨ c.opermode = .exit)
    (ha : c.authstate = .idle) (h : HandleDisconnect c ks (.goes () c')) : c'.ExitPending := by
  cases h with
  | exits _ => exact .exits rfl (.inl ha)
  | rescans _ _ h => rcases hm with hm | hm <;> simp [hm] at h
  | tries_other h _ => rcases hm with hm | hm <;> simp [hm] at h
  | gives_up h => rcases hm with hm | hm <;> simp [hm] at h

theorem FrameLink.exitPending {s : Daemon} {sender data : Bytes} (hs : s.toControl.ExitPending)
    (hks : ks.any Act.authenticates = false) (h : FrameLink s sender data ks (.goes () c')) :
    c'.ExitPending := by
  generalize ho : Outcome.goes () c' = o at h
  cases h with
  | aborts c pre _ hb _ h =>
      subst ho
      rw [List.any_append, Bool.or_eq_false_iff] at hks
      exact h.exitPending (hs.beside hb) hks.2
  | quits => cases ho
  | ends => cases ho
  | stays _ _ _ hb => cases ho; exact hs.beside hb
  | connects _ _ _ hb =>
      cases ho
      refine hs.of_eq (hb.opermode.trans ?_) hb.authstate
      simp [Control.handleConnect, hs.mode_ne]

theorem Netlink.GenlDone.exitPending {s : Daemon} (hs : s.toControl.ExitPending)
    (hks : ks.any Act.authenticates = false) (h : Netlink.GenlDone s ks (.goes () c')) :
    c'.ExitPending := by
  have hreset : s.toControl.resetScan.ExitPending := hs.of_eq rfl rfl
  have hrec : s.toControl.resetScan.reconnecting.ExitPending :=
    hs.of_eq (by simp [Control.reconnecting, Control.resetScan, hs.mode_ne]) rfl
  generalize ho : Outcome.goes () c' = o at h
  cases h with
  | no_dump _ => cases ho; exact hs
  | reconnects _ _ _ h =>
      cases h with
      | busy _ => cases ho; exact hrec
      | starts _ _ _ _ _ _ _ => cases hks
      | ends _ _ _ => cases ho
  | misses _ _ _ h => subst ho; exact h.exitPending hrec hks
  | reassesses _ _ _ h => subst ho; exact h.exitPending hreset hks
  | rests _ _ _ => cases ho; exact hreset

theorem Netlink.MsgEffect.exitPending {s : Daemon} {msg : Netlink.Msg}
    (hs : s.toControl.ExitPending) (hstart : s.mayStart (.netlink msg) = false)
    (hdrop : s.dropsExit (.netlink msg) = false) (hks : ks.any Act.authenticates = false)
    (h : Netlink.MsgEffect s msg ks (.goes () c')) : c'.ExitPending := by
  cases msg with
  | done => exact Netlink.GenlDone.exitPending hs hks h
  | err seq err =>
      cases h with
      | killed hdown hkilled =>
          have hm : s.opermode = .exit := by
            rcases hs.modes.1 with hm | hm
            · simp [Daemon.dropsExit, hdown, hkilled, hm] at hdrop
            · exact hm
          exact .exits hm (.inl rfl)
      | netdown _ _ =>
          rcases hs.modes.1 with hm | hm
          · exact .inl ⟨hm, .inr rfl⟩
          · exact .exits hm (.inr (.inr rfl))
      | scan_ack _ _ => exact hs
      | scan_fails _ _ _ => exact hs.of_eq rfl rfl
      | idle _ _ _ => exact hs
      | disconnect_fails hdown hseq hdis _ =>
          simp [Daemon.mayStart, Daemon.failsAuth, hdown, hseq, hdis, hs.mode_ne] at hstart
      | rescans _ _ _ ha _ => rcases hs with ⟨_, h | h⟩ | ⟨_, h | h | h⟩ <;> simp [ha] at h
      | aborts _ _ _ _ _ h => exact h.exitPending hs hks
  | gen msg =>
      simp only [Netlink.MsgEffect] at h
      split at h
      · next hifi =>
          unfold Netlink.GenEffect at h
          cases hcmd : msg.cmd <;> simp only [hcmd] at h
          case triggerScan => obtain ⟨-, ⟨⟩⟩ := h; exact hs
          case other => obtain ⟨-, ⟨⟩⟩ := h; exact hs
          case newScanResults =>
            cases h with
            | stays => exact hs
            | dumps _ _ => exact hs.of_eq rfl rfl
          case scanAborted =>
            cases h with
            | stays _ => exact hs
            | aborts _ => exact hs.of_eq rfl rfl
          case disconnect =>
            cases h with
            | idle _ => exact hs
            | disconnects _ h =>
                have hm : s.toControl.resetEapol.opermode = .exitreq ∨
                    s.toControl.resetEapol.opermode = .exit := hs.modes.1
                exact HandleDisconnect.exitPending
                  (c := { s.toControl.resetEapol with authstate := .idle }) hm rfl h
          all_goals simp [Daemon.dropsExit, hifi, hcmd] at hdrop
      · obtain ⟨-, ⟨⟩⟩ := h
        exact hs
  | other => obtain ⟨-, ⟨⟩⟩ := h; exact hs

/-- One step keeps the request, unless it is of a kind that loses it. -/
theorem EventKind.exitPending {s : Daemon} {k : EventKind} (hs : s.toControl.ExitPending)
    (hk : s.losesExit k = false) (h : k.effect s ks (.goes () c')) : c'.ExitPending := by
  obtain ⟨hstart, hdrop⟩ := Bool.or_eq_false_iff.mp hk
  have hks := EventKind.starts_nothing h hstart
  cases k with
  | netlink msg => exact Netlink.MsgEffect.exitPending hs hstart hdrop hks h
  | frame sender data => exact (Frame.link h).exitPending hs hks
  | connMsg cn msg =>
      simp only [EventKind.effect, Cntrl.CmdEffect] at h
      cases hcmd : msg.cmd <;> simp only [hcmd] at h
      case neutral => simp [Daemon.dropsExit, hcmd] at hdrop
      case connect =>
        cases h with
        | refuses => exact hs
        | accepts hr _ => simp [Daemon.mayStart, hcmd, hr.1, hr.2] at hstart
      case scan => obtain ⟨-, seq, ⟨⟩⟩ := h; exact hs.startScan 0 seq
      case forget => cases h; exact hs
      all_goals obtain ⟨-, ⟨⟩⟩ := h; exact hs
  | rfkill re =>
      cases h with
      | other _ => exact hs
      | kills _ _ => exact hs.of_eq rfl rfl
      | revives _ _ _ _ => exact hs.of_eq rfl rfl
      | rescans _ _ _ _ _ _ hm => exact absurd hm hs.mode_ne.2.2.2
      | reassesses hw hoff _ hdown _ _ =>
          simp [Daemon.mayStart, hw, hoff, hdown, hs.mode_ne] at hstart
  | timer =>
      have htimer (b : Bool) : Control.ExitPending { s.toControl with timerset := b } :=
        hs.of_eq rfl rfl
      cases h with
      | exits hdown _ => exact .exits rfl (.inr (.inr hdown))
      | idles hdown hkilled =>
          have hm : s.opermode = .exit := by
            rcases hs.modes.1 with hm | hm
            · simp [Daemon.dropsExit, hdown, hkilled, hm] at hdrop
            · exact hm
          exact .exits hm (.inl rfl)
      | bg_scans _ hconn => exact absurd hconn hs.authstate_ne.2
      | aborts _ _ _ h => exact h.exitPending (htimer false) hks
      | fg_scans freq seq _ => exact (htimer true).startScan freq seq
  | sigterm =>
      cases h with
      | exits hm hm' _ => rcases hs.modes.1 with h | h <;> contradiction
      | requests _ hm hm' _ _ _ => rcases hs.modes.1 with h | h <;> contradiction
  | netlinkLost | controlLost | pollError => obtain ⟨⟨⟩, -⟩ := h
  | turn =>
      obtain ⟨-, ho⟩ := h
      split at ho <;> cases ho
      exact hs
  | connEnd | connHup | frameError | rawsockLost | accept | rfkillLost | reap =>
      obtain ⟨-, ⟨⟩⟩ := h
      exact hs

end ExitPending

/-- A request that has been made keeps the daemon from starting connections, and is
there when the connection has ended, in every run whose steps do not lose it. Losing it
means to set another mode or to begin an attempt without a look at the mode. -/
theorem exit_request_kept {x : System} {e : Event} {es : List Event} (hk : e.kind = .sigterm)
    (hrun : (x.step e).1.halted = false) (hreq : (x.step e).1.opermode = .exitreq)
    (hv : supplicant.Valid (x.step e).1 es)
    (hc : supplicant.Every (fun y e => (y.before e).losesExit e.kind = false) (x.step e).1 es) :
    supplicant.Always (fun y => y.halted = false → (y.opermode = .exitreq ∨ y.opermode = .exit) ∧
      (y.authstate = .idle → y.opermode = .exit)) (x.step e).1 es ∧
    (supplicant.outputs (x.step e).1 es).any Act.authenticates = false := by
  have hstart : (x.step e).1.halted = false → (x.step e).1.toControl.ExitPending := by
    intro _
    obtain ⟨ks, o, h, ho⟩ : ∃ ks o, Xshutdown x.toControl ks o ∧ (x.step e).1.outcome = o := by
      have h := x.step_effect e
      rw [hk] at h
      exact ⟨_, _, h, rfl⟩
    rw [System.outcome_running hrun] at ho
    cases h with
    | second _ _ => cases ho
    | exits _ _ _ =>
        injection ho with _ hc
        rw [hc] at hreq
        cases hreq
    | requests _ _ _ _ _ _ =>
        injection ho with _ hc
        rw [hc]
        exact .inl ⟨rfl, .inl rfl⟩
  have hstep (y : System) (e : Event) (hy : y.halted = false → y.toControl.ExitPending)
      (he : supplicant.enabled y e) (hl : (y.before e).losesExit e.kind = false) :
      (supplicant.step y e).1.halted = false → (supplicant.step y e).1.toControl.ExitPending := by
    intro hrun
    have h := y.step_effect e
    rw [System.outcome_running (x := (y.step e).1) hrun] at h
    exact EventKind.exitPending (s := y.before e) (hy he.1) hl h
  constructor
  · exact (Machine.always_of_every hstep hstart hv hc).mono fun y hy hrun => (hy hrun).modes
  · rw [List.any_eq_false, Machine.every_outputs]
    refine hc.imp hstep (fun y e hy he hl => ?_) hstart hv
    rw [← List.any_eq_false]
    obtain ⟨ks, o, h, hks⟩ := y.step_any Act.authenticates_shown e
    change (y.step e).2.any _ = false
    rw [hks]
    exact EventKind.starts_nothing h (Bool.or_eq_false_iff.mp hl).1

namespace Sample

/-- The daemon is told to exit while it waits for a connection. -/
def exiting : System := supplicant.after start joining

def sigterm : Event := event .sigterm

end Sample

theorem exiting_waits : supplicant.Always (fun y => y.halted = false →
    (y.opermode = .exitreq ∨ y.opermode = .exit) ∧ (y.authstate = .idle → y.opermode = .exit))
      (Sample.exiting.step Sample.sigterm).1 [Sample.event .turn, Sample.notice .disconnect] ∧
    (supplicant.outputs (Sample.exiting.step Sample.sigterm).1
      [Sample.event .turn, Sample.notice .disconnect]).any Act.authenticates = false :=
  exit_request_kept rfl (by decide +kernel) (by decide +kernel) (by decide +kernel)
    (by decide +kernel)

/-- The kernel refuses the DISCONNECT that the request to exit has sent. The daemon is
idle again and has nothing more to wait for, but it does not exit. -/
theorem exiting_forgotten : Sample.start.Initial ∧
    supplicant.Valid Sample.start (Sample.joining ++ [Sample.sigterm]) ∧
    (Sample.exiting.step Sample.sigterm).1.opermode = .exitreq ∧
    supplicant.Valid (Sample.exiting.step Sample.sigterm).1
      [Sample.event .turn, Sample.event (.netlink (.err 6 (-107)))] ∧
    ¬ supplicant.Always (fun y => y.halted = false →
      (y.opermode = .exitreq ∨ y.opermode = .exit) ∧ (y.authstate = .idle → y.opermode = .exit))
        (Sample.exiting.step Sample.sigterm).1
        [Sample.event .turn, Sample.event (.netlink (.err 6 (-107)))] :=
  ⟨Sample.start_initial, by decide +kernel, by decide +kernel, by decide +kernel, by decide +kernel⟩

end Wsupp

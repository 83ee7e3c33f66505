import Wsupp.Control.Netlink
import Wsupp.Main

/-!
# The control variables in one step

User commands, the timer, rfkill and the termination signal, and with them every
event the main loop handles. `EventEffect` is all that later modules know about a
step: for an event of each kind it is the relation of its handler, on the control
variables and on the outputs that concern them.

The start before the loop is here as well, which leaves the daemon scanning, neutral
or active as the state file tells it. At the end stand the runs that the examples of
later modules share: a station that finds one access point and is told by a client
to use it, and the packets of the handshake that follows, made with the keys this
station derives.
-/
namespace Wsupp
open Reactive Prog View

namespace Cntrl

inductive CmdNeutral (c : Control) : List Act → Outcome Unit Control → Prop where
  | refuses : c.authstate = .idle ∨ c.authstate = .netdown ∨ c.authstate = .disconnecting →
      CmdNeutral c [] (.goes () { c with opermode := .neutral })
  | disconnects (sent : Bool) : c.authstate ≠ .idle → c.authstate ≠ .netdown →
      c.authstate ≠ .disconnecting → CmdNeutral c [.nl .disconnect sent]
        (.goes () { c with opermode := .neutral, authstate := .disconnecting, timerset := false })

inductive CmdConnect (c : Control) : List Act → Outcome Unit Control → Prop where
  | refuses : CmdConnect c [] (.goes () c)
  | accepts {ks o} : c.Ready →
      Reassess { c with opermode := .oneshot, timerset := false } ks o → CmdConnect c ks o

/-- Forgetting a PSK may end the process. -/
inductive CmdForget (c : Control) : List Act → Outcome Unit Control → Prop where
  | goes : CmdForget c [] (.goes () c)
  | ends : CmdForget c [] .ends

def CmdEffect (c : Control) (msg : Msg) : List Act → Outcome Unit Control → Prop :=
  match msg.cmd with
  | .status | .device | .other => Stays c
  | .scan => fun ks o => ks = [] ∧ ∃ seq, o = .goes () (c.startScan 0 seq)
  | .neutral => CmdNeutral c
  | .connect => CmdConnect c
  | .forget => CmdForget c

theorem quiet_setRep (cn : ℕ) (rep : Bool) : control.Quiet (setRep cn rep) :=
  quiet_update fun _ => rfl

theorem quiet_reply (cn : ℕ) (err : Int) : control.Quiet (reply cn err) :=
  quiet_bind (quiet_emit rfl) fun _ => quiet_pure _

theorem cmdNeutral_does (cn : ℕ) (s : Daemon) :
    control.Does (cmdNeutral cn) s fun ks o => CmdNeutral s.toControl ks o.void := by
  unfold cmdNeutral
  rw [does_update_bind]
  refine does_bind (startDisconnect_does _) ?_ (fun ks h => nomatch h)
  intro ks ret c hstart s₁ h₁
  cases hstart with
  | already h =>
      rw [if_pos (by decide), does_pure, h₁]
      exact .refuses (h.imp_right .inl)
  | busy h =>
      rw [if_pos (by decide), does_pure, h₁]
      exact .refuses (.inr (.inr h))
  | starts sent h₁' h₂' h₃' =>
      rw [if_neg (by decide)]
      refine does_bind_quiet (quiet_setRep ..) fun _ s₂ h₂ => ?_
      unfold clrTimer
      rw [does_update_bind, does_pure]
      change CmdNeutral _ _ (.goes () { control.state s₂ with timerset := false })
      rw [h₂, h₁]
      exact .disconnects sent h₁' h₂' h₃'

theorem quiet_setFixed (ssid : Bytes) : control.Quiet (setFixed ssid) :=
  quiet_ite (quiet_pure _) <| quiet_bind (quiet_update fun _ => rfl) fun _ =>
    quiet_bind quiet_clearApBssid fun _ => quiet_bind (quiet_update fun _ => rfl) fun _ => quiet_pure _

theorem quiet_setFixedGiven (ssid psk : Bytes) : control.Quiet (setFixedGiven ssid psk) :=
  quiet_bind (quiet_setFixed ssid) fun _ => quiet_ite (quiet_pure _) <|
    quiet_bind (quiet_update fun _ => rfl) fun _ => quiet_pure _

theorem quiet_setFixedSaved (ssid : Bytes) : control.Quiet (setFixedSaved ssid) :=
  quiet_bind (quiet_loadPsk ssid) fun _ => quiet_ite (quiet_pure _) <|
    quiet_bind (quiet_setFixed ssid) fun _ => quiet_ite (quiet_pure _) <|
      quiet_bind (quiet_update fun _ => rfl) fun _ => quiet_pure _

theorem quiet_configureStation (msg : Msg) : control.Quiet (configureStation msg) := by
  refine quiet_bind (quiet_bind quiet_clearApBssid fun _ => quiet_clearApSsid) fun _ => ?_
  split
  · exact quiet_pure _
  split
  · exact quiet_setFixedSaved _
  · exact quiet_ite (quiet_setFixedGiven ..) (quiet_bind (quiet_warn _) fun _ => quiet_pure _)

theorem cmdConnect_does (cn : ℕ) (msg : Msg) (s : Daemon) :
    control.Does (cmdConnect cn msg) s fun ks o => CmdConnect s.toControl ks o.void := by
  unfold cmdConnect
  rw [does_read_bind]
  split
  · exact .refuses
  next ha =>
  split
  · exact .refuses
  next hs =>
  have hready : s.Ready := ⟨not_not.mp ha, not_not.mp hs⟩
  refine does_bind_quiet (quiet_configureStation msg) fun ret s₁ h₁ => ?_
  split
  · rw [does_pure, h₁]
    exact .refuses
  rw [does_update_bind]
  refine does_bind_quiet (quiet_setRep ..) fun _ s₂ h₂ => ?_
  refine does_bind_quiet (quiet_reply ..) fun ret s₃ h₃ => ?_
  unfold clrTimer
  rw [does_update_bind]
  refine does_bind (reassessWifiSituation_does _) ?_ ?_
  · intro ks _ c hr s₄ h₄
    change Reassess { control.state s₃ with timerset := false } _ _ at hr
    rw [h₃, h₂] at hr
    change Reassess { control.state s₁ with opermode := .oneshot, timerset := false } _ _ at hr
    rw [h₁] at hr
    rw [does_pure, h₄, List.append_nil]
    exact .accepts hready hr
  · intro ks hr
    change Reassess { control.state s₃ with timerset := false } _ _ at hr
    rw [h₃, h₂] at hr
    change Reassess { control.state s₁ with opermode := .oneshot, timerset := false } _ _ at hr
    rw [h₁] at hr
    exact .accepts hready hr

theorem cmdForget_does (msg : Msg) (s : Daemon) :
    control.Does (cmdForget msg) s fun ks o => CmdForget s.toControl ks o.void := by
  unfold cmdForget
  split
  · exact .goes
  next ssid _ =>
  have hdrop : control.Does (dropPsk ssid) s fun ks o => CmdForget s.toControl ks o.void := by
    refine does_bind_quiet (quiet_answer ..) fun io s₁ h₁ => ?_
    rw [does_read_bind]
    split
    · rw [does_update_bind, does_pure]
      change CmdForget _ _ (.goes () (control.state s₁))
      rw [h₁]
      exact .goes
    · exact .ends
  refine does_bind hdrop ?_ (fun ks h => by cases h; exact .ends)
  intro ks ret c h s₁ h₁
  cases h
  split
  · rw [does_pure, h₁]
    exact .goes
  · rw [does_update_bind, does_pure]
    change CmdForget _ _ (.goes () (control.state s₁))
    rw [h₁]
    exact .goes

theorem call_does (cn : ℕ) (msg : Msg) (s : Daemon) :
    control.Does (call cn msg) s fun ks o => CmdEffect s.toControl msg ks o.void := by
  unfold call CmdEffect
  split
  · next h =>
      simp only [h]
      refine does_mono ((quiet_bind (quiet_emit rfl) fun _ =>
        quiet_bind (quiet_setRep cn false) fun _ => quiet_pure _).does s) ?_
      rintro ks o ⟨rfl, _, rfl⟩
      exact ⟨rfl, rfl⟩
  · next h => simp only [h]; exact ⟨rfl, rfl⟩
  · next h =>
      simp only [h]
      refine does_bind (startScan_does 0 s) ?_ (fun ks h => by obtain ⟨-, -, -, ⟨⟩⟩ := h)
      rintro ks ret c ⟨rfl, _, seq, ⟨⟩⟩ s₁ h₁
      split
      · rw [does_pure, h₁]
        exact ⟨rfl, seq, rfl⟩
      · refine does_bind_quiet (quiet_setRep ..) fun _ s₂ h₂ => ?_
        rw [does_pure, h₂, h₁]
        exact ⟨rfl, seq, rfl⟩
  · next h => simp only [h]; exact cmdNeutral_does cn s
  · next h => simp only [h]; exact cmdConnect_does cn msg s
  · next h => simp only [h]; exact cmdForget_does msg s
  · next h => simp only [h]; exact ⟨rfl, rfl⟩

theorem dispatchCmd_does (cn : ℕ) (msg : Msg) (s : Daemon) :
    control.Does (dispatchCmd cn msg) s fun ks o => CmdEffect s.toControl msg ks o.void := by
  refine does_bind (call_does cn msg s) ?_ (fun ks h => h)
  intro ks ret c h s₁ h₁
  split
  · rw [does_pure, h₁, List.append_nil]
    exact h
  · refine does_mono ((quiet_reply cn ret).does s₁) ?_
    rintro ks' o ⟨rfl, _, rfl⟩
    rw [h₁, List.append_nil]
    exact h

end Cntrl

inductive TimerExpired (c : Control) : List Act → Outcome Unit Control → Prop where
  | exits : c.authstate = .netdown → c.rfkilled = false →
      TimerExpired c [] (.goes () { c with timerset := false, opermode := .exit })
  | idles : c.authstate = .netdown → c.rfkilled = true →
      TimerExpired c [] (.goes () { c with timerset := false, authstate := .idle })
  | bg_scans (seq : ℕ) : c.authstate = .connected → TimerExpired c []
      (.goes () { Control.startScan { c with timerset := false } 0 seq with timerset := true })
  | aborts {ks o} : c.authstate ≠ .idle → c.authstate ≠ .netdown → c.authstate ≠ .connected →
      Abort { c with timerset := false } ks o → TimerExpired c ks o
  | fg_scans (freq seq) : c.authstate = .idle →
      TimerExpired c [] (.goes () (Control.startScan { c with timerset := true } freq seq))

theorem routineBgScan_does (s : Daemon) :
    control.Does routineBgScan s fun ks o => ks = [] ∧ ∃ seq,
      o = .goes () { s.toControl.startScan 0 seq with timerset := true } := by
  refine does_bind (startScan_does 0 s) ?_ (fun ks h => by obtain ⟨-, -, -, ⟨⟩⟩ := h)
  rintro ks ret c ⟨rfl, _, seq, ⟨⟩⟩ s₁ h₁
  unfold setTimer
  rw [does_update]
  refine ⟨rfl, seq, ?_⟩
  change Outcome.goes () { control.state s₁ with timerset := true } = _
  rw [h₁]

theorem routineFgScan_does (s : Daemon) :
    control.Does routineFgScan s fun ks o => ks = [] ∧ ∃ freq seq,
      o = .goes () (Control.startScan { s.toControl with timerset := true } freq seq) := by
  have hscan (freq : Int) (s' : Daemon) (hc : s'.toControl = { s.toControl with timerset := true })
      {f : Handler Unit} (hf : control.Quiet f) : control.Does (do
        let _ ← startScan freq
        f) s' fun ks o => ks = [] ∧ ∃ freq seq,
          o = .goes () (Control.startScan { s.toControl with timerset := true } freq seq) := by
    refine does_bind (startScan_does freq s') ?_ (fun ks h => by obtain ⟨-, -, -, ⟨⟩⟩ := h)
    rintro ks ret c ⟨rfl, _, seq, ⟨⟩⟩ s₁ h₁
    refine does_quiet hf ⟨rfl, freq, seq, ?_⟩
    rw [h₁, hc]
  unfold routineFgScan setTimer
  rw [does_read_bind]
  split
  · rw [does_update_bind]
    exact hscan 0 _ rfl (quiet_pure ())
  split
  · rw [does_update_bind, does_update_bind, does_read_bind]
    exact hscan _ _ rfl (quiet_when (quiet_update fun _ => rfl))
  · rw [does_update_bind]
    exact hscan _ _ rfl (quiet_pure ())

theorem timerExpired_does (s : Daemon) :
    control.Does timerExpired s (TimerExpired s.toControl) := by
  unfold timerExpired clrTimer
  rw [does_update_bind, does_read_bind]
  dsimp only
  split
  · next h =>
      split
      · next hk => exact .exits h (by simpa using hk)
      · next hk => exact .idles h (by simpa using hk)
  next hdown =>
  split
  · next h =>
      refine does_mono (routineBgScan_does _) ?_
      rintro ks o ⟨rfl, seq, rfl⟩
      exact .bg_scans seq h
  next hconn =>
  split
  · next h => exact does_mono (abortConnection_does _) fun ks o ha => .aborts h hdown hconn ha
  · next h =>
      refine does_mono (routineFgScan_does _) ?_
      rintro ks o ⟨rfl, freq, seq, rfl⟩
      exact .fg_scans freq seq (not_not.mp h)

/-- Whether an rfkill event is about the device below the interface. -/
def Daemon.watches (s : Daemon) (re : RfkillEvent) : Bool :=
  re.wlan && if s.rfkidx < 0 then s.env.statRfkill.headD true else re.idx = s.rfkidx

/-- Whether the interface can be brought up. -/
def Daemon.ifaceUp (s : Daemon) : Bool := s.env.ifaceUp.headD true

inductive RfkillEffect (s : Daemon) (re : RfkillEvent) : List Act → Outcome Unit Control → Prop where
  | other : s.watches re = false → RfkillEffect s re [] (.goes () s.toControl)
  | kills : s.watches re = true → (re.soft || re.hard) = true →
      RfkillEffect s re [] (.goes () { s.toControl with rfkilled := true, timerset := false })
  | quits {ks} : s.watches re = true → (re.soft || re.hard) = false → s.ifaceUp = false →
      Quits s.toControl ks → RfkillEffect s re ks .ends
  | revives : s.watches re = true → (re.soft || re.hard) = false → s.ifaceUp = true →
      s.authstate ≠ .netdown →
      RfkillEffect s re [] (.goes () { s.toControl with rfkilled := false })
  | rescans (freq seq) : s.watches re = true → (re.soft || re.hard) = false → s.ifaceUp = true →
      s.authstate = .netdown → s.opermode = .rescan → RfkillEffect s re [] (.goes ()
        (Control.startScan { s.toControl with rfkilled := false, authstate := .idle } freq seq))
  | reassesses {ks o} : s.watches re = true → (re.soft || re.hard) = false → s.ifaceUp = true →
      s.authstate = .netdown → s.opermode ≠ .rescan →
      Reassess { s.toControl with rfkilled := false, authstate := .idle } ks o →
      RfkillEffect s re ks o

theorem bringIfaceUp_does (s : Daemon) :
    control.Does bringIfaceUp s fun ks o =>
      (s.ifaceUp = true ∧ ks = [] ∧ o = .goes () s.toControl) ∨
        (s.ifaceUp = false ∧ Quits s.toControl ks ∧ o = .ends) := by
  unfold bringIfaceUp Handler.answerIfaceUp
  rw [does_answer_bind]
  split
  · next h => exact .inl ⟨h, rfl, rfl⟩
  · next h =>
      refine does_mono (quit_does _ _) fun ks o hq => ?_
      exact .inr ⟨eq_false_of_ne_true h, hq.2, hq.1⟩

theorem handleRfrestored_does (s : Daemon) :
    control.Does handleRfrestored s fun ks o =>
      (s.authstate ≠ .netdown ∧ Stays s.toControl ks o) ∨
      (s.authstate = .netdown ∧ s.opermode = .rescan ∧ ks = [] ∧ ∃ freq seq,
        o = .goes () (Control.startScan { s.toControl with authstate := .idle } freq seq)) ∨
      (s.authstate = .netdown ∧ s.opermode ≠ .rescan ∧
        Reassess { s.toControl with authstate := .idle } ks o) := by
  unfold handleRfrestored
  rw [does_read_bind]
  split
  · next h => exact .inl ⟨h, rfl, rfl⟩
  next h =>
  rw [not_not] at h
  rw [does_update_bind, does_read_bind]
  dsimp only
  split
  · next hm =>
      refine does_mono (rescanCurrentAp_does _) ?_
      rintro ks o ⟨rfl, freq, seq, rfl⟩
      refine .inr (.inl ⟨h, hm, rfl, freq, seq, ?_⟩)
      dsimp only
      rw [← hm]
  · next hm => exact does_mono (reassessWifiSituation_does _) fun ks o hr => .inr (.inr ⟨h, hm, hr⟩)

theorem switchRfkill_does {re : RfkillEvent} {s t : Daemon} (hw : s.watches re = true)
    (hc : t.toControl = s.toControl) (hup : t.ifaceUp = s.ifaceUp) :
    control.Does (switchRfkill re) t (RfkillEffect s re) := by
  unfold switchRfkill
  split
  · next h =>
      unfold clrTimer
      rw [does_update_bind, does_update]
      change RfkillEffect _ _ _ (.goes () { t.toControl with rfkilled := true, timerset := false })
      rw [hc]
      exact .kills hw h
  next h =>
  rw [Bool.not_eq_true] at h
  rw [does_update_bind]
  refine does_bind (bringIfaceUp_does _) ?_ ?_
  · rintro ks _ c (⟨hok, rfl, ⟨⟩⟩ | ⟨-, -, ⟨⟩⟩) s₁ h₁
    have hok : s.ifaceUp = true := hup.symm.trans hok
    have h₁ : s₁.toControl = { s.toControl with rfkilled := false } := by
      refine Eq.trans h₁ ?_
      change { t.toControl with rfkilled := false } = _
      rw [hc]
    refine does_mono (handleRfrestored_does s₁) fun ks o hr => ?_
    rw [h₁] at hr
    rcases hr with ⟨ha, rfl, rfl⟩ | ⟨ha, hm, rfl, freq, seq, rfl⟩ | ⟨ha, hm, hr⟩
    · exact .revives hw h hok ha
    · exact .rescans freq seq hw h hok ha hm
    · exact .reassesses hw h hok ha hm hr
  · rintro ks (⟨-, -, ⟨⟩⟩ | ⟨hno, hq, -⟩)
    have hno : s.ifaceUp = false := hup.symm.trans hno
    refine .quits hw h hno ?_
    have ha : t.authstate = s.authstate := congrArg Control.authstate hc
    cases hq with
    | idle h => exact .idle (ha.symm.trans h)
    | disconnects sent h => exact .disconnects sent (ha ▸ h)

theorem handleRfkill_does (re : RfkillEvent) (s : Daemon) :
    control.Does (handleRfkill re) s (RfkillEffect s re) := by
  unfold handleRfkill
  split
  swap
  · next h => exact .other (by rw [Daemon.watches, eq_false_of_ne_true h, Bool.false_and])
  next hwlan =>
  unfold handleRfkillEvent
  rw [does_read_bind]
  split
  · next hidx =>
      unfold Handler.answerStatRfkill
      rw [does_answer_bind]
      have hw : s.watches re = s.env.statRfkill.headD true := by
        rw [Daemon.watches, hwlan, if_pos hidx, Bool.true_and]
      split
      · next h =>
          rw [does_update_bind]
          exact switchRfkill_does (hw.trans h) rfl rfl
      · next h =>
          exact .other (hw.trans (eq_false_of_ne_true h))
  next hidx =>
  have hw : s.watches re = decide (re.idx = s.rfkidx) := by
    rw [Daemon.watches, hwlan, if_neg hidx, Bool.true_and]
  split
  · next h => exact .other (hw.trans (decide_eq_false h))
  · next h => exact switchRfkill_does (hw.trans (decide_eq_true (not_not.mp h))) rfl rfl

inductive Xshutdown (c : Control) : List Act → Outcome Unit Control → Prop where
  | second {ks} : c.opermode = .exit ∨ c.opermode = .exitreq → Quits c ks → Xshutdown c ks .ends
  | exits : c.opermode ≠ .exit → c.opermode ≠ .exitreq →
      c.authstate = .idle ∨ c.authstate = .netdown ∨ c.authstate = .disconnecting →
      Xshutdown c [] (.goes () { c with opermode := .exit })
  | requests (sent : Bool) : c.opermode ≠ .exit → c.opermode ≠ .exitreq → c.authstate ≠ .idle →
      c.authstate ≠ .netdown → c.authstate ≠ .disconnecting → Xshutdown c [.nl .disconnect sent]
        (.goes () { c with opermode := .exitreq, authstate := .disconnecting })

theorem xshutdown_does (s : Daemon) : control.Does xshutdown s (Xshutdown s.toControl) := by
  unfold xshutdown
  rw [does_read_bind]
  split
  · next h =>
      refine does_mono (quit_does _ s) ?_
      rintro ks o ⟨rfl, hq⟩
      exact .second h hq
  next hmode =>
  rw [not_or] at hmode
  split
  · next h => exact .exits hmode.1 hmode.2 (h.imp_right .inl)
  next ha =>
  rw [not_or] at ha
  refine does_bind (startDisconnect_does s) ?_ (fun ks h => nomatch h)
  intro ks ret c hstart s₁ h₁
  rw [does_update]
  change Xshutdown _ _ (.goes () { control.state s₁ with opermode := if ret < 0 then .exit else .exitreq })
  rw [h₁]
  cases hstart with
  | already h => exact absurd h (not_or.mpr ha)
  | busy h => exact .exits hmode.1 hmode.2 (.inr (.inr h))
  | starts sent _ _ h => exact .requests sent hmode.1 hmode.2 ha.1 ha.2 h

/-- What an event does, from the daemon with the answers of the calls at hand. -/
def EventKind.effect (s : Daemon) : EventKind → List Act → Outcome Unit Control → Prop
  | .connMsg _ msg => Cntrl.CmdEffect s.toControl msg
  | .netlink msg => Netlink.MsgEffect s msg
  | .frame sender data => Frame s sender data
  | .rfkill re => RfkillEffect s re
  | .timer => TimerExpired s.toControl
  | .sigterm => Xshutdown s.toControl
  | .netlinkLost | .controlLost | .pollError => fun ks o => o = .ends ∧ Quits s.toControl ks
  | .turn => fun ks o => ks = [] ∧ o = if s.opermode = .exit then .ends else .goes () s.toControl
  | .connEnd .. | .connHup _ | .frameError | .rawsockLost | .accept _ | .rfkillLost | .reap .. =>
      Stays s.toControl

theorem quiet_reapDhcp (pid : Int) (exited signaled : Bool) :
    control.Quiet (reapDhcp pid exited signaled) :=
  quiet_read_bind fun _ => quiet_ite (quiet_pure _) <| quiet_bind (quiet_update fun _ => rfl) fun _ =>
    quiet_bind (quiet_when (quiet_warn _)) fun _ => quiet_when (quiet_warn _)

theorem quiet_acceptConn (cfd : Int) : control.Quiet (Cntrl.acceptConn cfd) := by
  refine quiet_read_bind fun s => ?_
  split
  · exact quiet_update fun _ => rfl
  · exact quiet_pure ()

theorem turn_does (s : Daemon) :
    control.Does EventKind.turn.handler s (EventKind.turn.effect s) := by
  unfold EventKind.handler EventKind.effect
  refine does_bind_quiet (quiet_bind (quiet_answer ..) fun _ => quiet_update fun _ => rfl)
    fun _ s₁ h₁ => ?_
  have h₁ : s₁.toControl = s.toControl := h₁
  rw [does_read_bind, show s₁.opermode = s.opermode by rw [h₁]]
  split
  · unfold saveState
    refine does_bind_quiet (quiet_read_bind fun _ => quiet_ite (quiet_emit rfl) (quiet_pure ()))
      fun _ s₂ h₂ => ?_
    exact ⟨rfl, rfl⟩
  · exact ⟨rfl, congrArg (Outcome.goes ()) h₁⟩

theorem EventKind.handler_does (k : EventKind) (s : Daemon) :
    control.Does k.handler s (k.effect s) := by
  cases k with
  | connMsg cn msg =>
      refine does_bind (Cntrl.dispatchCmd_does cn msg s) ?_ (fun ks h => h)
      intro ks ret c h s₁ h₁
      rw [does_pure, h₁, List.append_nil]
      exact h
  | connEnd cn fault => exact does_stays (quiet_ite (quiet_emit rfl) (quiet_pure ())) s
  | connHup cn => exact does_stays (quiet_update fun _ => rfl) s
  | netlink msg => exact Netlink.handleMsg_does msg s
  | netlinkLost => exact quit_does _ s
  | frame sender data => exact handleRawsock_does sender data s
  | frameError => exact does_stays (quiet_warn _) s
  | rawsockLost => exact does_stays (quiet_update fun _ => rfl) s
  | accept cfd => exact does_stays (quiet_acceptConn cfd) s
  | controlLost => exact quit_does _ s
  | rfkill re => exact handleRfkill_does re s
  | rfkillLost => exact does_stays (quiet_update fun _ => rfl) s
  | timer => exact timerExpired_does s
  | sigterm => exact xshutdown_does s
  | pollError => exact quit_does _ s
  | reap pid exited signaled => exact does_stays (quiet_reapDhcp ..) s
  | turn => exact turn_does s

namespace System

/-- A step as its handler comes out, in a view. -/
def seen {κ : Type} (V : View Daemon Act κ) (x : System) : Outcome Unit κ :=
  if x.halted then .ends else .goes () (V.state x.toDaemon)

def outcome (x : System) : Outcome Unit Control := if x.halted then .ends else .goes () x.toControl

/-- What is known of a handler is known of the step. -/
theorem step_does {κ : Type} {V : View Daemon Act κ} {x : System} {e : Event}
    {E : List Act → Outcome Unit κ → Prop} (h : V.Does e.kind.handler (x.before e) E) :
    E (V.outputs (x.step e).2) ((x.step e).1.seen V) := by
  unfold View.Does wp at h
  unfold step
  cases hm : e.kind.handler (x.before e) with
  | ok a s out =>
      rw [hm] at h
      exact h
  | halt s out =>
      rw [hm] at h
      exact h

theorem step_ok {x : System} {e : Event} {a : Unit} {s : Daemon} {out : List Act}
    (h : e.kind.handler (x.before e) = .ok a s out) :
    x.step e = ({ toDaemon := s, turn := e.kind.next x.turn s }, out) := by
  rw [step, h]

theorem step_halt {x : System} {e : Event} {s : Daemon} {out : List Act}
    (h : e.kind.handler (x.before e) = .halt s out) :
    x.step e = ({ toDaemon := s, turn := x.turn, halted := true }, out) := by
  rw [step, h]

theorem step_wp {x : System} {e : Event} {P : System → List Act → Prop}
    (h : wp e.kind.handler (fun _ s l => ∀ turn, P { toDaemon := s, turn := turn } l)
      (fun s l => ∀ turn, P { toDaemon := s, turn := turn, halted := true } l) (x.before e)) :
    P (x.step e).1 (x.step e).2 := by
  unfold step
  unfold wp at h
  cases hres : e.kind.handler (x.before e) with
  | ok a s l =>
      rw [hres] at h
      exact h _
  | halt s l =>
      rw [hres] at h
      exact h _

/-- What a step that never ends the process comes to. -/
theorem step_comesBack {x : System} {e : Event} {Q : Daemon → List Act → Prop}
    (h : wp e.kind.handler (fun _ s l => Q s l) (fun _ _ => False) (x.before e)) :
    Q (x.step e).1.toDaemon (x.step e).2 :=
  step_wp (P := fun y l => Q y.toDaemon l) (wp_mono h (fun _ _ _ h _ => h) fun _ _ h => h.elim)

theorem step_effect (x : System) (e : Event) :
    e.kind.effect (x.before e) (control.outputs (x.step e).2) (x.step e).1.outcome :=
  step_does (e.kind.handler_does (x.before e))

theorem outcome_running {x : System} (h : x.halted = false) : x.outcome = .goes () x.toControl := by
  rw [outcome, h]
  rfl

theorem outcome_returns {P : Control → Prop} (x : System) :
    x.outcome.Returns P ↔ (x.halted = false → P x.toControl) := by
  unfold outcome
  cases x.halted with
  | false => exact ⟨fun h _ => h, fun h => h rfl⟩
  | true => exact ⟨fun _ => (by simp), fun _ => trivial⟩

theorem control_run {μ : Type} {D : Monitor Act μ} (hD : ∀ a, a.shown = false → D.Ignores a)
    (m : μ) (as : List Act) : D.run m (control.outputs as) = D.run m as ∧
      (D.Accepts m (control.outputs as) ↔ D.Accepts m as) :=
  Monitor.run_filter hD m as

/-- The same with a monitor that has read the outputs. -/
theorem watch_keeps {μ : Type} {D : Monitor Act μ} {I : Control → μ → Prop}
    (hD : ∀ a, a.shown = false → D.Ignores a)
    (h : ∀ (s : Daemon) k m ks c', I s.toControl m → EventKind.effect s k ks (.goes () c') →
      I c' (D.run m ks))
    (x : System × μ) (e : Event) (hx : x.1.halted = false → I x.1.toControl x.2)
    (he : (D.watch supplicant).enabled x e) :
    ((D.watch supplicant).step x e).1.1.halted = false →
      I ((D.watch supplicant).step x e).1.1.toControl ((D.watch supplicant).step x e).1.2 := by
  intro hrun
  have heff := step_effect x.1 e
  rw [outcome_running (x := (x.1.step e).1) hrun] at heff
  have hkeep := h (x.1.before e) _ _ _ _ (hx he.1) heff
  rwa [(control_run hD _ _).1] at hkeep

end System

theorem quiet_retryRfkill : control.Quiet retryRfkill :=
  quiet_read_bind fun _ => quiet_ite (quiet_pure _) <| quiet_bind (quiet_answer ..) fun _ =>
    quiet_update fun _ => rfl

theorem loadState_does (file : Option Bytes) (s : Daemon) :
    control.Does (loadState file) s fun ks o => ks = [] ∧
      (o = .goes () s.toControl ∨ o = .goes () { s.toControl with opermode := .active }) := by
  unfold loadState
  split
  · exact ⟨rfl, .inl rfl⟩
  · refine does_bind_quiet (Cntrl.quiet_setFixedSaved _) fun ret s₁ h₁ => ?_
    have h₁ : s₁.toControl = s.toControl := h₁
    split
    · exact ⟨rfl, .inl (congrArg (Outcome.goes ()) h₁)⟩
    · exact ⟨rfl, .inr (congrArg (fun c : Control => Outcome.goes () { c with opermode := .active }) h₁)⟩

/-- The variables as the loop starts: no connection, and a first scan under way. -/
def Control.Starts (c c' : Control) : Prop :=
  ∃ mode freq seq, (mode = .neutral ∨ mode = .active) ∧
    c' = Control.startScan { c with opermode := mode, timerset := true } freq seq

theorem boot_does (file : Option Bytes) (s : Daemon) :
    control.Does (boot file) s fun ks o => ks = [] ∧ ∃ c', o = .goes () c' ∧ s.toControl.Starts c' := by
  refine does_bind_quiet quiet_retryRfkill fun _ s₁ h₁ => ?_
  have h₁ : s₁.toControl = s.toControl := h₁
  rw [does_update_bind]
  refine does_bind (loadState_does file _) ?_ (fun ks h => by obtain ⟨-, ⟨⟨⟩⟩ | ⟨⟨⟩⟩⟩ := h)
  rintro ks _ c ⟨rfl, ho⟩ s₂ h₂
  have hmode : ∃ mode, (mode = .neutral ∨ mode = .active) ∧
      s₂.toControl = { s.toControl with opermode := mode } := by
    rw [← h₁, ← control_state s₂, h₂]
    rcases ho with ⟨⟨⟩⟩ | ⟨⟨⟩⟩
    · exact ⟨.neutral, .inl rfl, rfl⟩
    · exact ⟨.active, .inr rfl, rfl⟩
  obtain ⟨mode, hm, hc⟩ := hmode
  refine does_mono (routineFgScan_does s₂) ?_
  rintro ks o ⟨rfl, freq, seq, rfl⟩
  refine ⟨rfl, _, rfl, mode, freq, seq, hm, ?_⟩
  rw [hc]

theorem System.Initial.starts {x : System} (h : x.Initial) :
    x.halted = false ∧ Control.Starts {} x.toControl := by
  obtain ⟨smac, ifindex, psks, file, env, -, rfl⟩ := h
  have hboot := boot_does file (.fresh smac ifindex psks env)
  unfold View.Does wp at hboot
  unfold started
  cases hb : boot file (.fresh smac ifindex psks env) with
  | ok a s out =>
      rw [hb] at hboot
      obtain ⟨-, c', ⟨⟩, hc⟩ := hboot
      exact ⟨rfl, hc⟩
  | halt s out =>
      rw [hb] at hboot
      obtain ⟨-, c', ⟨⟩, -⟩ := hboot

namespace Sample

def ssid : Bytes := [0x78]
def psk : Bytes := List.replicate 32 7
def bssid : Bytes := [2, 0, 0, 0, 0, 1]

def ies : Bytes := [0, 1, 0x78] ++ iesCcmpCcmp

def event (k : EventKind) : Event := { kind := k }

def notice (cmd : Netlink.Code) : Event := event (.netlink (.gen { ifi := some 3, cmd := cmd }))

def found : Event := event <| .netlink <| .gen
  { ifi := some 3, cmd := .newScanResults, multi := true
    bss := some { bssid := some bssid, freq := some 2412, signal := some (-5000), ies := some ies } }

def connect : Event := event (.connMsg 0 { cmd := .connect, ssid := some ssid, psk := some psk })

/-- The first message of the client in a turn. -/
def asks (cmd : Cntrl.Cmd) : Event := event (.connMsg 0 { cmd := cmd })

/-- An event under which the EAPOL socket takes no reply. -/
def refused (e : Event) : Event := { e with env := { rawSend := [-1] } }

/-- Packet 1/4 with the given replay counter. -/
def packet1 (counter : UInt8) : Event := event <| .frame bssid <|
  buildPacket 1 95 (KI_SHA + KI_PAIRWISE + KI_ACK) 16 (Bytes.zeros 7 ++ [counter])
    (List.replicate 32 1) (Bytes.zeros 16) []

def start : System := .started none (.fresh [2, 0, 0, 0, 0, 9] 3 [] {})

theorem start_initial : start.Initial := ⟨[2, 0, 0, 0, 0, 9], 3, [], none, {}, rfl, rfl⟩

/-- The station has the PSK of the access point of `found`. -/
def knows : System :=
  .started none (.fresh [2, 0, 0, 0, 0, 9] 3 (Config.fmtBytes psk ++ [0x20] ++ ssid ++ [0x0A]) {})

theorem knows_initial : knows.Initial := ⟨_, _, _, none, {}, rfl, rfl⟩

/-- The first scan, and the command to connect to what it found. -/
def joining : List Event :=
  [event (.accept 5), event .turn, notice .newScanResults, found, event (.netlink .done), event .turn,
    connect]

/-- Packet 3/4 of the handshake that `packet1 5` begins. -/
def packet3 : Event :=
  event <| .frame bssid <| signPacket
    [69, 67, 132, 180, 16, 244, 128, 30, 200, 208, 96, 13, 156, 177, 200, 23] 1 127
    (KI_SHA + KI_PAIRWISE + KI_ACK + KI_MIC + KI_ENCRYPTED + KI_SECURE) 16
    (Bytes.zeros 7 ++ [6]) (List.replicate 32 1)
    [195, 232, 113, 121, 142, 102, 191, 127, 42, 157, 48, 141, 33, 131, 28, 10,
      100, 111, 255, 86, 1, 254, 207, 175, 162, 107, 91, 236, 15, 54, 86, 99]

/-- The first packet 1/2 after it, with another group key. -/
def groupPacket : Event :=
  event <| .frame bssid <| signPacket
    [69, 67, 132, 180, 16, 244, 128, 30, 200, 208, 96, 13, 156, 177, 200, 23] 1 127
    (KI_SHA + KI_ACK + KI_MIC + KI_ENCRYPTED + KI_SECURE) 16
    (Bytes.zeros 7 ++ [7]) (Bytes.zeros 32)
    [188, 212, 69, 99, 75, 57, 225, 121, 5, 118, 121, 153, 30, 161, 26, 55,
      177, 93, 240, 77, 90, 36, 33, 118, 9, 168, 176, 166, 81, 242, 133, 192]

/-- From the command to the keys of the connection. -/
def handshake : List Event :=
  joining ++ [notice .authenticate, notice .associate, notice .connect, packet1 5, event .turn, packet3, event .turn]

theorem handshake_valid : supplicant.Valid start (handshake ++ [groupPacket]) := by
  decide +kernel

end Sample

end Wsupp

import Wsupp.Apsel
import Wsupp.Reactive.View

/-!
# The control variables under connecting and disconnecting

What the commands and the choice of the access point do to `Control`, the variables
of the three state machines, seen without the tables, the configuration and the
clients. Each relation has one case for each way its function goes; the lemma after
it says that the function does what the relation allows.

Outputs that concern neither the kernel nor the keys nor a connection are left out
as well. The relations are what the later modules split on: nothing above them
unfolds a handler again, and a change of a handler is met by its relation and the
one lemma next to it.
-/
namespace Wsupp
open Reactive Prog View

/-- The outputs that the properties of the state machines are about. -/
def Act.shown : Act → Bool
  | .nl (.authenticate ..) _ | .nl (.associate ..) _ | .nl .disconnect _ => true
  | .nlAck .. | .eapol .. | .startDhcp _ | .call _ => true
  | .report (.connected ..) _ => true
  | _ => false

def control : View Daemon Act Control where
  state := Daemon.toControl
  shows := Act.shown

@[simp] theorem control_state (s : Daemon) : control.state s = s.toControl := rfl

@[simp] theorem control_outputs_cons (a : Act) (l : List Act) :
    control.outputs (a :: l) = if a.shown then a :: control.outputs l else control.outputs l := by
  simp [View.outputs, control, List.filter_cons]

theorem quiet_answer {α : Type} (get : Env → List α) (set : Env → List α → Env) (dflt : α) :
    control.Quiet (Handler.answer get set dflt) :=
  ⟨fun _ => ⟨rfl, _, rfl⟩⟩

theorem does_answer_bind {α β : Type} (get : Env → List α) (set : Env → List α → Env) (dflt : α)
    (f : α → Handler β) (s : Daemon) (E : List Act → Outcome β Control → Prop) :
    control.Does (Handler.answer get set dflt >>= f) s E ↔
      control.Does (f ((get s.env).headD dflt)) { s with env := set s.env (get s.env).tail } E := by
  unfold Handler.answer View.Does
  simp only [wp_bind, wp_read, wp_update, wp_pure, List.nil_append]

theorem quiet_warn (text : String) : control.Quiet (Handler.warn text) := quiet_emit rfl

theorem quiet_sendReport {r : Report} (h : Act.shown (.report r []) = false) :
    control.Quiet (sendReport r) :=
  quiet_read_bind fun _ => quiet_emit (by cases r <;> first | rfl | cases h)

theorem quiet_killDhcp : control.Quiet killDhcp :=
  quiet_read_bind fun _ => quiet_ite (quiet_pure _) (quiet_emit rfl)

theorem quiet_modifyFlags (i : ℕ) (f : ScanFlags → ScanFlags) : control.Quiet (modifyFlags i f) :=
  quiet_update fun _ => rfl

theorem quiet_flagSlot (sc : Option ℕ) (f : ScanFlags → ScanFlags) : control.Quiet (flagSlot sc f) := by
  cases sc with
  | none => exact quiet_pure ()
  | some i => exact quiet_modifyFlags i f

theorem quiet_clearApBssid : control.Quiet clearApBssid := quiet_update fun _ => rfl

theorem quiet_clearApSsid : control.Quiet clearApSsid := quiet_update fun _ => rfl

theorem quiet_reportDisconnect : control.Quiet reportDisconnect :=
  quiet_read_bind fun _ => quiet_sendReport rfl

theorem quiet_loadPsk (ssid : Bytes) : control.Quiet (loadPsk ssid) :=
  quiet_bind (quiet_answer ..) fun _ => quiet_read_bind fun _ =>
    quiet_bind (quiet_update fun _ => rfl) fun _ => quiet_pure _

theorem quiet_setCurrentAp (i : ℕ) : control.Quiet (setCurrentAp i) := by
  refine quiet_read_bind fun s => quiet_bind (quiet_modifyFlags ..) fun _ =>
    quiet_bind (quiet_update fun _ => rfl) fun _ => quiet_ite (quiet_pure _) ?_
  refine quiet_bind (quiet_update fun _ => rfl) fun _ => quiet_ite (quiet_pure _) ?_
  exact quiet_bind (quiet_update fun _ => rfl) fun _ => quiet_read_bind fun _ =>
    quiet_bind (quiet_loadPsk _) fun _ => quiet_ite (quiet_pure _) (quiet_pure _)

/-- What goes to the kernel when the process quits: nothing from an idle state, and a
DISCONNECT it waits for otherwise. -/
inductive Quits (c : Control) : List Act → Prop where
  | idle : c.authstate = .idle → Quits c []
  | disconnects (sent : Bool) : c.authstate ≠ .idle → Quits c [.nlAck .disconnect sent]

theorem quit_does {α : Type} (text : String) (s : Daemon) :
    control.Does (quit text : Handler α) s fun ks o => o = .ends ∧ Quits s.toControl ks := by
  unfold quit
  refine does_bind_quiet (quiet_warn _) fun _ s' hs => ?_
  rw [does_read_bind, ← show s'.toControl = s.toControl from hs]
  split
  · next h => simpa [Act.shown] using Quits.idle h
  · next h =>
      rw [does_update_bind]
      refine does_bind_quiet (quiet_answer ..) fun rd _ _ => ?_
      simpa [Act.shown] using Quits.disconnects (0 < rd) h

theorem nlSend_does (cmd : NlCommand) (s : Daemon) :
    control.Does (nlSend cmd) s fun ks o => ∃ sent ret,
      ks = control.outputs [.nl cmd sent] ∧ 0 ≤ ret ∧ o = .goes ret s.toControl := by
  unfold nlSend
  rw [does_update_bind]
  refine does_bind_quiet (quiet_answer ..) fun rd s' hs => ?_
  rw [does_emit_bind, does_pure]
  refine ⟨_, _, List.append_nil _, ?_, congrArg _ hs⟩
  split <;> decide

theorem sendCheck_does (cmd : NlCommand) (s : Daemon) :
    control.Does (sendCheck cmd) s fun ks o => ∃ sent,
      ks = control.outputs [.nl cmd sent] ∧ o = .goes () s.toControl := by
  refine does_bind (nlSend_does cmd s) ?_ ?_
  · rintro ks ret c ⟨sent, _, rfl, hret, ⟨⟩⟩ s' hc
    rw [if_pos hret, does_pure, hc]
    exact ⟨sent, List.append_nil _, rfl⟩
  · rintro ks ⟨-, -, -, -, ⟨⟩⟩

theorem sendSetAuthstate_does (cmd : NlCommand) (as : AuthState) (s : Daemon) :
    control.Does (sendSetAuthstate cmd as) s fun ks o => ∃ sent,
      ks = control.outputs [.nl cmd sent] ∧ o = .goes () { s.toControl with authstate := as } := by
  refine does_bind (sendCheck_does cmd s) ?_ ?_
  · rintro ks _ c ⟨sent, rfl, ⟨⟩⟩ s' hc
    exact ⟨sent, List.append_nil _, congrArg (fun c : Control => Outcome.goes () { c with authstate := as }) hc⟩
  · rintro ks ⟨-, -, ⟨⟩⟩

/-- `Control` after `start_scan`; the sequence number is that of the command. -/
def Control.startScan (c : Control) (freq : Int) (seq : ℕ) : Control :=
  if c.scanstate = .idle then { c with
    scanstate := .scanning, scanseq := seq
    scanreq := if 0 < freq then
        { c.scanreq.add freq with scanningOneFreq := true, reconnectCurrent := true }
      else c.scanreq.add freq }
  else if c.scanreq.scanningOneFreq then c
  else { c with scanreq := c.scanreq.add freq }

theorem triggerScan_does (freq : Int) (s : Daemon) :
    control.Does (triggerScan freq) s fun ks o => ks = [] ∧ ∃ ret seq, o = .goes ret { s.toControl with
      scanstate := .scanning, scanseq := seq
      scanreq := if 0 < freq then { s.scanreq with scanningOneFreq := true, reconnectCurrent := true }
        else s.scanreq } := by
  have hrest (cmd : NlCommand) (hcmd : ∀ b, control.outputs [.nl cmd b] = []) (s' : Daemon) :
      control.Does (do
      let ret ← nlSend cmd
      if ret < 0 then do
        update fun s => { s with scanreq := {} }
        pure ret
      else do
        update fun s => { s with scanstate := .scanning, scanseq := s.seq }
        pure 0 : Handler Int) s' fun ks o => ks = [] ∧ ∃ ret seq,
          o = .goes ret { s'.toControl with scanstate := .scanning, scanseq := seq } := by
    refine does_bind (nlSend_does _ s') ?_ ?_
    · rintro ks ret c ⟨sent, _, rfl, hret, ⟨⟩⟩ t hc
      rw [if_neg (by omega), does_update_bind, does_pure]
      exact ⟨by rw [hcmd]; rfl, 0, t.seq,
        congrArg (fun c : Control => Outcome.goes 0 { c with scanstate := .scanning, scanseq := t.seq }) hc⟩
    · rintro ks ⟨-, -, -, -, ⟨⟩⟩
  unfold triggerScan when
  split
  · rw [does_update_bind]
    exact hrest _ (fun _ => rfl) _
  · rw [does_pure_bind]
    exact hrest _ (fun _ => rfl) _

theorem startScan_does (freq : Int) (s : Daemon) :
    control.Does (startScan freq) s fun ks o =>
      ks = [] ∧ ∃ ret seq, o = .goes ret (s.toControl.startScan freq seq) := by
  unfold startScan Control.startScan
  rw [does_read_bind]
  split
  · rw [does_update_bind]
    exact triggerScan_does freq _
  · split
    · exact ⟨rfl, _, 0, rfl⟩
    · exact ⟨rfl, _, 0, rfl⟩

theorem triggerScanDump_does (s : Daemon) :
    control.Does triggerScanDump s fun ks o => ks = [] ∧ ∃ seq,
      o = .goes () { s.toControl with scanstate := .scandump, scanseq := seq } := by
  refine does_bind (nlSend_does _ s) ?_ ?_
  · rintro ks ret c ⟨sent, _, rfl, hret, ⟨⟩⟩ t hc
    rw [if_neg (by omega), does_update]
    exact ⟨rfl, t.seq,
      congrArg (fun c : Control => Outcome.goes () { c with scanstate := .scandump, scanseq := t.seq }) hc⟩
  · rintro ks ⟨-, -, -, -, ⟨⟩⟩

/-- `start_connection`, by whether an EAPOL socket is open or can be opened. Where it
cannot the process ends; in a state with a connection nothing is begun. -/
inductive StartConnection (c : Control) (socket : Bool) : List Act → Outcome Int Control → Prop where
  | busy : c.authstate ≠ .idle ∨ c.scanstate ≠ .idle → StartConnection c socket [] (.goes (-EBUSY) c)
  | starts (bssid freq ssid) (sent : Bool) : c.authstate = .idle → c.scanstate = .idle →
      socket = true → StartConnection c socket [.nl (.authenticate bssid freq ssid) sent]
        (.goes 0 { c with authstate := .authenticating })
  | ends : c.authstate = .idle → c.scanstate = .idle → socket = false →
      StartConnection c socket [] .ends

/-- Whether `reopen_rawsock` comes back. -/
def Daemon.socket (s : Daemon) : Bool := s.rawsock || s.env.openRawsock.headD true

theorem reopenRawsock_does (s : Daemon) :
    control.Does reopenRawsock s fun ks o =>
      (s.socket = true ∧ ks = [] ∧ o = .goes () s.toControl) ∨
        (s.socket = false ∧ Quits s.toControl ks ∧ o = .ends) := by
  unfold reopenRawsock
  rw [does_read_bind]
  split
  · next h => exact .inl ⟨by rw [Daemon.socket, h, Bool.true_or], rfl, rfl⟩
  · next h =>
      unfold openRawsock Handler.answerOpenRawsock
      rw [does_answer_bind]
      split
      · next hok => exact .inl ⟨by rw [Daemon.socket, hok, Bool.or_true], rfl, rfl⟩
      · next hok =>
          rw [Bool.not_eq_true] at h hok
          refine does_mono (quit_does _ _) fun ks o hq => ?_
          exact .inr ⟨by rw [Daemon.socket, h, hok]; rfl, hq.2, hq.1⟩

theorem triggerAuthentication_does (s : Daemon) :
    control.Does triggerAuthentication s fun ks o => ∃ bssid freq ssid sent,
      ks = [.nl (.authenticate bssid freq ssid) sent] ∧
      o = .goes () { s.toControl with authstate := .authenticating } := by
  unfold triggerAuthentication
  rw [does_read_bind]
  refine does_mono (sendSetAuthstate_does _ _ s) ?_
  rintro ks o ⟨sent, rfl, rfl⟩
  exact ⟨_, _, _, sent, rfl, rfl⟩

theorem startConnection_does (s : Daemon) :
    control.Does startConnection s (StartConnection s.toControl s.socket) := by
  unfold startConnection
  rw [does_read_bind]
  split
  · next h => exact .busy (.inl h)
  · next ha =>
      rw [not_not] at ha
      split
      · next h => exact .busy (.inr h)
      · next hs =>
          rw [not_not] at hs
          refine does_bind (reopenRawsock_does s) ?_ ?_
          · rintro ks _ c (⟨hopen, rfl, ⟨⟩⟩ | ⟨-, -, ⟨⟩⟩) s₁ hc₁
            refine does_bind (triggerAuthentication_does s₁) ?_ ?_
            · rintro ks _ c ⟨bssid, freq, ssid, sent, rfl, ⟨⟩⟩ s₂ hc₂
              rw [control_state] at hc₁ hc₂
              rw [does_pure, control_state, hc₂, hc₁]
              exact .starts bssid freq ssid sent ha hs hopen
            · rintro ks ⟨-, -, -, -, -, ⟨⟩⟩
          · rintro ks (⟨-, -, ⟨⟩⟩ | ⟨hopen, hq, -⟩)
            cases hq with
            | idle _ => exact .ends ha hs hopen
            | disconnects _ h => exact absurd ha h

theorem triggerAssociation_does (s : Daemon) :
    control.Does triggerAssociation s fun ks o => ∃ bssid freq ssid ies sent,
      ks = [.nl (.associate bssid freq ssid ies) sent] ∧
      o = .goes () { s.toControl with authstate := .associating } := by
  unfold triggerAssociation
  rw [does_read_bind]
  refine does_mono (sendSetAuthstate_does _ _ s) ?_
  rintro ks o ⟨sent, rfl, rfl⟩
  exact ⟨_, _, _, _, sent, rfl, rfl⟩

inductive StartDisconnect (c : Control) : List Act → Outcome Int Control → Prop where
  | already : c.authstate = .idle ∨ c.authstate = .netdown →
      StartDisconnect c [] (.goes (-EALREADY) c)
  | busy : c.authstate = .disconnecting → StartDisconnect c [] (.goes (-EBUSY) c)
  | starts (sent : Bool) : c.authstate ≠ .idle → c.authstate ≠ .netdown →
      c.authstate ≠ .disconnecting →
      StartDisconnect c [.nl .disconnect sent] (.goes 0 { c with authstate := .disconnecting })

theorem startDisconnect_does (s : Daemon) :
    control.Does startDisconnect s (StartDisconnect s.toControl) := by
  have hstarts (h₁ : s.authstate ≠ .idle) (h₂ : s.authstate ≠ .netdown)
      (h₃ : s.authstate ≠ .disconnecting) : control.Does (do
        triggerDisconnect
        pure 0 : Handler Int) s (StartDisconnect s.toControl) := by
    refine does_bind (sendSetAuthstate_does _ _ s) ?_ ?_
    · rintro ks _ c ⟨sent, rfl, ⟨⟩⟩ s₁ hc
      rw [does_pure, hc]
      exact .starts sent h₁ h₂ h₃
    · rintro ks ⟨-, -, ⟨⟩⟩
  unfold startDisconnect
  rw [does_read_bind]
  split
  · next h => exact .already (.inl h)
  · next h => exact .already (.inr h)
  · next h => exact .busy h
  · next h₁ h₂ h₃ => exact hstarts h₁ h₂ h₃

/-- Where a connection may be started. -/
def Control.Ready (c : Control) : Prop := c.authstate = .idle ∧ c.scanstate = .idle

inductive ConnectToSomething (c : Control) : List Act → Outcome Bool Control → Prop where
  | nothing : ConnectToSomething c [] (.goes false c)
  | starts (bssid freq ssid) (sent : Bool) :
      ConnectToSomething c [.nl (.authenticate bssid freq ssid) sent]
        (.goes true { c with authstate := .authenticating })
  | ends : ConnectToSomething c [] .ends

theorem connectLoop_does (n : ℕ) {s : Daemon} (h : s.Ready) :
    control.Does (connectLoop n) s (ConnectToSomething s.toControl) := by
  induction n generalizing s with
  | zero => exact .nothing
  | succ n ih =>
      -- a slot that was no use leaves `Control` as it was
      have hnext (i : ℕ) (s' : Daemon) (hc : control.state s' = s.toControl) :
          control.Does (do
            modifyFlags i fun f => { f with good := false }
            connectLoop n : Handler Bool) s' (ConnectToSomething s.toControl) := by
        refine does_bind_quiet (quiet_modifyFlags ..) fun _ t ht => ?_
        have htc : t.toControl = s.toControl := ht.trans hc
        rw [← htc]
        exact ih (htc ▸ h)
      unfold connectLoop
      rw [does_read_bind]
      split
      · exact .nothing
      · next i _ =>
          refine does_bind_quiet (quiet_setCurrentAp i) fun ret s' hc => ?_
          split
          · exact hnext i s' hc
          · refine does_bind (startConnection_does s') ?_ ?_
            · intro ks ret c hstart t ht
              rw [control_state] at hc
              rw [hc] at hstart
              cases hstart with
              | busy hbusy => exact absurd h fun hr => hbusy.elim (· hr.1) (· hr.2)
              | starts bssid freq ssid sent _ _ _ =>
                  rw [if_neg (by decide), does_pure, ht]
                  exact .starts bssid freq ssid sent
            · intro ks hstart
              cases hstart with
              | ends => exact .ends

/-- `reassess_wifi_situation`, in the cases it tells apart: it stays out of it, starts a
connection, gives up with a report or waits for the next scan. -/
inductive Reassess (c : Control) : List Act → Outcome Unit Control → Prop where
  | stays : c.opermode = .neutral ∨ ¬ c.Ready → Reassess c [] (.goes () c)
  | starts (bssid freq ssid) (sent : Bool) : c.opermode ≠ .neutral → c.Ready →
      Reassess c [.nl (.authenticate bssid freq ssid) sent]
        (.goes () { c with authstate := .authenticating })
  | ends : c.opermode ≠ .neutral → c.Ready → Reassess c [] .ends
  | gives_up : c.opermode = .oneshot → c.Ready →
      Reassess c [] (.goes () { c with opermode := .neutral })
  | waits : c.opermode ≠ .neutral → c.opermode ≠ .oneshot → c.Ready →
      Reassess c [] (.goes () { c with timerset := true })

theorem reassessWifiSituation_does (s : Daemon) :
    control.Does reassessWifiSituation s (Reassess s.toControl) := by
  unfold reassessWifiSituation
  rw [does_read_bind]
  split
  · next h => exact .stays (.inl h)
  next hop =>
  split
  · next h => exact .stays (.inr fun hr => h hr.1)
  next ha =>
  split
  · next h => exact .stays (.inr fun hr => h hr.2)
  next hs =>
  have hready : s.Ready := ⟨not_not.mp ha, not_not.mp hs⟩
  refine does_bind (connectLoop_does _ hready) ?_ ?_
  · intro ks started c hconn s₁ hc
    cases hconn with
    | starts bssid freq ssid sent =>
        rw [if_pos rfl, does_pure, hc]
        exact .starts bssid freq ssid sent hop hready
    | nothing =>
        rw [if_neg (by decide)]
        refine does_bind_quiet (quiet_sendReport rfl) fun _ s₂ hc₂ => ?_
        have hc₂ : s₂.toControl = s.toControl := hc₂.trans hc
        rw [does_read_bind]
        split
        · next h =>
            rw [hc₂] at h
            refine does_bind_quiet quiet_clearApBssid fun _ s₃ hc₃ => ?_
            refine does_bind_quiet quiet_clearApSsid fun _ s₄ hc₄ => ?_
            have hc₄ : s₄.toControl = s.toControl := hc₄.trans (hc₃.trans hc₂)
            rw [does_update, control_state]
            change Reassess _ _ (.goes () { s₄.toControl with opermode := .neutral })
            rw [hc₄]
            exact .gives_up h hready
        · next h =>
            rw [hc₂] at h
            change Reassess _ _ (.goes () { s₂.toControl with timerset := true })
            rw [hc₂]
            exact .waits hop h hready
  · intro ks hconn
    cases hconn with
    | ends => exact .ends hop hready

/-- `abort_connection`: a connection is disconnected, and where there is none the
situation is looked at again, which does nothing while one is being disconnected or the
device is down. -/
inductive Abort (c : Control) : List Act → Outcome Unit Control → Prop where
  | disconnects (sent : Bool) : c.authstate ≠ .idle → c.authstate ≠ .netdown →
      c.authstate ≠ .disconnecting →
      Abort c [.nl .disconnect sent] (.goes () { c with authstate := .disconnecting })
  | stays : c.authstate = .netdown ∨ c.authstate = .disconnecting → Abort c [] (.goes () c)
  | reassesses {ks o} : c.authstate = .idle → Reassess c ks o → Abort c ks o

theorem abortConnection_does (s : Daemon) : control.Does abortConnection s (Abort s.toControl) := by
  have hreassess (s' : Daemon) (hc : s'.toControl = s.toControl) (h : s.authstate = .idle ∨
      s.authstate = .netdown ∨ s.authstate = .disconnecting) :
      control.Does reassessWifiSituation s' (Abort s.toControl) := by
    rw [← hc]
    refine does_mono (reassessWifiSituation_does s') fun ks o hr => ?_
    by_cases hidle : s'.authstate = .idle
    · exact .reassesses hidle hr
    · have hnot : ¬ s'.Ready := fun h => hidle h.1
      have hstay : s'.authstate = .netdown ∨ s'.authstate = .disconnecting := by
        rw [← hc] at h
        exact h.resolve_left hidle
      cases hr with
      | stays _ => exact .stays hstay
      | starts _ _ _ _ _ h => exact absurd h hnot
      | ends _ h => exact absurd h hnot
      | gives_up _ h => exact absurd h hnot
      | waits _ _ h => exact absurd h hnot
  refine does_bind (startDisconnect_does s) ?_ ?_
  · intro ks ret c hstart s' hc
    cases hstart with
    | already h =>
        rw [if_neg (by decide)]
        exact hreassess s' hc (h.imp_right .inl)
    | busy h =>
        rw [if_neg (by decide)]
        exact hreassess s' hc (.inr (.inr h))
    | starts sent h₁ h₂ h₃ =>
        rw [if_pos le_rfl, does_pure, hc]
        exact .disconnects sent h₁ h₂ h₃
  · rintro ks ⟨⟩

end Wsupp

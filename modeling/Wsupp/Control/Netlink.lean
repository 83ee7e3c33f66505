import Wsupp.Control.Negotiation
import Wsupp.NetlinkEvents

/-!
# The control variables under netlink messages

Notifications and errors move `authstate` and `scanstate`; losing a connection also
decides what to do next, which may be a scan, another access point, a report or the
end of the process. There is one relation for each kind of message: scan events, the
four notifications about a connection, acknowledgements and errors, and the end of a
dump.

A notification is told apart by the interface it names and by the state it comes in.
The case of an unexpected notification is split off where the source snaps to a
state, since what follows it differs from command to command.
-/
namespace Wsupp
open Reactive Prog View

def Stays (c : Control) (ks : List Act) (o : Outcome Unit Control) : Prop :=
  ks = [] ∧ o = .goes () c

theorem does_stays {m : Handler Unit} (h : control.Quiet m) (s : Daemon) :
    control.Does m s (Stays s.toControl) :=
  does_quiet h ⟨rfl, rfl⟩

namespace Control

def resetScan (c : Control) : Control := { c with scanstate := .idle, scanseq := 0, scanreq := {} }

def resetEapol (c : Control) : Control := { c with KCK := Bytes.zeros 16, KEK := Bytes.zeros 16 }

def reconnecting (c : Control) : Control :=
  { c with opermode := if c.opermode = .rescan then .active else c.opermode }

def snapped (c : Control) : Control :=
  { c.resetEapol with opermode := .neutral, authstate := .external, timerset := false }

@[simp] theorem snapped_authstate (c : Control) : c.snapped.authstate = .external := rfl

end Control

inductive HandleDisconnect (c : Control) : List Act → Outcome Unit Control → Prop where
  | exits : c.opermode = .exit ∨ c.opermode = .exitreq →
      HandleDisconnect c [] (.goes () { c with timerset := false, opermode := .exit })
  | rescans (freq seq) : c.opermode = .active ∨ c.opermode = .rescan → HandleDisconnect c []
      (.goes () (Control.startScan { c with timerset := false, opermode := .rescan } freq seq))
  | tries_other {ks o} : c.opermode = .active ∨ c.opermode = .rescan →
      Reassess { c with timerset := false, opermode := .active } ks o → HandleDisconnect c ks o
  | gives_up : c.opermode = .neutral ∨ c.opermode = .oneshot →
      HandleDisconnect c [] (.goes () { c with timerset := false })

theorem rescanCurrentAp_does (s : Daemon) :
    control.Does rescanCurrentAp s fun ks o => ks = [] ∧ ∃ freq seq,
      o = .goes () (Control.startScan { s.toControl with opermode := .rescan } freq seq) := by
  unfold rescanCurrentAp
  rw [does_update_bind, does_read_bind]
  refine does_bind (startScan_does _ _) ?_ ?_
  · rintro ks ret c ⟨rfl, _, seq, ⟨⟩⟩ s' hc
    rw [does_pure, hc]
    exact ⟨rfl, _, seq, rfl⟩
  · rintro ks ⟨-, -, -, ⟨⟩⟩

theorem trySomeOtherAp_does (s : Daemon) :
    control.Does trySomeOtherAp s (Reassess s.toControl) := by
  refine does_bind_quiet quiet_clearApBssid fun _ s₁ h₁ => ?_
  rw [does_read_bind]
  refine does_bind_quiet (quiet_when quiet_clearApSsid) fun _ s₂ h₂ => ?_
  rw [← show s₂.toControl = s.toControl from h₂.trans h₁]
  exact reassessWifiSituation_does s₂

theorem handleDisconnect_does (s : Daemon) :
    control.Does handleDisconnect s (HandleDisconnect s.toControl) := by
  unfold handleDisconnect clrTimer
  rw [does_update_bind]
  refine does_bind_quiet quiet_killDhcp fun _ s₁ h₁ => ?_
  have h₁ : s₁.toControl = { s.toControl with timerset := false } := h₁
  rw [does_update_bind, does_read_bind]
  dsimp only
  rw [show s₁.opermode = s.opermode by rw [h₁]]
  by_cases hexit : s.opermode = .exit ∨ s.opermode = .exitreq
  · have hto : (if s.opermode = .exitreq then .exit else s.opermode) = OperMode.exit := by
      rcases hexit with h | h <;> rw [h] <;> rfl
    rw [hto, if_pos rfl, does_pure]
    change HandleDisconnect _ _ (.goes () { s₁.toControl with opermode := .exit })
    rw [h₁]
    exact .exits hexit
  rw [not_or] at hexit
  rw [if_neg hexit.2, if_neg hexit.1]
  refine does_bind_quiet quiet_reportDisconnect fun _ s₂ h₂ => ?_
  have h₂ : s₂.toControl = { s.toControl with timerset := false } := by
    refine h₂.trans ?_
    change { s₁.toControl with opermode := s.opermode } = _
    rw [h₁]
  rw [does_update_bind, does_read_bind]
  dsimp only
  rw [show s₂.opermode = s.opermode by rw [h₂]]
  by_cases hact : s.opermode = .active ∨ s.opermode = .rescan
  · have hto : (if s.opermode = .rescan then .active else s.opermode) = OperMode.active := by
      rcases hact with h | h <;> rw [h] <;> rfl
    rw [hto, if_pos rfl]
    split
    · refine does_mono (rescanCurrentAp_does _) ?_
      rintro ks o ⟨rfl, freq, seq, rfl⟩
      change HandleDisconnect _ _
        (.goes () (Control.startScan { s₂.toControl with opermode := .rescan } freq seq))
      rw [h₂]
      exact .rescans freq seq hact
    · refine does_mono (trySomeOtherAp_does _) fun ks o hr => ?_
      change Reassess { s₂.toControl with opermode := .active } ks o at hr
      rw [h₂] at hr
      exact .tries_other hact hr
  · rw [not_or] at hact
    rw [if_neg hact.2, if_neg hact.1]
    refine does_bind_quiet quiet_clearApBssid fun _ s₃ h₃ => ?_
    refine does_bind_quiet quiet_clearApSsid fun _ s₄ h₄ => ?_
    refine does_quiet (quiet_sendReport rfl) ?_
    have h₄ : s₄.toControl = { s.toControl with timerset := false } := by
      refine (h₄.trans h₃).trans ?_
      change { s₂.toControl with opermode := s.opermode } = _
      rw [h₂]
    rw [control_state, h₄]
    refine .gives_up ?_
    cases hm : s.opermode <;> simp_all

namespace Netlink

theorem resetEapolState_does (s : Daemon) :
    control.Does resetEapolState s fun ks o =>
      ks = [.call .resetEapolState] ∧ o = .goes () s.toControl.resetEapol := by
  unfold resetEapolState cleanupKeys Handler.call
  rw [does_update_bind, does_update_bind, does_emit]
  exact ⟨rfl, rfl⟩

theorem primeEapolState_does (s : Daemon) :
    control.Does primeEapolState s fun ks o => ks = [.call .primeEapolState] ∧
      o = .goes () { s.toControl with eapolstate := .waiting14, eapolsends := false } := by
  unfold primeEapolState Handler.call
  rw [does_update_bind, does_emit]
  exact ⟨rfl, rfl⟩

theorem allowEapolSends_does (s : Daemon) :
    control.Does allowEapolSends s fun ks o =>
      (s.eapolstate = .waiting14 ∧ ks = [] ∧ o = .goes () { s.toControl with eapolsends := true }) ∨
      (s.eapolstate ≠ .waiting14 ∧ Replies s.toControl (s.sends (EapolKey.size + s.ap.ies.length))
        (AfterPacket2 s.toControl) ks o) := by
  unfold allowEapolSends
  rw [does_read_bind]
  split
  · next h => exact .inl ⟨h, rfl, rfl⟩
  · next h => exact does_mono (sendPacket2_does s) fun ks o hr => .inr ⟨h, hr⟩

theorem snapToDisabled_does (why : String) (s : Daemon) :
    control.Does (snapToDisabled why) s fun ks o =>
      ks = [.call .snapToDisabled, .call .resetEapolState] ∧ o = .goes () s.toControl.snapped := by
  unfold snapToDisabled Handler.call
  rw [does_update_bind, does_emit_bind]
  refine does_bind_quiet (quiet_warn _) fun _ s₁ h₁ => ?_
  refine does_bind (resetEapolState_does s₁) ?_ ?_
  · rintro ks _ c ⟨rfl, ⟨⟩⟩ s₂ h₂
    have h₂ : s₂.toControl = Control.resetEapol
        { s.toControl with opermode := .neutral, authstate := .external } := by
      refine h₂.trans ?_
      rw [show s₁.toControl = _ from h₁]
      rfl
    refine does_mono (handleDisconnect_does s₂) fun ks o hd => ?_
    rw [h₂] at hd
    cases hd with
    | exits h => rcases h with h | h <;> cases h
    | rescans _ _ h => rcases h with h | h <;> cases h
    | tries_other h _ => rcases h with h | h <;> cases h
    | gives_up _ => exact ⟨rfl, rfl⟩
  · rintro ks ⟨-, ⟨⟩⟩

def takeover : List Act := [.call .snapToDisabled, .call .resetEapolState]

inductive CmdAuthenticate (c : Control) : List Act → Outcome Unit Control → Prop where
  | external : c.authstate = .external → CmdAuthenticate c [] (.goes () c)
  | snaps : c.authstate ≠ .external → c.authstate ≠ .authenticating →
      CmdAuthenticate c takeover (.goes () c.snapped)
  | associates (bssid freq ssid ies) (sent : Bool) : c.authstate = .authenticating →
      CmdAuthenticate c [.call .primeEapolState, .nl (.associate bssid freq ssid ies) sent]
        (.goes () { c with eapolstate := .waiting14, eapolsends := false, authstate := .associating })

theorem cmdAuthenticate_does (s : Daemon) :
    control.Does cmdAuthenticate s (CmdAuthenticate s.toControl) := by
  unfold cmdAuthenticate
  rw [does_read_bind]
  split
  · next h => exact .external h
  next hext =>
  split
  · next hne =>
      refine does_mono (snapToDisabled_does _ s) ?_
      rintro ks o ⟨rfl, rfl⟩
      exact .snaps hext hne
  · next heq =>
      refine does_bind (primeEapolState_does s) ?_ ?_
      · rintro ks _ c ⟨rfl, ⟨⟩⟩ s₁ h₁
        refine does_mono (triggerAssociation_does s₁) ?_
        rintro ks o ⟨bssid, freq, ssid, ies, sent, rfl, rfl⟩
        rw [show s₁.toControl = _ from h₁]
        exact .associates bssid freq ssid ies sent (not_not.mp heq)
      · rintro ks ⟨-, ⟨⟩⟩

/-- By whether packet 2/4, if it has to be sent, goes out. -/
inductive CmdAssociate (c : Control) (ok : Bool) : List Act → Outcome Unit Control → Prop where
  | external : c.authstate = .external → CmdAssociate c ok [] (.goes () c)
  | snaps : c.authstate ≠ .external → c.authstate ≠ .associating →
      CmdAssociate c ok takeover (.goes () c.snapped)
  | allows : c.authstate = .associating → c.eapolstate = .waiting14 →
      CmdAssociate c ok [] (.goes () { c with eapolsends := true, authstate := .connecting })
  | sends (dest frame) : c.authstate = .associating → c.eapolstate ≠ .waiting14 → ok = true →
      CmdAssociate c ok [.eapol dest frame true]
        (.goes () { c with eapolstate := .waiting34, authstate := .connecting })
  | overwrites (dest frame) (sent : Bool) : c.authstate = .associating →
      c.eapolstate ≠ .waiting14 → ok = false →
      CmdAssociate c ok [.eapol dest frame false, .nl .disconnect sent]
        (.goes () { c with authstate := .connecting })

theorem cmdAssociate_does (s : Daemon) :
    control.Does cmdAssociate s
      (CmdAssociate s.toControl (s.sends (EapolKey.size + s.ap.ies.length))) := by
  unfold cmdAssociate
  rw [does_read_bind]
  split
  · next h => exact .external h
  next hext =>
  split
  · next hne =>
      refine does_mono (snapToDisabled_does _ s) ?_
      rintro ks o ⟨rfl, rfl⟩
      exact .snaps hext hne
  next heq =>
  rw [not_not] at heq
  -- `authstate` is set after the reply, whatever became of it
  refine does_bind (allowEapolSends_does s) ?_ ?_
  · intro ks _ c h s₁ h₁
    rw [does_update, List.append_nil]
    change CmdAssociate _ _ _ (.goes () { control.state s₁ with authstate := .connecting })
    rw [h₁]
    rcases h with ⟨hstate, rfl, ⟨⟩⟩ | ⟨hstate, hreply⟩
    · exact .allows heq hstate
    · cases hreply with
      | sent dest frame hok hafter =>
          obtain ⟨rfl, ⟨⟩⟩ := hafter
          exact .sends dest frame heq hstate hok
      | fails dest frame hno habort =>
          cases habort with
          | disconnects sent _ _ _ => exact .overwrites dest frame sent heq hstate hno
          | stays h => rcases h with h | h <;> rw [h] at heq <;> cases heq
          | reassesses h _ => rw [h] at heq; cases heq
  · rintro ks (⟨-, -, ⟨⟩⟩ | ⟨-, hreply⟩)
    cases hreply with
    | sent _ _ _ hafter => cases hafter.2
    | fails dest frame hno habort =>
        cases habort with
        | reassesses h _ => rw [h] at heq; cases heq

inductive CmdConnect (c : Control) : List Act → Outcome Unit Control → Prop where
  | external : c.authstate = .external → CmdConnect c [] (.goes () c)
  | overwrites : c.authstate ≠ .external → c.authstate ≠ .connecting →
      CmdConnect c takeover (.goes () { c.snapped with authstate := .connected })
  | connects : c.authstate = .connecting → CmdConnect c [] (.goes () { c with authstate := .connected })

theorem cmdConnect_does (s : Daemon) : control.Does cmdConnect s (CmdConnect s.toControl) := by
  unfold cmdConnect when
  rw [does_read_bind]
  split
  · next h => exact .external h
  next hext =>
  split
  · next hne =>
      refine does_bind (snapToDisabled_does _ s) ?_ ?_
      · rintro ks _ c ⟨rfl, ⟨⟩⟩ s₁ h₁
        rw [does_update]
        change CmdConnect _ _ (.goes () { control.state s₁ with authstate := .connected })
        rw [h₁]
        exact .overwrites hext hne
      · rintro ks ⟨-, ⟨⟩⟩
  · next heq =>
      rw [does_pure_bind, does_update]
      exact .connects (not_not.mp heq)

inductive CmdDisconnect (c : Control) : List Act → Outcome Unit Control → Prop where
  | idle : c.authstate = .idle → CmdDisconnect c [] (.goes () c)
  | disconnects {ks o} : c.authstate ≠ .idle →
      HandleDisconnect { c.resetEapol with authstate := .idle } ks o →
      CmdDisconnect c (.call .resetEapolState :: ks) o

theorem cmdDisconnect_does (s : Daemon) :
    control.Does cmdDisconnect s (CmdDisconnect s.toControl) := by
  unfold cmdDisconnect
  rw [does_read_bind]
  split
  · next h => exact .idle h
  next hne =>
  refine does_bind (resetEapolState_does s) ?_ ?_
  · rintro ks _ c ⟨rfl, ⟨⟩⟩ s₁ h₁
    rw [does_update_bind]
    refine does_mono (handleDisconnect_does _) fun ks o hd => ?_
    change HandleDisconnect { control.state s₁ with authstate := .idle } ks o at hd
    rw [h₁] at hd
    exact .disconnects hne hd
  · rintro ks ⟨-, ⟨⟩⟩

theorem quiet_markStaleScanSlots (msg : Gen) : control.Quiet (markStaleScanSlots msg) := by
  unfold markStaleScanSlots
  split
  · exact quiet_pure ()
  · exact quiet_update fun _ => rfl

theorem quiet_cmdTriggerScan (msg : Gen) : control.Quiet (cmdTriggerScan msg) :=
  quiet_read_bind fun _ => quiet_ite (quiet_pure _) <|
    quiet_bind (quiet_markStaleScanSlots msg) fun _ => quiet_sendReport rfl

theorem quiet_parseScanResult (msg : Gen) : control.Quiet (parseScanResult msg) := by
  refine quiet_read_bind fun s => ?_
  split
  · exact quiet_pure ()
  split
  · exact quiet_pure ()
  split
  · exact quiet_pure ()
  · exact quiet_update fun _ => rfl

/-- A dump is asked for when the card is done scanning. -/
inductive CmdScanResults (c : Control) : List Act → Outcome Unit Control → Prop where
  | stays : CmdScanResults c [] (.goes () c)
  | dumps (seq : ℕ) : c.scanstate = .scanning →
      CmdScanResults c [] (.goes () { c with scanstate := .scandump, scanseq := seq })

theorem cmdScanResults_does (msg : Gen) (s : Daemon) :
    control.Does (cmdScanResults msg) s (CmdScanResults s.toControl) := by
  unfold cmdScanResults
  rw [does_read_bind]
  split
  · exact does_quiet (quiet_parseScanResult msg) .stays
  split
  · next h =>
      refine does_mono (triggerScanDump_does s) ?_
      rintro ks o ⟨rfl, seq, rfl⟩
      exact .dumps seq h
  · exact .stays

inductive CmdScanAborted (c : Control) : List Act → Outcome Unit Control → Prop where
  | stays : c.scanstate ≠ .scanning → CmdScanAborted c [] (.goes () c)
  | aborts : c.scanstate = .scanning → CmdScanAborted c [] (.goes () c.resetScan)

theorem cmdScanAborted_does (s : Daemon) :
    control.Does cmdScanAborted s (CmdScanAborted s.toControl) := by
  unfold cmdScanAborted resetScanState
  rw [does_read_bind]
  split
  · next h => exact .stays h
  · next h =>
      refine does_bind_quiet (quiet_warn _) fun _ s₁ h₁ => ?_
      refine does_bind_quiet (quiet_sendReport rfl) fun _ s₂ h₂ => ?_
      rw [does_update]
      change CmdScanAborted _ _ (.goes () (control.state s₂).resetScan)
      rw [h₂, h₁]
      exact .aborts (not_not.mp h)

/-- A dispatched message, by its command code. -/
def GenEffect (s : Daemon) (msg : Gen) : List Act → Outcome Unit Control → Prop :=
  match msg.cmd with
  | .triggerScan | .other => Stays s.toControl
  | .newScanResults => CmdScanResults s.toControl
  | .scanAborted => CmdScanAborted s.toControl
  | .authenticate => CmdAuthenticate s.toControl
  | .associate => CmdAssociate s.toControl (s.sends (EapolKey.size + s.ap.ies.length))
  | .connect => CmdConnect s.toControl
  | .disconnect => CmdDisconnect s.toControl

theorem dispatch_does (msg : Gen) (s : Daemon) :
    control.Does (dispatch msg) s (GenEffect s msg) := by
  unfold dispatch GenEffect
  split
  · next h => simp only [h]; exact does_stays (quiet_cmdTriggerScan msg) s
  · next h => simp only [h]; exact cmdScanResults_does msg s
  · next h => simp only [h]; exact cmdScanAborted_does s
  · next h => simp only [h]; exact cmdAuthenticate_does s
  · next h => simp only [h]; exact cmdAssociate_does s
  · next h => simp only [h]; exact cmdConnect_does s
  · next h => simp only [h]; exact cmdDisconnect_does s
  · next h => simp only [h]; exact does_stays (quiet_pure ()) s

inductive GenlError (c : Control) (seq : ℕ) (err : Int) : List Act → Outcome Unit Control → Prop where
  | killed : err = -ENETDOWN → c.rfkilled = true →
      GenlError c seq err [] (.goes () { c.resetScan with authstate := .idle })
  | netdown : err = -ENETDOWN → c.rfkilled = false →
      GenlError c seq err [] (.goes () { c.resetScan with authstate := .netdown, timerset := true })
  | scan_ack : err = 0 → seq = c.scanseq → GenlError c seq err [] (.goes () c)
  | scan_fails : err ≠ -ENETDOWN → err ≠ 0 → seq = c.scanseq →
      GenlError c seq err [] (.goes () c.resetScan)
  | idle : err ≠ -ENETDOWN → seq ≠ c.scanseq → c.authstate = .idle →
      GenlError c seq err [] (.goes () c)
  | disconnect_fails {ks o} : err ≠ -ENETDOWN → seq ≠ c.scanseq → c.authstate = .disconnecting →
      Reassess { c with authstate := .idle } ks o → GenlError c seq err ks o
  | rescans (freq seq') : seq ≠ c.scanseq → c.authstate = .authenticating → err = -ENOENT →
      GenlError c seq err [] (.goes () (Control.startScan { c with authstate := .idle } freq seq'))
  | aborts {ks o} : err ≠ -ENETDOWN → seq ≠ c.scanseq → c.authstate ≠ .idle →
      c.authstate ≠ .disconnecting → ¬ (c.authstate = .authenticating ∧ err = -ENOENT) →
      Abort c ks o → GenlError c seq err ks o

theorem snapToNetdown_does (s : Daemon) :
    control.Does snapToNetdown s fun ks o => ks = [] ∧ o = .goes () (if s.rfkilled then
        { s.toControl.resetScan with authstate := .idle }
      else { s.toControl.resetScan with authstate := .netdown, timerset := true }) := by
  unfold snapToNetdown resetScanState when setTimer
  rw [does_update_bind, does_read_bind, does_update_bind]
  cases hk : s.rfkilled
  · rw [if_pos (by decide), does_update_bind]
    exact does_quiet (quiet_sendReport rfl) ⟨rfl, by simp [Control.resetScan, hk]⟩
  · rw [if_neg (by decide), does_pure_bind]
    exact does_quiet (quiet_sendReport rfl) ⟨rfl, by simp [Control.resetScan, hk]⟩

theorem genlError_does (seq : ℕ) (err : Int) (s : Daemon) :
    control.Does (genlError seq err) s (GenlError s.toControl seq err) := by
  unfold genlError
  rw [does_read_bind]
  split
  · next h =>
      refine does_mono (snapToNetdown_does s) ?_
      rintro ks o ⟨rfl, rfl⟩
      cases hk : s.rfkilled
      · exact .netdown h hk
      · exact .killed h hk
  next hdown =>
  split
  · next hseq =>
      unfold handleScanError resetScanState
      split
      · next h => exact .scan_ack h hseq
      · next h =>
          rw [does_update_bind]
          exact does_quiet (quiet_sendReport rfl) (.scan_fails hdown h hseq)
  next hseq =>
  split
  swap
  · next h => exact .idle hdown hseq (not_not.mp h)
  next hidle =>
  unfold handleAuthError
  rw [does_read_bind]
  split
  · next h =>
      rw [does_update_bind]
      exact does_mono (reassessWifiSituation_does _) fun ks o hr => .disconnect_fails hdown hseq h hr
  next hdisc =>
  split
  · next h =>
      rw [does_update_bind]
      refine does_bind (startScan_does _ _) ?_ ?_
      · rintro ks _ c ⟨rfl, _, seq', ⟨⟩⟩ s' hc
        rw [does_pure, hc]
        exact .rescans _ seq' hseq h.1 h.2
      · rintro ks ⟨-, -, -, ⟨⟩⟩
  · next h =>
      exact does_mono (abortConnection_does s) fun ks o ha => .aborts hdown hseq hidle hdisc h ha

def unflagged (sc : Scan) : Scan := { sc with flags := {} }

/-- What a reconnection goes by: the control variables, the access point, the
scan table without its flags, and the EAPOL socket. -/
def selection : View Daemon Act (Control × Ap × List Scan × Bool) where
  state s := (s.toControl, s.ap, s.table.slots.map unflagged, s.socket)
  shows := Act.shown

theorem quiet_selection_modifyFlags (i : ℕ) (f : ScanFlags → ScanFlags) :
    selection.Quiet (modifyFlags i f) := by
  refine quiet_update fun s => ?_
  have hslots : (s.table.modify i fun sc => { sc with flags := f sc.flags }).slots.map unflagged =
      s.table.slots.map unflagged := by
    simp only [ScanTable.slots, ScanTable.modify]
    apply List.ext_getElem?
    intro j
    simp only [List.getElem?_map, List.getElem?_take, List.getElem?_modify]
    split_ifs
    · simp only [Option.map_eq_map, Option.map_map]
      rfl
    · rw [id_map']
    · rfl
  simp only [selection, hslots]
  rfl

theorem quiet_selection_gotPskFor (ssid : Bytes) : selection.Quiet (gotPskFor ssid) := by
  refine quiet_bind ⟨fun s => ⟨rfl, _, rfl⟩⟩ fun io => quiet_read_bind fun s => ?_
  exact quiet_bind (quiet_update fun _ => rfl) fun _ => quiet_pure _

theorem quiet_selection_checkNewScanResults : selection.Quiet checkNewScanResults := by
  refine quiet_read_bind fun s => ?_
  induction List.range s.table.nscans with
  | nil => exact quiet_pure ()
  | cons i is ih =>
      refine quiet_bind ?_ fun _ => ih
      refine quiet_read_bind fun s => quiet_ite (quiet_pure _) (quiet_ite (quiet_pure _) ?_)
      refine quiet_bind (quiet_selection_modifyFlags ..) fun _ => quiet_ite ?_ (quiet_pure _)
      exact quiet_bind (quiet_selection_modifyFlags ..) fun _ =>
        quiet_bind (quiet_selection_gotPskFor _) fun _ =>
          quiet_ite (quiet_selection_modifyFlags ..) (quiet_pure _)

/-- The current access point is found by what a slot says, not by its flags. -/
theorem findCurrentAp_unflagged {ap : Ap} {t t' : ScanTable}
    (h : t.slots.map unflagged = t'.slots.map unflagged) : findCurrentAp ap t = findCurrentAp ap t' := by
  have hfind (t : ScanTable) : findCurrentAp ap t = (t.slots.map unflagged).findIdx? fun sc =>
      sc.freq ≠ 0 && sameSsid ap sc && sc.bssid = ap.bssid := by
    rw [List.findIdx?_map]
    rfl
  rw [hfind, hfind, h]

/-- Whether the current access point is still there once the stale slots are
dropped. -/
def currentFound (s : Daemon) : Bool := (findCurrentAp s.ap s.table.dropStale).isSome

inductive GenlDone (s : Daemon) : List Act → Outcome Unit Control → Prop where
  | no_dump : s.scanstate ≠ .scandump → GenlDone s [] (.goes () s.toControl)
  | reconnects {ks o} : s.scanstate = .scandump → s.scanreq.reconnectCurrent = true →
      currentFound s = true → StartConnection s.toControl.resetScan.reconnecting s.socket ks o →
      GenlDone s ks o.void
  | misses {ks o} : s.scanstate = .scandump → s.scanreq.reconnectCurrent = true →
      currentFound s = false → Reassess s.toControl.resetScan.reconnecting ks o → GenlDone s ks o
  | reassesses {ks o} : s.scanstate = .scandump → s.scanreq.reconnectCurrent = false →
      s.scanreq.connectSomething = true → Reassess s.toControl.resetScan ks o → GenlDone s ks o
  | rests : s.scanstate = .scandump → s.scanreq.reconnectCurrent = false →
      s.scanreq.connectSomething = false → GenlDone s [] (.goes () s.toControl.resetScan)

theorem reconnectToCurrentAp_does (s : Daemon) :
    control.Does reconnectToCurrentAp s fun ks o =>
      ((findCurrentAp s.ap s.table).isSome = true ∧
        ∃ o', o'.void = o ∧ StartConnection s.toControl.reconnecting s.socket ks o') ∨
      ((findCurrentAp s.ap s.table).isSome = false ∧ Reassess s.toControl.reconnecting ks o) := by
  unfold reconnectToCurrentAp
  rw [does_update_bind, does_read_bind]
  dsimp only
  split
  · next i h =>
      rw [h]
      refine does_bind (startConnection_does _) ?_ ?_
      · intro ks ret c hstart s' hc
        rw [does_pure, hc, List.append_nil]
        exact .inl ⟨rfl, _, rfl, hstart⟩
      · exact fun ks hstart => .inl ⟨rfl, _, rfl, hstart⟩
  · next h =>
      rw [h]
      exact does_mono (reassessWifiSituation_does _) fun ks o hr => .inr ⟨rfl, hr⟩

theorem genlDone_does (s : Daemon) : control.Does genlDone s (GenlDone s) := by
  unfold genlDone resetScanState dropStaleScanSlots
  rw [does_read_bind]
  split
  · next h => exact .no_dump h
  next hdump =>
  rw [not_not] at hdump
  rw [does_update_bind, does_update_bind]
  refine does_bind_quiet_of quiet_selection_checkNewScanResults rfl fun _ s₁ h₁ => ?_
  have hreport : selection.Quiet reportScanDone := quiet_read_bind fun _ => quiet_emit rfl
  refine does_bind_quiet_of hreport rfl fun _ s₂ h₂ => ?_
  have h : selection.state s₂ = selection.state _ := h₂.trans h₁
  simp only [selection, Prod.mk.injEq] at h
  obtain ⟨hc, hap, hslots, hsocket⟩ := h
  have hc : s₂.toControl = s.toControl.resetScan := hc
  have hfound : findCurrentAp s₂.ap s₂.table = findCurrentAp s.ap s.table.dropStale := by
    rw [hap]
    exact findCurrentAp_unflagged hslots
  have hsocket : s₂.socket = s.socket := hsocket
  split
  · next hrec =>
      refine does_mono (reconnectToCurrentAp_does s₂) fun ks o ho => ?_
      rw [hc, hfound, hsocket] at ho
      rcases ho with ⟨hf, o', rfl, hstart⟩ | ⟨hf, hr⟩
      · exact .reconnects hdump hrec hf hstart
      · exact .misses hdump hrec hf hr
  next hrec =>
  split
  · next hcon =>
      refine does_mono (reassessWifiSituation_does s₂) fun ks o hr => ?_
      rw [hc] at hr
      exact .reassesses hdump (eq_false_of_ne_true hrec) hcon hr
  · next hcon =>
      rw [does_pure, control_state, hc]
      exact .rests hdump (eq_false_of_ne_true hrec) (eq_false_of_ne_true hcon)

def MsgEffect (s : Daemon) : Msg → List Act → Outcome Unit Control → Prop
  | .done => GenlDone s
  | .err seq err => GenlError s.toControl seq err
  | .gen msg => if msg.ifi = some s.ifindex then GenEffect s msg else Stays s.toControl
  | .other => Stays s.toControl

theorem handleMsg_does (m : Msg) (s : Daemon) : control.Does (handleMsg m) s (MsgEffect s m) := by
  unfold handleMsg
  rw [does_read_bind]
  cases m with
  | done => exact genlDone_does s
  | err seq err => exact genlError_does seq err s
  | gen msg =>
      unfold MsgEffect
      dsimp only
      split
      · exact dispatch_does msg s
      · exact ⟨rfl, rfl⟩
  | other => exact ⟨rfl, rfl⟩

end Netlink
end Wsupp

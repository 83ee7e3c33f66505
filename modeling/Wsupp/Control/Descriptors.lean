import Wsupp.Main
import Wsupp.Reactive.Moves

/-!
# Descriptors of the connections

Only the events of the control sockets change which descriptors the connections
have: one is accepted into a free slot, and a slot is freed when its connection has
ended. Every other handler leaves them alone, whatever else it does.

The proofs go through the handlers one by one, from the commands to the kernel up to
the main loop, by the rules for a view of the state that stays. The result is what
the bounds of the poll table and the refinement of the byte-level service rest on,
which both need to know that a connection that is polled is still there when it is
served.
-/
namespace Wsupp
open Reactive Prog View

/-- The count of slots and the descriptors in them; outputs do not matter. -/
def descriptors : View Daemon Act (ℕ × List Int) where
  state s := (s.nconns, s.conns.map Conn.fd)
  shows _ := false

section Untouched

theorem descriptors_emit (a : Act) : descriptors.Moves stay (emit a) := moves_emit rfl

theorem descriptors_answer {α : Type} (get : Env → List α) (set : Env → List α → Env) (dflt : α) :
    descriptors.Moves stay (Handler.answer get set dflt) := fun _ => ⟨rfl, .refl⟩

theorem descriptors_ends {α : Type} : descriptors.Moves stay (do
    emit .exit
    Prog.exit : Handler α) :=
  moves_bind (descriptors_emit _) fun _ => moves_exit

theorem descriptors_nlSend (cmd : NlCommand) : descriptors.Moves stay (nlSend cmd) := by
  refine moves_bind (moves_keep fun _ => rfl) fun _ => ?_
  refine moves_bind (descriptors_answer _ _ _) fun rd => ?_
  exact moves_bind (descriptors_emit _) fun _ => moves_pure _

theorem descriptors_quit {α : Type} (text : String) : descriptors.Moves stay (quit text : Handler α) := by
  refine moves_bind (descriptors_emit _) fun _ => ?_
  refine moves_read fun s => ?_
  refine moves_ite descriptors_ends ?_
  refine moves_bind (moves_keep fun _ => rfl) fun _ => ?_
  refine moves_bind (descriptors_answer _ _ _) fun rd => ?_
  exact moves_bind (descriptors_emit _) fun _ => descriptors_ends

theorem descriptors_sendCheck (cmd : NlCommand) : descriptors.Moves stay (sendCheck cmd) :=
  moves_bind (descriptors_nlSend cmd) fun _ => moves_ite (moves_pure _) (descriptors_quit _)

theorem descriptors_sendSetAuthstate (cmd : NlCommand) (as : AuthState) :
    descriptors.Moves stay (sendSetAuthstate cmd as) :=
  moves_bind (descriptors_sendCheck cmd) fun _ => moves_keep fun _ => rfl

theorem descriptors_triggerScan (freq : Int) : descriptors.Moves stay (triggerScan freq) := by
  refine moves_bind (moves_when (moves_keep fun _ => rfl)) fun _ => ?_
  refine moves_bind (descriptors_nlSend _) fun ret => ?_
  apply moves_ite
  · exact moves_bind (moves_keep fun _ => rfl) fun _ => moves_pure _
  · exact moves_bind (moves_keep fun _ => rfl) fun _ => moves_pure _

theorem descriptors_startScan (freq : Int) : descriptors.Moves stay (startScan freq) := by
  refine moves_read fun s => ?_
  apply moves_ite
  · exact moves_bind (moves_keep fun _ => rfl) fun _ => descriptors_triggerScan freq
  · refine moves_ite (moves_pure _) ?_
    exact moves_bind (moves_keep fun _ => rfl) fun _ => moves_pure _

theorem descriptors_triggerScanDump : descriptors.Moves stay triggerScanDump := by
  refine moves_bind (descriptors_nlSend _) fun ret => ?_
  apply moves_ite
  · exact moves_bind (descriptors_emit _) fun _ => moves_keep fun _ => rfl
  · exact moves_keep fun _ => rfl

theorem descriptors_startConnection : descriptors.Moves stay startConnection := by
  refine moves_read fun s => ?_
  refine moves_ite (moves_pure _) ?_
  refine moves_ite (moves_pure _) ?_
  have hopen : descriptors.Moves stay openRawsock :=
    moves_bind (descriptors_answer _ _ _) fun _ => moves_ite (moves_keep fun _ => rfl) (descriptors_quit _)
  refine moves_bind (moves_read fun s => moves_ite (moves_pure _) hopen) fun _ => ?_
  exact moves_bind (moves_read fun s => descriptors_sendSetAuthstate _ _) fun _ => moves_pure _

theorem descriptors_startDisconnect : descriptors.Moves stay startDisconnect := by
  refine moves_read fun s => ?_
  split
  · exact moves_pure _
  · exact moves_pure _
  · exact moves_pure _
  · exact moves_bind (descriptors_sendSetAuthstate _ _) fun _ => moves_pure _

theorem descriptors_uploadPtk : descriptors.Moves stay uploadPtk :=
  moves_read fun _ => moves_bind (descriptors_emit _) fun _ => descriptors_sendCheck _

theorem descriptors_uploadGtk : descriptors.Moves stay uploadGtk :=
  moves_read fun _ => moves_bind (descriptors_emit _) fun _ => descriptors_sendCheck _

theorem descriptors_sendReport (r : Report) : descriptors.Moves stay (sendReport r) :=
  moves_read fun _ => descriptors_emit _

theorem descriptors_killDhcp : descriptors.Moves stay killDhcp :=
  moves_read fun _ => moves_ite (moves_pure _) (descriptors_emit _)

theorem descriptors_triggerDhcp : descriptors.Moves stay triggerDhcp := by
  refine moves_bind descriptors_killDhcp fun _ => ?_
  refine moves_bind (descriptors_answer _ _ _) fun pid => ?_
  apply moves_ite
  · exact moves_bind (descriptors_emit _) fun _ => descriptors_ends
  · exact moves_bind (descriptors_emit _) fun _ => moves_keep fun _ => rfl

theorem descriptors_gotPskFor (ssid : Bytes) : descriptors.Moves stay (gotPskFor ssid) := by
  refine moves_bind (descriptors_answer _ _ _) fun io => ?_
  refine moves_read fun s => ?_
  exact moves_bind (moves_keep fun _ => rfl) fun _ => moves_pure _

theorem descriptors_loadPsk (ssid : Bytes) : descriptors.Moves stay (loadPsk ssid) := by
  refine moves_bind (descriptors_answer _ _ _) fun io => ?_
  refine moves_read fun s => ?_
  exact moves_bind (moves_keep fun _ => rfl) fun _ => moves_pure _

theorem descriptors_savePsk (ssid : Bytes) : descriptors.Moves stay (savePsk ssid) := by
  refine moves_bind (descriptors_answer _ _ _) fun io => ?_
  refine moves_bind (descriptors_answer _ _ _) fun rio => ?_
  refine moves_read fun s => ?_
  split
  · exact moves_keep fun _ => rfl
  · exact descriptors_ends

theorem descriptors_modifyFlags (i : ℕ) (f : ScanFlags → ScanFlags) :
    descriptors.Moves stay (modifyFlags i f) := moves_keep fun _ => rfl

theorem descriptors_resetStation : descriptors.Moves stay resetStation :=
  moves_bind (moves_keep fun _ => rfl) fun _ => moves_keep fun _ => rfl

theorem descriptors_setCurrentAp (i : ℕ) : descriptors.Moves stay (setCurrentAp i) := by
  refine moves_read fun s => ?_
  refine moves_bind (descriptors_modifyFlags _ _) fun _ => ?_
  refine moves_bind (moves_keep fun _ => rfl) fun _ => ?_
  refine moves_ite (moves_pure _) ?_
  refine moves_bind (moves_keep fun _ => rfl) fun _ => ?_
  refine moves_ite (moves_pure _) ?_
  refine moves_bind (moves_keep fun _ => rfl) fun _ => ?_
  refine moves_read fun s => ?_
  exact moves_bind (descriptors_loadPsk _) fun _ => moves_ite (moves_pure _) (moves_pure _)

theorem descriptors_setFixed (ssid : Bytes) : descriptors.Moves stay (setFixed ssid) := by
  refine moves_ite (moves_pure _) ?_
  refine moves_bind (moves_keep fun _ => rfl) fun _ => ?_
  refine moves_bind (moves_keep fun _ => rfl) fun _ => ?_
  exact moves_bind (moves_keep fun _ => rfl) fun _ => moves_pure _

theorem descriptors_setFixedGiven (ssid psk : Bytes) : descriptors.Moves stay (setFixedGiven ssid psk) := by
  refine moves_bind (descriptors_setFixed ssid) fun ret => ?_
  exact moves_ite (moves_pure _) (moves_bind (moves_keep fun _ => rfl) fun _ => moves_pure _)

theorem descriptors_setFixedSaved (ssid : Bytes) : descriptors.Moves stay (setFixedSaved ssid) := by
  refine moves_bind (descriptors_loadPsk ssid) fun ret => ?_
  refine moves_ite (moves_pure _) ?_
  refine moves_bind (descriptors_setFixed ssid) fun ret => ?_
  exact moves_ite (moves_pure _) (moves_bind (moves_keep fun _ => rfl) fun _ => moves_pure _)

theorem descriptors_connectLoop (n : ℕ) : descriptors.Moves stay (connectLoop n) := by
  induction n with
  | zero => exact moves_pure _
  | succ n ih =>
      refine moves_read fun s => ?_
      split
      · exact moves_pure _
      · next i _ =>
          refine moves_bind (descriptors_setCurrentAp i) fun ret => ?_
          have hnext : descriptors.Moves stay (do
              modifyFlags i fun f => { f with good := false }
              connectLoop n : Handler Bool) := moves_bind (descriptors_modifyFlags _ _) fun _ => ih
          refine moves_ite hnext ?_
          exact moves_bind descriptors_startConnection fun _ => moves_ite hnext (moves_pure _)

theorem descriptors_snapToNeutral : descriptors.Moves stay snapToNeutral := by
  refine moves_bind (moves_keep fun _ => rfl) fun _ => ?_
  exact moves_bind (moves_keep fun _ => rfl) fun _ => moves_keep fun _ => rfl

theorem descriptors_reassess : descriptors.Moves stay reassessWifiSituation := by
  refine moves_read fun s => ?_
  refine moves_ite (moves_pure _) ?_
  refine moves_ite (moves_pure _) ?_
  refine moves_ite (moves_pure _) ?_
  refine moves_bind (descriptors_connectLoop _) fun started => ?_
  refine moves_ite (moves_pure _) ?_
  refine moves_bind (descriptors_sendReport _) fun _ => ?_
  exact moves_read fun s => moves_ite descriptors_snapToNeutral (moves_keep fun _ => rfl)

theorem descriptors_abortConnection : descriptors.Moves stay abortConnection :=
  moves_bind descriptors_startDisconnect fun _ => moves_ite (moves_pure _) descriptors_reassess

theorem descriptors_flagSlot (sc : Option ℕ) (f : ScanFlags → ScanFlags) :
    descriptors.Moves stay (flagSlot sc f) := by
  cases sc with
  | none => exact moves_pure _
  | some i => exact descriptors_modifyFlags i f

theorem descriptors_handleConnect : descriptors.Moves stay handleConnect := by
  refine moves_read fun s => ?_
  refine moves_bind (descriptors_emit _) fun _ => ?_
  refine moves_bind (moves_keep fun _ => rfl) fun _ => ?_
  refine moves_bind (moves_keep fun _ => rfl) fun _ => ?_
  refine moves_bind (moves_keep fun _ => rfl) fun _ => ?_
  refine moves_read fun s => ?_
  refine moves_bind (descriptors_flagSlot _ _) fun _ => ?_
  have hsave : descriptors.Moves stay (saveUnsavedPsk (findCurrentAp s.ap s.table)) :=
    moves_read fun s => moves_ite (moves_bind (descriptors_savePsk _) fun _ => descriptors_flagSlot _ _)
      (moves_pure _)
  refine moves_bind hsave fun _ => ?_
  refine moves_bind (moves_keep fun _ => rfl) fun _ => ?_
  exact moves_bind descriptors_triggerDhcp fun _ => moves_read fun s => descriptors_sendReport _

theorem descriptors_rescanCurrentAp : descriptors.Moves stay rescanCurrentAp := by
  refine moves_bind (moves_keep fun _ => rfl) fun _ => ?_
  exact moves_read fun s => moves_bind (descriptors_startScan _) fun _ => moves_pure _

theorem descriptors_reconnect : descriptors.Moves stay reconnectToCurrentAp := by
  refine moves_bind (moves_keep fun _ => rfl) fun _ => ?_
  refine moves_read fun s => ?_
  split
  · exact moves_bind descriptors_startConnection fun _ => moves_pure _
  · exact descriptors_reassess

theorem descriptors_trySomeOtherAp : descriptors.Moves stay trySomeOtherAp := by
  refine moves_bind (moves_keep fun _ => rfl) fun _ => ?_
  refine moves_read fun s => ?_
  exact moves_bind (moves_when (moves_keep fun _ => rfl)) fun _ => descriptors_reassess

theorem descriptors_checkNewScanResults : descriptors.Moves stay checkNewScanResults := by
  refine moves_read fun s => ?_
  induction List.range s.table.nscans with
  | nil => exact moves_pure _
  | cons i is ih =>
      refine moves_bind ?_ fun _ => ih
      refine moves_read fun s => ?_
      refine moves_ite (moves_pure _) ?_
      refine moves_ite (moves_pure _) ?_
      refine moves_bind (descriptors_modifyFlags _ _) fun _ => ?_
      refine moves_ite ?_ (moves_pure _)
      refine moves_bind (descriptors_modifyFlags _ _) fun _ => ?_
      exact moves_bind (descriptors_gotPskFor _) fun _ => moves_ite (descriptors_modifyFlags _ _) (moves_pure _)

theorem descriptors_handleDisconnect : descriptors.Moves stay handleDisconnect := by
  refine moves_bind (moves_keep fun _ => rfl) fun _ => ?_
  refine moves_bind descriptors_killDhcp fun _ => ?_
  refine moves_bind (moves_keep fun _ => rfl) fun _ => ?_
  refine moves_read fun s => ?_
  refine moves_ite (moves_pure _) ?_
  refine moves_bind (moves_read fun s => descriptors_sendReport _) fun _ => ?_
  refine moves_bind (moves_keep fun _ => rfl) fun _ => ?_
  refine moves_read fun s => ?_
  apply moves_ite
  · exact moves_ite descriptors_rescanCurrentAp descriptors_trySomeOtherAp
  · refine moves_bind (moves_keep fun _ => rfl) fun _ => ?_
    exact moves_bind (moves_keep fun _ => rfl) fun _ => descriptors_sendReport _

theorem descriptors_handleRfrestored : descriptors.Moves stay handleRfrestored := by
  refine moves_read fun s => ?_
  refine moves_ite (moves_pure _) ?_
  refine moves_bind (moves_keep fun _ => rfl) fun _ => ?_
  exact moves_read fun s => moves_ite descriptors_rescanCurrentAp descriptors_reassess

theorem descriptors_routineBgScan : descriptors.Moves stay routineBgScan :=
  moves_bind (descriptors_startScan _) fun _ => moves_keep fun _ => rfl

theorem descriptors_routineFgScan : descriptors.Moves stay routineFgScan := by
  refine moves_read fun s => ?_
  apply moves_ite
  · refine moves_bind (moves_keep fun _ => rfl) fun _ => ?_
    exact moves_bind (descriptors_startScan _) fun _ => moves_pure _
  apply moves_ite
  · refine moves_bind (moves_keep fun _ => rfl) fun _ => ?_
    refine moves_bind (moves_keep fun _ => rfl) fun _ => ?_
    refine moves_read fun s => ?_
    exact moves_bind (descriptors_startScan _) fun _ => moves_when (moves_keep fun _ => rfl)
  · refine moves_bind (moves_keep fun _ => rfl) fun _ => ?_
    exact moves_bind (descriptors_startScan _) fun _ => moves_pure _

theorem descriptors_xabort (why : String) : descriptors.Moves stay (xabort why) :=
  moves_bind (descriptors_emit _) fun _ => descriptors_abortConnection

theorem descriptors_ignore (why : String) : descriptors.Moves stay (ignore why) := descriptors_emit _

theorem descriptors_resetEapolState : descriptors.Moves stay resetEapolState := by
  refine moves_bind (moves_keep fun _ => rfl) fun _ => ?_
  exact moves_bind (moves_keep fun _ => rfl) fun _ => descriptors_emit _

theorem descriptors_sendPacket (buf : Bytes) (len : ℕ) : descriptors.Moves stay (sendPacket buf len) := by
  refine moves_read fun s => ?_
  refine moves_bind (descriptors_answer _ _ _) fun wr => ?_
  refine moves_bind (descriptors_emit _) fun _ => ?_
  refine moves_ite (moves_pure _) ?_
  refine moves_bind (descriptors_emit _) fun _ => ?_
  exact moves_bind descriptors_abortConnection fun _ => moves_pure _

theorem descriptors_sendPacket2 : descriptors.Moves stay sendPacket2 := by
  refine moves_read fun s => ?_
  exact moves_bind (descriptors_sendPacket _ _) fun _ => moves_ite (moves_keep fun _ => rfl) (moves_pure _)

theorem descriptors_sendPacket4 : descriptors.Moves stay sendPacket4 := by
  refine moves_read fun s => ?_
  refine moves_bind (descriptors_sendPacket _ _) fun _ => moves_ite ?_ (moves_pure _)
  refine moves_bind (moves_keep fun _ => rfl) fun _ => ?_
  refine moves_bind descriptors_uploadPtk fun _ => ?_
  refine moves_bind descriptors_uploadGtk fun _ => ?_
  exact moves_bind (moves_keep fun _ => rfl) fun _ => descriptors_handleConnect

theorem descriptors_sendGroup2 : descriptors.Moves stay sendGroup2 := by
  refine moves_read fun s => ?_
  exact moves_bind (descriptors_sendPacket _ _) fun _ => moves_ite descriptors_uploadGtk (moves_pure _)

theorem descriptors_recvPacket1 (ek : Bytes) : descriptors.Moves stay (recvPacket1 ek) := by
  refine moves_ite (descriptors_xabort _) ?_
  refine moves_ite (descriptors_ignore _) ?_
  refine moves_bind (moves_keep fun _ => rfl) fun _ => ?_
  refine moves_bind (descriptors_emit _) fun _ => ?_
  have hrand : descriptors.Moves stay fillRand := by
    refine moves_bind (descriptors_answer _ _ _) fun rand => ?_
    split
    · exact descriptors_quit _
    · exact moves_ite (descriptors_quit _) (moves_keep fun _ => rfl)
  refine moves_bind hrand fun _ => ?_
  have hkeys : descriptors.Moves stay pmkToPtk := by
    refine moves_read fun s => ?_
    exact moves_bind (moves_keep fun _ => rfl) fun _ => descriptors_emit _
  refine moves_bind hkeys fun _ => ?_
  exact moves_read fun s => moves_ite descriptors_sendPacket2 (moves_keep fun _ => rfl)

theorem descriptors_takeKeyData (ek : Bytes) (idx : UInt8) (gtk : Bytes) (c : Call) {m : Handler Unit}
    (h : descriptors.Moves stay m) : descriptors.Moves stay (do
      takeKeyData ek idx gtk
      Handler.call c
      m : Handler Unit) :=
  moves_bind (moves_keep fun _ => rfl) fun _ => moves_bind (descriptors_emit _) fun _ => h

theorem descriptors_recvPacket3 (ek : Bytes) : descriptors.Moves stay (recvPacket3 ek) := by
  refine moves_read fun s => ?_
  refine moves_ite (descriptors_xabort _) ?_
  refine moves_ite (descriptors_xabort _) ?_
  refine moves_ite (descriptors_xabort _) ?_
  refine moves_ite (descriptors_xabort _) ?_
  refine moves_ite (descriptors_xabort _) ?_
  refine moves_ite (descriptors_xabort _) ?_
  split
  · exact descriptors_xabort _
  · exact descriptors_takeKeyData _ _ _ _ descriptors_sendPacket4

theorem descriptors_recvGroup1 (ek : Bytes) : descriptors.Moves stay (recvGroup1 ek) := by
  refine moves_read fun s => ?_
  refine moves_ite (descriptors_ignore _) ?_
  refine moves_ite (descriptors_ignore _) ?_
  refine moves_ite (descriptors_ignore _) ?_
  refine moves_ite (descriptors_ignore _) ?_
  refine moves_ite (descriptors_xabort _) ?_
  split
  · exact descriptors_xabort _
  · exact descriptors_takeKeyData _ _ _ _ descriptors_sendGroup2

theorem descriptors_handleRawsock (sender frame : Bytes) : descriptors.Moves stay (handleRawsock sender frame) := by
  refine moves_read fun s => ?_
  refine moves_ite (descriptors_emit _) ?_
  refine moves_ite (descriptors_ignore _) ?_
  refine moves_ite (descriptors_ignore _) ?_
  refine moves_ite (descriptors_ignore _) ?_
  refine moves_ite (descriptors_ignore _) ?_
  refine moves_read fun s => ?_
  split
  · exact descriptors_recvPacket1 _
  · exact descriptors_recvPacket3 _
  · exact descriptors_recvGroup1 _
  · exact descriptors_ignore _
  · exact descriptors_ignore _

namespace Netlink

theorem descriptors_cmdTriggerScan (msg : Gen) : descriptors.Moves stay (cmdTriggerScan msg) := by
  refine moves_read fun s => ?_
  refine moves_ite (moves_pure _) ?_
  have hmark : descriptors.Moves stay (markStaleScanSlots msg) := by
    unfold markStaleScanSlots
    split
    · exact moves_pure _
    · exact moves_keep fun _ => rfl
  exact moves_bind hmark fun _ => descriptors_sendReport _

theorem descriptors_parseScanResult (msg : Gen) : descriptors.Moves stay (parseScanResult msg) := by
  refine moves_read fun s => ?_
  split
  · exact moves_pure _
  split
  · exact moves_pure _
  split
  · exact moves_pure _
  · exact moves_keep fun _ => rfl

theorem descriptors_cmdScanResults (msg : Gen) : descriptors.Moves stay (cmdScanResults msg) := by
  refine moves_read fun s => ?_
  exact moves_ite (descriptors_parseScanResult msg) (moves_ite descriptors_triggerScanDump (moves_pure _))

theorem descriptors_cmdScanAborted : descriptors.Moves stay cmdScanAborted := by
  refine moves_read fun s => ?_
  refine moves_ite (moves_pure _) ?_
  refine moves_bind (descriptors_emit _) fun _ => ?_
  exact moves_bind (descriptors_sendReport _) fun _ => moves_keep fun _ => rfl

theorem descriptors_snapToDisabled (why : String) : descriptors.Moves stay (snapToDisabled why) := by
  refine moves_bind (moves_keep fun _ => rfl) fun _ => ?_
  refine moves_bind (descriptors_emit _) fun _ => ?_
  refine moves_bind (descriptors_emit _) fun _ => ?_
  exact moves_bind descriptors_resetEapolState fun _ => descriptors_handleDisconnect

theorem descriptors_cmdAuthenticate : descriptors.Moves stay cmdAuthenticate := by
  refine moves_read fun s => ?_
  refine moves_ite (moves_pure _) ?_
  refine moves_ite (descriptors_snapToDisabled _) ?_
  have hprime : descriptors.Moves stay primeEapolState :=
    moves_bind (moves_keep fun _ => rfl) fun _ => descriptors_emit _
  exact moves_bind hprime fun _ => moves_read fun s => descriptors_sendSetAuthstate _ _

theorem descriptors_cmdAssociate : descriptors.Moves stay cmdAssociate := by
  refine moves_read fun s => ?_
  refine moves_ite (moves_pure _) ?_
  refine moves_ite (descriptors_snapToDisabled _) ?_
  have hallow : descriptors.Moves stay allowEapolSends :=
    moves_read fun s => moves_ite (moves_keep fun _ => rfl) descriptors_sendPacket2
  exact moves_bind hallow fun _ => moves_keep fun _ => rfl

theorem descriptors_cmdConnect : descriptors.Moves stay cmdConnect := by
  refine moves_read fun s => ?_
  refine moves_ite (moves_pure _) ?_
  exact moves_bind (moves_when (descriptors_snapToDisabled _)) fun _ => moves_keep fun _ => rfl

theorem descriptors_cmdDisconnect : descriptors.Moves stay cmdDisconnect := by
  refine moves_read fun s => ?_
  refine moves_ite (moves_pure _) ?_
  refine moves_bind descriptors_resetEapolState fun _ => ?_
  exact moves_bind (moves_keep fun _ => rfl) fun _ => descriptors_handleDisconnect

theorem descriptors_genlDone : descriptors.Moves stay genlDone := by
  refine moves_read fun s => ?_
  refine moves_ite (moves_pure _) ?_
  refine moves_bind (moves_keep fun _ => rfl) fun _ => ?_
  refine moves_bind (moves_keep fun _ => rfl) fun _ => ?_
  refine moves_bind descriptors_checkNewScanResults fun _ => ?_
  refine moves_bind (descriptors_sendReport _) fun _ => ?_
  exact moves_ite descriptors_reconnect (moves_ite descriptors_reassess (moves_pure _))

theorem descriptors_snapToNetdown : descriptors.Moves stay snapToNetdown := by
  refine moves_bind (moves_keep fun _ => rfl) fun _ => ?_
  refine moves_read fun s => ?_
  refine moves_bind (moves_keep fun _ => rfl) fun _ => ?_
  exact moves_bind (moves_when (moves_keep fun _ => rfl)) fun _ => descriptors_sendReport _

theorem descriptors_handleAuthError (err : Int) : descriptors.Moves stay (handleAuthError err) := by
  refine moves_read fun s => ?_
  refine moves_ite (moves_bind (moves_keep fun _ => rfl) fun _ => descriptors_reassess) ?_
  refine moves_ite ?_ descriptors_abortConnection
  refine moves_bind (moves_keep fun _ => rfl) fun _ => ?_
  exact moves_bind (descriptors_startScan _) fun _ => moves_pure _

theorem descriptors_genlError (seq : ℕ) (err : Int) : descriptors.Moves stay (genlError seq err) := by
  refine moves_read fun s => ?_
  refine moves_ite descriptors_snapToNetdown ?_
  have hscan : descriptors.Moves stay (handleScanError err) :=
    moves_ite (moves_pure _) (moves_bind (moves_keep fun _ => rfl) fun _ => descriptors_sendReport _)
  exact moves_ite hscan (moves_ite (descriptors_handleAuthError err) (moves_pure _))

theorem descriptors_handleMsg (m : Msg) : descriptors.Moves stay (handleMsg m) := by
  refine moves_read fun s => ?_
  cases m with
  | done => exact descriptors_genlDone
  | err seq err => exact descriptors_genlError seq err
  | other => exact moves_pure _
  | gen msg =>
      refine moves_ite ?_ (moves_pure _)
      unfold dispatch
      split
      · exact descriptors_cmdTriggerScan msg
      · exact descriptors_cmdScanResults msg
      · exact descriptors_cmdScanAborted
      · exact descriptors_cmdAuthenticate
      · exact descriptors_cmdAssociate
      · exact descriptors_cmdConnect
      · exact descriptors_cmdDisconnect
      · exact moves_pure _

end Netlink

namespace Cntrl

theorem map_fd_modify (conns : List Conn) (cn : ℕ) (rep : Bool) :
    (conns.modify cn fun c => { c with rep := rep }).map Conn.fd = conns.map Conn.fd := by
  apply List.ext_getElem?
  intro i
  rw [List.getElem?_map, List.getElem?_map, List.getElem?_modify]
  cases conns[i]? with
  | none => rfl
  | some c =>
      change some (if cn = i then { c with rep := rep } else c).fd = some c.fd
      split
      · rfl
      · rfl

theorem descriptors_setRep (cn : ℕ) (rep : Bool) : descriptors.Moves stay (setRep cn rep) :=
  moves_keep fun s => congrArg (Prod.mk s.nconns) (map_fd_modify s.conns cn rep)

theorem descriptors_configureStation (msg : Msg) : descriptors.Moves stay (configureStation msg) := by
  refine moves_bind descriptors_resetStation fun _ => ?_
  split
  · exact moves_pure _
  split
  · exact descriptors_setFixedSaved _
  · refine moves_ite (descriptors_setFixedGiven _ _) ?_
    exact moves_bind (descriptors_emit _) fun _ => moves_pure _

theorem descriptors_cmdConnect (cn : ℕ) (msg : Msg) : descriptors.Moves stay (cmdConnect cn msg) := by
  refine moves_read fun s => ?_
  refine moves_ite (moves_pure _) (moves_ite (moves_pure _) ?_)
  refine moves_bind (descriptors_configureStation msg) fun ret => moves_ite (moves_pure _) ?_
  refine moves_bind (moves_keep fun _ => rfl) fun _ => ?_
  refine moves_bind (descriptors_setRep cn true) fun _ => ?_
  refine moves_bind (moves_bind (descriptors_emit _) fun _ => moves_pure _) fun ret => ?_
  refine moves_bind (moves_keep fun _ => rfl) fun _ => ?_
  exact moves_bind descriptors_reassess fun _ => moves_pure _

theorem descriptors_cmdForget (msg : Msg) : descriptors.Moves stay (cmdForget msg) := by
  unfold cmdForget
  split
  · exact moves_pure _
  next ssid _ =>
  have hdrop : descriptors.Moves stay (dropPsk ssid) := by
    refine moves_bind (descriptors_answer _ _ _) fun io => ?_
    refine moves_read fun s => ?_
    split
    · exact moves_bind (moves_keep fun _ => rfl) fun _ => moves_pure _
    · exact descriptors_ends
  refine moves_bind hdrop fun ret => moves_ite (moves_pure _) ?_
  exact moves_bind (moves_keep fun _ => rfl) fun _ => moves_pure _

theorem descriptors_dispatchCmd (cn : ℕ) (msg : Msg) : descriptors.Moves stay (dispatchCmd cn msg) := by
  have hreply (err : Int) : descriptors.Moves stay (reply cn err) :=
    moves_bind (descriptors_emit _) fun _ => moves_pure _
  refine moves_bind ?_ fun ret => moves_ite (moves_pure _) (hreply ret)
  unfold call
  split
  · refine moves_bind (descriptors_emit _) fun _ => ?_
    exact moves_bind (descriptors_setRep cn false) fun _ => moves_pure _
  · exact moves_bind (descriptors_emit _) fun _ => moves_pure _
  · refine moves_bind (descriptors_startScan _) fun ret => moves_ite (moves_pure _) ?_
    exact moves_bind (descriptors_setRep cn true) fun _ => moves_pure _
  · refine moves_bind (moves_keep fun _ => rfl) fun _ => ?_
    refine moves_bind descriptors_startDisconnect fun ret => moves_ite (moves_pure _) ?_
    refine moves_bind (descriptors_setRep cn true) fun _ => ?_
    exact moves_bind (moves_keep fun _ => rfl) fun _ => moves_pure _
  · exact descriptors_cmdConnect cn msg
  · exact descriptors_cmdForget msg
  · exact moves_pure _

end Cntrl

theorem descriptors_handleRfkill (re : RfkillEvent) : descriptors.Moves stay (handleRfkill re) := by
  have hup : descriptors.Moves stay bringIfaceUp :=
    moves_bind (descriptors_answer _ _ _) fun _ => moves_ite (moves_pure _) (descriptors_quit _)
  have hswitch : descriptors.Moves stay (switchRfkill re) := by
    apply moves_ite
    · exact moves_bind (moves_keep fun _ => rfl) fun _ => moves_keep fun _ => rfl
    · refine moves_bind (moves_keep fun _ => rfl) fun _ => ?_
      exact moves_bind hup fun _ => descriptors_handleRfrestored
  refine moves_ite ?_ (moves_pure _)
  refine moves_read fun s => ?_
  apply moves_ite
  · refine moves_bind (descriptors_answer _ _ _) fun ok => moves_ite ?_ (moves_pure _)
    exact moves_bind (moves_keep fun _ => rfl) fun _ => hswitch
  · exact moves_ite (moves_pure _) hswitch

theorem descriptors_timerExpired : descriptors.Moves stay timerExpired := by
  refine moves_bind (moves_keep fun _ => rfl) fun _ => ?_
  refine moves_read fun s => ?_
  refine moves_ite (moves_ite (moves_keep fun _ => rfl) (moves_keep fun _ => rfl)) ?_
  refine moves_ite descriptors_routineBgScan ?_
  exact moves_ite descriptors_abortConnection descriptors_routineFgScan

theorem descriptors_xshutdown : descriptors.Moves stay xshutdown := by
  refine moves_read fun s => ?_
  refine moves_ite (descriptors_quit _) (moves_ite (moves_keep fun _ => rfl) ?_)
  exact moves_bind descriptors_startDisconnect fun _ => moves_keep fun _ => rfl

theorem descriptors_reapDhcp (pid : Int) (exited signaled : Bool) :
    descriptors.Moves stay (reapDhcp pid exited signaled) := by
  refine moves_read fun s => moves_ite (moves_pure _) ?_
  refine moves_bind (moves_keep fun _ => rfl) fun _ => ?_
  exact moves_bind (moves_when (descriptors_emit _)) fun _ => moves_when (descriptors_emit _)

theorem descriptors_turn : descriptors.Moves stay EventKind.turn.handler := by
  refine moves_bind (moves_bind (descriptors_answer _ _ _) fun _ => moves_keep fun _ => rfl) fun _ => ?_
  refine moves_read fun s => moves_ite ?_ (moves_pure _)
  exact moves_bind (moves_read fun s => moves_ite (descriptors_emit _) (moves_pure _)) fun _ => descriptors_ends

theorem descriptors_boot (file : Option Bytes) : descriptors.Moves stay (boot file) := by
  have hrfkill : descriptors.Moves stay retryRfkill := by
    refine moves_read fun s => moves_ite (moves_pure _) ?_
    exact moves_bind (descriptors_answer _ _ _) fun _ => moves_keep fun _ => rfl
  have hload : descriptors.Moves stay (loadState file) := by
    cases file with
    | none => exact moves_pure _
    | some ssid =>
        refine moves_bind (descriptors_setFixedSaved _) fun ret => ?_
        exact moves_ite (moves_pure _) (moves_keep fun _ => rfl)
  refine moves_bind hrfkill fun _ => ?_
  refine moves_bind (moves_keep fun _ => rfl) fun _ => ?_
  exact moves_bind hload fun _ => descriptors_routineFgScan

end Untouched

/-- The events of the control sockets that change descriptors. -/
def EventKind.connects : EventKind → Bool
  | .connHup _ | .accept _ => true
  | _ => false

theorem EventKind.descriptors_handler {k : EventKind} (h : k.connects = false) :
    descriptors.Moves stay k.handler := by
  cases k with
  | connMsg cn msg => exact moves_bind (Cntrl.descriptors_dispatchCmd cn msg) fun _ => moves_pure _
  | connEnd cn fault => exact moves_ite (descriptors_emit _) (moves_pure _)
  | connHup cn => cases h
  | netlink msg => exact Netlink.descriptors_handleMsg msg
  | netlinkLost => exact descriptors_quit _
  | frame sender data => exact descriptors_handleRawsock sender data
  | frameError => exact descriptors_emit _
  | rawsockLost => exact moves_keep fun _ => rfl
  | accept cfd => cases h
  | controlLost => exact descriptors_quit _
  | rfkill re => exact descriptors_handleRfkill re
  | rfkillLost => exact moves_keep fun _ => rfl
  | timer => exact descriptors_timerExpired
  | sigterm => exact descriptors_xshutdown
  | pollError => exact descriptors_quit _
  | reap pid exited signaled => exact descriptors_reapDhcp pid exited signaled
  | turn => exact descriptors_turn

end Wsupp

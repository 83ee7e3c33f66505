import Wsupp.Eapol
import Wsupp.StationIes

/-!
# Netlink messages

What the kernel reports: the progress of scans and connections, errors of earlier
commands, and notifications caused by other programs. Messages come in decoded, with
the attributes the handlers look at, each of which may be missing.

A message of the scan dump carries one access point, whose elements are parsed into
its slot; the end of the dump drops what has gone and decides what to do with the
results. Messages for another interface are passed over. Errors are told apart by
their sequence number, which is that of the scan or not, and by their code; the
state they find says what is given up.
-/
namespace Wsupp.Netlink
open Reactive Prog Handler

/-- `NL80211_ATTR_BSS` of a scan dump entry, with the four attributes in it that are
looked at. Each may be missing. -/
structure Bss where
  bssid : Option Bytes := none
  freq : Option Int := none
  signal : Option Int := none
  ies : Option Bytes := none
deriving DecidableEq

/-- The command codes that are dispatched on. -/
inductive Code where
  | triggerScan | newScanResults | scanAborted | authenticate | associate | connect | disconnect
  | other
deriving DecidableEq, Repr

structure Gen where
  ifi : Option Int := none
  cmd : Code
  /-- `NLM_F_MULTI` -/
  multi : Bool := false
  /-- `NL80211_ATTR_SCAN_FREQUENCIES`; entries of a wrong size are `none` -/
  freqs : Option (List (Option Int)) := none
  bss : Option Bss := none
deriving DecidableEq

inductive Msg where
  | done
  | err (seq : ℕ) (err : Int)
  | gen (msg : Gen)
  | other
deriving DecidableEq

def markStaleScanSlots (msg : Gen) : Handler Unit :=
  match msg.freqs with
  | none => pure ()
  | some freqs => update fun s => { s with
      table := s.table.map fun sc =>
        if sc.freq ≠ 0 && freqs.contains (some sc.freq) then
          { sc with flags := { sc.flags with stale := true } }
        else sc }

def scanOf (bss : Bss) (bssid : Bytes) (sc : Scan) : Scan :=
  let sc := { sc with
    bssid := bssid
    freq := short (bss.freq.getD 0)
    signal := short (bss.signal.getD 0)
    type := {}
    flags := { sc.flags with stale := false } }
  match bss.ies with
  | some ies => parseStationIes sc ies
  | none => sc

def parseScanResult (msg : Gen) : Handler Unit := do
  let s ← read
  match msg.bss with
  | none => pure ()
  | some bss =>
      match bss.bssid.filter (·.length = 6) with
      | none => pure ()
      | some bssid =>
          match s.table.grabScanSlot bssid with
          | none => pure ()
          | some (i, t) => update fun s => { s with table := t.modify i (scanOf bss bssid) }

def cmdTriggerScan (msg : Gen) : Handler Unit := do
  let s ← read
  if s.scanstate ≠ .scanning then pure ()
  else do
    markStaleScanSlots msg
    reportScanning

def cmdScanResults (msg : Gen) : Handler Unit := do
  let s ← read
  if msg.multi then parseScanResult msg
  else if s.scanstate = .scanning then triggerScanDump
  else pure ()

def cmdScanAborted : Handler Unit := do
  let s ← read
  if s.scanstate ≠ .scanning then pure ()
  else do
    warn "scan aborted\n"
    reportScanFail
    resetScanState

def snapToDisabled (why : String) : Handler Unit := do
  update fun s => { s with opermode := .neutral, authstate := .external }
  call .snapToDisabled
  warn ("EAPOL " ++ why ++ "\n")
  resetEapolState
  handleDisconnect

def cmdAuthenticate : Handler Unit := do
  let s ← read
  if s.authstate = .external then pure ()
  else if s.authstate ≠ .authenticating then snapToDisabled "out-of-order AUTH"
  else do
    primeEapolState
    triggerAssociation

def cmdAssociate : Handler Unit := do
  let s ← read
  if s.authstate = .external then pure ()
  else if s.authstate ≠ .associating then snapToDisabled "out-of-order ASSOC"
  else do
    allowEapolSends
    update fun s => { s with authstate := .connecting }

/-- There is no `return` after `snap_to_disabled` here. -/
def cmdConnect : Handler Unit := do
  let s ← read
  if s.authstate = .external then pure ()
  else do
    when (s.authstate ≠ .connecting) (snapToDisabled "out-of-order CONNECT")
    update fun s => { s with authstate := .connected }

def cmdDisconnect : Handler Unit := do
  let s ← read
  if s.authstate = .idle then pure ()
  else do
    resetEapolState
    update fun s => { s with authstate := .idle }
    handleDisconnect

def dropStaleScanSlots : Handler Unit := update fun s => { s with table := s.table.dropStale }

def genlDone : Handler Unit := do
  let s ← read
  if s.scanstate ≠ .scandump then pure ()
  else do
    resetScanState
    dropStaleScanSlots
    checkNewScanResults
    reportScanDone
    if s.scanreq.reconnectCurrent then reconnectToCurrentAp
    else if s.scanreq.connectSomething then reassessWifiSituation
    else pure ()

def handleScanError (err : Int) : Handler Unit := do
  if err = 0 then pure ()
  else do
    resetScanState
    reportScanFail

def snapToNetdown : Handler Unit := do
  resetScanState
  let s ← read
  update fun s => { s with authstate := if s.rfkilled then .idle else .netdown }
  when (!s.rfkilled) (setTimer 1)
  reportNetDown

def handleAuthError (err : Int) : Handler Unit := do
  let s ← read
  if s.authstate = .disconnecting then do
    update fun s => { s with authstate := .idle }
    reassessWifiSituation
  else if s.authstate = .authenticating ∧ err = -ENOENT then do
    update fun s => { s with authstate := .idle }
    let _ ← startScan s.ap.freq
    pure ()
  else abortConnection

def genlError (seq : ℕ) (err : Int) : Handler Unit := do
  let s ← read
  if err = -ENETDOWN then snapToNetdown
  else if seq = s.scanseq then handleScanError err
  else if s.authstate ≠ .idle then handleAuthError err
  else pure ()

def dispatch (msg : Gen) : Handler Unit :=
  match msg.cmd with
  | .triggerScan => cmdTriggerScan msg
  | .newScanResults => cmdScanResults msg
  | .scanAborted => cmdScanAborted
  | .authenticate => cmdAuthenticate
  | .associate => cmdAssociate
  | .connect => cmdConnect
  | .disconnect => cmdDisconnect
  | .other => pure ()

/-- One turn of the loop of `handle_netlink`, `match_ifi` included. -/
def handleMsg (m : Msg) : Handler Unit := do
  let s ← read
  match m with
  | .done => genlDone
  | .err seq err => genlError seq err
  | .gen msg => if msg.ifi = some s.ifindex then dispatch msg else pure ()
  | .other => pure ()

end Wsupp.Netlink

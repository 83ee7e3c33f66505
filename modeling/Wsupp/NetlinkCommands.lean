import Wsupp.State

/-!
# Commands over netlink

Everything the daemon asks the kernel for: scans, the three steps of a connection,
disconnects and key uploads. The notifications that answer them are handled
elsewhere; a command that sets a state sets it as soon as it is sent.

A command is a value with the data it carries, and sending one is an output together
with whether the socket took it. The sequence number goes up with each. What a
failed call leads to is the source's: most callers quit, the scan commands report
it, and as `nl_send` returns 1 on failure none of them ever notices. The messages
themselves are put together in a module of their own.
-/
namespace Wsupp
open Reactive Prog Handler

/-- One command: a fresh sequence number, then `nl_send`, which reports a send
that failed as 1. -/
def nlSend (c : NlCommand) : Handler Int := do
  update fun s => { s with seq := (s.seq + 1) % 2 ^ 32 }
  let rd ← answerNlSend
  emit (.nl c (0 < rd))
  pure (if rd ≤ 0 then 1 else 0)

/-- The last thing the process does: a disconnect, unless it is idle. -/
def quit {α : Type} (text : String) : Handler α := do
  warn text
  let s ← read
  if s.authstate = .idle then do
    emit .exit
    Prog.exit
  else do
    update fun s => { s with seq := (s.seq + 1) % 2 ^ 32 }
    let rd ← answerNlSend
    emit (.nlAck .disconnect (0 < rd))
    emit .exit
    Prog.exit

/-- `fail` ends the process without a word to the kernel. -/
def fail {α : Type} (text : String) : Handler α := do
  warn text
  emit .exit
  Prog.exit

def sendCheck (c : NlCommand) : Handler Unit := do
  let ret ← nlSend c
  if 0 ≤ ret then pure () else quit "nl-send: %m\n"

def sendSetAuthstate (c : NlCommand) (as : AuthState) : Handler Unit := do
  sendCheck c
  update fun s => { s with authstate := as }

def resetScanState : Handler Unit :=
  update fun s => { s with scanstate := .idle, scanseq := 0, scanreq := {} }

/-- The request bits a scan with this frequency stands for. -/
def ScanReq.add (r : ScanReq) (freq : Int) : ScanReq :=
  { r with
    reconnectCurrent := r.reconnectCurrent || decide (0 < freq)
    connectSomething := r.connectSomething || decide (freq < 0) }

/-- The part of `start_scan` that talks to the kernel. -/
def triggerScan (freq : Int) : Handler Int := do
  when (0 < freq) <| update fun s => { s with
    scanreq := { s.scanreq with scanningOneFreq := true, reconnectCurrent := true } }
  let ret ← nlSend (.triggerScan (if 0 < freq then some freq else none))
  if ret < 0 then do
    update fun s => { s with scanreq := {} }
    pure ret
  else do
    update fun s => { s with scanstate := .scanning, scanseq := s.seq }
    pure 0

/-- `start_scan`: a frequency, 0 for any or -1 for any and a connection after. -/
def startScan (freq : Int) : Handler Int := do
  let s ← read
  if s.scanstate = .idle then do
    update fun s => { s with scanreq := s.scanreq.add freq }
    triggerScan freq
  else if s.scanreq.scanningOneFreq then pure (-EBUSY)
  else do
    update fun s => { s with scanreq := s.scanreq.add freq }
    pure 0

def startVoidScan : Handler Int := startScan 0

def startFullScan : Handler Int := startScan (-1)

def triggerScanDump : Handler Unit := do
  let ret ← nlSend .getScan
  if ret < 0 then do
    warn "nl-send scan dump"
    resetScanState
  else update fun s => { s with scanstate := .scandump, scanseq := s.seq }

def openRawsock : Handler Unit := do
  let ok ← answerOpenRawsock
  if ok then update fun s => { s with rawsock := true } else quit "socket AF_PACKET: %m\n"

def reopenRawsock : Handler Unit := do
  let s ← read
  if s.rawsock then pure () else openRawsock

def triggerAuthentication : Handler Unit := do
  let s ← read
  sendSetAuthstate (.authenticate s.ap.bssid s.ap.freq (s.ap.ssid.take s.ap.slen)) .authenticating

def startConnection : Handler Int := do
  let s ← read
  if s.authstate ≠ .idle then pure (-EBUSY)
  else if s.scanstate ≠ .idle then pure (-EBUSY)
  else do
    reopenRawsock
    triggerAuthentication
    pure 0

/-- `trigger_associaction`. -/
def triggerAssociation : Handler Unit := do
  let s ← read
  sendSetAuthstate (.associate s.ap.bssid s.ap.freq (s.ap.ssid.take s.ap.slen) s.ap.ies) .associating

def triggerDisconnect : Handler Unit := sendSetAuthstate .disconnect .disconnecting

def startDisconnect : Handler Int := do
  let s ← read
  match s.authstate with
  | .idle | .netdown => pure (-EALREADY)
  | .disconnecting => pure (-EBUSY)
  | _ => do
      triggerDisconnect
      pure 0

def uploadPtk : Handler Unit := do
  let s ← read
  call (.uploadPtk s.authstate)
  sendCheck (.newPairwiseKey s.ap.bssid (s.PTK.take 16))

def uploadGtk : Handler Unit := do
  let s ← read
  call (.uploadGtk s.authstate s.replay)
  sendCheck (.newGroupKey s.gtkindex s.ap.tkipgroup
    (s.GTK.take (if s.ap.tkipgroup then 32 else 16)) (s.RSC.take 6))

end Wsupp

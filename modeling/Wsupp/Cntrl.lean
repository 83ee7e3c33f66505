import Wsupp.Eapol

/-!
# Commands of the clients

Requests from the control socket, decoded: the command and the attributes its
handler looks for. Every command gets one reply; only `connect` replies before it
acts, all others when it is known how they went. A negative return value of a
handler is the error the client is told, a positive one means that the reply has
gone out.

What the replies look like in bytes is left to the modules on messages. Here a reply
is one output with the connection it goes to, so that what a command does to the
daemon can be seen without the buffers it writes its answer into.
-/
namespace Wsupp.Cntrl
open Reactive Prog Handler

/-- The `CMD_WI_` constants. -/
inductive Cmd where
  | status | device | scan | neutral | connect | forget | other
deriving DecidableEq, Repr

/-- A message, with the payloads of the attributes the commands look at. An attribute
that is missing is `none`; the commands check its size. -/
structure Msg where
  cmd : Cmd
  ssid : Option Bytes := none
  psk : Option Bytes := none
deriving DecidableEq

def REPLIED : Int := 1

def setRep (cn : ℕ) (rep : Bool) : Handler Unit :=
  update fun s => { s with conns := s.conns.modify cn fun c => { c with rep := rep } }

def reply (cn : ℕ) (err : Int) : Handler Int := do
  emit (.reply cn err)
  pure REPLIED

def cmdStatus (cn : ℕ) : Handler Int := do
  emit (.replyStatus cn)
  setRep cn false
  pure REPLIED

def cmdDevice (cn : ℕ) : Handler Int := do
  emit (.replyDevice cn)
  pure REPLIED

def cmdScan (cn : ℕ) : Handler Int := do
  let ret ← startVoidScan
  if ret < 0 then pure ret
  else do
    setRep cn true
    pure 0

def cmdNeutral (cn : ℕ) : Handler Int := do
  update fun s => { s with opermode := .neutral }
  let ret ← startDisconnect
  if ret < 0 then pure ret
  else do
    setRep cn true
    clrTimer
    pure 0

def configureStation (msg : Msg) : Handler Int := do
  resetStation
  match msg.ssid with
  | none => pure 0
  | some ssid =>
      match msg.psk with
      | none => setFixedSaved ssid
      | some psk =>
          if psk.length = 32 then setFixedGiven ssid psk
          else do
            warn "invalid PSK length\n"
            pure (-EINVAL)

def cmdConnect (cn : ℕ) (msg : Msg) : Handler Int := do
  let s ← read
  if s.authstate ≠ .idle then pure (-EBUSY)
  else if s.scanstate ≠ .idle then pure (-EBUSY)
  else do
    let ret ← configureStation msg
    if ret < 0 then pure ret
    else do
      update fun s => { s with opermode := .oneshot }
      setRep cn true
      let ret ← reply cn 0
      clrTimer
      reassessWifiSituation
      pure ret

/-- `drop_psk`. An edit outside the mapped block ends the process. -/
def dropPsk (ssid : Bytes) : Handler Int := do
  let io ← answerLoadIO
  let s ← read
  match s.config.dropPsk io ssid with
  | some (ret, c) => do
      update fun s => { s with config := c }
      pure ret
  | none => do
      emit .exit
      Prog.exit

def cmdForget (msg : Msg) : Handler Int := do
  match msg.ssid with
  | none => pure (-EINVAL)
  | some ssid => do
      let ret ← dropPsk ssid
      if ret < 0 then pure ret
      else do
        update fun s => { s with
          table := s.table.map fun sc =>
            if sc.slen = ssid.length && sc.ssid.take ssid.length = ssid then
              { sc with flags := { sc.flags with pass := false } }
            else sc }
        pure 0

/-- The table of commands. -/
def call (cn : ℕ) (msg : Msg) : Handler Int :=
  match msg.cmd with
  | .status => cmdStatus cn
  | .device => cmdDevice cn
  | .scan => cmdScan cn
  | .neutral => cmdNeutral cn
  | .connect => cmdConnect cn msg
  | .forget => cmdForget msg
  | .other => pure (-ENOSYS)

def dispatchCmd (cn : ℕ) (msg : Msg) : Handler Int := do
  let ret ← call cn msg
  if 0 < ret then pure ret else reply cn ret

/-- `handle_conn` ends when nothing more can be received; anything but the end
of the data or of the stream shuts the connection down. -/
def endConn (cn : ℕ) (fault : Bool) : Handler Unit := if fault then emit (.shutdownConn cn) else pure ()

/-- `close_conn` leaves a zeroed slot behind. -/
def closeConn (cn : ℕ) : Handler Unit := update fun s => { s with conns := s.conns.set cn {} }

/-- One connection accepted by `handle_control`; without a free slot it is closed. -/
def acceptConn (cfd : Int) : Handler Unit := do
  let s ← read
  match grabSlot {} s.conns s.nconns NCONNS with
  | some (i, n) => update fun s => { s with
      conns := s.conns.modify i fun c => { c with fd := cfd }, nconns := n }
  | none => pure ()

end Wsupp.Cntrl

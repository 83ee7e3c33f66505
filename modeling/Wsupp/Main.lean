import Wsupp.Reactive.Machine
import Wsupp.NetlinkEvents
import Wsupp.Cntrl

/-!
# The main loop

One turn of the loop waits for something to happen, looks at the polled descriptors
in a fixed order or handles the timer, then at the termination signal, and saves the
PSK file. Rfkill and the signal handlers come first. The events are the single
messages handled in a turn; `System` adds to the daemon how far the turn has come,
so that an event of an earlier stage has to wait for the next turn.

A step handles one event, with the answers of the system calls that come with it,
and has as outputs everything the process does that can be seen from outside.
`Initial` covers every address, interface, PSK file and state file; what the start
itself puts out is not part of a run.
-/
namespace Wsupp
open Reactive Prog Handler

/-- `struct rfkill_event`, as far as it is read. -/
structure RfkillEvent where
  idx : Int
  wlan : Bool
  soft : Bool
  hard : Bool
deriving DecidableEq

def bringIfaceUp : Handler Unit := do
  let ok ← answerIfaceUp
  if ok then pure () else quit "ioctl SIOCSIFFLAGS: %m\n"

def switchRfkill (re : RfkillEvent) : Handler Unit := do
  if re.soft || re.hard then do
    update fun s => { s with rfkilled := true }
    clrTimer
  else do
    update fun s => { s with rfkilled := false }
    bringIfaceUp
    handleRfrestored

/-- `handle_event`. -/
def handleRfkillEvent (re : RfkillEvent) : Handler Unit := do
  let s ← read
  if s.rfkidx < 0 then do
    let ok ← answerStatRfkill
    if ok then do
      update fun s => { s with rfkidx := re.idx }
      switchRfkill re
    else pure ()
  else if re.idx ≠ s.rfkidx then pure ()
  else switchRfkill re

/-- One turn of the loop of `handle_rfkill`. -/
def handleRfkill (re : RfkillEvent) : Handler Unit :=
  if re.wlan then handleRfkillEvent re else pure ()

def retryRfkill : Handler Unit := do
  let s ← read
  if s.rfkill then pure ()
  else do
    let ok ← answerOpenRfkill
    update fun s => { s with rfkill := ok, rfkidx := -1 }

def timerExpired : Handler Unit := do
  clrTimer
  let s ← read
  if s.authstate = .netdown then
    if !s.rfkilled then update fun s => { s with opermode := .exit }
    else update fun s => { s with authstate := .idle }
  else if s.authstate = .connected then routineBgScan
  else if s.authstate ≠ .idle then abortConnection
  else routineFgScan

def xshutdown : Handler Unit := do
  let s ← read
  if s.opermode = .exit ∨ s.opermode = .exitreq then quit "second exit request\n"
  else if s.authstate = .idle ∨ s.authstate = .netdown then
    update fun s => { s with opermode := .exit }
  else do
    let ret ← startDisconnect
    update fun s => { s with opermode := if ret < 0 then .exit else .exitreq }

/-- `reap_dhcp` for a child that has ended. -/
def reapDhcp (pid : Int) (exited signaled : Bool) : Handler Unit := do
  let s ← read
  if pid ≤ 0 ∨ pid ≠ s.dhcpid then pure ()
  else do
    update fun s => { s with dhcpid := 0 }
    when exited (warn "dhcp failed with code %i\n")
    when signaled (warn "dhcp killed by signal %i\n")

def saveConfig : Handler Unit := do
  let io ← answerSaveIO
  update fun s => { s with config := s.config.saveConfig io }

/-- `load_state` on the content of the state file, if it could be read. -/
def loadState (file : Option Bytes) : Handler Unit := do
  match file with
  | none => pure ()
  | some ssid => do
      let ret ← setFixedSaved (ssid.take 64)
      if ret < 0 then pure ()
      else update fun s => { s with opermode := .active, ap := { s.ap with fixed := true } }

def saveState : Handler Unit := do
  let s ← read
  if s.ap.fixed then emit (.saveState (s.ap.ssid.take s.ap.slen)) else pure ()

/-- `main` from `retry_rfkill` to the loop. -/
def boot (file : Option Bytes) : Handler Unit := do
  retryRfkill
  update fun s => { s with opermode := .neutral }
  loadState file
  routineFgScan

/-- What a turn of the loop finds to handle, one message at a time: what comes in at a
descriptor, the end of one, the timer, a signal, and the end of the turn itself. -/
inductive EventKind where
  | connMsg (cn : ℕ) (msg : Cntrl.Msg)
  | connEnd (cn : ℕ) (fault : Bool)
  | connHup (cn : ℕ)
  | netlink (msg : Netlink.Msg)
  | netlinkLost
  | frame (sender data : Bytes)
  | frameError
  | rawsockLost
  | accept (cfd : Int)
  | controlLost
  | rfkill (re : RfkillEvent)
  | rfkillLost
  | timer
  | sigterm
  | pollError
  | reap (pid : Int) (exited signaled : Bool)
  /-- the end of the turn; the loop goes on unless `opermode` is `OP_EXIT` -/
  | turn

/-- An event and what the calls made while handling it answer. A run is determined by
its events, since nothing else decides what the process does. -/
structure Event where
  kind : EventKind
  env : Env := {}

def EventKind.handler : EventKind → Handler Unit
  | .connMsg cn msg => do
      let _ ← Cntrl.dispatchCmd cn msg
      pure ()
  | .connEnd cn fault => Cntrl.endConn cn fault
  | .connHup cn => Cntrl.closeConn cn
  | .netlink msg => Netlink.handleMsg msg
  | .netlinkLost => quit "lost netlink connection\n"
  | .frame sender data => handleRawsock sender data
  | .frameError => warn "EAPOL: %m\n"
  | .rawsockLost => update fun s => { s with rawsock := false }
  | .accept cfd => Cntrl.acceptConn cfd
  | .controlLost => quit "lost control socket\n"
  | .rfkill re => handleRfkill re
  | .rfkillLost => update fun s => { s with rfkill := false }
  | .timer => timerExpired
  | .sigterm => xshutdown
  | .pollError => quit "ppoll: %m\n"
  | .reap pid exited signaled => reapDhcp pid exited signaled
  | .turn => do
      saveConfig
      let s ← read
      if s.opermode = .exit then do
        saveState
        emit .exit
        Prog.exit
      else pure ()

/-- How far the current turn has come: the stages of `check_polled_fds`, one for
each connection and one for each other descriptor, then the signal. -/
structure Turn where
  stage : ℕ := 0
  /-- whether the EAPOL socket and rfkill were open when the turn began -/
  rawsock : Bool := false
  rfkill : Bool := false
deriving DecidableEq

structure System extends Daemon where
  turn : Turn := {}
  halted : Bool := false

/-- The last stage an event may come in, and the stage it leaves the turn in.
Stage 0 is a turn that has not begun; each connection has two stages, one for its
messages and one for its end. -/
def EventKind.stages : EventKind → ℕ × ℕ
  | .timer | .pollError => (0, 27)
  | .connMsg cn _ => (2 * cn + 1, 2 * cn + 1)
  | .connEnd cn _ => (2 * cn + 1, 2 * cn + 2)
  | .connHup cn => (2 * cn + 2, 2 * cn + 3)
  | .netlink _ => (22, 22)
  | .netlinkLost => (22, 23)
  | .frame .. | .frameError => (23, 24)
  | .rawsockLost => (24, 25)
  | .accept _ => (25, 25)
  | .controlLost => (25, 26)
  | .rfkill _ => (26, 26)
  | .rfkillLost => (26, 27)
  | .sigterm => (27, 28)
  | .reap .. | .turn => (28, 28)

/-- What must be open for an event to come up. -/
def EventKind.polled (x : System) : EventKind → Bool
  | .connMsg cn _ | .connEnd cn _ | .connHup cn => cn < x.nconns && 0 < (x.conns.getD cn {}).fd
  | .frame .. | .frameError | .rawsockLost => x.turn.rawsock
  | .rfkill _ | .rfkillLost => x.turn.rfkill
  | .accept cfd => 0 < cfd
  | .timer => x.timerset
  | _ => true

def EventKind.next (k : EventKind) (turn : Turn) (s : Daemon) : Turn :=
  match k with
  | .reap .. => turn
  | .turn => { stage := 0, rawsock := s.rawsock, rfkill := s.rfkill }
  | _ => { turn with stage := max turn.stage k.stages.2 }

namespace System

def Enabled (x : System) (e : Event) : Prop :=
  x.halted = false ∧ x.turn.stage ≤ e.kind.stages.1 ∧ e.kind.polled x = true

instance (x : System) (e : Event) : Decidable (Enabled x e) := inferInstanceAs (Decidable (_ ∧ _))

/-- The daemon as an event finds it. -/
def before (x : System) (e : Event) : Daemon := { x.toDaemon with env := e.env }

def step (x : System) (e : Event) : System × List Act :=
  match e.kind.handler (x.before e) with
  | .ok _ s out => ({ toDaemon := s, turn := e.kind.next x.turn s }, out)
  | .halt s out => ({ toDaemon := s, turn := x.turn, halted := true }, out)

end System

/-- The daemon as a machine. Its states are those of the process in the loop, its steps
the events, and its outputs what can be seen of the process. -/
def supplicant : Machine System Event Act where
  enabled := System.Enabled
  step := System.step

instance (x : System) (e : Event) : Decidable (supplicant.enabled x e) :=
  inferInstanceAs (Decidable (x.Enabled e))

/-- The daemon `main` starts with. -/
def Daemon.fresh (smac : Bytes) (ifindex : Int) (psks : Bytes) (env : Env) : Daemon :=
  { smac := smac, ifindex := ifindex, rawsock := true, config := { file := psks }, env := env }

/-- What `main` enters the loop with. -/
def System.started (file : Option Bytes) (s : Daemon) : System :=
  match boot file s with
  | .ok _ s _ => { toDaemon := s, turn := { rawsock := s.rawsock, rfkill := s.rfkill } }
  | .halt s _ => { toDaemon := s, halted := true }

/-- The states the loop starts in: any address, interface and PSK file. -/
def System.Initial (x : System) : Prop :=
  ∃ smac ifindex psks file env, smac.length = 6 ∧
    x = System.started file (.fresh smac ifindex psks env)

def System.Reachable (x : System) : Prop := supplicant.Reachable System.Initial x

end Wsupp

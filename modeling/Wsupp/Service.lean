import Wsupp.Main
import Wsupp.NetlinkInput
import Wsupp.Requests

/-!
# The service on what it receives

The functions the main loop calls when a descriptor is readable, with the reading in
them: `handle_netlink`, `handle_conn`, `handle_control` and `handle_rfkill` each
handle whatever has come, however it has been cut up. `Service` adds the receive
buffer of the netlink socket, which is kept from one turn to the next.

An input is what comes in at one descriptor in a turn, or an event that is one
message anyway. `Comes` leaves out what the source has no defined behaviour for:
messages of the kernel that are shorter than their headers, and streams on which
`handle_conn` does not end.
-/
namespace Wsupp
open Reactive Prog Handler Nlusctl Wire

def RFKILL_TYPE_WLAN : UInt8 := 1

def rfkillEventSize : ℕ := 8

def rfkillEvent (b : Bytes) : RfkillEvent where
  idx := Nl.toInt (b.le32 0)
  wlan := b.at' 4 = RFKILL_TYPE_WLAN
  soft := b.at' 6 ≠ 0
  hard := b.at' 7 ≠ 0

/-- The loop of `handle_rfkill` over what `read` returns, at most 128 bytes at a time. -/
def handleRfkillReads : List Bytes → Handler Unit
  | [] => pure ()
  | b :: bs => do
      let buf := b.take 128
      when (rfkillEventSize ≤ buf.length) <|
        when ((rfkillEvent buf).wlan = true) <| handleRfkillEvent (rfkillEvent buf)
      handleRfkillReads bs

/-- The loop of `handle_control`. -/
def handleControl : List Int → Handler Unit
  | [] => pure ()
  | cfd :: cfds => do
      Cntrl.acceptConn cfd
      handleControl cfds

/-- The loop of `handle_conn`, for so many turns, and what comes after it. -/
def connTurns (cn : ℕ) : ℕ → Urbuf → List Arrival → Handler Unit
  | 0, _, _ => pure ()
  | n + 1, ur, s =>
      let (ret, ur, s) := ucRecv ur false s
      if ret < 0 then Cntrl.endConn cn (ret ≠ -EBADF ∧ ret ≠ -EAGAIN)
      else
        match ur.msg with
        | none => pure ()
        | some msg => do
            let ret ← Cntrl.dispatchCmd cn (Cntrl.request (Ucmsg.bytes msg))
            if ret < 0 then Cntrl.endConn cn (ret ≠ -EBADF ∧ ret ≠ -EAGAIN) else connTurns cn n ur s

def handleConn (cn n : ℕ) (s : List Arrival) : Handler Unit := connTurns cn n { size := Cntrl.rxbufSize } s

/-- What comes in at a descriptor, or happens otherwise. What has come at one descriptor
is handled at one go, however many messages are in it. -/
inductive Input where
  | netlink (r : Nl.Recv)
  /-- arrivals on a connection; the loop takes at most so many messages -/
  | conn (cn n : ℕ) (s : List Arrival)
  | accept (cfds : List Int)
  | rfkill (reads : List Bytes)
  | other (k : EventKind)

/-- Events that are not about one of several messages. -/
def EventKind.alone : EventKind → Bool
  | .connMsg .. | .connEnd .. | .netlink _ | .accept _ | .rfkill _ => false
  | _ => true

namespace Input

def handler (nl : Nl.NetlinkRx) : Input → Handler Nl.NetlinkRx
  | .netlink r => Netlink.Raw.handleNetlink nl r
  | .conn cn n s => do
      handleConn cn n s
      pure nl
  | .accept cfds => do
      handleControl cfds
      pure nl
  | .rfkill reads => do
      handleRfkillReads reads
      pure nl
  | .other k => do
      k.handler
      pure nl

/-- The last stage of the turn an input may come in, and the one it leaves the turn in. -/
def stages : Input → ℕ × ℕ
  | .netlink _ => (21, 22)
  | .conn cn _ _ => (2 * cn + 1, 2 * cn + 2)
  | .accept _ => (25, 25)
  | .rfkill _ => (25, 26)
  | .other k => k.stages

def next (i : Input) (turn : Turn) (s : Daemon) : Turn :=
  match i with
  | .other k => k.next turn s
  | _ => { turn with stage := max turn.stage i.stages.2 }

end Input

structure Service extends System where
  nl : Nl.NetlinkRx

namespace Service

/-- What may come in. The kernel's messages and their attributes are no shorter than their
headers, and what arrives on a connection does not keep `handle_conn` busy forever. -/
def Comes (x : Service) : Input → Prop
  | .netlink r => ∀ round ∈ Nl.handleNetlink x.nl r, ∀ m ∈ round.messages,
      Nl.Nlmsg.size ≤ m.length ∧ (Nl.nlGen m = true → Nl.Sound m)
  | .conn cn n s => cn < x.nconns ∧ 0 < (x.conns.getD cn {}).fd ∧ (Cntrl.handleConn n s).isSome
  | .accept cfds => ∀ cfd ∈ cfds, 0 < cfd
  | .rfkill reads => x.turn.rfkill = true ∧ ∀ b ∈ reads, b ≠ []
  | .other k => k.alone = true ∧ k.polled x.toSystem = true

def Enabled (x : Service) (e : Input × Env) : Prop :=
  x.halted = false ∧ x.turn.stage ≤ e.1.stages.1 ∧ x.Comes e.1

def step (x : Service) (e : Input × Env) : Service × List Act :=
  match e.1.handler x.nl { x.toDaemon with env := e.2 } with
  | .ok nl s out => ({ toDaemon := s, turn := e.1.next x.turn s, nl := nl }, out)
  | .halt s out => ({ toDaemon := s, turn := x.turn, halted := true, nl := x.nl }, out)

end Service

/-- The service as a machine, which takes in bytes and does what the handlers of the
loop do with them. -/
def service : Machine Service (Input × Env) Act where
  enabled := Service.Enabled
  step := Service.step

/-- What the loop starts with: the netlink buffer as `setup_netlink` leaves it. -/
def Service.Initial (x : Service) : Prop := x.toSystem.Initial ∧ Nl.InOrder x.nl

def Service.Reachable (x : Service) : Prop := service.Reachable Service.Initial x

end Wsupp

import Wsupp.Config
import Wsupp.Reactive.Prog

/-!
# The state of the daemon

The globals of the daemon, its inputs from the system calls and its outputs.
`Control` holds the variables the two state machines and the EAPOL machine run on;
everything the handlers only carry around is added in `Daemon`. `Env` lists what the
calls made while handling one event answer, in order; a list that has run out
answers with success.

Arrays are byte strings with the sizes of the source as their initial contents. The
outputs, `Act`, are the commands, frames, replies, reports and processes that can be
seen from outside. Marks of calls inside the process are among them where a result
is about the order of those calls.
-/
namespace Wsupp
open Reactive

def SSIDLEN : ℕ := 32
def NCONNS : ℕ := 10
def NSCANS : ℕ := 30

/-- `authstate`, the `AS_` constants. -/
inductive AuthState where
  | idle | authenticating | associating | connecting | connected | disconnecting | netdown | external
deriving DecidableEq, Repr

/-- `eapolstate`, the `ES_` constants. -/
inductive EapolState where
  | idle | waiting14 | waiting24 | waiting34 | negotiated
deriving DecidableEq, Repr

/-- `scanstate`, the `SS_` constants. -/
inductive ScanState where
  | idle | scanning | scandump
deriving DecidableEq, Repr

/-- `opermode`, the `OP_` constants. -/
inductive OperMode where
  | exit | exitreq | neutral | oneshot | active | rescan
deriving DecidableEq, Repr

/-- `scanreq`, the `SR_` bits. -/
structure ScanReq where
  scanningOneFreq : Bool := false
  reconnectCurrent : Bool := false
  connectSomething : Bool := false
deriving DecidableEq, Repr

/-- `scan.type`, the `ST_` bits that are ever set. -/
structure ScanType where
  wps : Bool := false
  wpa : Bool := false
  rsnPsk : Bool := false
  rsnPTkip : Bool := false
  rsnPCcmp : Bool := false
  rsnGTkip : Bool := false
  rsnGCcmp : Bool := false
deriving DecidableEq, Repr

/-- `scan.flags`, the `SF_` bits. -/
structure ScanFlags where
  seen : Bool := false
  good : Bool := false
  pass : Bool := false
  stale : Bool := false
  tried : Bool := false
deriving DecidableEq, Repr

/-- A C `short` holds its value modulo `2^16`. -/
def short (x : Int) : Int := x.bmod 65536

structure Scan where
  freq : Int := 0
  signal : Int := 0
  flags : ScanFlags := {}
  type : ScanType := {}
  bssid : Bytes := Bytes.zeros 6
  slen : ℕ := 0
  ssid : Bytes := Bytes.zeros SSIDLEN
deriving DecidableEq, Repr

theorem length_noScans : (List.replicate NSCANS ({} : Scan)).length = NSCANS := List.length_replicate

theorem noScans_le : 0 ≤ NSCANS := Nat.zero_le _

/-- The scan table: the array, of which the first `nscans` slots are in use. Slots in
between may be free again, and are taken first. -/
structure ScanTable where
  scans : List Scan := List.replicate NSCANS {}
  nscans : ℕ := 0
  size : scans.length = NSCANS := by exact length_noScans
  count_le : nscans ≤ NSCANS := by first | exact noScans_le | decide
deriving DecidableEq, Repr

structure Conn where
  fd : Int := 0
  rep : Bool := false
deriving DecidableEq, Repr

/-- The access point the daemon is tuned on; `iesize` is the length of `ies`. -/
structure Ap where
  bssid : Bytes := Bytes.zeros 6
  freq : Int := 0
  slen : ℕ := 0
  type : ScanType := {}
  ssid : Bytes := Bytes.zeros SSIDLEN
  ies : Bytes := []
  fixed : Bool := false
  unsaved : Bool := false
  tkipgroup : Bool := false
  success : Bool := false
  rescans : ℕ := 0
deriving DecidableEq, Repr

/-- Commands given to the kernel over netlink, with the attributes that vary. What is
the same for every command of a kind is left to the message. -/
inductive NlCommand where
  | triggerScan (freq : Option Int)
  | getScan
  | authenticate (bssid : Bytes) (freq : Int) (ssid : Bytes)
  | associate (bssid : Bytes) (freq : Int) (ssid ies : Bytes)
  | disconnect
  | newPairwiseKey (bssid key : Bytes)
  | newGroupKey (index : UInt8) (tkip : Bool) (key seq : Bytes)
deriving DecidableEq, Repr

/-- Notifications to the clients, the `REP_WI_` constants. -/
inductive Report where
  | netDown | scanning | scanDone | scanFail | noConnect
  | disconnect (bssid ssid : Bytes) (freq : Int)
  | connected (bssid ssid : Bytes) (freq : Int)
deriving DecidableEq, Repr

/-- Marks the handlers leave at the calls that the EAPOL machine and the
takeover are about; they change nothing. -/
inductive Call where
  | primeEapolState
  | resetEapolState
  | pmkToPtk (kck kek : Bytes)
  | takePacket1 (replay : Bytes)
  | takePacket3 (kck kek replay : Bytes)
  | takeGroup1 (kck kek replay : Bytes)
  | uploadPtk (authstate : AuthState)
  | uploadGtk (authstate : AuthState) (replay : Bytes)
  | handleConnect (authstate : AuthState)
  | snapToDisabled
deriving DecidableEq, Repr

/-- What the daemon does that can be seen from outside, and the marks. The connections a
report goes to are part of it, since they are read when it is sent. -/
inductive Act where
  | nl (c : NlCommand) (sent : Bool)
  | nlAck (c : NlCommand) (sent : Bool)
  | eapol (dest frame : Bytes) (sent : Bool)
  | report (r : Report) (conns : List ℕ)
  | reply (conn : ℕ) (code : Int)
  | replyStatus (conn : ℕ)
  | replyDevice (conn : ℕ)
  | shutdownConn (conn : ℕ)
  | startDhcp (pid : Int)
  | killDhcp (pid : Int)
  | saveState (ssid : Bytes)
  | warn (text : String)
  | exit
  | call (c : Call)
deriving DecidableEq, Repr

/-- Answers of the system calls made while one event is handled, one list for each kind
of call. Each call takes the next answer off its list. -/
structure Env where
  /-- results of `sendto` on the netlink socket, positive for success -/
  nlSend : List Int := []
  /-- results of `sendto` on the EAPOL socket; the default is the whole frame -/
  rawSend : List Int := []
  /-- whether `socket` and `bind` for a new EAPOL socket succeed -/
  openRawsock : List Bool := []
  /-- what `/dev/urandom` gives; `none` where opening or reading it fails -/
  urandom : List (Option Bytes) := []
  /-- whether the calls of `bring_iface_up` succeed -/
  ifaceUp : List Bool := []
  /-- results of `fork` -/
  fork : List Int := []
  /-- whether `stat` finds the rfkill device below the interface -/
  statRfkill : List Bool := []
  /-- whether `/dev/rfkill` opens -/
  openRfkill : List Bool := []
  loadIO : List LoadIO := []
  remapIO : List RemapIO := []
  saveIO : List SaveIO := []

/-- The variables the state machines run on: states, modes, the scan requests, the
timer, and the keys and the counter by which packets are checked. -/
structure Control where
  opermode : OperMode := .exit
  authstate : AuthState := .idle
  scanstate : ScanState := .idle
  scanreq : ScanReq := {}
  scanseq : ℕ := 0
  timerset : Bool := false
  rfkilled : Bool := false
  eapolstate : EapolState := .idle
  eapolsends : Bool := false
  replay : Bytes := Bytes.zeros 8
  KCK : Bytes := Bytes.zeros 16
  KEK : Bytes := Bytes.zeros 16
deriving DecidableEq, Repr

structure Daemon extends Control where
  /-- `pollts.tv_sec` -/
  pollts : ℕ := 0
  /-- `nl.seq` -/
  seq : ℕ := 0
  ifindex : Int := 0
  ap : Ap := {}
  table : ScanTable := {}
  conns : List Conn := List.replicate NCONNS {}
  nconns : ℕ := 0
  config : Config := {}
  /-- whether the EAPOL socket is open -/
  rawsock : Bool := false
  version : UInt8 := 0
  amac : Bytes := Bytes.zeros 6
  smac : Bytes := Bytes.zeros 6
  anonce : Bytes := Bytes.zeros 32
  snonce : Bytes := Bytes.zeros 32
  PSK : Bytes := Bytes.zeros 32
  PTK : Bytes := Bytes.zeros 16
  GTK : Bytes := Bytes.zeros 32
  RSC : Bytes := Bytes.zeros 6
  gtkindex : UInt8 := 0
  /-- whether `/dev/rfkill` is open -/
  rfkill : Bool := false
  rfkidx : Int := 0
  dhcpid : Int := 0
  env : Env := {}

/-- Handlers of the daemon. -/
abbrev Handler := Prog Daemon Act

namespace Handler
open Prog

/-- The next answer of a kind, or the default. -/
def answer {α : Type} (get : Env → List α) (set : Env → List α → Env) (dflt : α) : Handler α := do
  let s ← read
  update fun s => { s with env := set s.env (get s.env).tail }
  pure ((get s.env).headD dflt)

def answerNlSend : Handler Int := answer Env.nlSend (fun e l => { e with nlSend := l }) 1

def answerRawSend (len : ℕ) : Handler Int :=
  answer Env.rawSend (fun e l => { e with rawSend := l }) len

def answerOpenRawsock : Handler Bool :=
  answer Env.openRawsock (fun e l => { e with openRawsock := l }) true

def answerUrandom : Handler (Option Bytes) :=
  answer Env.urandom (fun e l => { e with urandom := l }) (some (Bytes.zeros 32))

def answerIfaceUp : Handler Bool := answer Env.ifaceUp (fun e l => { e with ifaceUp := l }) true

def answerFork : Handler Int := answer Env.fork (fun e l => { e with fork := l }) 1

def answerStatRfkill : Handler Bool :=
  answer Env.statRfkill (fun e l => { e with statRfkill := l }) true

def answerOpenRfkill : Handler Bool :=
  answer Env.openRfkill (fun e l => { e with openRfkill := l }) true

def answerLoadIO : Handler LoadIO := answer Env.loadIO (fun e l => { e with loadIO := l }) {}

def answerRemapIO : Handler RemapIO := answer Env.remapIO (fun e l => { e with remapIO := l }) {}

def answerSaveIO : Handler SaveIO := answer Env.saveIO (fun e l => { e with saveIO := l }) {}

def warn (text : String) : Handler Unit := emit (.warn text)

def call (c : Call) : Handler Unit := emit (.call c)

end Handler
end Wsupp

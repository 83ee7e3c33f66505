import Wsupp.Crypto.Pbkdf2
import Wsupp.Reactive.Prog
import Wsupp.Reports
import Wsupp.Wifi

/-!
# The commands of `wifi`

The tool `wifi` as a program over its state `Top`: the arguments that are left, the
message it puts together, the buffer it receives into and what is still to arrive.
It sends a request, waits for the reply and for what is reported after it, and
prints what it was told. Its outputs are the bytes it writes to the socket, the
texts it prints and the failure it ends with.

The sort of the scan results is a parameter, since the source uses the `qsort` of
the C library. Waiting has a bound, `patience`, because nothing in the tool limits
how many messages it reads.
-/
namespace Wsupp.Client
open Reactive Prog Nlusctl Wire Cntrl

/-- `struct top`, with what the terminal and the socket are going to give. The loops wait
for `patience` messages. -/
structure Top where
  /-- the arguments that are left -/
  argv : List Bytes
  showbss : Bool := false
  connected : Bool := false
  uc : Ucbuf
  ur : Urbuf := Wifi.rxbuf
  stream : List Arrival := []
  /-- what `read` gets for the passphrase -/
  stdin : Bytes := []
  /-- `errno` after `socket`, `connect` and the calls of `writeall`, zero for success -/
  socketErr : Int := 0
  connectErr : Int := 0
  writeErrs : List Int := []
  patience : ℕ

inductive Out where
  | sends (b : Bytes)
  | prints (b : Bytes)
  /-- `%m` in the text is for `errno`. -/
  | fails (text : Bytes) (errno : Int)
  /-- a loop goes on and on -/
  | waits
deriving DecidableEq

/-- A part of the tool; `fail` ends it. -/
abbrev Cmd := Prog Top Out

def text (str : String) : Bytes := str.toUTF8.toList

def fail {α : Type} (text : Bytes) (errno : Int) : Cmd α := do
  emit (.fails text errno)
  exit

def goOn {α : Type} : Cmd α := do
  emit .waits
  exit

def dec (v : Int) : Bytes := text (toString v)

/-- A field of at least `width` characters. -/
def padded (width : ℕ) (b : Bytes) : Bytes := List.replicate (width - b.length) 32 ++ b

def digit (d : UInt8) : UInt8 := if d < 10 then 48 + d else 55 + d

def hex (c : UInt8) : Bytes := [digit (c / 16), digit (c % 16)]

def inrange (freq a b s i : Int) : Int :=
  if freq < a then 0
  else if b < freq then 0
  else if (freq - a) % s ≠ 0 then 0
  else i + (freq - a) / s

/-- The channel and its band, if the frequency is one of a channel. -/
def getChannel (freq : Int) : Int × Option UInt8 :=
  if freq = 2484 then (14, some 98)
  else if inrange freq 2412 2472 5 1 ≠ 0 then (inrange freq 2412 2472 5 1, some 98)
  else if inrange freq 5035 5865 5 7 ≠ 0 then (inrange freq 5035 5865 5 7, some 97)
  else if inrange freq 4915 4980 5 183 ≠ 0 then (inrange freq 4915 4980 5 183, some 97)
  else (0, none)

def printable (c : UInt8) : Bool := 0x20 ≤ c

def ssidText (ssid : Bytes) : Bytes := ssid.flatMap fun c => if printable c then [c] else text "\\x" ++ hex c

def macText (mac : Bytes) : Bytes := (text ":").intercalate (mac.map hex)

def printSsid (msg : Bytes) : Option ℕ → Bytes
  | none => []
  | some at' => ssidText (ucPayload msg at')

def printMac (msg : Bytes) : Option ℕ → Bytes
  | none => []
  | some at' => if ucPaylen msg at' ≠ 6 then [] else macText (ucPayload msg at')

def getInt (msg : Bytes) (attr : ℕ) : Int := (ucGetInt msg attr).getD 0

def subInt (msg : Bytes) (at' attr : ℕ) : Int := (ucSubInt msg at' attr).getD 0

def channelText (freq : Int) : Bytes :=
  if freq = 0 then []
  else match (getChannel freq).2 with
    | some band => text " (" ++ dec (getChannel freq).1 ++ [band] ++ text "/" ++ dec freq ++ text "MHz)"
    | none => text " (" ++ dec freq ++ text "MHz)"

def printStation (showbss : Bool) (msg : Bytes) : Bytes :=
  printSsid msg (ucGet msg ATTR_SSID) ++
    (if showbss then text " " ++ printMac msg (ucGet msg ATTR_BSSID) else []) ++
    channelText (getInt msg ATTR_FREQ)

def signalText (signal freq : Int) : Bytes :=
  text "AP " ++ dec (signal.tdiv 100) ++ text " " ++
    match (getChannel freq).2 with
    | some band => padded 3 (dec (getChannel freq).1) ++ [band]
    | none => padded 4 (dec freq)

def printScanline (showbss : Bool) (msg : Bytes) (at' : ℕ) : Bytes :=
  match ucSub msg at' ATTR_BSSID, ucSub msg at' ATTR_SSID with
  | some bssid, some ssid =>
      signalText (subInt msg at' ATTR_SIGNAL) (subInt msg at' ATTR_FREQ) ++
        (if showbss then text "  " ++ printMac msg bssid else []) ++
        text "  " ++ printSsid msg ssid ++
        (if (ucSub msg at' ATTR_PRIO).isSome then text " *" else []) ++ text "\n"
  | _, _ => []

def cmpInt (msg : Bytes) (at' bt key : ℕ) : Int :=
  match ucSubInt msg at' key, ucSubInt msg bt key with
  | none, some _ => -1
  | some _, none => 1
  | none, none => 0
  | some na, some nb => if na < nb then -1 else if nb < na then 1 else 0

def scanOrd (msg : Bytes) (at' bt : ℕ) : Int :=
  if cmpInt msg at' bt ATTR_SIGNAL ≠ 0 then -cmpInt msg at' bt ATTR_SIGNAL
  else if cmpInt msg at' bt ATTR_FREQ ≠ 0 then cmpInt msg at' bt ATTR_FREQ
  else 0

section Lists
variable (qsort : (ℕ → ℕ → Int) → List ℕ → List ℕ)

/-- The attributes with a key, in the order of `cmp`. -/
def prepList (msg : Bytes) (key : ℕ) (cmp : ℕ → ℕ → Int) : List ℕ :=
  qsort cmp ((attrs msg).collect (fun p => attrKey msg p = key) (msg.length + 1) (ucGet0 msg))

def printScanResults (showbss : Bool) (msg : Bytes) (nl : Bool) : Bytes :=
  let scans := prepList qsort msg ATTR_SCAN (scanOrd msg)
  scans.flatMap (printScanline showbss msg) ++ if nl ∧ scans ≠ [] then text "\n" else []

/-- The table `wistates`. -/
def stateText (state : Int) : Bytes :=
  if state = WS_IDLE then text "Idle"
  else if state = WS_RFKILLED then text "RF-kill"
  else if state = WS_NETDOWN then text "Net down"
  else if state = WS_EXTERNAL then text "External"
  else if state = WS_SCANNING then text "Scanning"
  else if state = WS_CONNECTING then text "Connecting"
  else if state = WS_CONNECTED then text "Connected"
  else text "??"

def printStatus (showbss : Bool) (msg : Bytes) : Bytes :=
  stateText (getInt msg ATTR_STATE) ++ text " AP " ++ printStation showbss msg ++ text "\n"

def dumpScanlist (msg : Bytes) : Cmd Unit := do
  let ctx ← read
  emit (.prints (printScanResults qsort ctx.showbss msg false))

def dumpStatus (msg : Bytes) : Cmd Unit := do
  let ctx ← read
  emit (.prints (printScanResults qsort ctx.showbss msg true ++ printStatus ctx.showbss msg))

end Lists

def warnSta (str : Bytes) (msg : Bytes) : Cmd Unit := do
  let ctx ← read
  emit (.prints (str ++ text " AP " ++ printStation ctx.showbss msg ++ text "\n"))

/-- `errno` is compared with a negative number, so that the service not being there is no
case of its own. -/
def connctl (miss : Bool) : Cmd Int := do
  let ctx ← read
  if ctx.socketErr ≠ 0 then fail (text "socket AF_UNIX: %m\n") ctx.socketErr
  else if ctx.connectErr ≠ 0 then
    if ctx.connectErr ≠ -ENOENT ∨ miss = false then fail (text "connect /run/ctrl/wsupp: %m\n") ctx.connectErr
    else pure (-1)
  else do
    update fun ctx => { ctx with connected := true }
    pure 0

def connectWictl : Cmd Unit := do
  let _ ← connctl false
  pure ()

def connectWictlCheck : Cmd Unit := do
  let ret ← connctl true
  if 0 ≤ ret then pure () else fail (text "service is not running\n") 0

def sendCommand : Cmd Unit := do
  let ctx ← read
  if ctx.connected = false then fail (text "socket is not connected\n") 0
  else if ctx.writeErrs.headD 0 ≠ 0 then fail (text "write: %m\n") (ctx.writeErrs.headD 0)
  else do
    update fun ctx => { ctx with writeErrs := ctx.writeErrs.tail }
    emit (.sends (contents ctx.uc))

def recvReply : Cmd (Option Bytes) := fun ctx =>
  let (msg, ur, stream) := Wifi.recvReply ctx.ur ctx.stream
  .ok (msg.map Ucmsg.bytes) { ctx with ur := ur, stream := stream } []

/-- The loop of `send_recv_msg`. -/
def awaitReply : ℕ → Cmd Bytes
  | 0 => goOn
  | n + 1 => do
      match ← recvReply with
      | none => fail (text "connection lost\n") 0
      | some msg => if Ucmsg.cmd msg ≤ 0 then pure msg else awaitReply n

def sendRecvMsg : Cmd Bytes := do
  sendCommand
  let ctx ← read
  awaitReply ctx.patience

def sendRecvCmd : Cmd Int := do
  let msg ← sendRecvMsg
  pure (Ucmsg.cmd msg)

def sendCheck : Cmd Unit := do
  let ret ← sendRecvCmd
  if ret < 0 then fail (text "send: %m\n") (-ret) else pure ()

def noOtherOptions : Cmd Unit := do
  let ctx ← read
  if ctx.argv ≠ [] then fail (text "too many arguments\n") 0 else pure ()

def put (f : Ucbuf → Ucbuf) : Cmd Unit := update fun ctx => { ctx with uc := f ctx.uc }

/-- A request without attributes. -/
def putRequest (cmd : Int) : Cmd Unit := put fun uc => ucPutEnd (ucPutHdr uc cmd)

def shiftArg : Cmd (Option Bytes) := do
  let ctx ← read
  update fun ctx => { ctx with argv := ctx.argv.tail }
  pure ctx.argv.head?

section Commands
variable (qsort : (ℕ → ℕ → Int) → List ℕ → List ℕ)

def cmdStatus : Cmd Unit := do
  putRequest CMD_WI_STATUS
  noOtherOptions
  connectWictlCheck
  let msg ← sendRecvMsg
  dumpStatus qsort msg

def cmdBss : Cmd Unit := do
  update fun ctx => { ctx with showbss := true }
  cmdStatus qsort

/-- The loop of `cmd_neutral`. -/
def awaitNeutral : ℕ → Cmd Unit
  | 0 => goOn
  | n + 1 => do
      match ← recvReply with
      | none => pure ()
      | some msg =>
          if Ucmsg.cmd msg = REP_WI_DISCONNECT then pure ()
          else if Ucmsg.cmd msg = REP_WI_NET_DOWN then pure ()
          else awaitNeutral n

def cmdNeutral : Cmd Unit := do
  putRequest CMD_WI_NEUTRAL
  noOtherOptions
  connectWictl
  let ret ← sendRecvCmd
  if ret = -EALREADY then pure ()
  else if ret < 0 then fail (text "%m\n") (-ret)
  else do
    let ctx ← read
    awaitNeutral ctx.patience

/-- The loop of `cmd_scan`. -/
def awaitScan : ℕ → Cmd Unit
  | 0 => goOn
  | n + 1 => do
      match ← recvReply with
      | none => pure ()
      | some msg =>
          if Ucmsg.cmd msg = REP_WI_SCAN_FAIL then fail (text "scan failed\n") 0
          else if Ucmsg.cmd msg = REP_WI_SCAN_DONE then pure ()
          else if Ucmsg.cmd msg = REP_WI_NET_DOWN then fail (text "net down\n") 0
          else awaitScan n

def cmdScan : Cmd Unit := do
  putRequest CMD_WI_SCAN
  noOtherOptions
  connectWictl
  sendCheck
  let ctx ← read
  awaitScan ctx.patience
  putRequest CMD_WI_STATUS
  let msg ← sendRecvMsg
  dumpScanlist qsort msg

def waitForConnect : ℕ → ℕ → Cmd Unit
  | 0, _ => goOn
  | n + 1, failures => do
      match ← recvReply with
      | none => pure ()
      | some msg =>
          if Ucmsg.cmd msg = REP_WI_NET_DOWN then fail (text "network down\n") 0
          else if Ucmsg.cmd msg = REP_WI_CONNECTED then warnSta (text "connected to") msg
          else if Ucmsg.cmd msg = REP_WI_DISCONNECT then do
            warnSta (text "cannot connect to") msg
            waitForConnect n (failures + 1)
          else if Ucmsg.cmd msg = REP_WI_NO_CONNECT then
            if failures ≠ 0 then fail (text "no more APs in range\n") 0
            else fail (text "no suitable APs in range\n") 0
          else waitForConnect n failures

/-- No argument is so long that an int overflows. -/
def putPsk (ssid pass : Bytes) : Cmd Unit :=
  put fun uc => ucPutBin uc ATTR_PSK ((Pbkdf2.putPsk ssid pass).getD (Bytes.zeros 32))

def putPskInput (ssid : Bytes) : Cmd Unit := do
  let ctx ← read
  emit (.prints (text "Passphrase: "))
  if 256 ≤ ctx.stdin.length then fail (text "passphrase too long\n") 0
  else match Pbkdf2.inputPassphrase ctx.stdin with
    | none => fail (text "empty passphrase rejected\n") 0
    | some pass => putPsk ssid pass

def awaitConnection : Cmd Unit := do
  let ctx ← read
  waitForConnect ctx.patience 0

def cmdFixedap : Cmd Unit := do
  match ← shiftArg with
  | none => fail (text "need AP ssid\n") 0
  | some ssid => do
      put fun uc => ucPutEnd (ucPutBin (ucPutHdr uc CMD_WI_CONNECT) ATTR_SSID ssid)
      noOtherOptions
      connectWictl
      let ret ← sendRecvCmd
      if 0 ≤ ret then awaitConnection
      else if ret ≠ -ENOKEY then fail (text "backend error: %m\n") (-ret)
      else do
        put fun uc => ucPutBin (ucPutHdr uc CMD_WI_CONNECT) ATTR_SSID ssid
        putPskInput ssid
        put ucPutEnd
        sendCheck
        awaitConnection

def cmdConnect : Cmd Unit := do
  let ctx ← read
  if ctx.argv ≠ [] then cmdFixedap
  else do
    putRequest CMD_WI_CONNECT
    noOtherOptions
    connectWictl
    sendCheck
    awaitConnection

def cmdForget : Cmd Unit := do
  match ← shiftArg with
  | none => fail (text "SSID required\n") 0
  | some ssid => do
      put fun uc => ucPutEnd (ucPutBin (ucPutHdr uc CMD_WI_FORGET) ATTR_SSID ssid)
      noOtherOptions
      connectWictl
      sendCheck

/-- The table `commands`. -/
def dispatch (name : Bytes) : Cmd Unit :=
  if name = text "scan" then cmdScan qsort
  else if name = text "ap" then cmdFixedap
  else if name = text "connect" then cmdConnect
  else if name = text "dc" then cmdNeutral
  else if name = text "break" then cmdNeutral
  else if name = text "disconnect" then cmdNeutral
  else if name = text "forget" then cmdForget
  else if name = text "bss" then cmdBss qsort
  else fail (text "unknown command " ++ name ++ text "\n") 0

def main : Cmd Unit := do
  match ← shiftArg with
  | some cmd => dispatch qsort cmd
  | none => cmdStatus qsort

end Commands

end Wsupp.Client

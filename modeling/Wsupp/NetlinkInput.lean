import Wsupp.NetlinkEvents
import Wsupp.Safety.FamilyGroups

/-!
# Netlink messages as they come

`handle_netlink` and the handlers below it on the bytes of a message: which of its
attributes are read, and when. `decode` is the message as the handlers of
`NetlinkEvents` get it; the two ways of handling a message come to the same, which
is proved elsewhere for messages that are all there.

Attributes are looked up with the functions of the netlink library, so a message of
the wrong shape gives what these give. Numbers of commands and attributes are those
of nl80211 in the kernel's headers. Receiving and cutting the stream into messages
is in the library as well; here the loop hands each one over until none is left that
is complete.
-/
namespace Wsupp.Netlink
open Reactive Prog Handler Nl Wire
open Nlusctl (sizeT)

def NLMSG_ERROR : ℕ := 2
def NLMSG_DONE : ℕ := 3
def NLM_F_MULTI : ℕ := 2

def ATTR_IFINDEX : ℕ := 3
def ATTR_SCAN_FREQUENCIES : ℕ := 44

def BSS_FREQUENCY : ℕ := 2
def BSS_SIGNAL_MBM : ℕ := 7

-- fields of `struct nlmsg`, `struct nlerr` and `struct nlgen`

def msgType (msg : Bytes) : ℕ := msg.le16 4
def msgFlags (msg : Bytes) : ℕ := msg.le16 6
def msgSeq (msg : Bytes) : ℕ := msg.le32 8
def errSize : ℕ := 36
def msgErr (msg : Bytes) : Int := toInt (msg.le32 16)
def genCmd (msg : Bytes) : UInt8 := msg.at' 16

/-- Whether `nl_err` takes it for an error. -/
def nlErr (msg : Bytes) : Bool :=
  if msgType msg ≠ NLMSG_ERROR then false
  else if Nlmsg.len msg < errSize then false
  else true

/-- `nl_bin`, where the payload begins. -/
def nlBin (msg : Bytes) (p len : ℕ) : Option ℕ :=
  if sizeT ((attrLen msg p : Int) - Nlattr.size) = len then some (p + Nlattr.size) else none

def i32At (msg : Bytes) (p : ℕ) : Int := toInt (msg.le32 p)

def nlGetI32 (msg : Bytes) (type : ℕ) : Option Int := (nlGetOfLen msg type 4).map (i32At msg)

def nlSubI32 (msg : Bytes) (p type : ℕ) : Option Int := (nlSubOfLen msg p type 4).map (i32At msg)

def nlI32 (msg : Bytes) (p : ℕ) : Option Int := (nlBin msg p 4).map (i32At msg)

def getI32OrZero (msg : Bytes) (bss key : ℕ) : Int :=
  match nlSubI32 msg bss key with
  | some val => val
  | none => 0

/-- What `parse_station_ies` is given: the length is a `uint` there. -/
def iesOf (msg : Bytes) (ies : ℕ) : Bytes :=
  msg.slice (ies + Nlattr.size) (nlAttrLen msg ies % 2 ^ 32).toNat

/-- The inner loop of `mark_stale_scan_slots` is left at an entry with this frequency. -/
def listsFreq (msg : Bytes) (nest : ℕ) (freq : Int) : Bool :=
  ((subs msg nest).search (fun sb => nlI32 msg sb = some freq) (msg.length + 1) (nlSub0 msg nest)).isSome

namespace Raw

def markStaleScanSlots (msg : Bytes) : Handler Unit :=
  match nlGetNest msg ATTR_SCAN_FREQUENCIES with
  | none => pure ()
  | some nest => update fun s => { s with
      table := s.table.map fun sc =>
        if sc.freq = 0 then sc
        else if listsFreq msg nest sc.freq then { sc with flags := { sc.flags with stale := true } }
        else sc }

/-- A slot as `parse_scan_result` fills it. -/
def fillSlot (msg : Bytes) (bss bssid : ℕ) (sc : Scan) : Scan :=
  let sc := { sc with
    bssid := msg.slice bssid 6
    freq := short (getI32OrZero msg bss BSS_FREQUENCY)
    signal := short (getI32OrZero msg bss BSS_SIGNAL_MBM)
    type := {}
    flags := { sc.flags with stale := false } }
  match nlSub msg bss BSS_INFORMATION_ELEMENTS with
  | some ies => parseStationIes sc (iesOf msg ies)
  | none => sc

def parseScanResult (msg : Bytes) : Handler Unit := do
  let s ← read
  match nlGetNest msg ATTR_BSS with
  | none => pure ()
  | some bss =>
      match nlSubOfLen msg bss BSS_BSSID 6 with
      | none => pure ()
      | some bssid =>
          match s.table.grabScanSlot (msg.slice bssid 6) with
          | none => pure ()
          | some (i, t) => update fun s => { s with table := t.modify i (fillSlot msg bss bssid) }

def cmdTriggerScan (msg : Bytes) : Handler Unit := do
  let s ← read
  if s.scanstate ≠ .scanning then pure ()
  else do
    markStaleScanSlots msg
    reportScanning

def cmdScanResults (msg : Bytes) : Handler Unit := do
  let s ← read
  if msgFlags msg &&& NLM_F_MULTI ≠ 0 then parseScanResult msg
  else if s.scanstate = .scanning then triggerScanDump
  else pure ()

/-- The table `cmds`. -/
def cmds : List (UInt8 × (Bytes → Handler Unit)) :=
  [(33, cmdTriggerScan),
   (34, cmdScanResults),
   (35, fun _ => cmdScanAborted),
   (37, fun _ => cmdAuthenticate),
   (38, fun _ => cmdAssociate),
   (46, fun _ => cmdConnect),
   (48, fun _ => cmdDisconnect)]

def dispatch (msg : Bytes) : Handler Unit :=
  match cmds.find? fun p => p.1 = genCmd msg with
  | some p => p.2 msg
  | none => pure ()

def matchIfi (msg : Bytes) (ifindex : Int) : Bool :=
  match nlGetI32 msg ATTR_IFINDEX with
  | none => false
  | some ifi => if ifi ≠ ifindex then false else true

/-- One turn of the loop of `handle_netlink`. -/
def handleMsg (msg : Bytes) : Handler Unit := do
  let s ← read
  if msgType msg = NLMSG_DONE then genlDone
  else if nlErr msg then genlError (msgSeq msg) (msgErr msg)
  else if !nlGen msg then pure ()
  else if !matchIfi msg s.ifindex then pure ()
  else dispatch msg

/-- The loop of `handle_netlink` and the shift after it; every turn takes a byte at least. -/
def handleMsgs : ℕ → NetlinkRx → Handler NetlinkRx
  | 0, nl => pure nl
  | n + 1, nl =>
      match nlGetNowait nl with
      | none => pure (nlShiftRxbuf nl)
      | some nl => do
          handleMsg nl.message
          handleMsgs n nl

/-- `handle_netlink`: the service quits if there is nothing to be received. -/
def handleNetlink (nl : NetlinkRx) (r : Recv) : Handler NetlinkRx :=
  let rd := nlRecvNowait nl r
  if rd.1 < 0 then quit "nl-recv: %m\n"
  else handleMsgs (rd.2.rxend + 1) rd.2

end Raw

def codeOf (cmd : UInt8) : Code :=
  if cmd = 33 then .triggerScan
  else if cmd = 34 then .newScanResults
  else if cmd = 35 then .scanAborted
  else if cmd = 37 then .authenticate
  else if cmd = 38 then .associate
  else if cmd = 46 then .connect
  else if cmd = 48 then .disconnect
  else .other

/-- The frequencies of a scan, in their order. -/
def freqsOf (msg : Bytes) (nest : ℕ) : List (Option Int) :=
  ((subs msg nest).collect (fun _ => true) (msg.length + 1) (nlSub0 msg nest)).map (nlI32 msg)

def bssOf (msg : Bytes) (bss : ℕ) : Bss where
  bssid := (nlSubOfLen msg bss BSS_BSSID 6).map fun p => msg.slice p 6
  freq := nlSubI32 msg bss BSS_FREQUENCY
  signal := nlSubI32 msg bss BSS_SIGNAL_MBM
  ies := (nlSub msg bss BSS_INFORMATION_ELEMENTS).map (iesOf msg)

def genOf (msg : Bytes) : Gen where
  ifi := nlGetI32 msg ATTR_IFINDEX
  cmd := codeOf (genCmd msg)
  multi := msgFlags msg &&& NLM_F_MULTI ≠ 0
  freqs := (nlGetNest msg ATTR_SCAN_FREQUENCIES).map (freqsOf msg)
  bss := (nlGetNest msg ATTR_BSS).map (bssOf msg)

def decode (msg : Bytes) : Msg :=
  if msgType msg = NLMSG_DONE then .done
  else if nlErr msg then .err (msgSeq msg) (msgErr msg)
  else if nlGen msg then .gen (genOf msg)
  else .other

end Wsupp.Netlink

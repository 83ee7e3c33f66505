import Wsupp.Nlusctl.Put
import Wsupp.Requests

/-!
# The status message

What `cmd_status` puts into a buffer made for it: the interface and the access
point, then one nest for each slot of the scan table in use.

The calls are those of the source in their order, and the same calls as a tree of
attributes, which is what a result about the message speaks of; that the two come to
the same is proved here. The name of the station is put when there is one to tell,
its address and frequency when a connection is under way. The estimate of the size
is the source's, rounded up to whole pages.
-/
namespace Wsupp.Cntrl
open Nlusctl Wire

def PAGE : ℕ := 4096

/-- `sizeof(struct scan)`. -/
def scanSize : ℕ := 48

def estimateStatus (nscans : ℕ) : ℕ := nscans * (scanSize + 10 * Ucattr.size) + 128

/-- The size of the block `prep_heap` asks for. -/
def prepHeap (size : ℕ) : ℕ := size + (PAGE - size % PAGE) % PAGE

def WS_IDLE : Int := 0
def WS_RFKILLED : Int := 1
def WS_NETDOWN : Int := 2
def WS_EXTERNAL : Int := 3
def WS_SCANNING : Int := 4
def WS_CONNECTING : Int := 5
def WS_CONNECTED : Int := 6

def commonWifiState (s : Daemon) : Int :=
  if s.authstate = .connected then WS_CONNECTED
  else if s.authstate = .netdown then if s.rfkilled then WS_RFKILLED else WS_NETDOWN
  else if s.authstate = .external then WS_EXTERNAL
  else if s.authstate ≠ .idle then WS_CONNECTING
  else if s.scanstate ≠ .idle then WS_SCANNING
  else WS_IDLE

/-- The `ST_` bits. -/
def typeBits (type : ScanType) : ℕ :=
  (if type.wps then 1 <<< 0 else 0) ||| (if type.wpa then 1 <<< 1 else 0) |||
    (if type.rsnPsk then 1 <<< 4 else 0) ||| (if type.rsnPTkip then 1 <<< 5 else 0) |||
    (if type.rsnPCcmp then 1 <<< 6 else 0) ||| (if type.rsnGTkip then 1 <<< 7 else 0) |||
    (if type.rsnGCcmp then 1 <<< 8 else 0)

def putStatusWifi (s : Daemon) (ifname : Bytes) (uc : Ucbuf) : Ucbuf :=
  let uc := ucPutInt uc ATTR_IFI s.ifindex
  let uc := ucPutStr uc ATTR_NAME ifname
  let uc := ucPutInt uc ATTR_STATE (commonWifiState s)
  let uc := if s.authstate ≠ .idle ∨ s.ap.fixed then
    ucPutBin uc ATTR_SSID (s.ap.ssid.take s.ap.slen) else uc
  if s.authstate ≠ .idle then
    let uc := ucPutBin uc ATTR_BSSID s.ap.bssid
    ucPutInt uc ATTR_FREQ s.ap.freq
  else uc

/-- One turn of the loop of `put_status_scans`. -/
def putStatusScan (uc : Ucbuf) (sc : Scan) : Ucbuf :=
  if sc.freq = 0 then uc
  else
    let (nn, uc) := ucPutNest uc ATTR_SCAN
    let uc := ucPutInt uc ATTR_FREQ sc.freq
    let uc := ucPutInt uc ATTR_TYPE (typeBits sc.type)
    let uc := ucPutInt uc ATTR_SIGNAL sc.signal
    let uc := ucPutBin uc ATTR_BSSID sc.bssid
    let uc := ucPutBin uc ATTR_SSID (sc.ssid.take sc.slen)
    let uc :=
      if !sc.flags.pass then uc
      else if !sc.flags.good then uc
      else ucPutFlag uc ATTR_PRIO
    ucEndNest uc nn

def putStatusScans (s : Daemon) (uc : Ucbuf) : Ucbuf := s.table.slots.foldl putStatusScan uc

/-- `cmd_status` up to the reply; `heap` is what `malloc` gave. -/
def buildStatus (s : Daemon) (ifname heap : Bytes) : Ucbuf :=
  let uc := ucBufSet heap
  let uc := ucPutHdr uc 0
  let uc := putStatusWifi s ifname uc
  let uc := putStatusScans s uc
  ucPutEnd uc

/-- The bytes the reply is sent as. -/
def statusReply (s : Daemon) (ifname heap : Bytes) : Bytes :=
  (buildStatus s ifname heap).mem.take (buildStatus s ifname heap).ptr

def wifiPuts (s : Daemon) (ifname : Bytes) (rest : Puts) : Puts :=
  let bssid := if s.authstate ≠ .idle then
    .bin ATTR_BSSID s.ap.bssid (.int ATTR_FREQ s.ap.freq rest) else rest
  let ssid := if s.authstate ≠ .idle ∨ s.ap.fixed then
    .bin ATTR_SSID (s.ap.ssid.take s.ap.slen) bssid else bssid
  .int ATTR_IFI s.ifindex (.str ATTR_NAME ifname (.int ATTR_STATE (commonWifiState s) ssid))

def scanPuts (sc : Scan) : Puts :=
  .int ATTR_FREQ sc.freq <| .int ATTR_TYPE (typeBits sc.type) <| .int ATTR_SIGNAL sc.signal <|
    .bin ATTR_BSSID sc.bssid <| .bin ATTR_SSID (sc.ssid.take sc.slen) <|
    if sc.flags.pass ∧ sc.flags.good then .flag ATTR_PRIO .done else .done

/-- One nest for each slot in use. -/
def scansPuts : List Scan → Puts
  | [] => .done
  | sc :: scs => if sc.freq = 0 then scansPuts scs else .nest ATTR_SCAN (scanPuts sc) (scansPuts scs)

def statusPuts (s : Daemon) (ifname : Bytes) : Puts := wifiPuts s ifname (scansPuts s.table.slots)

theorem wifiPuts_run (s : Daemon) (ifname : Bytes) (rest : Puts) (uc : Ucbuf) :
    (wifiPuts s ifname rest).run uc = rest.run (putStatusWifi s ifname uc) := by
  unfold wifiPuts putStatusWifi
  by_cases hidle : s.authstate = .idle
  · by_cases hfixed : s.ap.fixed = true
    · simp only [hidle, hfixed, Puts.run, ne_eq, not_true_eq_false, or_true, if_true, if_false]
    · simp only [hidle, hfixed, Puts.run, ne_eq, not_true_eq_false, or_false, if_false,
        Bool.false_eq_true]
  · simp only [hidle, Puts.run, ne_eq, not_false_eq_true, true_or, if_true]

theorem scansPuts_run (scs : List Scan) (uc : Ucbuf) :
    (scansPuts scs).run uc = scs.foldl putStatusScan uc := by
  induction scs generalizing uc with
  | nil => rfl
  | cons sc scs ih =>
      rw [scansPuts, List.foldl_cons, putStatusScan]
      by_cases hfreq : sc.freq = 0
      · rw [if_pos hfreq, if_pos hfreq, ih]
      · rw [if_neg hfreq, if_neg hfreq, Puts.run]
        obtain ⟨nn, uc⟩ := ucPutNest uc ATTR_SCAN
        dsimp only
        rw [ih, scanPuts]
        cases hpass : sc.flags.pass with
        | false => rfl
        | true =>
            cases hgood : sc.flags.good with
            | false => rfl
            | true => rfl

theorem statusPuts_run (s : Daemon) (ifname heap : Bytes) :
    (statusPuts s ifname).message (ucBufSet heap) 0 = buildStatus s ifname heap := by
  rw [Puts.message, statusPuts, wifiPuts_run, scansPuts_run]
  rfl

theorem statusPuts_sent (s : Daemon) (ifname heap : Bytes) :
    (statusPuts s ifname).sent heap 0 = statusReply s ifname heap := by
  rw [Puts.sent, statusPuts_run, statusReply]

end Wsupp.Cntrl

import Wsupp.Status

/-!
# Replies and reports as messages

What the daemon writes to a connection: replies from a buffer of 100 bytes, the
status from one made for it, reports from arrays on the stack. Whatever these held
before, `Said` is what a client is told.

Each buffer starts out with any contents of its size, and only what has been put
into it goes out. `said` collects what one connection is told in a run, replies and
reports in their order, each with the daemon that said it. The overflow flag is
cleared for a reply as it is for the status, which makes no difference, since none
of the replies overflows its buffer.
-/
namespace Wsupp
open Nlusctl Wire

namespace Cntrl

def REP_WI_NET_DOWN : Int := WI 0
def REP_WI_SCANNING : Int := WI 1
def REP_WI_SCAN_DONE : Int := WI 2
def REP_WI_SCAN_FAIL : Int := WI 3
def REP_WI_DISCONNECT : Int := WI 4
def REP_WI_NO_CONNECT : Int := WI 5
def REP_WI_CONNECTED : Int := WI 6

/-- The bytes from `brk` to `ptr`. -/
def contents (uc : Ucbuf) : Bytes := uc.mem.take uc.ptr

/-- `buf` has 64 bytes. -/
def reportSimple (buf : Bytes) (cmd : Int) : Bytes :=
  let uc := ucBufSet buf
  let uc := ucPutHdr uc cmd
  contents (ucPutEnd uc)

/-- `buf` has 256 bytes. -/
def reportStation (buf : Bytes) (cmd : Int) (bssid ssid : Bytes) (freq : Int) : Bytes :=
  let uc := ucBufSet buf
  let uc := ucPutHdr uc cmd
  let uc := ucPutBin uc ATTR_BSSID bssid
  let uc := ucPutBin uc ATTR_SSID ssid
  let uc := ucPutInt uc ATTR_FREQ freq
  contents (ucPutEnd uc)

def startReply (txbuf : Bytes) (cmd : Int) : Ucbuf := ucPutHdr (ucBufSet txbuf) cmd

def sendReply (uc : Ucbuf) : Bytes := contents (ucPutEnd uc)

/-- `reply`; `txbuf` has 100 bytes. -/
def replyMessage (txbuf : Bytes) (err : Int) : Bytes := sendReply (startReply txbuf err)

/-- `cmd_device`; `buf` has 64 bytes. -/
def deviceReply (buf ifname : Bytes) (ifindex : Int) : Bytes :=
  let uc := ucBufSet buf
  let uc := ucPutHdr uc 0
  let uc := ucPutInt uc ATTR_IFI ifindex
  let uc := ucPutStr uc ATTR_NAME ifname
  sendReply uc

end Cntrl
open Cntrl

def Report.cmd : Report → Int
  | .netDown => REP_WI_NET_DOWN
  | .scanning => REP_WI_SCANNING
  | .scanDone => REP_WI_SCAN_DONE
  | .scanFail => REP_WI_SCAN_FAIL
  | .noConnect => REP_WI_NO_CONNECT
  | .disconnect .. => REP_WI_DISCONNECT
  | .connected .. => REP_WI_CONNECTED

/-- What the daemon tells a client in one message: the reply to a command, its status,
its device, or a report that was asked for. -/
inductive Said where
  | reply (err : Int)
  | status (s : Daemon)
  | device (ifindex : Int)
  | report (r : Report)

namespace Said

/-- The size of the buffer the message is put together in. -/
def room : Said → ℕ
  | reply _ => 100
  | status s => prepHeap (estimateStatus s.table.nscans)
  | device _ => 64
  | report (.disconnect ..) | report (.connected ..) => 256
  | report _ => 64

def bytes (ifname buf : Bytes) : Said → Bytes
  | reply err => replyMessage buf err
  | status s => statusReply s ifname buf
  | device ifindex => deviceReply buf ifname ifindex
  | report (.disconnect bssid ssid freq) => reportStation buf REP_WI_DISCONNECT bssid ssid freq
  | report (.connected bssid ssid freq) => reportStation buf REP_WI_CONNECTED bssid ssid freq
  | report r => reportSimple buf r.cmd

/-- The message as it is written, from whatever was in its buffer. -/
def Written (ifname : Bytes) (m : Said) (b : Bytes) : Prop :=
  ∃ buf : Bytes, buf.length = m.room ∧ b = m.bytes ifname buf

/-- The command of the message, an `int`. -/
def cmd : Said → Int
  | reply err => err.bmod (2 ^ 32)
  | status _ | device _ => 0
  | report r => r.cmd

def puts (ifname : Bytes) : Said → Puts
  | reply _ => .done
  | status s => statusPuts s ifname
  | device ifindex => .int ATTR_IFI ifindex (.str ATTR_NAME ifname .done)
  | report (.disconnect bssid ssid freq) | report (.connected bssid ssid freq) =>
      .bin ATTR_BSSID bssid (.bin ATTR_SSID ssid (.int ATTR_FREQ freq .done))
  | report _ => .done

end Said

/-- What an output tells the client on connection `cn`. -/
def Act.told (cn : ℕ) (s : Daemon) : Act → Option Said
  | .reply c err => if c = cn then some (.reply err) else none
  | .replyStatus c => if c = cn then some (.status s) else none
  | .replyDevice c => if c = cn then some (.device s.ifindex) else none
  | .report r conns => if cn ∈ conns then some (.report r) else none
  | _ => none

end Wsupp

import Wsupp.Nl.Puts
import Wsupp.State

/-!
# Commands as netlink messages

The messages the daemon puts together for what it asks of the kernel, attribute by
attribute, in the one buffer of 512 bytes it has for them. `send` hands them to the
socket; a dump and the command before the end set a flag first.

Each command is a list of calls of the library that put an attribute or a nest, in
the order of the source, with the sizes the source gives them. What a message means
is read back from its bytes in another module; that it fits the buffer depends on
the sizes of what the daemon holds.
-/
namespace Wsupp
open Nl

def NLM_F_ACK : ℕ := 4
def NLM_F_DUMP : ℕ := 0x300

namespace NlCommand

/-- The `NL80211_CMD_` constants. -/
def cmd : NlCommand → UInt8
  | newPairwiseKey .. | newGroupKey .. => 11
  | getScan => 32
  | triggerScan _ => 33
  | authenticate .. => 37
  | associate .. => 38
  | disconnect => 48

def i32 (v : Int) : Bytes := Bytes.ofLe 4 (v % 2 ^ 32).toNat

def CCMP : Int := 0x000FAC04
def TKIP : Int := 0x000FAC02

/-- `NL80211_ATTR_KEY_DEFAULT_TYPES` with one flag. -/
def keyType (type : UInt16) : Puts := .nest 110 (.put type [] .done) .done

/-- The calls of `nl_put`, `nl_put_nest` and `nl_end_nest` after `nl_new_cmd`. -/
def puts (ifindex : Int) : NlCommand → Puts
  | triggerScan none => .put 3 (i32 ifindex) .done
  | triggerScan (some freq) => .put 3 (i32 ifindex) (.nest 44 (.put 0 (i32 freq) .done) .done)
  | getScan => .put 3 (i32 ifindex) .done
  | authenticate bssid freq ssid =>
      .put 3 (i32 ifindex) (.put 6 bssid (.put 38 (i32 freq) (.put 52 ssid (.put 53 (i32 0) .done))))
  | associate bssid freq ssid ies =>
      .put 3 (i32 ifindex) (.put 6 bssid (.put 38 (i32 freq) (.put 52 ssid (.put 42 ies .done))))
  | disconnect => .put 3 (i32 ifindex) .done
  | newPairwiseKey bssid key =>
      .put 3 (i32 ifindex) (.put 6 bssid (.put 8 [0] (.put 9 (i32 CCMP) (.put 7 key
        (.put 10 (Bytes.zeros 6) (keyType 1))))))
  | newGroupKey index tkip key seq =>
      .put 3 (i32 ifindex) (.put 8 [index] (.put 10 seq (.put 9 (i32 (if tkip then TKIP else CCMP))
        (.put 7 key (keyType 2)))))

def packed (fam : UInt16) (ifindex : Int) (nl : Netlink) (c : NlCommand) : Netlink :=
  ((c.puts ifindex).message { nl := nl } fam c.cmd 0).nl

end NlCommand

namespace Nl

/-- Flags set in the header of a message that has one. -/
def nlOrFlags (nl : Netlink) (flags : ℕ) : Option Netlink :=
  (nlTxMsg nl).map fun msg =>
    { nl with txbuf := nl.txbuf.poke (msg + 6) (Bytes.ofLe 2 (nl.txbuf.le16 (msg + 6) ||| flags)) }

def nlSendDump (nl : Netlink) (rd : Int) : Int × Option Bytes × Netlink :=
  match nlOrFlags nl NLM_F_DUMP with
  | none => (-EINVAL, none, nl)
  | some nl => nlSend nl rd

/-- The first half of `nl_send_recv_ack`. -/
def nlSendAck (nl : Netlink) (rd : Int) : Int × Option Bytes × Netlink :=
  match nlOrFlags nl NLM_F_ACK with
  | none => (-EINVAL, none, nl)
  | some nl => nlSend nl rd

end Nl

/-- The call that hands a command over: the bytes the socket is given, and the buffer after it. -/
def NlCommand.send (c : NlCommand) (nl : Netlink) (rd : Int) : Option Bytes × Netlink :=
  match c with
  | .getScan => (nlSendDump nl rd).2
  | _ => (Nl.nlSend nl rd).2

/-- What an output comes to on the netlink socket. -/
def Act.transmit (fam : UInt16) (ifindex : Int) (nl : Netlink) : Act → Option Bytes × Netlink
  | .nl c sent => c.send (c.packed fam ifindex nl) (if sent then 1 else 0)
  | .nlAck c sent => (nlSendAck (c.packed fam ifindex nl) (if sent then 1 else 0)).2
  | _ => (none, nl)

end Wsupp

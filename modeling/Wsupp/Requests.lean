import Wsupp.Conn
import Wsupp.Nlusctl.Get

/-!
# Requests

The constants of the control protocol, a request as the handlers of `Cntrl` get it,
and the parts of a message the handlers read.

A request is decoded from the bytes of a message with the functions of the control
library, and the size of an attribute is left to the handlers. The ranges that are
read are an offset and a number of bytes each, as the copies of the source have
them, so a negative length shows up as the huge number it is converted to.
-/
namespace Wsupp.Cntrl
open Nlusctl Wire

def WI (c : ℕ) : Int := (87 <<< 24 ||| 73 <<< 16 ||| c : ℕ)

def CMD_WI_STATUS : Int := WI 0
def CMD_WI_DEVICE : Int := WI 1
def CMD_WI_SCAN : Int := WI 2
def CMD_WI_NEUTRAL : Int := WI 3
def CMD_WI_CONNECT : Int := WI 4
def CMD_WI_FORGET : Int := WI 5

def ATTR_SSID : ℕ := 1
def ATTR_PSK : ℕ := 2
def ATTR_PRIO : ℕ := 3
def ATTR_SIGNAL : ℕ := 4
def ATTR_FREQ : ℕ := 5
def ATTR_TYPE : ℕ := 6
def ATTR_BSSID : ℕ := 7
def ATTR_SCAN : ℕ := 8
def ATTR_IFI : ℕ := 9
def ATTR_NAME : ℕ := 10
def ATTR_STATE : ℕ := 11

/-- The table `commands`. -/
def Cmd.ofInt (cmd : Int) : Cmd :=
  if cmd = CMD_WI_STATUS then .status
  else if cmd = CMD_WI_DEVICE then .device
  else if cmd = CMD_WI_SCAN then .scan
  else if cmd = CMD_WI_NEUTRAL then .neutral
  else if cmd = CMD_WI_CONNECT then .connect
  else if cmd = CMD_WI_FORGET then .forget
  else .other

def request (msg : Bytes) : Msg where
  cmd := .ofInt (Ucmsg.cmd msg)
  ssid := (ucGet msg ATTR_SSID).map (ucPayload msg)
  psk := (ucGet msg ATTR_PSK).map (ucPayload msg)

/-- The loop of `fmt_ssid` runs while `i < slen`. -/
def fmtSsidReads (ssid : ℕ) (slen : Int) : List (ℕ × ℕ) := [(ssid, slen.toNat)]

/-- The count of `memcpy` is a `size_t`. -/
def setFixedReads (ssid : ℕ) (slen : Int) : List (ℕ × ℕ) :=
  if SSIDLEN < slen then [] else [(ssid, sizeT slen)]

def setFixedSavedReads (ssid : ℕ) (slen : Int) : List (ℕ × ℕ) :=
  fmtSsidReads ssid slen ++ setFixedReads ssid slen

def setFixedGivenReads (ssid : ℕ) (slen : Int) (psk : ℕ) : List (ℕ × ℕ) :=
  setFixedReads ssid slen ++ if SSIDLEN < slen then [] else [(psk, 32)]

def configureStationReads (msg : Bytes) : List (ℕ × ℕ) :=
  match ucGet msg ATTR_SSID with
  | none => []
  | some assid =>
      let ssid := assid + Ucattr.size
      let slen := ucPaylen msg assid
      match ucGet msg ATTR_PSK with
      | none => setFixedSavedReads ssid slen
      | some apsk =>
          if ucPaylen msg apsk = 32 then setFixedGivenReads ssid slen (apsk + Ucattr.size) else []

/-- `drop_psk`, then `memcmp` with every slot whose SSID has the same length. -/
def cmdForgetReads (msg : Bytes) : List (ℕ × ℕ) :=
  match ucGet msg ATTR_SSID with
  | none => []
  | some assid =>
      let ssid := assid + Ucattr.size
      let slen := ucPaylen msg assid
      fmtSsidReads ssid slen ++ if 0 ≤ slen then [(ssid, slen.toNat)] else []

end Wsupp.Cntrl

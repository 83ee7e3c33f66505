import Wsupp.Client
import Wsupp.Control.Changes
import Wsupp.Safety.MessageStream
import Wsupp.Safety.Sizes

/-!
# Messages of the daemon at the client

Whatever the daemon says in a run is a whole message in a buffer of its own. The
client gets these messages one by one, however they are cut, up to one that its
buffer has no room for.

A message is heard if its length, the command and the attributes together, is no
more than the 2048 bytes of the client's buffer; all replies and reports but the
status always are. The state the daemon is in when it says something has the sizes
of its arrays, which bounds every length. What is read of a message is a matter of
the next modules.
-/
namespace Wsupp
open Reactive Nlusctl Wire Cntrl

namespace Said

/-- Everything in the message has the size of its field. -/
def Sized : Said → Prop
  | status s => s.Sized
  | device ifindex => -2 ^ 31 ≤ ifindex ∧ ifindex < 2 ^ 31
  | report (.disconnect bssid ssid freq) | report (.connected bssid ssid freq) =>
      bssid.length = 6 ∧ ssid.length ≤ SSIDLEN ∧ IsShort freq
  | _ => True

section Written
variable {m : Said} {ifname b : Bytes}

theorem emod_bmod_int (v : Int) : v.bmod (2 ^ 32) % 2 ^ 32 = v % 2 ^ 32 := Int.bmod_emod (x := v) (m := 2 ^ 32)

theorem sent_bmod (F : Puts) (buf : Bytes) (cmd : Int) : F.sent buf (cmd.bmod (2 ^ 32)) = F.sent buf cmd := by
  have hbytes : intBytes (cmd.bmod (2 ^ 32)) = intBytes cmd := by
    rw [intBytes, intBytes, emod_bmod_int]
  have hhdr (uc : Ucbuf) : ucPutHdr uc (cmd.bmod (2 ^ 32)) = ucPutHdr uc cmd := by
    rw [ucPutHdr, ucPutHdr, hbytes]
  rw [Puts.sent, Puts.sent, Puts.message, Puts.message, hhdr]

theorem bytes_sent (m : Said) (ifname buf : Bytes) : m.bytes ifname buf = (m.puts ifname).sent buf m.cmd := by
  cases m with
  | reply err => exact (sent_bmod .done buf err).symm
  | status s => exact (statusPuts_sent s ifname buf).symm
  | device ifindex => rfl
  | report r => cases r <;> rfl

theorem WI_range {c : ℕ} (h : c < 7) : 0 < WI c ∧ WI c < 2 ^ 31 := by
  have hall : ∀ i : Fin 7, 0 < WI i ∧ WI i < 2 ^ 31 := by decide
  exact hall ⟨c, h⟩

theorem report_range (r : Report) : 0 < r.cmd ∧ r.cmd < 2 ^ 31 := by
  cases r with
  | netDown => exact WI_range (c := 0) (by omega)
  | scanning => exact WI_range (c := 1) (by omega)
  | scanDone => exact WI_range (c := 2) (by omega)
  | scanFail => exact WI_range (c := 3) (by omega)
  | disconnect bssid ssid freq => exact WI_range (c := 4) (by omega)
  | noConnect => exact WI_range (c := 5) (by omega)
  | connected bssid ssid freq => exact WI_range (c := 6) (by omega)

theorem cmd_range (m : Said) : -2 ^ 31 ≤ m.cmd ∧ m.cmd < 2 ^ 31 := by
  have hzero : (-2 ^ 31 : Int) ≤ 0 ∧ (0 : Int) < 2 ^ 31 := by omega
  cases m with
  | reply err =>
      have hlow := Int.le_bmod (x := err) (m := 2 ^ 32) (by decide)
      have hhigh := Int.bmod_lt (x := err) (m := 2 ^ 32) (by decide)
      constructor
      · exact hlow
      · exact hhigh
  | status s => exact hzero
  | device ifindex => exact hzero
  | report r =>
      obtain ⟨hpos, hlt⟩ := report_range r
      exact ⟨show -2 ^ 31 ≤ r.cmd by omega, hlt⟩

theorem Sized.fits (h : m.Sized) (hname : NameFits ifname) :
    (m.puts ifname).attrs.Small ∧ 8 + (m.puts ifname).attrs.size ≤ m.room ∧ m.room ≤ 8192 := by
  have hname' : (ifname.takeWhile (· ≠ 0)).length ≤ 16 := hname
  cases m with
  | reply err => exact ⟨trivial, show 8 ≤ 100 by omega, show 100 ≤ 8192 by omega⟩
  | status s =>
      obtain ⟨hsize, hsmall⟩ := statusPuts_size h hname
      have hle := statusLength_le h hname
      have hscans : s.table.nscans ≤ 30 := s.table.count_le
      refine ⟨hsmall, by rw [puts, hsize]; exact hle, ?_⟩
      have hpage : Cntrl.PAGE = 4096 := rfl
      rw [room, prepHeap, estimateStatus, scanSize, Ucattr.size, hpage]
      omega
  | device ifindex =>
      have hlen := length_cstr ifname
      have hcstr : align4 (4 + (cstr ifname).length) ≤ 24 := align4_le (by omega) (by decide)
      simp only [puts, Puts.attrs, Puts.attrsBy, Attrs.Small, Attrs.size, length_intBytes, align4_eight, room]
      refine ⟨⟨by omega, by omega, trivial⟩, by omega, by omega⟩
  | report r =>
      have hstation {bssid ssid : Bytes} (freq : Int) (hbssid : bssid.length = 6) (hssid : ssid.length ≤ SSIDLEN) :
          (Puts.bin ATTR_BSSID bssid (.bin ATTR_SSID ssid (.int ATTR_FREQ freq .done))).attrs.Small ∧
            8 + (Puts.bin ATTR_BSSID bssid (.bin ATTR_SSID ssid (.int ATTR_FREQ freq .done))).attrs.size ≤ 256 := by
        rw [SSIDLEN] at hssid
        have hname : align4 (4 + ssid.length) ≤ 36 := align4_le (by omega) (by decide)
        simp only [Puts.attrs, Puts.attrsBy, Attrs.Small, Attrs.size, length_intBytes, hbssid, align4_eight, align4_ten]
        exact ⟨⟨by omega, by omega, by omega, trivial⟩, by omega⟩
      cases r with
      | disconnect bssid ssid freq =>
          obtain ⟨hsmall, hroom⟩ := hstation freq h.1 h.2.1
          exact ⟨hsmall, hroom, show 256 ≤ 8192 by omega⟩
      | connected bssid ssid freq =>
          obtain ⟨hsmall, hroom⟩ := hstation freq h.1 h.2.1
          exact ⟨hsmall, hroom, show 256 ≤ 8192 by omega⟩
      | _ => exact ⟨trivial, show 8 ≤ 64 by omega, show 64 ≤ 8192 by omega⟩

theorem Written.holds (hw : m.Written ifname b) (h : m.Sized) (hname : NameFits ifname) :
    Holds b m.cmd (m.puts ifname).attrs := by
  obtain ⟨buf, hbuf, rfl⟩ := hw
  obtain ⟨hlow, hhigh⟩ := m.cmd_range
  obtain ⟨hsmall, hroom, hle⟩ := h.fits hname
  rw [bytes_sent]
  exact ((m.puts ifname).sent_whole hlow hhigh hsmall (by omega) (by omega)).2

end Written

def length (ifname : Bytes) (m : Said) : ℕ := 8 + (m.puts ifname).attrs.size

/-- The client's buffer has room for it. -/
def Heard (ifname : Bytes) (m : Said) : Prop := m.length ifname ≤ Wifi.rxbuf.size

instance decidableHeard (ifname : Bytes) (m : Said) : Decidable (m.Heard ifname) :=
  inferInstanceAs (Decidable (_ ≤ _))

theorem Written.framed {m : Said} {ifname b : Bytes} (hw : m.Written ifname b) (h : m.Sized) (hname : NameFits ifname)
    (hheard : m.Heard ifname) : Framed Wifi.rxbuf.size b := by
  have hholds := hw.holds h hname
  have hsize := hholds.size
  unfold Heard Said.length at hheard
  exact ⟨by rw [Ucmsg.size]; omega, by omega, hholds.whole⟩

end Said

/-- No message is completed by these bytes in a buffer of this size. -/
def Blocked (room : ℕ) (b : Bytes) : Prop := b.length < Ucmsg.size ∨ min room b.length < Ucmsg.len b

/-- The messages that are still to be received, and what comes after them. The first of
them that has no room in the buffer ends the list of those heard. -/
structure Hears (ur : Urbuf) (s : List Arrival) (ms : List Bytes) (rest : Bytes) : Prop where
  fits : ur.Fits
  size : ur.size = Wifi.rxbuf.size
  messages : ∀ m ∈ ms, Framed Wifi.rxbuf.size m
  steady : ms ≠ [] → Arrival.interrupted ∉ s
  stream : ur.pending ++ data s = ms.flatten ++ rest
  blocked : Blocked Wifi.rxbuf.size rest

section Hears
variable {ur : Urbuf} {s : List Arrival} {m : Bytes} {ms : List Bytes} {rest : Bytes}

theorem Hears.first (h : Hears ur s (m :: ms) rest) : ∃ msg ur' s', Wifi.recvReply ur s = (some msg, ur', s') ∧
    Ucmsg.bytes msg = m ∧ Hears ur' s' ms rest := by
  obtain ⟨hm, hms⟩ := List.forall_mem_cons.mp h.messages
  have hstream := h.stream
  have hsize := h.size
  rw [List.flatten_cons, List.append_assoc] at hstream
  obtain ⟨msg, ur', s', hrecv, hbytes, -, hsize', hfits, hrest, hsteady⟩ :=
    Wifi.recvReply_first h.fits hstream (h.steady (List.cons_ne_nil _ _)) hm.header hm.len (hsize ▸ hm.le_room)
  exact ⟨msg, ur', s', hrecv, hbytes, hfits, hsize'.trans hsize, hms, fun _ => hsteady, hrest, h.blocked⟩

theorem Hears.over (h : Hears ur s [] rest) : ∃ ur' s', Wifi.recvReply ur s = (none, ur', s') ∧ Hears ur' s' [] rest := by
  obtain ⟨ret, ur', s', hrecv⟩ : ∃ ret ur' s', ucRecv ur true s = (ret, ur', s') := ⟨_, _, _, rfl⟩
  have hstream := h.stream
  have hsize := h.size
  rw [List.flatten_nil, List.nil_append] at hstream
  obtain ⟨-, msg, htook, hkeeps, -⟩ | ⟨hret, hstop⟩ := ucRecv_cases h.fits hrecv
  · obtain ⟨-, -, hheader, hle⟩ := htook.first (hkeeps.trans hstream)
    rw [hsize] at hle
    obtain hshort | hlong := h.blocked
    · omega
    · omega
  · refine ⟨ur', s', ?_, hstop.fits, hstop.size.trans hsize, h.messages, ?_, ?_, h.blocked⟩
    · rw [Wifi.recvReply, hrecv]
      dsimp only
      rw [if_pos hret]
    · exact fun hne => absurd rfl hne
    · rw [List.flatten_nil, List.nil_append]
      exact hstop.keeps.trans hstream

end Hears

end Wsupp

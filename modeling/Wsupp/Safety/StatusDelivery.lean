import Wsupp.Safety.StatusMessage
import Wsupp.Wifi

/-!
# The status message at the client

The daemon makes room for whatever it has to say; the client has a buffer of a fixed
size. A table of many slots with long names does not fit it.

`Delivered` asks for the reply however it is cut and whatever comes before and after
it on the stream. A message is delivered if and only if it is no longer than the
2048 bytes of the buffer, for a message that is too long is never complete in it, so
the client reads on until it gives up. The length of the status is a sum over the
slots in use; thirty of them with names of 32 bytes make 2436 bytes.
-/
namespace Wsupp.Wifi
open Nlusctl Wire Cntrl

/-- However the reply and what comes before and after it are cut into pieces, the
client gets the reply. Nothing interrupts it and the stream goes on to the end of
the reply. -/
def Delivered (reply : Bytes) : Prop :=
  ∀ (reports : List Bytes) (rest : Bytes) (s : List Arrival), (∀ m ∈ reports, Notifies rxbuf.size m) → Arrival.interrupted ∉ s →
    data s = reports.flatten ++ (reply ++ rest) →
    sendRecvMsg (reports.length + 1) rxbuf s = some (some reply)

theorem rxbuf_fits : rxbuf.Fits := ⟨Nat.zero_le _, by decide⟩

theorem delivered_iff {reply : Bytes} (h8 : Ucmsg.size ≤ reply.length)
    (hlen : Ucmsg.len reply = reply.length) (hcmd : Ucmsg.cmd reply ≤ 0) :
    Delivered reply ↔ reply.length ≤ rxbuf.size := by
  constructor
  · intro hdelivered
    by_contra hlong
    have hdata : data [.bytes (reply.headD 0) reply.tail] = [].flatten ++ (reply ++ []) := by
      cases reply with
      | nil => cases h8
      | cons x b => rfl
    have hrun := hdelivered [] [] [.bytes (reply.headD 0) reply.tail] (by simp) (by simp) hdata
    rw [List.flatten_nil, List.nil_append, List.append_nil] at hdata
    obtain ⟨ur', s', hrecv⟩ := recvReply_none rxbuf_fits (s := [.bytes (reply.headD 0) reply.tail])
      (b := reply) hdata (by omega)
    rw [List.length_nil, sendRecvMsg, hrecv] at hrun
    cases hrun
  · intro hroom reports rest s hreports hs hdata
    exact sendRecvMsg_reply hreports h8 hlen hcmd hroom rxbuf_fits hdata hs

theorem statusReply_length {s : Daemon} (hs : s.Sized) {ifname : Bytes} (hname : NameFits ifname)
    {heap : Bytes} (hheap : heap.length = prepHeap (estimateStatus s.table.nscans)) :
    (statusReply s ifname heap).length = statusLength s ifname := by
  have hlen := (status_holds hs hname hheap).2.size
  rw [(statusPuts_size hs hname).1] at hlen
  exact hlen

theorem size_le_statusLength (s : Daemon) (ifname : Bytes) : Ucmsg.size ≤ statusLength s ifname := by
  rw [statusLength, Ucmsg.size]
  omega

/-- A status reply is received if and only if it is no longer than the client's buffer.
Its length is the sum over what it shows, so this is a condition on the state that is
asked about. -/
theorem status_delivered_iff {s : Daemon} (hs : s.Sized) {ifname : Bytes} (hname : NameFits ifname)
    {heap : Bytes} (hheap : heap.length = prepHeap (estimateStatus s.table.nscans)) :
    Delivered (statusReply s ifname heap) ↔ statusLength s ifname ≤ 2048 := by
  have hlen := statusReply_length hs hname hheap
  have hholds := (status_holds hs hname hheap).2
  have hlong := (size_le_statusLength s ifname).trans hlen.ge
  rw [delivered_iff hlong hholds.whole hholds.cmd.le, hlen]
  rfl

theorem one_delivered :
    Delivered (statusReply Sample.seesOne Sample.ifname (Bytes.zeros 4096)) ↔
      statusLength Sample.seesOne Sample.ifname ≤ 2048 :=
  status_delivered_iff Sample.seesOne_sized Sample.ifname_fits List.length_replicate

/-- Thirty access points with names of 32 bytes make a status of 2436 bytes. The client
does not get it, however it is cut. -/
theorem many_lost : ¬ Delivered (statusReply Sample.seesMany Sample.ifname (Bytes.zeros 4096)) := by
  have hlength : statusLength Sample.seesMany Sample.ifname = 2436 := by decide +kernel
  have hheap : (Bytes.zeros 4096).length = prepHeap (estimateStatus Sample.seesMany.table.nscans) :=
    List.length_replicate
  have hlen := statusReply_length Sample.seesMany_sized Sample.ifname_fits hheap
  have hholds := (status_holds Sample.seesMany_sized Sample.ifname_fits hheap).2
  have hlong := (size_le_statusLength Sample.seesMany Sample.ifname).trans hlen.ge
  rw [delivered_iff hlong hholds.whole hholds.cmd.le, hlen, hlength]
  decide

end Wsupp.Wifi

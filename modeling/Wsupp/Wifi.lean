import Wsupp.Nlusctl.Receive

/-!
# The client

How `wifi` waits for the reply to a command: notifications that come first are
passed over.

The client has one buffer of 2048 bytes and reads into it until a message is
complete, then looks at its command: a positive one is a notification, anything else
the reply. A message that does not fit the buffer, like an error or the end of the
stream, ends the waiting without a result. The number of notifications that may come
first has a bound, which only serves to make the function total; the streams of the
results are finite.
-/
namespace Wsupp.Wifi
open Nlusctl Wire

/-- The receive buffer of `init_heap_bufs`. -/
def rxbuf : Urbuf := { size := 2048 }

def recvReply (ur : Urbuf) (s : List Arrival) : Option Bytes × Urbuf × List Arrival :=
  let (ret, ur, s) := ucRecv ur true s
  if ret < 0 then (none, ur, s) else (ur.msg, ur, s)

/-- The loop of `send_recv_msg`, for at most `n` messages; it ends with the reply or
with `connection lost`. -/
def sendRecvMsg : ℕ → Urbuf → List Arrival → Option (Option Bytes)
  | 0, _, _ => none
  | n + 1, ur, s =>
      match recvReply ur s with
      | (none, _, _) => some none
      | (some msg, ur, s) =>
          if Ucmsg.cmd msg ≤ 0 then some (some (Ucmsg.bytes msg)) else sendRecvMsg n ur s

section Reply
variable {ur : Urbuf} {s : List Arrival} {b : Bytes}

/-- As long as the first message of a stream is not complete, it is longer than what is there. -/
theorem length_lt_of_none {q t : Bytes} (hnone : ucMsg q = none) (hdata : q ++ t = b)
    (h8 : Ucmsg.size ≤ Ucmsg.len b) : q.length < Ucmsg.len b := by
  obtain hshort | hshort := ucMsg_none.mp hnone
  · omega
  · by_cases hhead : Ucmsg.size ≤ q.length
    · rw [← len_of_start hhead hdata]
      exact hshort
    · omega

theorem cmd_of_start {msg t : Bytes} (hmsg : Ucmsg.size ≤ msg.length) (h : msg ++ t = b) :
    Ucmsg.cmd msg = Ucmsg.cmd b := by
  have hslice : b.slice 4 4 = msg.slice 4 4 := by
    rw [← h, Bytes.slice_append_left (by rw [Ucmsg.size] at hmsg; omega)]
  exact congrArg (fun field => (Bytes.leNat field : Int).bmod (2 ^ 32)) hslice.symm

/-- A message the buffer has room for is received, however it comes. -/
theorem recvReply_some (hfits : ur.Fits) (hdata : ur.pending ++ data s = b)
    (hs : Arrival.interrupted ∉ s) (h8 : Ucmsg.size ≤ Ucmsg.len b) (hlen : Ucmsg.len b ≤ b.length)
    (hroom : Ucmsg.len b ≤ ur.size) :
    ∃ msg ur' s', recvReply ur s = (some msg, ur', s') ∧ Ucmsg.bytes msg = b.take (Ucmsg.len b) ∧
      Ucmsg.cmd msg = Ucmsg.cmd b ∧ ur'.size = ur.size ∧ ur'.Fits ∧
      ur'.pending ++ data s' = b.drop (Ucmsg.len b) ∧ Arrival.interrupted ∉ s' := by
  obtain ⟨ret, ur', s', hrecv⟩ : ∃ ret ur' s', ucRecv ur true s = (ret, ur', s') := ⟨_, _, _, rfl⟩
  obtain ⟨hret, msg, htook, hkeeps, hhow⟩ | ⟨hret, hstop⟩ := ucRecv_cases hfits hrecv
  · have hmsg := hkeeps.trans hdata
    obtain ⟨hbytes, hrest, -, -⟩ := htook.first hmsg
    refine ⟨msg, ur', s', ?_, hbytes, cmd_of_start htook.header hmsg, htook.size, htook.fits, hrest, ?_⟩
    · rw [recvReply, hrecv]
      dsimp only
      rw [if_neg (not_lt.mpr hret), htook.handed]
    · obtain ⟨-, rfl⟩ | ⟨-, -, s₁, q, x, t, s₂, rfl, -, -, -, -, rfl⟩ := hhow
      · exact hs
      · have hrest : Arrival.interrupted ∉ s₂ := by
          intro hmem
          exact hs (List.mem_append_right _ (List.mem_cons_of_mem _ hmem))
        cases t.drop (ur.size - q.length - 1) with
        | nil => exact hrest
        | cons y t =>
            intro hmem
            cases hmem with
            | tail _ hmem => exact hrest hmem
  · have hshort := length_lt_of_none hstop.none (hstop.keeps.trans hdata) h8
    obtain ⟨-, hwait, -⟩ | ⟨-, hmem⟩ | ⟨rfl, -⟩ | ⟨-, hfull⟩ := hstop.cause
    · cases hwait
    · exact absurd hmem hs
    · have hall := hstop.keeps.trans hdata
      rw [data_nil, List.append_nil] at hall
      rw [hall] at hshort
      omega
    · omega

/-- A message the buffer has no room for is not received at all. -/
theorem recvReply_none (hfits : ur.Fits) (hdata : ur.pending ++ data s = b)
    (hroom : ur.size < Ucmsg.len b) : ∃ ur' s', recvReply ur s = (none, ur', s') := by
  obtain ⟨ret, ur', s', hrecv⟩ : ∃ ret ur' s', ucRecv ur true s = (ret, ur', s') := ⟨_, _, _, rfl⟩
  obtain ⟨hret, msg, htook, hkeeps, -⟩ | ⟨hret, -⟩ := ucRecv_cases hfits hrecv
  · obtain ⟨-, -, -, hle⟩ := htook.first (hkeeps.trans hdata)
    omega
  · refine ⟨ur', s', ?_⟩
    rw [recvReply, hrecv]
    dsimp only
    rw [if_pos hret]

/-- The first message of a stream is received as it was sent. -/
theorem recvReply_first {m t : Bytes} (hfits : ur.Fits) (hdata : ur.pending ++ data s = m ++ t)
    (hs : Arrival.interrupted ∉ s) (h8 : Ucmsg.size ≤ m.length) (hlen : Ucmsg.len m = m.length)
    (hroom : m.length ≤ ur.size) :
    ∃ msg ur' s', recvReply ur s = (some msg, ur', s') ∧ Ucmsg.bytes msg = m ∧
      Ucmsg.cmd msg = Ucmsg.cmd m ∧ ur'.size = ur.size ∧ ur'.Fits ∧ ur'.pending ++ data s' = t ∧
      Arrival.interrupted ∉ s' := by
  have hfield : Ucmsg.len (m ++ t) = m.length := by rw [Ucmsg.len_append h8, hlen]
  obtain ⟨msg, ur', s', hrecv, hbytes, hcmd, hsize, hfits', hrest, hs'⟩ :=
    recvReply_some hfits hdata hs (by omega) (by rw [hfield, List.length_append]; omega) (by omega)
  rw [hfield, List.take_left] at hbytes
  rw [hfield, List.drop_left] at hrest
  exact ⟨msg, ur', s', hrecv, hbytes, hcmd.trans (cmd_of_start h8 rfl).symm, hsize, hfits', hrest, hs'⟩

/-- A notification the client has room for. -/
structure Notifies (room : ℕ) (m : Bytes) : Prop where
  header : Ucmsg.size ≤ m.length
  len : Ucmsg.len m = m.length
  cmd : 0 < Ucmsg.cmd m
  fits : m.length ≤ room

/-- Notifications and a reply, all of which fit: the reply is what `send_recv_msg`
ends with. The induction is on the notifications. -/
theorem sendRecvMsg_reply {reply rest : Bytes} {reports : List Bytes}
    (hreports : ∀ m ∈ reports, Notifies ur.size m) (h8 : Ucmsg.size ≤ reply.length)
    (hlen : Ucmsg.len reply = reply.length) (hcmd : Ucmsg.cmd reply ≤ 0)
    (hroom : reply.length ≤ ur.size) (hfits : ur.Fits)
    (hdata : ur.pending ++ data s = reports.flatten ++ (reply ++ rest)) (hs : Arrival.interrupted ∉ s) :
    sendRecvMsg (reports.length + 1) ur s = some (some reply) := by
  induction reports generalizing ur s with
  | nil =>
      rw [List.flatten_nil, List.nil_append] at hdata
      obtain ⟨msg, ur', s', hrecv, hbytes, hcmd', -⟩ := recvReply_first hfits hdata hs h8 hlen hroom
      rw [sendRecvMsg, hrecv]
      dsimp only
      rw [if_pos (by omega), hbytes]
  | cons m reports ih =>
      obtain ⟨hm, hrest⟩ := List.forall_mem_cons.mp hreports
      rw [List.flatten_cons, List.append_assoc] at hdata
      obtain ⟨msg, ur', s', hrecv, -, hcmd', hsize, hfits', hdata', hs'⟩ :=
        recvReply_first hfits hdata hs hm.header hm.len hm.fits
      have hpos := hm.cmd
      rw [← hsize] at hrest hroom
      rw [List.length_cons, sendRecvMsg, hrecv]
      dsimp only
      rw [if_neg (by omega)]
      exact ih hrest hroom hfits' hdata' hs'

end Reply

end Wsupp.Wifi

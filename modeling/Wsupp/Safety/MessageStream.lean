import Wsupp.Nlusctl.Receive

/-!
# Messages out of a stream

One buffer kept between the calls of `uc_recv`: whatever the pieces the messages
come in, each call hands over the next message of the stream, or finds nothing
waiting, or meets the end. What has been read and not been handed over is always the
start of what is to come.

This is the receiving function by itself; the daemon's own use of it, with a new
buffer each time, is looked at elsewhere. The streams are any lists of messages that
fit the buffer, cut anywhere, with any pauses, and ended by a close or an error.
-/
namespace Wsupp.Nlusctl
open Wire

/-- A message that can be received with so much room. -/
structure Framed (room : ℕ) (m : Bytes) : Prop where
  header : Ucmsg.size ≤ m.length
  le_room : m.length ≤ room
  len : Ucmsg.len m = m.length

/-- What may be left when the stream ends: nothing, or the start of a message. -/
def Unfinished (room : ℕ) (part : Bytes) : Prop := part = [] ∨ ∃ t, t ≠ [] ∧ Framed room (part ++ t)

/-- The moments at which nothing is waiting. -/
def pauses (s : List Arrival) : ℕ := s.count .quiet

section Framed
variable {room : ℕ} {m b t part q : Bytes}

theorem Framed.len_append (h : Framed room m) (b : Bytes) : Ucmsg.len (m ++ b) = m.length := by
  rw [Ucmsg.len_append h.header, h.len]

/-- No start of a stream that has a whole message in it is refused. -/
theorem Framed.complete (h : Framed room m) (hq : q ++ t = m ++ b) (hle : m.length ≤ q.length) : ucMsg q ≠ none := by
  have hheader := h.header
  have hlen : Ucmsg.len q = m.length := by
    rw [len_of_start (by omega) hq, h.len_append]
  intro hnone
  have hshort := ucMsg_none.mp hnone
  omega

theorem Unfinished.short (h : Unfinished room part) (hroom : 0 < room) : part.length < room := by
  cases h with
  | inl hnil =>
      rw [hnil]
      exact hroom
  | inr hmore =>
      obtain ⟨t, ht, hframed⟩ := hmore
      have hle := hframed.le_room
      have hpos := List.length_pos_of_ne_nil ht
      rw [List.length_append] at hle
      omega

theorem Unfinished.incomplete (h : Unfinished room part) (hheader : Ucmsg.size ≤ part.length) :
    part.length < Ucmsg.len part := by
  cases h with
  | inl hnil =>
      rw [hnil] at hheader
      exact absurd hheader (by decide)
  | inr hmore =>
      obtain ⟨t, ht, hframed⟩ := hmore
      have hlen := hframed.len
      have hpos := List.length_pos_of_ne_nil ht
      rw [Ucmsg.len_append hheader, List.length_append] at hlen
      omega

end Framed

theorem pauses_append (s s' : List Arrival) : pauses (s ++ s') = pauses s + pauses s' := List.count_append

theorem pauses_unread (b : Bytes) (s : List Arrival) : pauses (unread b s) = pauses s := by
  cases b with
  | nil => rfl
  | cons x b => exact List.count_cons_of_ne (by simp)

/-- The buffer with what the stream has still to bring: some messages and the rest. What
is unread in the buffer is the front of it. -/
structure Brings (ur : Urbuf) (s : List Arrival) (ms : List Bytes) (part : Bytes) : Prop where
  fits : ur.Fits
  room : 0 < ur.size
  messages : ∀ m ∈ ms, Framed ur.size m
  rest : Unfinished ur.size part
  steady : Arrival.interrupted ∉ s
  stream : ur.pending ++ data s = ms.flatten ++ part

/-- What the end of the stream is reported as. -/
def endCode (part : Bytes) : Int := if part ≠ [] then -EBADMSG else -EBADF

/-- A call, as its caller sees it. -/
structure Call where
  block : Bool
  ret : Int
  msg : Option Bytes
deriving DecidableEq, Repr

/-- What calls may come to while some messages and a rest are still to come: the next
message, nothing for now, or the end with its error. -/
inductive Delivers (part : Bytes) : List Bytes → List Call → Prop
  | done (ms : List Bytes) : Delivers part ms []
  | message (m : Bytes) (ms : List Bytes) (block : Bool) (ret : Int) (cs : List Call) :
      0 ≤ ret → Delivers part ms cs → Delivers part (m :: ms) (⟨block, ret, some m⟩ :: cs)
  | again (ms : List Bytes) (cs : List Call) :
      Delivers part ms cs → Delivers part ms (⟨false, -EAGAIN, none⟩ :: cs)
  | ended (block : Bool) (cs : List Call) :
      Delivers part [] cs → Delivers part [] (⟨block, endCode part, none⟩ :: cs)

section Call
variable {ur ur' : Urbuf} {s s' : List Arrival} {ms : List Bytes} {part : Bytes} {block : Bool} {ret : Int}

theorem pauses_of_completes {msg : Bytes} (h : Completes ur s msg s') : pauses s' ≤ pauses s := by
  obtain ⟨s₁, q, x, t, s₂, rfl, -, -, -, -, rfl⟩ := h
  rw [pauses_unread, pauses_append]
  have hcons : pauses (.bytes x t :: s₂) = pauses s₂ := List.count_cons_of_ne (by simp)
  omega

theorem not_interrupted_of_completes {msg : Bytes} (h : Completes ur s msg s') (hs : Arrival.interrupted ∉ s) :
    Arrival.interrupted ∉ s' := by
  intro hmem
  obtain hold | ⟨x, t, hpiece⟩ := h.mem hmem
  · exact hs hold
  · cases hpiece

/-- A message is handed over: it is the next one. -/
theorem Brings.took (h : Brings ur s ms part) {msg : Bytes} (htook : Urbuf.Took ur.size msg ur')
    (hkeeps : msg ++ data s' = ur.pending ++ data s) (hs' : Arrival.interrupted ∉ s') :
    ∃ m ms', ms = m :: ms' ∧ ur'.msg.map Ucmsg.bytes = some m ∧ Brings ur' s' ms' part := by
  obtain ⟨hbytes, hrest, hheader, hlen⟩ := htook.first (hkeeps.trans h.stream)
  cases ms with
  | nil =>
      rw [List.flatten_nil, List.nil_append] at hheader hlen
      have hincomplete := h.rest.incomplete hheader
      omega
  | cons m ms =>
      have hm := h.messages m List.mem_cons_self
      have hm' (m' : Bytes) (hmem : m' ∈ ms) := h.messages m' (List.mem_cons_of_mem _ hmem)
      rw [List.flatten_cons, List.append_assoc, hm.len_append, List.take_left] at hbytes
      rw [List.flatten_cons, List.append_assoc, hm.len_append, List.drop_left] at hrest
      have hsize := htook.size
      refine ⟨m, ms, rfl, ?_, htook.fits, ?_, ?_, ?_, hs', hrest⟩
      · rw [htook.handed, Option.map_some, hbytes]
      · rw [hsize]
        exact h.room
      · rw [hsize]
        exact hm'
      · rw [hsize]
        exact h.rest

/-- No message is handed over: nothing was waiting, or the messages are all through. -/
theorem Brings.stopped (h : Brings ur s ms part) (hstop : Stopped ur (!block) s ret ur' s') :
    Brings ur' s' ms part ∧
      ((ret = -EAGAIN ∧ block = false ∧ pauses s' + 1 = pauses s) ∨
        (ms = [] ∧ ret = endCode part ∧ pauses s' ≤ pauses s)) := by
  have hkeeps : ur'.pending ++ data s' = ms.flatten ++ part := hstop.keeps.trans h.stream
  have hbrings (hs' : Arrival.interrupted ∉ s') : Brings ur' s' ms part := by
    have hsize := hstop.size
    refine ⟨hstop.fits, ?_, ?_, ?_, hs', hkeeps⟩
    · rw [hsize]
      exact h.room
    · rw [hsize]
      exact h.messages
    · rw [hsize]
      exact h.rest
  have hnil (hroom : ∀ m ∈ ms, m.length ≤ ur'.pending.length) : ms = [] := by
    cases ms with
    | nil => rfl
    | cons m ms =>
        have hm := h.messages m List.mem_cons_self
        rw [List.flatten_cons, List.append_assoc] at hkeeps
        exact absurd hstop.none (hm.complete hkeeps (hroom m List.mem_cons_self))
  rcases hstop.cause with ⟨rfl, hnowait, rfl, -⟩ | ⟨-, hmem⟩ | ⟨rfl, hret⟩ | ⟨-, hfull⟩
  · have hs' : Arrival.interrupted ∉ s' := fun hmem => h.steady (List.mem_cons_of_mem _ hmem)
    have hcount : pauses (.quiet :: s') = pauses s' + 1 := List.count_cons_self
    exact ⟨hbrings hs', .inl ⟨rfl, Bool.not_eq_true' block ▸ hnowait, hcount.symm⟩⟩
  · exact absurd hmem h.steady
  · rw [data_nil, List.append_nil] at hkeeps
    obtain rfl := hnil fun m hm => by
      rw [hkeeps, List.length_append]
      have hle := List.Sublist.length_le (List.sublist_flatten_of_mem hm)
      omega
    rw [List.flatten_nil, List.nil_append] at hkeeps
    refine ⟨hbrings (List.not_mem_nil), .inr ⟨rfl, ?_, Nat.zero_le _⟩⟩
    rw [hret, hkeeps, endCode]
  · obtain rfl := hnil fun m hm => by
      rw [hfull]
      exact (h.messages m hm).le_room
    have hshort := h.rest.short h.room
    have hlen := congrArg List.length hkeeps
    rw [List.flatten_nil, List.nil_append, List.length_append] at hlen
    omega

/-- One call: the state it leaves and what it comes to. -/
theorem Brings.ucRecv (h : Brings ur s ms part) (hrun : ucRecv ur block s = (ret, ur', s')) :
    (∃ m ms', ms = m :: ms' ∧ 0 ≤ ret ∧ ur'.msg.map Ucmsg.bytes = some m ∧ Brings ur' s' ms' part ∧
      pauses s' ≤ pauses s) ∨
    (ret = -EAGAIN ∧ block = false ∧ Brings ur' s' ms part ∧ pauses s' + 1 = pauses s) ∨
    (ms = [] ∧ ret = endCode part ∧ Brings ur' s' [] part ∧ pauses s' ≤ pauses s) := by
  rcases ucRecv_cases h.fits hrun with ⟨hret, msg, htook, hkeeps, hhow⟩ | ⟨-, hstop⟩
  · have hs' : Arrival.interrupted ∉ s' ∧ pauses s' ≤ pauses s := by
      rcases hhow with ⟨-, rfl⟩ | ⟨-, -, hcompletes⟩
      · exact ⟨h.steady, le_rfl⟩
      · exact ⟨not_interrupted_of_completes hcompletes h.steady, pauses_of_completes hcompletes⟩
    obtain ⟨m, ms', rfl, hmsg, hbrings⟩ := h.took htook hkeeps hs'.1
    exact .inl ⟨m, ms', rfl, hret, hmsg, hbrings, hs'.2⟩
  · obtain ⟨hbrings, ⟨hret, hblock, hpauses⟩ | ⟨rfl, hret, hpauses⟩⟩ := h.stopped hstop
    · exact .inr (.inl ⟨hret, hblock, hbrings, hpauses⟩)
    · exact .inr (.inr ⟨rfl, hret, hbrings, hpauses⟩)

end Call

/-- What a call has handed over; nothing is read out of the buffer after an error. -/
def handed (ret : Int) (ur : Urbuf) : Option Bytes := if 0 ≤ ret then ur.msg.map Ucmsg.bytes else none

/-- One call after another on the same buffer, each waiting or not, and what the last one
leaves. -/
def calls : List Bool → Urbuf → List Arrival → List Call × Urbuf × List Arrival
  | [], ur, s => ([], ur, s)
  | block :: blocks, ur, s =>
      let r := ucRecv ur block s
      let rest := calls blocks r.2.1 r.2.2
      (⟨block, r.1, handed r.1 r.2.1⟩ :: rest.1, rest.2)

/-- The messages handed over in a number of calls. -/
def messages (cs : List Call) : List Bytes := cs.filterMap Call.msg

section Calls
variable {ur : Urbuf} {s : List Arrival} {ms : List Bytes} {part : Bytes}

theorem endCode_neg (part : Bytes) : endCode part < 0 := by
  unfold endCode
  split_ifs <;> decide

theorem endCode_ne (part : Bytes) : endCode part ≠ -EAGAIN := by
  unfold endCode
  split_ifs <;> decide

theorem calls_delivers (h : Brings ur s ms part) (blocks : List Bool) :
    Delivers part ms (calls blocks ur s).1 ∧
      ∃ left, messages (calls blocks ur s).1 ++ left = ms ∧
        Brings (calls blocks ur s).2.1 (calls blocks ur s).2.2 left part := by
  induction blocks generalizing ur s ms with
  | nil => exact ⟨.done ms, ms, rfl, h⟩
  | cons block blocks ih =>
      obtain ⟨ret, ur', s', hrun⟩ : ∃ ret ur' s', ucRecv ur block s = (ret, ur', s') := ⟨_, _, _, rfl⟩
      rw [calls, hrun]
      dsimp only
      rcases h.ucRecv hrun with ⟨m, ms', rfl, hret, hmsg, hbrings, -⟩ | ⟨rfl, rfl, hbrings, -⟩ | ⟨rfl, rfl, hbrings, -⟩
      · obtain ⟨hdelivers, left, hleft, hend⟩ := ih hbrings
        have hhanded : handed ret ur' = some m := by rw [handed, if_pos hret, hmsg]
        rw [hhanded]
        exact ⟨.message m ms' block ret _ hret hdelivers, left, by rw [← hleft]; rfl, hend⟩
      · obtain ⟨hdelivers, left, hleft, hend⟩ := ih hbrings
        exact ⟨.again ms _ hdelivers, left, hleft, hend⟩
      · obtain ⟨hdelivers, left, hleft, hend⟩ := ih hbrings
        have hhanded : handed (endCode part) ur' = none := if_neg (not_le.mpr (endCode_neg part))
        rw [hhanded]
        exact ⟨.ended block _ hdelivers, left, hleft, hend⟩

theorem calls_over (h : Brings ur s ms part) {blocks : List Bool}
    (hblocks : ms.length + pauses s < blocks.length) :
    ∃ block, Call.mk block (endCode part) none ∈ (calls blocks ur s).1 := by
  induction blocks generalizing ur s ms with
  | nil => cases hblocks
  | cons block blocks ih =>
      obtain ⟨ret, ur', s', hrun⟩ : ∃ ret ur' s', ucRecv ur block s = (ret, ur', s') := ⟨_, _, _, rfl⟩
      rw [calls, hrun]
      dsimp only
      rw [List.length_cons] at hblocks
      rcases h.ucRecv hrun with ⟨m, ms', rfl, -, -, hbrings, hpauses⟩ | ⟨-, -, hbrings, hpauses⟩ | ⟨-, rfl, -, -⟩
      · rw [List.length_cons] at hblocks
        obtain ⟨b, hmem⟩ := ih hbrings (by omega)
        exact ⟨b, List.mem_cons_of_mem _ hmem⟩
      · obtain ⟨b, hmem⟩ := ih hbrings (by omega)
        exact ⟨b, List.mem_cons_of_mem _ hmem⟩
      · have hhanded : handed (endCode part) ur' = none := if_neg (not_le.mpr (endCode_neg part))
        rw [hhanded]
        exact ⟨block, List.mem_cons_self⟩

theorem Delivers.messages_nil {cs : List Call} (h : Delivers part ms cs) (hms : ms = []) : messages cs = [] := by
  induction h with
  | done ms => rfl
  | message m ms block ret cs hret hrest ih => cases hms
  | again ms cs hrest ih => exact ih hms
  | ended block cs hrest ih => exact ih rfl

theorem Delivers.messages_of_ended {cs : List Call} (h : Delivers part ms cs) {block : Bool}
    (hmem : Call.mk block (endCode part) none ∈ cs) : messages cs = ms := by
  induction h with
  | done ms => cases hmem
  | message m ms block ret cs hret hrest ih =>
      cases List.mem_cons.mp hmem with
      | inl heq => cases congrArg Call.msg heq
      | inr hmem => exact congrArg (m :: ·) (ih hmem)
  | again ms cs hrest ih =>
      cases List.mem_cons.mp hmem with
      | inl heq => exact absurd (congrArg Call.ret heq) (endCode_ne part)
      | inr hmem => exact ih hmem
  | ended block cs hrest ih => exact hrest.messages_nil rfl

end Calls

/-- On a buffer that is kept, the calls hand over the messages of the stream one after
the other, however they come and whether the calls wait or not. What has not been handed
over is still to come, also after a call that found nothing waiting; enough calls hand
over all, and then report whether the stream has ended between two messages. -/
theorem stream_received {room : ℕ} (hroom : 0 < room) (hsmall : room < 2 ^ 31) {ms : List Bytes} {part : Bytes}
    {s : List Arrival} (hms : ∀ m ∈ ms, Framed room m) (hpart : Unfinished room part)
    (hsteady : Arrival.interrupted ∉ s) (hdata : data s = ms.flatten ++ part) (blocks : List Bool) :
    Delivers part ms (calls blocks { size := room } s).1 ∧
    (∃ left, messages (calls blocks { size := room } s).1 ++ left = ms ∧
      (calls blocks { size := room } s).2.1.pending ++ data (calls blocks { size := room } s).2.2 =
        left.flatten ++ part) ∧
    (ms.length + pauses s < blocks.length → messages (calls blocks { size := room } s).1 = ms ∧
      ∃ block, Call.mk block (endCode part) none ∈ (calls blocks { size := room } s).1) := by
  have hbrings : Brings { size := room } s ms part :=
    ⟨⟨Nat.zero_le _, hsmall⟩, hroom, hms, hpart, hsteady, hdata⟩
  obtain ⟨hdelivers, left, hleft, hend⟩ := calls_delivers hbrings blocks
  constructor
  · exact hdelivers
  constructor
  · exact ⟨left, hleft, hend.stream⟩
  · intro hblocks
    obtain ⟨block, hmem⟩ := calls_over hbrings hblocks
    exact ⟨hdelivers.messages_of_ended hmem, block, hmem⟩

namespace Sample

/-- Two messages and the start of a third, in pieces that end anywhere. -/
def pieces : List Arrival :=
  [.bytes 8 [0, 0], .quiet, .bytes 0 [1, 0, 0, 0, 9, 0, 0], .quiet, .quiet, .bytes 0 [2, 0, 0, 0, 7, 8, 0]]

def first : Bytes := [8, 0, 0, 0, 1, 0, 0, 0]

def second : Bytes := [9, 0, 0, 0, 2, 0, 0, 0, 7]

end Sample

theorem pieces_received :
    messages (calls (List.replicate 6 false) { size := 12 } Sample.pieces).1 = [Sample.first, Sample.second] ∧
      ∃ block, Call.mk block (-EBADMSG) none ∈ (calls (List.replicate 6 false) { size := 12 } Sample.pieces).1 := by
  have hms : ∀ m ∈ [Sample.first, Sample.second], Framed 12 m := by
    intro m hm
    cases List.mem_pair.mp hm with
    | inl h =>
        rw [h]
        exact ⟨by decide, by decide, by decide⟩
    | inr h =>
        rw [h]
        exact ⟨by decide, by decide, by decide⟩
  have hpart : Unfinished 12 [8, 0] :=
    Or.inr ⟨[0, 0, 3, 0, 0, 0], by decide, ⟨by decide, by decide, by decide⟩⟩
  have hdata : data Sample.pieces = [Sample.first, Sample.second].flatten ++ [8, 0] := by decide
  exact (stream_received (by decide) (by decide) hms hpart (by decide) hdata (List.replicate 6 false)).2.2 (by decide)

end Wsupp.Nlusctl

import Wsupp.Config
import Wsupp.Nlusctl.Message
import Wsupp.Wire.Socket

/-!
# Receiving control messages

Messages are cut out of a stream: what has been read and not yet been taken stays in
the buffer until the rest of the message comes. A call of `uc_recv` takes a message
that is complete, reads once more where none is, and tells the end of the stream and
a message that does not fit by different errors.

What arrives is a list of chunks, with the moments between them at which nothing is
there. The lemmas compute a call on each kind of buffer and stream; the results
about whole streams in other modules are put together from these, and for a shifted
buffer nothing but its unread bytes matters.
-/
namespace Wsupp.Nlusctl
open Wire

abbrev EINTR : Int := 4
abbrev EBADF : Int := 9
abbrev EAGAIN : Int := 11
abbrev EBADMSG : Int := 74
abbrev ENOBUFS : Int := 105

/-- A buffer by its parts: the bytes from `buf` to `mptr` and those from `mptr` to
`rptr`. What lies beyond `rptr` is never read. -/
structure Urbuf where
  /-- `end - buf` -/
  size : ℕ
  old : Bytes := []
  pending : Bytes := []
  /-- the message, as the bytes from its start to `rptr` -/
  msg : Option Bytes := none
deriving DecidableEq, Repr

namespace Urbuf

/-- `end - rptr` -/
def left (ur : Urbuf) : ℕ := ur.size - (ur.old.length + ur.pending.length)

/-- What `recv` has put at `rptr`. -/
def fill (ur : Urbuf) (b : Bytes) : Urbuf := { ur with pending := ur.pending ++ b }

def shiftBuf (ur : Urbuf) : Urbuf := { ur with msg := none, old := [] }

/-- The length comes back as an `int`. -/
def takeCompleteMsg (ur : Urbuf) : Int × Urbuf :=
  match ucMsg ur.pending with
  | none => (-EBADMSG, ur)
  | some msg => ((Ucmsg.len msg : Int).bmod (2 ^ 32),
      { ur with
        msg := some msg
        old := ur.old ++ ur.pending.take (Ucmsg.len msg)
        pending := ur.pending.drop (Ucmsg.len msg) })

end Urbuf

/-- The loop of `uc_recv`; every turn fills at least one byte of the buffer. -/
def ucRecvLoop : ℕ → Bool → Urbuf → List Arrival → ℕ → Int × Urbuf × List Arrival
  | 0, _, ur, s, _ => (-ENOBUFS, ur, s)
  | n + 1, nowait, ur, s, total =>
      if ur.left = 0 then (-ENOBUFS, ur, s)
      else
        match recv ur.left nowait s with
        | (.again, s) => (-EAGAIN, ur, s)
        | (.interrupted, s) => (-EINTR, ur, s)
        | (.closed, s) => (if ur.pending ≠ [] then -EBADMSG else -EBADF, ur, s)
        | (.bytes b, s) =>
            let taken := (ur.fill b).takeCompleteMsg
            if 0 ≤ taken.1 then (((total + b.length : ℕ) : Int), taken.2, s)
            else ucRecvLoop n false taken.2 s (total + b.length)

def ucRecv (ur : Urbuf) (block : Bool) (s : List Arrival) : Int × Urbuf × List Arrival :=
  let taken := { ur with msg := none }.takeCompleteMsg
  if 0 ≤ taken.1 then (0, taken.2, s)
  else ucRecvLoop taken.2.shiftBuf.left (!block) taken.2.shiftBuf s 0

namespace Urbuf

/-- `rptr` is not beyond `end`. The sizes in use are far below `2^31`. -/
structure Fits (ur : Urbuf) : Prop where
  room : ur.old.length + ur.pending.length ≤ ur.size
  small : ur.size < 2 ^ 31

theorem Fits.shiftBuf {ur : Urbuf} (h : ur.Fits) : ur.shiftBuf.Fits := by
  obtain ⟨hroom, hsmall⟩ := h
  constructor
  · change 0 + ur.pending.length ≤ ur.size
    omega
  · exact hsmall

/-- A message at the start of the buffer is handed over, and the buffer moves on
by its length. -/
structure Took (room : ℕ) (msg : Bytes) (ur' : Urbuf) : Prop where
  size : ur'.size = room
  handed : ur'.msg = some msg
  header : Ucmsg.size ≤ msg.length
  le_room : msg.length ≤ room
  len_le : Ucmsg.len msg ≤ msg.length
  pending : ur'.pending = msg.drop (Ucmsg.len msg)
  fits : ur'.Fits

/-- The message handed over is the first one of the stream. -/
theorem Took.first {room : ℕ} {b t msg : Bytes} {ur' : Urbuf} (htook : Took room msg ur')
    (hdata : msg ++ t = b) :
    Ucmsg.bytes msg = b.take (Ucmsg.len b) ∧ ur'.pending ++ t = b.drop (Ucmsg.len b) ∧
      Ucmsg.size ≤ b.length ∧ Ucmsg.len b ≤ min room b.length := by
  have hlen := len_of_start htook.header hdata
  have hle := htook.len_le
  have hheader := htook.header
  have hroom := htook.le_room
  have hlength : b.length = msg.length + t.length := by rw [← hdata, List.length_append]
  rw [hlen] at hle
  refine ⟨?_, ?_, by omega, by omega⟩
  · rw [Ucmsg.bytes, hlen]
    exact (List.take_append_of_le_length hle).symm.trans (congrArg (List.take _) hdata)
  · rw [htook.pending, hlen]
    exact (List.drop_append_of_le_length hle).symm.trans (congrArg (List.drop _) hdata)

theorem takeCompleteMsg_none {ur : Urbuf} (h : ucMsg ur.pending = none) :
    ur.takeCompleteMsg = (-EBADMSG, ur) := by
  rw [takeCompleteMsg, h]

theorem takeCompleteMsg_some {ur : Urbuf} (hfits : ur.Fits) (h : ucMsg ur.pending ≠ none) :
    0 ≤ ur.takeCompleteMsg.1 ∧ Took ur.size ur.pending ur.takeCompleteMsg.2 := by
  obtain ⟨msg, hmsg⟩ := Option.ne_none_iff_exists'.mp h
  obtain ⟨rfl, hheader, hlen⟩ := ucMsg_some.mp hmsg
  obtain ⟨hroom, hsmall⟩ := hfits
  have hret : (Ucmsg.len ur.pending : Int).bmod (2 ^ 32) = Ucmsg.len ur.pending :=
    Int.bmod_eq_of_le (by omega) (by omega)
  rw [takeCompleteMsg, hmsg]
  dsimp only
  rw [hret]
  refine ⟨Int.natCast_nonneg _, rfl, rfl, hheader, by omega, hlen, rfl, ?_, hsmall⟩
  simp only [List.length_append, List.length_take, List.length_drop]
  omega

end Urbuf

/-- Why a call gives no message: what was pending stays so, with what has come. The
errors for an end, a pause and a message that is too long are told apart. -/
structure Stopped (ur : Urbuf) (nowait : Bool) (s : List Arrival) (ret : Int) (ur' : Urbuf)
    (s' : List Arrival) : Prop where
  size : ur'.size = ur.size
  keeps : ur'.pending ++ data s' = ur.pending ++ data s
  none : ucMsg ur'.pending = none
  fits : ur'.Fits
  cause :
    (ret = -EAGAIN ∧ nowait = true ∧ s = .quiet :: s' ∧ ur'.pending = ur.pending) ∨
    (ret = -EINTR ∧ Arrival.interrupted ∈ s) ∨
    (s' = [] ∧ ret = if ur'.pending ≠ [] then -EBADMSG else -EBADF) ∨
    (ret = -ENOBUFS ∧ ur'.pending.length = ur.size)

/-- The message that ends a call was completed by the last piece read; `q` is
what was there of it before. -/
def Completes (ur : Urbuf) (s : List Arrival) (msg : Bytes) (s' : List Arrival) : Prop :=
  ∃ s₁ q x t s₂, s = s₁ ++ .bytes x t :: s₂ ∧ ucMsg q = none ∧ q.length ≤ ur.size ∧
    q ++ data (.bytes x t :: s₂) = ur.pending ++ data s ∧
    msg = q ++ x :: t.take (ur.size - q.length - 1) ∧ s' = unread (t.drop (ur.size - q.length - 1)) s₂

/-- A call that does not wait gives a message only if something has come. -/
def Prompt (nowait : Bool) (s : List Arrival) : Prop := nowait = true → s.head? ≠ some .quiet

theorem Urbuf.Fits.fill {ur : Urbuf} (h : ur.Fits) {b : Bytes} (hb : b.length ≤ ur.left) :
    (ur.fill b).Fits := by
  obtain ⟨hroom, hsmall⟩ := h
  rw [left] at hb
  constructor
  · change ur.old.length + (ur.pending ++ b).length ≤ ur.size
    rw [List.length_append]
    omega
  · exact hsmall

theorem Urbuf.left_of_old {ur : Urbuf} (h : ur.old = []) : ur.left = ur.size - ur.pending.length := by
  rw [left, h, List.length_nil, Nat.zero_add]

theorem recv_prompt {left : ℕ} {nowait : Bool} {s s' : List Arrival} {b : Bytes}
    (h : recv left nowait s = (.bytes b, s')) : Prompt nowait s := by
  intro hnowait hquiet
  obtain ⟨s, rfl⟩ : ∃ s₁, s = .quiet :: s₁ := List.head?_eq_some_iff.mp hquiet
  rw [recv, if_pos hnowait] at h
  cases h

theorem ucRecvLoop_full {ur : Urbuf} (h : ur.left = 0) (n : ℕ) (nowait : Bool) (s : List Arrival)
    (total : ℕ) : ucRecvLoop n nowait ur s total = (-ENOBUFS, ur, s) := by
  cases n with
  | zero => rfl
  | succ n => rw [ucRecvLoop, if_pos h]

theorem stopped_full {ur : Urbuf} (hfits : ur.Fits) (hold : ur.old = []) (hnone : ucMsg ur.pending = none)
    (h : ur.left = 0) (nowait : Bool) (s : List Arrival) : Stopped ur nowait s (-ENOBUFS) ur s := by
  have hleft := Urbuf.left_of_old hold
  have hroom := hfits.room
  rw [hold, List.length_nil, Nat.zero_add] at hroom
  exact ⟨rfl, rfl, hnone, hfits, .inr (.inr (.inr ⟨rfl, by omega⟩))⟩

/-- A call that goes on after a whole piece ends as the rest of it does. -/
theorem Stopped.of_piece {ur ur' : Urbuf} {nowait : Bool} {ret : Int} {s₀ s₂ s' : List Arrival} {x : UInt8}
    {t b : Bytes} (hkeeps : (ur.fill b).pending ++ data s₂ = ur.pending ++ data (s₀ ++ .bytes x t :: s₂))
    (h : Stopped (ur.fill b) false s₂ ret ur' s') :
    Stopped ur nowait (s₀ ++ .bytes x t :: s₂) ret ur' s' := by
  refine ⟨h.size, h.keeps.trans hkeeps, h.none, h.fits, ?_⟩
  rcases h.cause with ⟨-, hnowait, -⟩ | ⟨hret, hmem⟩ | hclosed | hfull
  · cases hnowait
  · exact .inr (.inl ⟨hret, List.mem_append_right _ (List.mem_cons_of_mem _ hmem)⟩)
  · exact .inr (.inr (.inl hclosed))
  · exact .inr (.inr (.inr hfull))

theorem Completes.of_piece {ur : Urbuf} {msg : Bytes} {s₀ s₂ s' : List Arrival} {x : UInt8} {t b : Bytes}
    (hkeeps : (ur.fill b).pending ++ data s₂ = ur.pending ++ data (s₀ ++ .bytes x t :: s₂))
    (h : Completes (ur.fill b) s₂ msg s') : Completes ur (s₀ ++ .bytes x t :: s₂) msg s' := by
  obtain ⟨s₁, q, y, u, s₃, rfl, hq, hsize, hdata, hmsg, hs'⟩ := h
  refine ⟨s₀ ++ .bytes x t :: s₁, q, y, u, s₃, ?_, hq, hsize, hdata.trans hkeeps, hmsg, hs'⟩
  rw [List.append_assoc, List.cons_append]

/-- Apart from the rest of a piece nothing comes that was not there. -/
theorem Completes.mem {ur : Urbuf} {s s' : List Arrival} {msg : Bytes} (h : Completes ur s msg s') {a : Arrival}
    (ha : a ∈ s') : a ∈ s ∨ ∃ x t, a = .bytes x t := by
  obtain ⟨s₁, q, x, t, s₂, rfl, -, -, -, -, rfl⟩ := h
  have hlater (ha : a ∈ s₂) : a ∈ s₁ ++ .bytes x t :: s₂ := List.mem_append_right _ (List.mem_cons_of_mem _ ha)
  cases hrest : t.drop (ur.size - q.length - 1) with
  | nil =>
      rw [hrest] at ha
      exact .inl (hlater ha)
  | cons y u =>
      rw [hrest] at ha
      cases List.mem_cons.mp ha with
      | inl hpiece => exact .inr ⟨y, u, hpiece⟩
      | inr ha => exact .inl (hlater ha)

theorem ucRecvLoop_cases {n : ℕ} {nowait : Bool} {ur : Urbuf} {s : List Arrival} {total : ℕ}
    (hn : ur.left ≤ n) (hold : ur.old = []) (hfits : ur.Fits) (hnone : ucMsg ur.pending = none)
    {ret : Int} {ur' : Urbuf} {s' : List Arrival}
    (h : ucRecvLoop n nowait ur s total = (ret, ur', s')) :
    (0 ≤ ret ∧ ∃ msg, Urbuf.Took ur.size msg ur' ∧ msg ++ data s' = ur.pending ++ data s ∧
      Prompt nowait s ∧ Completes ur s msg s') ∨
    (ret < 0 ∧ Stopped ur nowait s ret ur' s') := by
  induction n generalizing nowait s ur total with
  | zero =>
      have hzero : ur.left = 0 := by omega
      rw [ucRecvLoop_full hzero] at h
      obtain ⟨rfl, rfl, rfl⟩ := h
      exact .inr ⟨by decide, stopped_full hfits hold hnone hzero nowait _⟩
  | succ n ih =>
      by_cases hzero : ur.left = 0
      · rw [ucRecvLoop_full hzero] at h
        obtain ⟨rfl, rfl, rfl⟩ := h
        exact .inr ⟨by decide, stopped_full hfits hold hnone hzero nowait _⟩
      rw [ucRecvLoop, if_neg hzero] at h
      split at h
      next s₁ hrecv =>
        obtain ⟨rfl, rfl, rfl⟩ := h
        obtain ⟨hnowait, rfl⟩ := recv_again hrecv
        exact .inr ⟨by decide, rfl, rfl, hnone, hfits, .inl ⟨rfl, hnowait, rfl, rfl⟩⟩
      next s₁ hrecv =>
        obtain ⟨rfl, rfl, rfl⟩ := h
        have hdata := recv_other hrecv (fun b h => by cases h)
        exact .inr ⟨by decide, rfl, by rw [hdata], hnone, hfits, .inr (.inl ⟨rfl, recv_interrupted hrecv⟩)⟩
      next s₁ hrecv =>
        obtain ⟨rfl, rfl, rfl⟩ := h
        have hdata := recv_other hrecv (fun b h => by cases h)
        refine .inr ⟨by split <;> decide, rfl, by rw [hdata], hnone, hfits, ?_⟩
        exact .inr (.inr (.inl ⟨recv_closed hrecv, rfl⟩))
      next b s₁ hrecv =>
        obtain ⟨hkeeps, -, hlen⟩ := recv_keeps (Nat.pos_of_ne_zero hzero) hrecv
        obtain ⟨s₀, x, t, s₂, rfl, hquiet, rfl, rfl⟩ := recv_bytes hrecv
        have hfill : (ur.fill (x :: t.take (ur.left - 1))).Fits := hfits.fill hlen
        have hfilled : (ur.fill (x :: t.take (ur.left - 1))).pending ++
            data (unread (t.drop (ur.left - 1)) s₂) = ur.pending ++ data (s₀ ++ .bytes x t :: s₂) := by
          rw [← hkeeps, ← List.append_assoc]
          rfl
        have hleft := Urbuf.left_of_old hold
        have hroom := hfits.room
        rw [hold, List.length_nil, Nat.zero_add] at hroom
        dsimp only at h
        by_cases hmsg : ucMsg (ur.fill (x :: t.take (ur.left - 1))).pending = none
        · rw [Urbuf.takeCompleteMsg_none hmsg, if_neg (show ¬ (0 : Int) ≤ -EBADMSG by decide)] at h
          have hold' : (ur.fill (x :: t.take (ur.left - 1))).old = [] := hold
          have hleft' := Urbuf.left_of_old hold'
          have hlen' : (ur.fill (x :: t.take (ur.left - 1))).pending.length =
              ur.pending.length + (t.take (ur.left - 1)).length + 1 := List.length_append
          rw [List.length_take] at hlen'
          change _ = ur.size - _ at hleft'
          by_cases hrest : t.length ≤ ur.left - 1
          · rw [List.drop_eq_nil_of_le hrest] at h hfilled
            rcases ih (by omega) hold' hfill hmsg h with ⟨hret, msg, htook, hdata, -, hcompletes⟩ | ⟨hret, hstop⟩
            · exact .inl ⟨hret, msg, htook, hdata.trans hfilled, recv_prompt hrecv, hcompletes.of_piece hfilled⟩
            · exact .inr ⟨hret, hstop.of_piece hfilled⟩
          · have hfull : (ur.fill (x :: t.take (ur.left - 1))).left = 0 := by omega
            rw [ucRecvLoop_full hfull] at h
            obtain ⟨rfl, rfl, rfl⟩ := h
            refine .inr ⟨by decide, rfl, hfilled, hmsg, hfill, .inr (.inr (.inr ⟨rfl, ?_⟩))⟩
            omega
        · obtain ⟨hret, htook⟩ := Urbuf.takeCompleteMsg_some hfill hmsg
          rw [if_pos hret] at h
          obtain ⟨rfl, rfl, rfl⟩ := h
          refine .inl ⟨Int.natCast_nonneg _, _, htook, hfilled, recv_prompt hrecv, ?_⟩
          refine ⟨s₀, ur.pending, x, t, s₂, rfl, hnone, hroom, ?_, ?_, ?_⟩
          · rw [data_append, data_quiet hquiet, List.nil_append]
          · rw [← hleft]
            rfl
          · rw [← hleft]

/-- What a call does: it hands over the first message, or nothing is lost. -/
theorem ucRecv_cases {ur : Urbuf} {block : Bool} {s : List Arrival} (hfits : ur.Fits) {ret : Int}
    {ur' : Urbuf} {s' : List Arrival} (h : ucRecv ur block s = (ret, ur', s')) :
    (0 ≤ ret ∧ ∃ msg, Urbuf.Took ur.size msg ur' ∧ msg ++ data s' = ur.pending ++ data s ∧
      ((msg = ur.pending ∧ s' = s) ∨ ucMsg ur.pending = none ∧ Prompt (!block) s ∧ Completes ur s msg s')) ∨
    (ret < 0 ∧ Stopped ur (!block) s ret ur' s') := by
  have hfresh : ({ ur with msg := none } : Urbuf).Fits := ⟨hfits.room, hfits.small⟩
  unfold ucRecv at h
  by_cases hmsg : ucMsg ur.pending = none
  · have hmsg' : ucMsg ({ ur with msg := none } : Urbuf).pending = none := hmsg
    rw [Urbuf.takeCompleteMsg_none hmsg'] at h
    dsimp only at h
    rw [if_neg (show ¬ (0 : Int) ≤ -EBADMSG by decide)] at h
    have hshift : ({ ur with msg := none } : Urbuf).shiftBuf.Fits := hfresh.shiftBuf
    rcases ucRecvLoop_cases le_rfl rfl hshift hmsg h with ⟨hret, msg, htook, hdata, hcompletes⟩ | ⟨hret, hstop⟩
    · exact .inl ⟨hret, msg, htook, hdata, .inr ⟨hmsg, hcompletes⟩⟩
    · exact .inr ⟨hret, hstop.size, hstop.keeps, hstop.none, hstop.fits, hstop.cause⟩
  · obtain ⟨hret, htook⟩ := Urbuf.takeCompleteMsg_some hfresh hmsg
    dsimp only at h
    rw [if_pos hret] at h
    obtain ⟨rfl, rfl, rfl⟩ := h
    exact .inl ⟨le_rfl, ur.pending, htook, rfl, .inl ⟨rfl, rfl⟩⟩

end Wsupp.Nlusctl

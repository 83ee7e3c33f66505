import Wsupp.Bytes

/-!
# Control messages

What the daemon and its client read out of a message. A message is given by the
bytes from its start to the end of the memory it lies in; an attribute by its offset
there. The fields of `struct ucmsg` and `struct ucattr` are numbers in memory order
at fixed offsets.

Reading a field past the end of the memory gives zeros, which is a convention of the
model; the results about reads say when this cannot happen. Lengths of attributes
are rounded up to four bytes, as the put functions do it.
-/
namespace Wsupp.Nlusctl

-- fields of `struct ucmsg`
namespace Ucmsg

def size : ℕ := 8

def len (msg : Bytes) : ℕ := msg.le32 0

def cmd (msg : Bytes) : Int := (msg.le32 4 : Int).bmod (2 ^ 32)

def bytes (msg : Bytes) : Bytes := msg.take (len msg)

end Ucmsg

def ucMsgHdr (buf : Bytes) : Option Bytes := if buf.length < Ucmsg.size then none else some buf

def ucMsg (buf : Bytes) : Option Bytes :=
  match ucMsgHdr buf with
  | none => none
  | some msg => if buf.length < Ucmsg.len msg then none else some msg

theorem ucMsg_some {buf msg : Bytes} :
    ucMsg buf = some msg ↔ msg = buf ∧ Ucmsg.size ≤ buf.length ∧ Ucmsg.len buf ≤ buf.length := by
  unfold ucMsg ucMsgHdr
  by_cases hsize : buf.length < Ucmsg.size
  · rw [if_pos hsize]
    exact iff_of_false (fun h => by cases h) fun h => by omega
  rw [if_neg hsize]
  dsimp only
  by_cases hlen : buf.length < Ucmsg.len buf
  · rw [if_pos hlen]
    exact iff_of_false (fun h => by cases h) fun h => by omega
  rw [if_neg hlen, Option.some.injEq]
  constructor
  · intro h
    exact ⟨h.symm, by omega, by omega⟩
  · intro h
    exact h.1.symm

theorem ucMsg_none {buf : Bytes} :
    ucMsg buf = none ↔ buf.length < Ucmsg.size ∨ buf.length < Ucmsg.len buf := by
  cases h : ucMsg buf with
  | none =>
      refine iff_of_true rfl (Classical.byContradiction fun hnot => ?_)
      have hsome : ucMsg buf = some buf := ucMsg_some.mpr ⟨rfl, by omega, by omega⟩
      rw [h] at hsome
      cases hsome
  | some msg =>
      have hsome := ucMsg_some.mp h
      exact iff_of_false (fun h => by cases h) (by omega)

theorem Ucmsg.len_append {msg : Bytes} (h : size ≤ msg.length) (b : Bytes) : len (msg ++ b) = len msg := by
  rw [len, len, Bytes.le32, Bytes.le32, Bytes.slice_append_left]
  rw [size] at h
  omega

/-- The length field of a stream is that of its first message. -/
theorem len_of_start {msg b t : Bytes} (hmsg : Ucmsg.size ≤ msg.length) (h : msg ++ t = b) :
    Ucmsg.len msg = Ucmsg.len b := by
  rw [← h, Ucmsg.len_append hmsg]

end Wsupp.Nlusctl

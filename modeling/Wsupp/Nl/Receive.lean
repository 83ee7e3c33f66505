import Wsupp.Nl.Attr
import Wsupp.Nlusctl.Receive
import Wsupp.Wire.Frames

/-!
# Receiving netlink messages

The receiving side of `ctx.c` and the loop of `handle_netlink`: what has been read
and not been handed over stays in `rxbuf`, at its start after each round. Offsets
are `int` values and lengths `size_t` values, as in the source, with the conversions
between them.

`InOrder` is the invariant of the offsets, from a fresh buffer on: they are in the
order they should be and inside the buffer, whose size is an int. Under it the
conversions change nothing, and receiving, taking a message and shifting are what
they seem to be on the bytes that are unread.
-/
namespace Wsupp.Nl
open Wire
open Nlusctl (sizeT sizeT_sub ENOBUFS)

/-- The receiving half of `struct netlink`: the buffer, its size, the end of what has
been read, and the message that is being handled. -/
structure NetlinkRx where
  rxbuf : Bytes
  rxlen : ℕ
  rxend : ℕ := 0
  msgptr : Int := 0
  msgend : Int := 0
  err : Int := 0
deriving DecidableEq

/-- A number as an `int`. -/
def toInt (x : Int) : Int := x.bmod (2 ^ 32)

/-- What the socket has for `recv`: a datagram, or an error. -/
inductive Recv where
  | datagram (b : Bytes)
  | failed
deriving DecidableEq

/-- The result of `recv`, and the state after it. What a datagram has beyond the room left is lost. -/
def nlRecvChunk (nl : NetlinkRx) (r : Recv) : Int × NetlinkRx :=
  let len := toInt ((nl.rxlen : Int) - nl.rxend)
  if len ≤ 0 then (-ENOBUFS, nl)
  else
    match r with
    | .failed => (-1, { nl with err := -1 })
    | .datagram b =>
        let b := b.take len.toNat
        if b = [] then (0, { nl with err := 0 })
        else (b.length, { nl with
          rxbuf := nl.rxbuf.poke nl.rxend b, rxend := nl.rxend + b.length, err := 0 })

def nlGotMessage (nl : NetlinkRx) : Int :=
  let off := nl.msgend
  let len := sizeT ((nl.rxend : Int) - off)
  if len < Nlmsg.size then 0
  else
    let msglen := nl.rxbuf.le32 off.toNat
    if len < msglen then 0 else toInt msglen

/-- One turn of the loop in `nl_shift_rxbuf`. -/
def copyByte (off : ℕ) (b : Bytes) (i : ℕ) : Bytes := b.set i (b.at' (off + i))

def nlShiftRxbuf (nl : NetlinkRx) : NetlinkRx :=
  let off := nl.msgend
  let rem := toInt ((nl.rxend : Int) - off)
  { nl with
    rxbuf := (List.range rem.toNat).foldl (copyByte off.toNat) nl.rxbuf
    rxend := sizeT rem, msgend := 0, msgptr := 0 }

def nlRecvNowait (nl : NetlinkRx) (r : Recv) : Int × NetlinkRx := nlRecvChunk nl r

/-- The message returned begins at the new `msgptr`. -/
def nlGetNowait (nl : NetlinkRx) : Option NetlinkRx :=
  let len := nlGotMessage nl
  if len ≤ 0 then none else some { nl with msgptr := nl.msgend, msgend := nl.msgend + len }

def NetlinkRx.message (nl : NetlinkRx) : Bytes :=
  nl.rxbuf.slice nl.msgptr.toNat (nl.rxbuf.le32 nl.msgptr.toNat)

/-- The loop of `handle_netlink`: the states in which the messages are handled, and the last
state. Handling a message receives nothing, unless the service quits; every turn takes at least
one byte. -/
def drain : ℕ → NetlinkRx → Option (List NetlinkRx × NetlinkRx)
  | 0, _ => none
  | n + 1, nl =>
      match nlGetNowait nl with
      | none => some ([], nl)
      | some nl => (drain n nl).map fun d => (nl :: d.1, d.2)

structure Round where
  /-- after `nl_recv_nowait` -/
  received : NetlinkRx
  /-- at each message -/
  handled : List NetlinkRx
  /-- after `nl_shift_rxbuf` -/
  shifted : NetlinkRx

/-- The service quits if there is nothing to be received. -/
def handleNetlink (nl : NetlinkRx) (r : Recv) : Option Round :=
  let rd := nlRecvNowait nl r
  if rd.1 < 0 then none
  else (drain (rd.2.rxend + 1) rd.2).map fun d => ⟨rd.2, d.1, nlShiftRxbuf d.2⟩

def Round.states (round : Round) : List NetlinkRx := round.received :: round.handled ++ [round.shifted]

def Round.messages (round : Round) : List Bytes := round.handled.map NetlinkRx.message

def rounds : NetlinkRx → List Recv → Option (List Round)
  | _, [] => some []
  | nl, r :: rs => (handleNetlink nl r).bind fun round => (rounds round.shifted rs).map (round :: ·)

/-- The offsets are in order and inside the buffer, whose size is an int. A fresh buffer
is in order, and every operation leaves it so. -/
structure InOrder (nl : NetlinkRx) : Prop where
  buffer : nl.rxbuf.length = nl.rxlen
  small : nl.rxlen < 2 ^ 31
  msgptr : 0 ≤ nl.msgptr
  msgend : nl.msgptr ≤ nl.msgend
  rxend : nl.msgend ≤ nl.rxend
  rxlen : nl.rxend ≤ nl.rxlen

/-- What has been read and not been handed over. -/
def NetlinkRx.unread (nl : NetlinkRx) : Bytes :=
  nl.rxbuf.slice nl.msgend.toNat (nl.rxend - nl.msgend.toNat)

theorem Nlmsg.len_append (b c : Bytes) (h : Nlmsg.size ≤ b.length) : Nlmsg.len (b ++ c) = Nlmsg.len b := by
  rw [Nlmsg.size] at h
  exact congrArg Bytes.leNat (Bytes.slice_append_left (by omega))

/-- Netlink messages in a stream. -/
def nlmsgs : Framing where
  header := Nlmsg.size
  len := Nlmsg.len
  header_pos := Nat.succ_pos 15
  len_append := Nlmsg.len_append

section Offsets
variable {nl nl' : NetlinkRx} {c : Bytes}

theorem toInt_of_lt {x : Int} (h : 0 ≤ x) (hlt : x < 2 ^ 31) : toInt x = x :=
  Int.bmod_eq_of_le (by omega) (by omega)

theorem InOrder.fresh {b : Bytes} (h : b.length < 2 ^ 31) : InOrder { rxbuf := b, rxlen := b.length } where
  buffer := rfl
  small := h
  msgptr := le_rfl
  msgend := le_rfl
  rxend := le_rfl
  rxlen := Nat.zero_le _

theorem InOrder.length_unread (h : InOrder nl) : nl.unread.length = nl.rxend - nl.msgend.toNat := by
  have hbuffer := h.buffer
  have hrxend := h.rxend
  have hrxlen := h.rxlen
  exact Bytes.length_slice (by omega)

theorem InOrder.take_unread (h : InOrder nl) {n : ℕ} (hn : n ≤ nl.unread.length) :
    nl.unread.take n = nl.rxbuf.slice nl.msgend.toNat n := by
  rw [h.length_unread] at hn
  rw [NetlinkRx.unread, Bytes.slice, Bytes.slice, List.take_take, min_eq_left hn]

theorem NetlinkRx.drop_unread (nl : NetlinkRx) (n : ℕ) :
    nl.unread.drop n = nl.rxbuf.slice (nl.msgend.toNat + n) (nl.rxend - (nl.msgend.toNat + n)) := by
  rw [NetlinkRx.unread, Bytes.slice, Bytes.slice, List.drop_take, List.drop_drop, Nat.sub_sub]

theorem InOrder.len_unread (h : InOrder nl) (hsize : Nlmsg.size ≤ nl.unread.length) :
    nl.rxbuf.le32 nl.msgend.toNat = Nlmsg.len nl.unread := by
  rw [h.length_unread, Nlmsg.size] at hsize
  have hslice : nl.unread.slice 0 4 = nl.rxbuf.slice nl.msgend.toNat 4 :=
    Bytes.slice_slice nl.rxbuf (by omega) nl.msgend.toNat
  exact congrArg Bytes.leNat hslice.symm

theorem InOrder.nlGotMessage (h : InOrder nl) :
    nlGotMessage nl = if nlmsgs.Ready nl.unread then (Nlmsg.len nl.unread : Int) else 0 := by
  have hlength := h.length_unread
  have hptr := h.msgptr
  have hend := h.msgend
  have hrxend := h.rxend
  have hrxlen := h.rxlen
  have hsmall := h.small
  have hroom : sizeT ((nl.rxend : Int) - nl.msgend) = nl.unread.length := by
    obtain ⟨off, hoff⟩ := Int.eq_ofNat_of_zero_le (hptr.trans hend)
    rw [hlength, hoff, Int.toNat_natCast]
    exact sizeT_sub (by omega) (by omega)
  unfold Nl.nlGotMessage
  dsimp only
  rw [hroom]
  by_cases hheader : nl.unread.length < Nlmsg.size
  · have hready : ¬nlmsgs.Ready nl.unread := fun hready => absurd hready.1 (not_le.mpr hheader)
    rw [if_pos hheader, if_neg hready]
  rw [if_neg hheader, h.len_unread (not_lt.mp hheader)]
  by_cases hlen : nl.unread.length < Nlmsg.len nl.unread
  · have hready : ¬nlmsgs.Ready nl.unread := fun hready => absurd hready.2.2 (not_le.mpr hlen)
    rw [if_pos hlen, if_neg hready]
  rw [if_neg hlen, toInt_of_lt (by omega) (by omega)]
  by_cases hpos : 0 < Nlmsg.len nl.unread
  · rw [if_pos ⟨not_lt.mp hheader, hpos, not_lt.mp hlen⟩]
  · have hready : ¬nlmsgs.Ready nl.unread := fun hready => absurd hready.2.1 hpos
    rw [if_neg hready]
    omega

theorem InOrder.nlGetNowait_none (h : InOrder nl) : nlGetNowait nl = none ↔ ¬nlmsgs.Ready nl.unread := by
  have hgot := h.nlGotMessage
  unfold nlGetNowait
  dsimp only
  rw [hgot]
  by_cases hready : nlmsgs.Ready nl.unread
  · have hpos : 0 < Nlmsg.len nl.unread := hready.2.1
    rw [if_pos hready, if_neg (by omega)]
    simp [hready]
  · rw [if_neg hready, if_pos le_rfl]
    simp [hready]

/-- A message is handed over: the first one of what has been read, and the rest stays. -/
theorem InOrder.nlGetNowait_some (h : InOrder nl) (hget : nlGetNowait nl = some nl') :
    nlmsgs.Ready nl.unread ∧ InOrder nl' ∧ nl'.rxlen = nl.rxlen ∧
      nl'.message = nl.unread.take (Nlmsg.len nl.unread) ∧
      nl'.unread = nl.unread.drop (Nlmsg.len nl.unread) := by
  have hgot := h.nlGotMessage
  have hready : nlmsgs.Ready nl.unread := by
    by_contra hready
    rw [h.nlGetNowait_none.mpr hready] at hget
    cases hget
  have hlen := h.len_unread hready.1
  have hpos : 0 < Nlmsg.len nl.unread := hready.2.1
  have hle : Nlmsg.len nl.unread ≤ nl.unread.length := hready.2.2
  have hlength := h.length_unread
  have hptr := h.msgptr
  have hend := h.msgend
  have hrxend := h.rxend
  have hrxlen := h.rxlen
  unfold nlGetNowait at hget
  dsimp only at hget
  rw [hgot, if_pos hready, if_neg (by omega)] at hget
  cases hget
  have hnext : (nl.msgend + (Nlmsg.len nl.unread : Int)).toNat = nl.msgend.toNat + Nlmsg.len nl.unread := by omega
  refine ⟨hready, ⟨h.buffer, h.small, ?_, ?_, ?_, h.rxlen⟩, rfl, ?_, ?_⟩
  · exact hptr.trans hend
  · change nl.msgend ≤ nl.msgend + (Nlmsg.len nl.unread : Int)
    omega
  · change nl.msgend + (Nlmsg.len nl.unread : Int) ≤ nl.rxend
    omega
  · change nl.rxbuf.slice nl.msgend.toNat (nl.rxbuf.le32 nl.msgend.toNat) = _
    rw [hlen, h.take_unread hle]
  · change nl.rxbuf.slice (nl.msgend + (Nlmsg.len nl.unread : Int)).toNat _ = _
    rw [hnext, nl.drop_unread]

theorem InOrder.nlRecvNowait (h : InOrder nl) (hc : c ≠ []) (hfits : c.length ≤ nl.rxlen - nl.rxend) :
    ∃ nl', nlRecvNowait nl (.datagram c) = ((c.length : Int), nl') ∧ InOrder nl' ∧ nl'.rxlen = nl.rxlen ∧
      nl'.unread = nl.unread ++ c := by
  have hpos := List.length_pos_of_ne_nil hc
  have hbuffer := h.buffer
  have hsmall := h.small
  have hend := h.msgend
  have hrxend := h.rxend
  have hroom : toInt ((nl.rxlen : Int) - nl.rxend) = (nl.rxlen - nl.rxend : ℕ) := by
    rw [toInt_of_lt (by omega) (by omega)]
    omega
  have htake : c.take (nl.rxlen - nl.rxend) = c := List.take_of_length_le hfits
  unfold Nl.nlRecvNowait nlRecvChunk
  dsimp only
  rw [hroom, if_neg (by omega), Int.toNat_natCast, htake, if_neg hc]
  refine ⟨_, rfl, ⟨?_, hsmall, h.msgptr, hend, ?_, ?_⟩, rfl, ?_⟩
  · change (nl.rxbuf.poke nl.rxend c).length = nl.rxlen
    rw [Bytes.length_poke (by omega), hbuffer]
  · change nl.msgend ≤ (nl.rxend + c.length : ℕ)
    omega
  · change nl.rxend + c.length ≤ nl.rxlen
    omega
  · change (nl.rxbuf.poke nl.rxend c).slice nl.msgend.toNat (nl.rxend + c.length - nl.msgend.toNat) = _
    have hlen : (nl.rxbuf.take nl.rxend).length = nl.rxend := List.length_take_of_le (by omega)
    have hboth : (nl.rxbuf.take nl.rxend ++ c).length = nl.rxend + c.length := by
      rw [List.length_append, hlen]
    rw [Bytes.poke, Bytes.slice_append_left (by rw [hboth]; omega), Bytes.slice,
      List.drop_append_of_le_length (by omega), List.drop_take, NetlinkRx.unread, Bytes.slice]
    apply List.take_of_length_le
    rw [List.length_append, List.length_take, List.length_drop]
    omega

/-- After some turns: that many bytes are at the front, and the rest is as it was. -/
theorem copied (b : Bytes) {off : ℕ} (k : ℕ) (hk : off + k ≤ b.length) :
    (List.range k).foldl (copyByte off) b = b.slice off k ++ b.drop k := by
  induction k with
  | zero => rfl
  | succ k ih =>
      have hlen : (b.slice off k).length = k := Bytes.length_slice (by omega)
      have hread : (b.slice off k ++ b.drop k).at' (off + k) = b.at' (off + k) := by
        rw [Bytes.at', Bytes.at', List.getD_eq_getElem?_getD, List.getD_eq_getElem?_getD,
          List.getElem?_append_right (by omega), hlen, Nat.add_sub_cancel, List.getElem?_drop, Nat.add_comm k off]
      have hlast : b.slice off (k + 1) = b.slice off k ++ [b.at' (off + k)] := by
        rw [Bytes.slice, Bytes.slice, List.take_add_one, List.getElem?_drop, Bytes.at', List.getD_eq_getElem?_getD,
          List.getElem?_eq_getElem (by omega)]
        rfl
      have hdrop : b.drop k = b.at' k :: b.drop (k + 1) := by
        rw [List.drop_eq_getElem_cons (by omega), Bytes.at', List.getD_eq_getElem?_getD, List.getElem?_eq_getElem (by omega)]
        rfl
      rw [List.range_succ, List.foldl_append, ih (by omega), List.foldl_cons, List.foldl_nil, copyByte, hread,
        List.set_append_right _ _ (by omega), hlen, Nat.sub_self, hdrop, List.set_cons_zero, hlast, List.append_assoc]
      rfl

theorem InOrder.nlShiftRxbuf (h : InOrder nl) :
    InOrder (nlShiftRxbuf nl) ∧ (nlShiftRxbuf nl).rxlen = nl.rxlen ∧ (nlShiftRxbuf nl).unread = nl.unread ∧
      (nlShiftRxbuf nl).rxend = nl.unread.length := by
  have hlength := h.length_unread
  have hbuffer := h.buffer
  have hsmall := h.small
  have hptr := h.msgptr
  have hend := h.msgend
  have hrxend := h.rxend
  have hrxlen := h.rxlen
  have hrem : toInt ((nl.rxend : Int) - nl.msgend) = (nl.unread.length : Int) := by
    rw [toInt_of_lt (by omega) (by omega)]
    omega
  have hback : sizeT (nl.unread.length : Int) = nl.unread.length := by
    have hsub : sizeT ((nl.unread.length : Int) - (0 : ℕ)) = nl.unread.length - 0 := sizeT_sub (by omega) (by omega)
    rw [Nat.cast_zero, Int.sub_zero, Nat.sub_zero] at hsub
    exact hsub
  have hfront : nl.rxbuf.slice nl.msgend.toNat nl.unread.length = nl.unread := by
    rw [hlength, NetlinkRx.unread]
  have hshift : Nl.nlShiftRxbuf nl = { nl with
      rxbuf := nl.unread ++ nl.rxbuf.drop nl.unread.length
      rxend := nl.unread.length, msgend := 0, msgptr := 0 } := by
    unfold Nl.nlShiftRxbuf
    dsimp only
    rw [hrem, Int.toNat_natCast, hback, copied nl.rxbuf _ (by omega), hfront]
  rw [hshift]
  refine ⟨⟨?_, hsmall, le_rfl, le_rfl, ?_, ?_⟩, rfl, ?_, rfl⟩
  · change (nl.unread ++ nl.rxbuf.drop nl.unread.length).length = nl.rxlen
    rw [List.length_append, List.length_drop]
    omega
  · exact Int.natCast_nonneg _
  · change nl.unread.length ≤ nl.rxlen
    omega
  · change (nl.unread ++ _).slice 0 (nl.unread.length - 0) = nl.unread
    rw [Bytes.slice, List.drop_zero, Nat.sub_zero, List.take_left]

end Offsets

end Wsupp.Nl

import Wsupp.Nl.Pack

/-!
# Netlink messages that lack a part

`nl_alloc` refuses what does not fit, but does not record it: the next part may fit
again, and the message goes out without the one refused.

The plan of a message says from the sizes alone where each part would go, whether it
is left out, and what is left when the message is sent. It agrees with the buffer
after every call. So the result can say, for any buffer and any sequence of calls,
when a message that lacks a part is held back: if a nest is ended after the
overflow, or if nothing has been put at all.
-/
namespace Wsupp.Nl
open Wire

/-- Where the parts of a message go, by their sizes. A nest is bad when it ends if
its header was left out or nothing has been put behind it. -/
structure Plan where
  off : ℕ
  starts : List (Option ℕ)
  leftOut : Bool := false
  badNest : Bool := false

namespace Plan

/-- A part goes to the end, if it fits there. -/
def place (room : ℕ) (w : Plan) (size : ℕ) : Plan :=
  if w.off + size ≤ room then { w with off := w.off + align4 size } else { w with leftOut := true }

def call (room : ℕ) (w : Plan) : Call → Plan
  | .put _ buf => w.place room (4 + buf.length)
  | .putNest _ => { w.place room 4 with
      starts := w.starts ++ [if w.off + 4 ≤ room then some w.off else none] }
  | .endNest k =>
      match w.starts.getD k none with
      | none => { w with badNest := true }
      | some p => if w.off ≤ p + 4 then { w with badNest := true } else w

/-- The header of 20 bytes, and what follows it. -/
def message (room : ℕ) (starts : List (Option ℕ)) (cs : List Call) : Plan :=
  cs.foldl (call room) (({ off := 0, starts := starts } : Plan).place room 20)

/-- Nothing is left out, or it shows: a nest is bad, or there is no message at all. -/
def Shows (w : Plan) : Prop := w.leftOut = true → w.badNest = true ∨ w.off = 0

instance (w : Plan) : Decidable w.Shows := inferInstanceAs (Decidable (_ → _))

end Plan

/-- The call is refused its room. -/
def misses (x : Packing) : Call → Bool
  | .put _ buf => (nlAlloc x.nl (4 + buf.length)).1.isNone
  | .putNest _ => (nlAlloc x.nl 4).1.isNone
  | .endNest _ => false

def missing (x : Packing) : List Call → Bool
  | [] => false
  | c :: cs => misses x c || missing (x.call c) cs

/-- Whatever was done with the buffer before, a message that lacks a part is not
sent, and `nl_send` tells so. -/
def NothingMissing (x : Packing) (fam : UInt16) (cmd ver : UInt8) (cs : List Call) (rd : Int) : Prop :=
  ((nlStartPacket x.nl 20).1.isNone || missing (x.newCmd fam cmd ver) cs) = true →
    (nlSend ((x.newCmd fam cmd ver).run cs).nl rd).1 < 0 ∧
      (nlSend ((x.newCmd fam cmd ver).run cs).nl rd).2.1 = none

/-- Up to the first bad nest the buffer is filled as planned: the end is where the plan
has it, and the nests start where the plan starts them. -/
structure Agrees (room : ℕ) (x : Packing) (lacks : Bool) (w : Plan) : Prop where
  length : x.nl.txbuf.length = room
  ends : x.nl.txend ≤ room + 3
  badNest : x.nl.txover = w.badNest
  off : w.badNest = false → x.nl.txend = w.off
  starts : w.badNest = false → x.nests = w.starts
  lacks : w.badNest = false → lacks = w.leftOut

section Agrees
variable {room : ℕ} {x : Packing} {b : Bool} {w : Plan}

theorem Agrees.place {nl : Netlink} {nests starts : List (Option ℕ)} (h : Agrees room x b w) {size : ℕ}
    (hroom : nl.room = (nlAlloc x.nl size).2.room) (hnests : w.badNest = false → nests = starts) :
    Agrees room { nl := nl, nests := nests } (b || (nlAlloc x.nl size).1.isNone)
      { w.place room size with starts := starts } := by
  have hlt := align4_lt size
  have hlen := h.length
  have hend := h.ends
  obtain ⟨halloc, hfull⟩ | ⟨mem, halloc, hover, hfits, hmem⟩ := nlAlloc_room x.nl size
  · rw [halloc] at hroom ⊢
    obtain ⟨hlength, htxend, htxover⟩ : nl.txbuf.length = x.nl.txbuf.length ∧ nl.txend = x.nl.txend ∧
        nl.txover = x.nl.txover := by
      simpa [Netlink.room] using hroom
    have hbad : (w.place room size).badNest = w.badNest := by
      unfold Plan.place
      split <;> rfl
    have hleft (hb : w.badNest = false) : w.place room size = { w with leftOut := true } := by
      have hoff := h.off hb
      have hx := h.badNest
      rw [hb] at hx
      rw [hx, hlen, hoff] at hfull
      exact if_neg (by simpa using hfull)
    constructor
    · exact hlength.trans hlen
    · exact htxend.le.trans hend
    · exact htxover.trans (h.badNest.trans hbad.symm)
    · intro hb
      rw [hbad] at hb
      rw [hleft hb]
      exact htxend.trans (h.off hb)
    · intro hb
      rw [hbad] at hb
      exact hnests hb
    · intro hb
      rw [hbad] at hb
      rw [hleft hb]
      exact Bool.or_true b
  · rw [halloc] at hroom ⊢
    obtain ⟨hlength, htxend, htxover⟩ : nl.txbuf.length = mem.length ∧
        nl.txend = x.nl.txend + align4 size ∧ nl.txover = x.nl.txover := by
      simpa [Netlink.room] using hroom
    have hb : w.badNest = false := h.badNest.symm.trans hover
    have hoff := h.off hb
    have hplace : w.place room size = { w with off := w.off + align4 size } := if_pos (by omega)
    rw [hplace]
    constructor
    · rw [hlength, hmem, hlen]
    · dsimp only
      omega
    · exact htxover.trans h.badNest
    · intro _
      dsimp only
      omega
    · exact hnests
    · intro hb
      rw [← h.lacks hb]
      exact Bool.or_false b

theorem Agrees.alloc (h : Agrees room x b w) (hb : w.badNest = false) (size : ℕ) :
    (nlAlloc x.nl size).1 = if w.off + size ≤ room then some w.off else none := by
  have hover := h.badNest
  have hoff := h.off hb
  have hlen := h.length
  rw [hb] at hover
  by_cases hfits : w.off + size ≤ room
  · rw [if_pos hfits, nlAlloc_fits hover (by omega), hoff]
  · rw [if_neg hfits, nlAlloc_full (by omega)]

theorem Agrees.after_bad {nl : Netlink} {nests : List (Option ℕ)} (hlen : nl.txbuf.length = room)
    (hend : nl.txend ≤ room + 3) (hover : nl.txover = true) (hw : w.badNest = true) :
    Agrees room { nl := nl, nests := nests } b w where
  length := hlen
  ends := hend
  badNest := hover.trans hw.symm
  off hb := by
    rw [hw] at hb
    cases hb
  starts hb := by
    rw [hw] at hb
    cases hb
  lacks hb := by
    rw [hw] at hb
    cases hb

theorem Agrees.endNest (h : Agrees room x b w) (k : ℕ) :
    Agrees room (x.call (.endNest k)) b (w.call room (.endNest k)) := by
  have hends : x.nl.Ends := by
    rw [Netlink.Ends, h.length]
    exact h.ends
  obtain ⟨hlen, hend, hover⟩ := nlEndNest_keeps hends (x.nests.getD k none)
  have hbad (w' : Plan) (hw : w'.badNest = true)
      (hx : (nlEndNest x.nl (x.nests.getD k none)).txover = true) :
      Agrees room (x.call (.endNest k)) b w' :=
    .after_bad (hlen.trans h.length) (hend.le.trans h.ends) hx hw
  by_cases hw : w.badNest = true
  · apply hbad
    · rw [Plan.call]
      split
      · rfl
      · split
        · rfl
        · exact hw
    · exact hover (h.badNest.trans hw)
  rw [Bool.not_eq_true] at hw
  have hoff := h.off hw
  rw [Plan.call, ← h.starts hw]
  cases hp : x.nests.getD k none with
  | none =>
      apply hbad _ rfl
      rw [hp]
      rfl
  | some p =>
      rw [hp] at hlen hend hover hbad
      by_cases hempty : w.off ≤ p + 4
      · dsimp only
        rw [if_pos hempty]
        apply hbad _ rfl
        rw [nlEndNest_empty (by omega)]
      · dsimp only
        rw [if_neg hempty]
        have hcall : x.call (.endNest k) = { x with nl := nlEndNest x.nl (some p) } := by
          rw [← hp]
          rfl
        have hroom := nlEndNest_room (p := p) (by omega) hends
        rw [Netlink.room, Netlink.room, Prod.mk.injEq, Prod.mk.injEq] at hroom
        rw [hcall]
        exact {
          length := hlen.trans h.length
          ends := hend.le.trans h.ends
          badNest := hroom.2.2.trans h.badNest
          off := fun hb => hend.trans (h.off hb)
          starts := h.starts
          lacks := h.lacks }

theorem Agrees.call (h : Agrees room x b w) (c : Call) :
    Agrees room (x.call c) (b || misses x c) (w.call room c) := by
  cases c with
  | put type buf =>
      have hsame : w.place room (4 + buf.length) =
          { w.place room (4 + buf.length) with starts := w.starts } := by
        unfold Plan.place
        split <;> rfl
      rw [Plan.call, hsame]
      exact h.place (nlPut_room x.nl type buf) h.starts
  | putNest type =>
      obtain ⟨hresult, hroom⟩ := nlPutNest_room x.nl type
      have hcall : x.call (.putNest type) =
          { nl := (nlPutNest x.nl type).2, nests := x.nests ++ [(nlPutNest x.nl type).1] } := rfl
      rw [hcall]
      apply h.place hroom
      intro hb
      rw [h.starts hb, hresult, h.alloc hb]
  | endNest k =>
      rw [misses, Bool.or_false]
      exact h.endNest k

theorem Agrees.run (h : Agrees room x b w) (cs : List Call) :
    Agrees room (x.run cs) (b || missing x cs) (cs.foldl (Plan.call room) w) := by
  induction cs generalizing x b w with
  | nil =>
      rw [missing, Bool.or_false]
      exact h
  | cons c cs ih =>
      rw [missing, ← Bool.or_assoc]
      exact ih (h.call c)

theorem Agrees.start (nl : Netlink) (nests : List (Option ℕ)) (hend : nl.txend = 0) (hover : nl.txover = false) :
    Agrees nl.txbuf.length { nl := nl, nests := nests } false { off := 0, starts := nests } where
  length := rfl
  ends := hend.le.trans (Nat.zero_le _)
  badNest := hover
  off _ := hend
  starts _ := rfl
  lacks _ := rfl

theorem Agrees.newCmd (x : Packing) (fam : UInt16) (cmd ver : UInt8) :
    Agrees x.nl.txbuf.length (x.newCmd fam cmd ver) (nlStartPacket x.nl 20).1.isNone
      (({ off := 0, starts := x.nests } : Plan).place x.nl.txbuf.length 20) := by
  have hsame : (({ off := 0, starts := x.nests } : Plan).place x.nl.txbuf.length 20) =
      { ({ off := 0, starts := x.nests } : Plan).place x.nl.txbuf.length 20 with starts := x.nests } := by
    unfold Plan.place
    split <;> rfl
  rw [hsame]
  have hstart := Agrees.start { x.nl with txend := 0, txover := false, seq := (x.nl.seq + 1) % 2 ^ 32 }
    x.nests rfl rfl
  exact hstart.place (nlNewCmd_room x.nl fam cmd ver) fun _ => rfl

theorem Agrees.refuses_iff (h : Agrees room x b w) :
    (b = true → x.nl.txend = 0 ∨ x.nl.txover = true) ↔ w.Shows := by
  unfold Plan.Shows
  rw [h.badNest]
  by_cases hbad : w.badNest = true
  · exact ⟨fun _ _ => .inl hbad, fun _ _ => .inr hbad⟩
  · rw [Bool.not_eq_true] at hbad
    rw [h.off hbad, h.lacks hbad, or_comm]

end Agrees

theorem nlSend_refuses (nl : Netlink) (rd : Int) :
    ((nlSend nl rd).1 < 0 ∧ (nlSend nl rd).2.1 = none) ↔ nl.txend = 0 ∨ nl.txover = true := by
  unfold nlSend
  by_cases hend : nl.txend = 0
  · rw [if_pos hend]
    exact ⟨fun _ => .inl hend, fun _ => ⟨(by decide : (-EINVAL : Int) < 0), rfl⟩⟩
  rw [if_neg hend]
  by_cases hover : nl.txover = true
  · rw [if_pos hover]
    exact ⟨fun _ => .inr hover, fun _ => ⟨(by decide : (-ENOMEM : Int) < 0), rfl⟩⟩
  rw [if_neg hover]
  constructor
  · intro h
    cases h.2
  · intro h
    exact absurd h (not_or.mpr ⟨hend, hover⟩)

/-- A message that lacks a part is held back exactly where the plan shows it: an
overflow in front of the end of a nest, or nothing put at all. The plan is computed from
the sizes of the buffer and of the parts. -/
theorem nothing_missing_iff (x : Packing) (fam : UInt16) (cmd ver : UInt8) (cs : List Call) (rd : Int) :
    NothingMissing x fam cmd ver cs rd ↔ (Plan.message x.nl.txbuf.length x.nests cs).Shows := by
  unfold NothingMissing
  rw [nlSend_refuses]
  exact ((Agrees.newCmd x fam cmd ver).run cs).refuses_iff

/-- Eight bytes do not fit behind the header, the four after them do. The message is
sent with the second attribute and without the first. -/
theorem large_left_out : ¬ NothingMissing { nl := { txbuf := Bytes.zeros 24 } } 28 33 0
    [.put 3 [1, 0, 0, 0], .put 45 []] 24 := by
  unfold NothingMissing
  rw [nlSend_refuses]
  decide

end Wsupp.Nl

import Wsupp.Config
import Wsupp.Wire.Attrs

/-!
# Building netlink messages

`pack.c`, `pack_sub.c` and `nl_send` on a transmit buffer. What does not fit is left
out; the overflow is only recorded where a nest is ended, so a message that lacks an
attribute at its top may still be sent.

A message is made by a sequence of calls, with a stack of the nests that are open.
Where parts go and whether they fit depends on the size of the buffer, the end of
what is there and the overflow, not on the bytes. This is what makes it possible to
plan a message by its sizes alone and to compare the plan with what the calls do.
-/
namespace Wsupp.Nl
open Wire

abbrev ENOMEM : Int := 12

def Nlmsg.size : ℕ := 16
def Nlgen.size : ℕ := 20
def Nlattr.size : ℕ := 4

def NLM_F_REQUEST : ℕ := 1

/-- The sending half of `struct netlink`; `txlen` is the length of `txbuf`. -/
structure Netlink where
  txbuf : Bytes
  txend : ℕ := 0
  txover : Bool := false
  seq : ℕ := 0
  err : Int := 0
deriving DecidableEq

/-- The padding is allocated, but neither asked for nor cleared. -/
def nlAlloc (nl : Netlink) (size : ℕ) : Option ℕ × Netlink :=
  if nl.txover then (none, nl)
  else if nl.txbuf.length < nl.txend + size then (none, nl)
  else
    let pad := (4 - size % 4) % 4
    (some nl.txend, { nl with
      txbuf := nl.txbuf.poke nl.txend (Bytes.zeros size), txend := nl.txend + (size + pad) })

def nlStartPacket (nl : Netlink) (len : ℕ) : Option ℕ × Netlink :=
  nlAlloc { nl with txend := 0, txover := false, seq := (nl.seq + 1) % 2 ^ 32 } len

/-- `struct nlgen` as `nl_header` fills it. -/
def nlgenBytes (fam : UInt16) (seq : ℕ) (cmd ver : UInt8) : Bytes :=
  Bytes.ofLe 4 Nlgen.size ++ Bytes.ofLe 2 fam.toNat ++ Bytes.ofLe 2 NLM_F_REQUEST ++ Bytes.ofLe 4 seq ++
    Bytes.ofLe 4 0 ++ [cmd, ver] ++ Bytes.ofLe 2 0

def nlNewCmd (nl : Netlink) (fam : UInt16) (cmd ver : UInt8) : Netlink :=
  match nlStartPacket nl Nlgen.size with
  | (none, nl) => nl
  | (some gen, nl) => { nl with txbuf := nl.txbuf.poke gen (nlgenBytes fam nl.seq cmd ver) }

def nlTxMsg (nl : Netlink) : Option ℕ := if nl.txend < Nlmsg.size then none else some 0

/-- The length of the message so far goes into its header. -/
def setMsgLen (nl : Netlink) : Netlink :=
  match nlTxMsg nl with
  | none => nl
  | some msg => { nl with txbuf := nl.txbuf.poke msg (Bytes.ofLe 4 nl.txend) }

/-- Lengths and types are stored in 16 bits each. -/
def nlPut (nl : Netlink) (type : UInt16) (buf : Bytes) : Netlink :=
  let full := Nlattr.size + buf.length
  match nlAlloc nl full with
  | (none, nl) => nl
  | (some p, nl) => setMsgLen { nl with
      txbuf := (nl.txbuf.poke p (attrHead full type.toNat)).poke (p + Nlattr.size) buf }

def nlPutNest (nl : Netlink) (type : UInt16) : Option ℕ × Netlink :=
  match nlAlloc nl Nlattr.size with
  | (none, nl) => (none, nl)
  | (some p, nl) => (some p, { nl with txbuf := nl.txbuf.poke p (attrHead Nlattr.size type.toNat) })

/-- A null pointer lies in front of the buffer. -/
def nlEndNest (nl : Netlink) : Option ℕ → Netlink
  | none => { nl with txover := true }
  | some p =>
      if nl.txend ≤ p + Nlattr.size then { nl with txover := true }
      else { nl with txbuf := nl.txbuf.poke p (Bytes.ofLe 2 (nl.txend - p)) }

/-- What `sendto` returns is given; the bytes it was given are returned, if it was
called. -/
def nlSend (nl : Netlink) (rd : Int) : Int × Option Bytes × Netlink :=
  if nl.txend = 0 then (-EINVAL, none, { nl with err := -EINVAL })
  else if nl.txover then (-ENOMEM, none, { nl with err := -ENOMEM })
  else (if rd ≤ 0 then 1 else 0, some (nl.txbuf.slice 0 nl.txend),
    { nl with err := if rd < 0 then rd else 0 })

/-- A call after `nl_new_cmd`. `nl_end_nest` is given what the `k`-th call of
`nl_put_nest` returned. -/
inductive Call where
  | put (type : UInt16) (buf : Bytes)
  | putNest (type : UInt16)
  | endNest (k : ℕ)
deriving DecidableEq

/-- A message while it is put together: the buffer, and the results of `nl_put_nest`
that the caller keeps for the end of each nest. -/
structure Packing where
  nl : Netlink
  nests : List (Option ℕ) := []

namespace Packing

def call (x : Packing) : Call → Packing
  | .put type buf => { x with nl := nlPut x.nl type buf }
  | .putNest type =>
      let (p, nl) := nlPutNest x.nl type
      { nl := nl, nests := x.nests ++ [p] }
  | .endNest k => { x with nl := nlEndNest x.nl (x.nests.getD k none) }

def run (x : Packing) (cs : List Call) : Packing := cs.foldl call x

def newCmd (x : Packing) (fam : UInt16) (cmd ver : UInt8) : Packing :=
  { x with nl := nlNewCmd x.nl fam cmd ver }

end Packing

def Netlink.room (nl : Netlink) : ℕ × ℕ × Bool := (nl.txbuf.length, nl.txend, nl.txover)

/-- The end overshoots the buffer by padding at most. -/
def Netlink.Ends (nl : Netlink) : Prop := nl.txend ≤ nl.txbuf.length + 3

section Calls
variable {nl : Netlink} {size : ℕ}

theorem nlAlloc_over (h : nl.txover = true) : nlAlloc nl size = (none, nl) := by
  rw [nlAlloc, if_pos h]

theorem nlAlloc_full (h : nl.txbuf.length < nl.txend + size) : nlAlloc nl size = (none, nl) := by
  rw [nlAlloc, if_pos h, ite_self]

theorem nlAlloc_fits (hover : nl.txover = false) (h : nl.txend + size ≤ nl.txbuf.length) :
    nlAlloc nl size = (some nl.txend, { nl with
      txbuf := nl.txbuf.poke nl.txend (Bytes.zeros size), txend := nl.txend + align4 size }) := by
  rw [nlAlloc, if_neg (by simp [hover]), if_neg (by omega)]
  rfl

/-- What an allocation leaves of the room, and whether it was made. -/
theorem nlAlloc_room (nl : Netlink) (size : ℕ) :
    nlAlloc nl size = (none, nl) ∧ (nl.txover = true ∨ nl.txbuf.length < nl.txend + size) ∨
      ∃ mem, nlAlloc nl size = (some nl.txend, { nl with txbuf := mem, txend := nl.txend + align4 size }) ∧
        nl.txover = false ∧ nl.txend + size ≤ nl.txbuf.length ∧ mem.length = nl.txbuf.length := by
  by_cases hover : nl.txover = true
  · exact .inl ⟨nlAlloc_over hover, .inl hover⟩
  rw [Bool.not_eq_true] at hover
  by_cases h : nl.txbuf.length < nl.txend + size
  · exact .inl ⟨nlAlloc_full h, .inr h⟩
  · have hfits : nl.txend + size ≤ nl.txbuf.length := by omega
    have hzeros : (Bytes.zeros size).length = size := List.length_replicate
    refine .inr ⟨_, nlAlloc_fits hover hfits, hover, hfits, Bytes.length_poke ?_⟩
    rw [hzeros]
    exact hfits

theorem setMsgLen_room (h : nl.Ends) : (setMsgLen nl).room = nl.room := by
  unfold setMsgLen nlTxMsg Netlink.room Netlink.Ends at *
  by_cases hsize : nl.txend < Nlmsg.size
  · rw [if_pos hsize]
  · rw [if_neg hsize]
    rw [Nlmsg.size] at hsize
    dsimp only
    rw [Bytes.length_poke (by rw [Bytes.length_ofLe]; omega)]

theorem room_eq {nl nl' : Netlink} (hlen : nl'.txbuf.length = nl.txbuf.length) (hend : nl'.txend = nl.txend)
    (hover : nl'.txover = nl.txover) : nl'.room = nl.room := by
  rw [Netlink.room, Netlink.room, hlen, hend, hover]

theorem nlPut_none {type : UInt16} {buf : Bytes} (h : nlAlloc nl (4 + buf.length) = (none, nl)) :
    nlPut nl type buf = nl := by
  simp only [nlPut, Nlattr.size, h]

theorem nlPut_some {type : UInt16} {buf mem : Bytes} {p e : ℕ}
    (h : nlAlloc nl (4 + buf.length) = (some p, { nl with txbuf := mem, txend := e })) :
    nlPut nl type buf = setMsgLen { nl with
      txbuf := (mem.poke p (attrHead (4 + buf.length) type.toNat)).poke (p + 4) buf, txend := e } := by
  simp only [nlPut, Nlattr.size, h]

theorem nlPut_room (nl : Netlink) (type : UInt16) (buf : Bytes) :
    (nlPut nl type buf).room = (nlAlloc nl (4 + buf.length)).2.room := by
  obtain ⟨halloc, -⟩ | ⟨mem, halloc, -, hfits, hmem⟩ := nlAlloc_room nl (4 + buf.length)
  · rw [nlPut_none halloc, halloc]
  · have hhead : (mem.poke nl.txend (attrHead (4 + buf.length) type.toNat)).length = mem.length :=
      Bytes.length_poke (by rw [length_attrHead]; omega)
    have hput : ((mem.poke nl.txend (attrHead (4 + buf.length) type.toNat)).poke (nl.txend + 4) buf).length =
        mem.length := by
      rw [Bytes.length_poke (by rw [hhead]; omega), hhead]
    have hle := align4_lt (4 + buf.length)
    rw [nlPut_some halloc, halloc, setMsgLen_room]
    · exact room_eq hput rfl rfl
    · rw [Netlink.Ends]
      dsimp only
      rw [hput]
      omega

theorem nlPutNest_none {type : UInt16} (h : nlAlloc nl 4 = (none, nl)) :
    nlPutNest nl type = (none, nl) := by
  simp only [nlPutNest, Nlattr.size, h]

theorem nlPutNest_some {type : UInt16} {mem : Bytes} {p e : ℕ}
    (h : nlAlloc nl 4 = (some p, { nl with txbuf := mem, txend := e })) :
    nlPutNest nl type =
      (some p, { nl with txbuf := mem.poke p (attrHead 4 type.toNat), txend := e }) := by
  simp only [nlPutNest, Nlattr.size, h]

theorem nlPutNest_room (nl : Netlink) (type : UInt16) :
    (nlPutNest nl type).1 = (nlAlloc nl 4).1 ∧
      (nlPutNest nl type).2.room = (nlAlloc nl 4).2.room := by
  obtain ⟨halloc, -⟩ | ⟨mem, halloc, -, hfits, hmem⟩ := nlAlloc_room nl 4
  · rw [nlPutNest_none halloc, halloc]
    exact ⟨rfl, rfl⟩
  · rw [nlPutNest_some halloc, halloc]
    have hhead : (mem.poke nl.txend (attrHead 4 type.toNat)).length = mem.length :=
      Bytes.length_poke (by rw [length_attrHead]; omega)
    exact ⟨rfl, room_eq hhead rfl rfl⟩

theorem nlEndNest_empty {p : ℕ} (h : nl.txend ≤ p + 4) :
    nlEndNest nl (some p) = { nl with txover := true } := if_pos h

theorem nlEndNest_some {p : ℕ} (h : p + 4 < nl.txend) :
    nlEndNest nl (some p) = { nl with txbuf := nl.txbuf.poke p (Bytes.ofLe 2 (nl.txend - p)) } :=
  if_neg (by rw [Nlattr.size]; omega)

theorem nlEndNest_room {p : ℕ} (h : p + 4 < nl.txend) (hend : nl.Ends) :
    (nlEndNest nl (some p)).room = nl.room := by
  rw [nlEndNest_some h]
  rw [Netlink.Ends] at hend
  exact room_eq (Bytes.length_poke (by rw [Bytes.length_ofLe]; omega)) rfl rfl

/-- However it comes out, the end stays and an overflow is not forgotten. -/
theorem nlEndNest_keeps (h : nl.Ends) (at' : Option ℕ) :
    (nlEndNest nl at').txbuf.length = nl.txbuf.length ∧ (nlEndNest nl at').txend = nl.txend ∧
      (nl.txover = true → (nlEndNest nl at').txover = true) := by
  cases at' with
  | none => exact ⟨rfl, rfl, fun _ => rfl⟩
  | some p =>
      by_cases hp : nl.txend ≤ p + 4
      · rw [nlEndNest_empty hp]
        exact ⟨rfl, rfl, fun _ => rfl⟩
      · have hroom := nlEndNest_room (not_le.mp hp) h
        rw [Netlink.room, Netlink.room, Prod.mk.injEq, Prod.mk.injEq] at hroom
        exact ⟨hroom.1, hroom.2.1, hroom.2.2.trans⟩

theorem length_nlgenBytes (fam : UInt16) (seq : ℕ) (cmd ver : UInt8) :
    (nlgenBytes fam seq cmd ver).length = 20 := by
  simp [nlgenBytes]

theorem nlNewCmd_none {fam : UInt16} {cmd ver : UInt8} {nl' : Netlink}
    (h : nlStartPacket nl 20 = (none, nl')) : nlNewCmd nl fam cmd ver = nl' := by
  simp only [nlNewCmd, Nlgen.size, h]

theorem nlNewCmd_some {fam : UInt16} {cmd ver : UInt8} {nl' : Netlink} {p : ℕ}
    (h : nlStartPacket nl 20 = (some p, nl')) : nlNewCmd nl fam cmd ver =
      { nl' with txbuf := nl'.txbuf.poke p (nlgenBytes fam nl'.seq cmd ver) } := by
  simp only [nlNewCmd, Nlgen.size, h]

theorem nlNewCmd_room (nl : Netlink) (fam : UInt16) (cmd ver : UInt8) :
    (nlNewCmd nl fam cmd ver).room = (nlStartPacket nl 20).2.room := by
  obtain ⟨halloc, -⟩ | ⟨mem, halloc, -, hfits, hmem⟩ :=
    nlAlloc_room { nl with txend := 0, txover := false, seq := (nl.seq + 1) % 2 ^ 32 } 20
  · rw [nlNewCmd_none (by rw [nlStartPacket, halloc]), nlStartPacket, halloc]
  · rw [nlNewCmd_some (by rw [nlStartPacket, halloc]), nlStartPacket, halloc]
    have hgen : (mem.poke 0 (nlgenBytes fam ((nl.seq + 1) % 2 ^ 32) cmd ver)).length = mem.length := by
      apply Bytes.length_poke
      rw [length_nlgenBytes, hmem]
      exact hfits
    exact room_eq hgen rfl rfl

end Calls

end Wsupp.Nl

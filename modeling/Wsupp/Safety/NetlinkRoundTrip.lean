import Wsupp.Nl.Puts

/-!
# Netlink messages, put and read back

What `nl_put` and `nl_put_nest` write is what `nl_get` and `nl_sub` read, as far as
`nl_check_nest` lets it through. It stops at attributes whose padded length does not
fit 16 bits, and takes a lone empty attribute for no attributes at all.

The message is any tree of attributes and nests that has room in its buffer,
whatever was there before. It is read back whole if and only if every level of it
passes the check and its length fits its field; the flag at the end of a key upload
is one of those that do not. Both directions are lemmas of their own.
-/
namespace Wsupp.Nl
open Wire

/-- The attributes of what `nl_nest` accepts; otherwise there are none. -/
def nestOf (msg : Bytes) (p : ℕ) : Reader :=
  match nlNest msg p with
  | some p => subs msg p
  | none => { first := none, next := fun _ => none }

/-- A search by type returns the first attribute that was put with it. -/
def Found (msg : Bytes) (find : ℕ → Option ℕ) (F : Attrs) : Prop :=
  ∀ type, match F.get type with
    | none => find type = none
    | some v => ∃ p, find type = some p ∧ attrKey msg p = type ∧ Carries msg (nestOf msg) p v

/-- A message is accepted, and every attribute put is found in it again: by walking, by
its key, and in the nests by their keys. -/
structure ReadBack (msg : Bytes) (txend : ℕ) (F : Attrs) : Prop where
  len : Nlmsg.len msg = txend
  gen : nlGen msg = true
  attrs : Decodes msg (nestOf msg) (attrs msg) (attrs msg).first F
  get : Found msg (nlGet msg) F
  nest : ∀ type G, F.get type = some (.nest G) →
    ∃ p, nlGetNest msg type = some p ∧ Carries msg (nestOf msg) p (.nest G)
  sub : ∀ p G, nlNest msg p = some p → Carries msg (nestOf msg) p (.nest G) → Found msg (nlSub msg p) G

/-- No attribute is longer than 65532 bytes, nests taken as a whole. -/
def Level : Attrs → Prop
  | .nil => True
  | .attr _ payload rest => 4 + payload.length ≤ 65532 ∧ Level rest
  | .nest _ subs rest => 4 + subs.size ≤ 65532 ∧ Level rest

/-- `nl_check_nest` lets these attributes through: there is more than an empty one. -/
def Passes (F : Attrs) : Prop := 4 < F.size ∧ Level F

section Passes
variable {msg : Bytes} {F G : Attrs} {p stop : ℕ}

theorem level_small (h : Level F) (hnests : F.Nests Passes) : F.Small := by
  induction F with
  | nil => trivial
  | attr type payload rest ih => exact ⟨by have h4 := h.1; omega, ih h.2 hnests⟩
  | nest type subs rest ihsubs ih =>
      exact ⟨by have h4 := h.1; omega, ihsubs hnests.1.2 hnests.2.1, ih h.2 hnests.2.2⟩

theorem Laid.chain (h : Laid msg p F) (hF : Level F) (hstop : p + F.size = stop) : Chain msg stop p := by
  induction F generalizing p with
  | nil =>
      obtain rfl : p = stop := hstop
      exact .done
  | attr type payload rest ih =>
      obtain ⟨hlen, -, -, hrest⟩ := h
      have hle := le_align4 (4 + payload.length)
      rw [Attrs.size] at hstop
      apply Chain.step (by omega) (by omega) (by rw [hlen]; exact hF.1)
      rw [hlen]
      exact ih hrest hF.2 (by omega)
  | nest type subs rest ihsubs ih =>
      obtain ⟨hlen, -, -, hrest⟩ := h
      have hmod := subs.size_mod
      rw [Attrs.size] at hstop
      apply Chain.step (by omega) (by omega) (by rw [hlen]; exact hF.1)
      rw [hlen, align4_eq (by omega)]
      exact ih hrest hF.2 (by omega)

/-- A reader that steps by padded lengths and stays in front of the end. -/
def Steps (mem : Bytes) (stop : ℕ) (r : Reader) : Prop :=
  ∀ p q, r.next p = some q → q = p + align4 (attrLen mem p) ∧ q < stop

theorem attrsIn_steps (mem : Bytes) (buf : ℕ) {len : ℕ} (hlen : len < 2 ^ 63) :
    Steps mem (buf + len) (attrsIn mem buf len) := by
  intro p q h
  obtain ⟨hq, -, -, hlt⟩ := nlAttrNIn_some hlen h
  exact ⟨hq, hlt⟩

theorem level_cons {mem : Bytes} {sub : ℕ → Reader} {v : Value} {rest : Attrs} {type : ℕ}
    (h : Carries mem sub p v) (hle : attrLen mem p ≤ 65532) (hrest : Level rest) : Level (.cons type v rest) := by
  cases v with
  | bytes b => exact ⟨h.1 ▸ hle, hrest⟩
  | nest subs => exact ⟨h.1 ▸ hle, hrest⟩

/-- The chain and the reader come by the same attributes. -/
theorem decodes_level {mem : Bytes} {sub : ℕ → Reader} {r : Reader} (hr : Steps mem stop r) {o : Option ℕ}
    (h : Decodes mem sub r o F) (ho : ∀ p, o = some p → p < stop ∧ Chain mem stop p) : Level F := by
  induction F using Attrs.list_induction generalizing o with
  | nil => trivial
  | cons type v rest ih =>
      obtain ⟨p, rfl, -, hcarries, hrest⟩ := decodes_cons.mp h
      obtain ⟨hp, hchain⟩ := ho p rfl
      cases hchain with
      | done => omega
      | step _ _ hle hnext =>
          refine level_cons hcarries hle (ih hrest fun q hq => ?_)
          obtain ⟨rfl, hlt⟩ := hr p q hq
          exact ⟨hlt, hnext⟩

theorem nestOf_some (h : nlNest msg p = some p) : nestOf msg p = subs msg p := by
  rw [nestOf, h]

/-- What is read out of a nest has been accepted. -/
theorem decodes_nest (h : Decodes msg (nestOf msg) (nestOf msg p) (nestOf msg p).first G) (hG : G ≠ .nil)
    (hlen : attrLen msg p = 4 + G.size) : nlNest msg p = some p ∧ Passes G := by
  have haccepted : nlNest msg p = some p := by
    cases hnest : nlNest msg p with
    | none =>
        rw [nestOf, hnest] at h
        cases G with
        | nil => exact absurd rfl hG
        | attr type payload rest => exact h.elim
        | nest type subs rest => exact h.elim
    | some q =>
        unfold nlNest at hnest
        split at hnest
        · exact hnest.symm ▸ rfl
        · cases hnest
  obtain ⟨h8, hchain⟩ := nlNest_iff.mp haccepted
  have hlt := attrLen_lt msg p
  refine ⟨haccepted, by omega, ?_⟩
  rw [nestOf_some haccepted] at h
  have hsteps : Steps msg (p + attrLen msg p) (subs msg p) := by
    have hin := attrsIn_steps msg (p + 4) (show attrLen msg p - 4 < 2 ^ 63 by omega)
    rw [show p + 4 + (attrLen msg p - 4) = p + attrLen msg p by omega, ← atPayloadLen_eq (by omega)] at hin
    exact hin
  apply decodes_level hsteps h
  intro q hq
  obtain ⟨rfl, -, -⟩ := nlAttr0In_some hq
  exact ⟨by rw [Nlattr.size]; omega, hchain⟩

theorem decodes_nests {r : Reader} {o : Option ℕ} (h : Decodes msg (nestOf msg) r o F)
    (hfilled : F.Nests fun G => G ≠ .nil) : F.Nests Passes := by
  induction F generalizing r o with
  | nil => trivial
  | attr type payload rest ih =>
      cases o with
      | none => exact h.elim
      | some p => exact ih h.2.2.2 hfilled
  | nest type subs rest ihsubs ih =>
      cases o with
      | none => exact h.elim
      | some p =>
          obtain ⟨hlen, -, hin, hrest⟩ := h
          exact ⟨(decodes_nest hin hfilled.1 hlen).2, ihsubs hin hfilled.2.1, ih hrest hfilled.2.2⟩

/-- The bytes of the message bound the number of attributes. -/
theorem decodes_width {sub : ℕ → Reader} {r : Reader} (hr : Steps msg stop r) {o : Option ℕ}
    (h : Decodes msg sub r o F) (ho : ∀ q, o = some q → p ≤ q) : F.width ≤ msg.length - p := by
  have hin {q : ℕ} (hq : 4 ≤ attrLen msg q) : q < msg.length := by
    by_contra hpast
    have hzero : attrLen msg q = 0 := by
      rw [attrLen, Bytes.le16, Bytes.slice, List.drop_eq_nil_of_le (by omega)]
      rfl
    omega
  induction F using Attrs.list_induction generalizing o p with
  | nil => exact Nat.zero_le _
  | cons type v rest ih =>
      obtain ⟨q, rfl, -, hcarries, hrest⟩ := decodes_cons.mp h
      have hq := ho q rfl
      have hlen := hcarries.len
      have hlt := hin hlen
      have hwidth := ih (p := q + 1) hrest fun q' hq' => by
        obtain ⟨rfl, -⟩ := hr q q' hq'
        have hle := le_align4 (attrLen msg q)
        omega
      rw [Attrs.width_cons]
      omega

theorem attrs_steps (h : 20 ≤ Nlmsg.len msg) : Steps msg (Nlmsg.len msg) (attrs msg) := by
  have hlt := Nlmsg.len_lt msg
  have hin := attrsIn_steps msg 20 (show Nlmsg.len msg - 20 < 2 ^ 63 by omega)
  rw [show 20 + (Nlmsg.len msg - 20) = Nlmsg.len msg by omega, ← nlPayloadLen_eq h] at hin
  exact hin

theorem subs_steps (h : 4 ≤ attrLen msg p) : Steps msg (p + attrLen msg p) (subs msg p) := by
  have hlt := attrLen_lt msg p
  have hin := attrsIn_steps msg (p + 4) (show attrLen msg p - 4 < 2 ^ 63 by omega)
  rw [show p + 4 + (attrLen msg p - 4) = p + attrLen msg p by omega, ← atPayloadLen_eq h] at hin
  exact hin

theorem found_get (hlen : 20 ≤ Nlmsg.len msg)
    (h : Decodes msg (nestOf msg) (attrs msg) (attrs msg).first F) : Found msg (nlGet msg) F := by
  have hwidth := decodes_width (p := 0) (attrs_steps hlen) h fun _ _ => Nat.zero_le _
  intro type
  exact h.search type (by omega)

theorem found_sub (hnest : nlNest msg p = some p) (h : Carries msg (nestOf msg) p (.nest G)) :
    Found msg (nlSub msg p) G := by
  obtain ⟨hlen, hdec⟩ := h
  rw [nestOf_some hnest] at hdec
  have hwidth := decodes_width (p := 0) (subs_steps (by omega)) hdec fun _ _ => Nat.zero_le _
  intro type
  exact hdec.search type (by omega)

end Passes

section Message
variable {F : Puts} {x : Packing} {fam : UInt16} {cmd ver : UInt8}

theorem Puts.attrs_nil (F : Puts) : F.attrs = .nil ↔ F = .done := by
  cases F with
  | done => exact ⟨fun _ => rfl, fun _ => rfl⟩
  | put type buf rest => exact iff_of_false Attrs.noConfusion Puts.noConfusion
  | nest type subs rest => exact iff_of_false Attrs.noConfusion Puts.noConfusion

theorem Puts.filled_attrs (h : F.Filled) : F.attrs.Nests fun G => G ≠ .nil := by
  induction F with
  | done => trivial
  | put type buf rest ih => exact ih h
  | nest type subs rest ihsubs ih =>
      exact ⟨fun hnil => h.1 (subs.attrs_nil.mp hnil), ihsubs h.2.1, ih h.2.2⟩

theorem newCmd_spec (x : Packing) (fam : UInt16) (cmd ver : UInt8) (h : 20 ≤ x.nl.txbuf.length) :
    (x.newCmd fam cmd ver).nl.txbuf.length = x.nl.txbuf.length ∧ (x.newCmd fam cmd ver).nl.txend = 20 ∧
      (x.newCmd fam cmd ver).nl.txover = false := by
  have hroom := nlNewCmd_room x.nl fam cmd ver
  have hfits := @nlAlloc_fits { x.nl with txend := 0, txover := false, seq := (x.nl.seq + 1) % 2 ^ 32 } 20 rfl
    (by dsimp only; omega)
  have hzeros : (Bytes.zeros 20).length = 20 := List.length_replicate
  have hmem : (x.nl.txbuf.poke 0 (Bytes.zeros 20)).length = x.nl.txbuf.length :=
    Bytes.length_poke (by omega)
  rw [nlStartPacket, hfits, Netlink.room, Netlink.room] at hroom
  dsimp only at hroom
  rw [hmem] at hroom
  exact ⟨congrArg Prod.fst hroom, congrArg (fun r => r.2.1) hroom, congrArg (fun r => r.2.2) hroom⟩

theorem Puts.message_built (fam : UInt16) (cmd ver : UInt8) (hfilled : F.Filled) (hroom : 20 + F.attrs.size ≤ x.nl.txbuf.length) :
    Built (x.newCmd fam cmd ver) F (F.message x fam cmd ver) ∧
      (F.message x fam cmd ver).nl.txend = 20 + F.attrs.size := by
  obtain ⟨hlen, hend, hover⟩ := newCmd_spec x fam cmd ver (by omega)
  have hbuilt := F.built (x := x.newCmd fam cmd ver) hover hend.ge (by omega) hfilled
  exact ⟨hbuilt, by rw [← hend]; exact hbuilt.txend⟩

/-- What is handed over is the message as it lies in the buffer. -/
theorem Puts.finished_laid (fam : UInt16) (cmd ver : UInt8) (hfilled : F.Filled) (hroom : 20 + F.attrs.size ≤ x.nl.txbuf.length)
    (hne : F ≠ .done) (hsmall : F.attrs.Small) :
    Nlmsg.len (F.finished x fam cmd ver) = (20 + F.attrs.size) % 2 ^ 32 ∧
      Laid (F.finished x fam cmd ver) 20 F.attrs := by
  obtain ⟨hbuilt, hend⟩ := F.message_built fam cmd ver hfilled hroom
  obtain ⟨-, hstart, -⟩ := newCmd_spec x fam cmd ver (by omega)
  have hslice (o k : ℕ) (hok : o + k ≤ 20 + F.attrs.size) :
      (F.finished x fam cmd ver).slice o k = (F.message x fam cmd ver).nl.txbuf.slice o k := by
    have htake := Bytes.slice_slice (F.message x fam cmd ver).nl.txbuf hok 0
    rw [Nat.zero_add] at htake
    rw [finished, hend, ← htake]
    rfl
  have hlen := hbuilt.msgLen hne
  have hlaid := hbuilt.laid hsmall
  rw [hstart] at hlaid
  rw [hend, Nlmsg.len, Bytes.le32] at hlen
  constructor
  · rw [Nlmsg.len, Bytes.le32, hslice 0 4 (by omega), hlen]
  · apply hlaid.copy
    intro o k hok
    exact (hslice (20 + o) k (by omega)).symm

theorem passes_of_readBack (F : Puts) (hfilled : F.Filled) (hroom : 20 + F.attrs.size ≤ x.nl.txbuf.length)
    (h : ReadBack (F.finished x fam cmd ver) (F.message x fam cmd ver).nl.txend F.attrs) :
    Passes F.attrs ∧ F.attrs.Nests Passes ∧ 20 + F.attrs.size < 2 ^ 32 := by
  obtain ⟨-, hend⟩ := F.message_built fam cmd ver hfilled hroom
  rw [hend] at h
  obtain ⟨h24, hchain⟩ := nlGen_iff.mp h.gen
  have hlt := Nlmsg.len_lt (F.finished x fam cmd ver)
  have hlen := h.len
  refine ⟨⟨by omega, ?_⟩, decodes_nests h.attrs (Puts.filled_attrs hfilled), by omega⟩
  apply decodes_level (attrs_steps (by omega)) h.attrs
  intro p hp
  obtain ⟨rfl, -, -⟩ := nlAttr0In_some hp
  exact ⟨by rw [Nlgen.size]; omega, hchain⟩

theorem readBack_of_passes (F : Puts) (hfilled : F.Filled) (hroom : 20 + F.attrs.size ≤ x.nl.txbuf.length) (hpasses : Passes F.attrs)
    (hnests : F.attrs.Nests Passes) (hshort : 20 + F.attrs.size < 2 ^ 32) :
    ReadBack (F.finished x fam cmd ver) (F.message x fam cmd ver).nl.txend F.attrs := by
  obtain ⟨-, hend⟩ := F.message_built fam cmd ver hfilled hroom
  rw [hend]
  obtain ⟨h4, hlevel⟩ := hpasses
  have hne : F ≠ .done := by
    intro hdone
    rw [hdone] at h4
    cases h4
  obtain ⟨hlen, hlaid⟩ := F.finished_laid fam cmd ver hfilled hroom hne
    (level_small hlevel hnests)
  rw [Nat.mod_eq_of_lt hshort] at hlen
  have hover := @attrs_over (F.finished x fam cmd ver) (by omega)
  rw [hlen] at hover
  have hnest (p : ℕ) (G : Attrs) (hG : Passes G) (hin : Laid (F.finished x fam cmd ver) (p + 4) G)
      (hp : attrLen (F.finished x fam cmd ver) p = 4 + G.size) : nlNest (F.finished x fam cmd ver) p = some p := by
    have h4 := hG.1
    exact nlNest_iff.mpr ⟨by omega, Laid.chain hin hG.2 (by omega)⟩
  have hdec : Decodes (F.finished x fam cmd ver) (nestOf (F.finished x fam cmd ver))
      (attrs (F.finished x fam cmd ver)) (attrs (F.finished x fam cmd ver)).first F.attrs := by
    rw [hover.first_eq hlaid rfl]
    apply hlaid.decodes Passes _ hnests hover le_rfl rfl
    intro p G hG hin hp
    rw [nestOf_some (hnest p G hG hin hp)]
    exact subs_over (by omega)
  have hget := found_get (by omega) hdec
  exact {
    len := hlen
    gen := nlGen_iff.mpr ⟨by omega, Laid.chain hlaid hlevel hlen.symm⟩
    attrs := hdec
    get := hget
    nest := by
      intro type G hG
      have hfound := hget type
      rw [hG] at hfound
      obtain ⟨p, hp, -, hcarries⟩ := hfound
      obtain ⟨hlenp, hin⟩ := hcarries
      have hG4 := (hnests.get hG).1.1
      have hnil : G ≠ .nil := by
        intro hnil
        rw [hnil] at hG4
        cases hG4
      have haccepted := (decodes_nest hin hnil hlenp).1
      exact ⟨p, by rw [nlGetNest, hp]; exact haccepted, hlenp, hin⟩
    sub := fun p G hp hG => found_sub hp hG }

/-- A message is read back as it was put, unless there is a lone empty attribute at its
top or in a nest, or something longer than its length field can tell. The buffer has
room for it and may hold anything before. -/
theorem round_trip_iff (F : Puts) (x : Packing) (fam : UInt16) (cmd ver : UInt8) (hfilled : F.Filled)
    (hroom : 20 + F.attrs.size ≤ x.nl.txbuf.length) :
    ReadBack (F.finished x fam cmd ver) (F.message x fam cmd ver).nl.txend F.attrs ↔
      Passes F.attrs ∧ F.attrs.Nests Passes ∧ 20 + F.attrs.size < 2 ^ 32 := by
  constructor
  · exact passes_of_readBack F hfilled hroom
  · intro h
    exact readBack_of_passes F hfilled hroom h.1 h.2.1 h.2.2

namespace Sample

/-- A scan of one frequency, as `start_scan` asks for it. -/
def scanOne : Puts := .put 3 [2, 0, 0, 0] (.nest 44 (.put 0 [0x6C, 9, 0, 0] .done) .done)

/-- The flag at the end of `upload_ptk`. -/
def keyFlag : Puts := .put 3 [2, 0, 0, 0] (.nest 110 (.put 1 [] .done) .done)

def buffer : Packing := { nl := { txbuf := Bytes.zeros 512 } }

theorem buffer_length : buffer.nl.txbuf.length = 512 := List.length_replicate

end Sample

theorem scan_read_back :
    ReadBack (Sample.scanOne.finished Sample.buffer 28 33 0) (Sample.scanOne.message Sample.buffer 28 33 0).nl.txend
        Sample.scanOne.attrs ↔
      Passes Sample.scanOne.attrs ∧ Sample.scanOne.attrs.Nests Passes ∧ 20 + Sample.scanOne.attrs.size < 2 ^ 32 :=
  round_trip_iff Sample.scanOne Sample.buffer 28 33 0 ⟨by decide, trivial, trivial⟩
    (by rw [Sample.buffer_length]; decide)

/-- The flag at the end of a key upload stands alone in its nest. The nest is four bytes
long, which is taken for one without attributes and refused. -/
theorem flag_lost : ¬ ReadBack (Sample.keyFlag.finished Sample.buffer 28 11 0)
      (Sample.keyFlag.message Sample.buffer 28 11 0).nl.txend Sample.keyFlag.attrs ∧
    nlGetNest (Sample.keyFlag.finished Sample.buffer 28 11 0) 110 = none := by
  constructor
  · intro h
    have hpasses := passes_of_readBack Sample.keyFlag ⟨by decide, trivial, trivial⟩
      (by rw [Sample.buffer_length]; decide) h
    exact absurd hpasses.2.1.1.1 (by decide)
  · decide +kernel

end Message

end Wsupp.Nl

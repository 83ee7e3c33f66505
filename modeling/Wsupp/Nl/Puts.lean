import Wsupp.Nl.Attr

/-!
# Messages put together

A message of attributes and nests that fits its buffer, call by call. `Puts` is such
a message as a tree, and its run the calls that put it; `Laid` says that the bytes
from an offset on hold these attributes, one behind the other with their padding.

Nothing is said about the bytes in front of the attributes but the length of the
message, which every put brings up to date. Nests carry their own length, which is
filled in when they are ended. Lengths that do not fit their fields are kept modulo
the size of the field, so the results about reading back name the messages for which
this does not happen.
-/
namespace Wsupp.Nl
open Wire

/-- Puts in order; a nest is ended before what follows it. This is a message as the
source spells it, call by call, with the bytes of each attribute. -/
inductive Puts where
  | done
  | put (type : UInt16) (buf : Bytes) (rest : Puts)
  | nest (type : UInt16) (subs rest : Puts)
deriving DecidableEq

namespace Puts

def attrs : Puts → Attrs
  | done => .nil
  | put type buf rest => .attr type.toNat buf rest.attrs
  | nest type subs rest => .nest type.toNat subs.attrs rest.attrs

/-- The number of calls of `nl_put_nest`. -/
def nests : Puts → ℕ
  | done => 0
  | put _ _ rest => rest.nests
  | nest _ subs rest => subs.nests + rest.nests + 1

/-- The calls, where `nl_put_nest` has been called `n` times before. -/
def calls : ℕ → Puts → List Call
  | _, done => []
  | n, put type buf rest => .put type buf :: rest.calls n
  | n, nest type subs rest =>
      .putNest type :: (subs.calls (n + 1) ++ .endNest n :: rest.calls (n + 1 + subs.nests))

/-- Every nest has at least one attribute. -/
def Filled : Puts → Prop
  | done => True
  | put _ _ rest => rest.Filled
  | nest _ subs rest => subs ≠ done ∧ subs.Filled ∧ rest.Filled

/-- `nl_new_cmd` and the puts. -/
def message (F : Puts) (x : Packing) (fam : UInt16) (cmd ver : UInt8) : Packing :=
  (x.newCmd fam cmd ver).run (F.calls x.nests.length)

/-- The bytes up to the end of the message. -/
def finished (F : Puts) (x : Packing) (fam : UInt16) (cmd ver : UInt8) : Bytes :=
  (F.message x fam cmd ver).nl.txbuf.take (F.message x fam cmd ver).nl.txend

end Puts

/-- A header put at the end, with room for a payload behind it. The bytes in front are
as they were, except for the length of the message. -/
structure Head (nl : Netlink) (type : UInt16) (len : ℕ) (nl' : Netlink) : Prop where
  length : nl'.txbuf.length = nl.txbuf.length
  txend : nl'.txend = nl.txend + align4 (4 + len)
  txover : nl'.txover = false
  len : attrLen nl'.txbuf nl.txend = (4 + len) % 65536
  key : attrKey nl'.txbuf nl.txend = type.toNat
  before : ∀ o k, 4 ≤ o → o + k ≤ nl.txend → nl'.txbuf.slice o k = nl.txbuf.slice o k

section Calls
variable {nl nl' : Netlink} {type : UInt16} {buf : Bytes}

theorem Nlmsg.len_poke {mem : Bytes} (n : ℕ) : Nlmsg.len (mem.poke 0 (Bytes.ofLe 4 n)) = n % 2 ^ 32 := by
  have hin := Bytes.slice_poke (b := Bytes.ofLe 4 n) (Nat.zero_le mem.length)
  rw [Bytes.length_ofLe] at hin
  rw [Nlmsg.len, Bytes.le32, hin, Bytes.leNat_ofLe]
  norm_num

theorem setMsgLen_eq (h : 16 ≤ nl.txend) :
    setMsgLen nl = { nl with txbuf := nl.txbuf.poke 0 (Bytes.ofLe 4 nl.txend) } := by
  unfold setMsgLen nlTxMsg
  rw [Nlmsg.size, if_neg (by omega)]

theorem alloc_head (type : UInt16) (len : ℕ) (hover : nl.txover = false)
    (h : nl.txend + align4 (4 + len) ≤ nl.txbuf.length) :
    ∃ mem, nlAlloc nl (4 + len) = (some nl.txend, { nl with
        txbuf := mem, txend := nl.txend + align4 (4 + len) }) ∧
      Head nl type len { nl with
        txbuf := mem.poke nl.txend (attrHead (4 + len) type.toNat), txend := nl.txend + align4 (4 + len) } := by
  have hle := le_align4 (4 + len)
  have htype : type.toNat < 65536 := type.toNat_lt
  have hzeros : (Bytes.zeros (4 + len)).length = 4 + len := List.length_replicate
  have hmem : (nl.txbuf.poke nl.txend (Bytes.zeros (4 + len))).length = nl.txbuf.length :=
    Bytes.length_poke (by omega)
  refine ⟨_, nlAlloc_fits hover (by omega), ?_⟩
  constructor
  · rw [Bytes.length_poke (by rw [length_attrHead]; omega), hmem]
  · rfl
  · exact hover
  · exact attrLen_poke_head (by omega)
  · rw [attrKey_poke_head (by omega), Nat.mod_eq_of_lt htype]
  · intro o k _ hok
    rw [Bytes.slice_poke_before (by omega) hok, Bytes.slice_poke_before (by omega) hok]

theorem Head.payload {len : ℕ} (h : Head nl type len nl') {b : Bytes} (hb : nl.txend + 4 + b.length ≤ nl.txbuf.length) :
    Head nl type len { nl' with txbuf := nl'.txbuf.poke (nl.txend + 4) b } := by
  have hlen := h.length
  constructor
  · rw [Bytes.length_poke (by omega), hlen]
  · exact h.txend
  · exact h.txover
  · rw [attrLen_poke (by omega) (by omega), h.len]
  · rw [attrKey_poke (by omega) (by omega), h.key]
  · intro o k ho hok
    rw [Bytes.slice_poke_before (by omega) (by omega), h.before o k ho hok]

theorem Head.msgLen {len : ℕ} (h : Head nl type len nl') (hend : 20 ≤ nl.txend)
    (hroom : nl.txend ≤ nl.txbuf.length) : Head nl type len (setMsgLen nl') := by
  have hlen := h.length
  have htxend := h.txend
  have hkey := h.key
  have hlength := h.len
  have hfour (n : ℕ) : (Bytes.ofLe 4 n).length = 4 := Bytes.length_ofLe 4 n
  rw [attrLen, Bytes.le16] at hlength
  rw [attrKey, Bytes.le16] at hkey
  rw [setMsgLen_eq (by omega)]
  constructor
  · rw [Bytes.length_poke (by rw [hfour]; omega), hlen]
  · exact htxend
  · exact h.txover
  · rw [attrLen, Bytes.le16, Bytes.slice_poke_after (by omega) (by rw [hfour]; omega), hlength]
  · rw [attrKey, Bytes.le16, Bytes.slice_poke_after (by omega) (by rw [hfour]; omega), hkey]
  · intro o k ho hok
    rw [Bytes.slice_poke_after (by omega) (by rw [hfour]; omega), h.before o k ho hok]

/-- An attribute that fits is put, with its payload, and the length of the message
is up to date. -/
theorem nlPut_fits (type : UInt16) (buf : Bytes) (hover : nl.txover = false) (hend : 20 ≤ nl.txend)
    (h : nl.txend + align4 (4 + buf.length) ≤ nl.txbuf.length) :
    Head nl type buf.length (nlPut nl type buf) ∧
      (nlPut nl type buf).txbuf.slice (nl.txend + 4) buf.length = buf ∧
      Nlmsg.len (nlPut nl type buf).txbuf = (nlPut nl type buf).txend % 2 ^ 32 := by
  have hle := le_align4 (4 + buf.length)
  obtain ⟨mem, halloc, hhead⟩ := alloc_head type buf.length hover h
  have hlen := hhead.length
  dsimp only at hlen
  have hput := (hhead.payload (b := buf) (by omega)).msgLen hend (by omega)
  rw [nlPut_some halloc]
  refine ⟨hput, ?_, ?_⟩
  · rw [setMsgLen_eq (by dsimp only; omega)]
    dsimp only
    rw [Bytes.slice_poke_after (by omega) (by rw [Bytes.length_ofLe]; omega), Bytes.slice_poke (by omega)]
  · rw [setMsgLen_eq (by dsimp only; omega)]
    exact Nlmsg.len_poke _

theorem nlPutNest_fits (type : UInt16) (hover : nl.txover = false) (h : nl.txend + 4 ≤ nl.txbuf.length) :
    ∃ nl', nlPutNest nl type = (some nl.txend, nl') ∧ Head nl type 0 nl' := by
  obtain ⟨mem, halloc, hhead⟩ := alloc_head type 0 hover h
  exact ⟨_, nlPutNest_some halloc, hhead⟩

end Calls

/-- The calls of `F` have been made, and everything fitted: the attributes lie behind
what was there, and the end and the length of the message are up to date. -/
structure Built (x : Packing) (F : Puts) (x' : Packing) : Prop where
  length : x'.nl.txbuf.length = x.nl.txbuf.length
  txend : x'.nl.txend = x.nl.txend + F.attrs.size
  txover : x'.nl.txover = false
  nests : ∃ l, x'.nests = x.nests ++ l ∧ l.length = F.nests
  before : ∀ o k, 4 ≤ o → o + k ≤ x.nl.txend → x'.nl.txbuf.slice o k = x.nl.txbuf.slice o k
  laid : F.attrs.Small → Laid x'.nl.txbuf x.nl.txend F.attrs
  msgLen : F ≠ .done → Nlmsg.len x'.nl.txbuf = x'.nl.txend % 2 ^ 32

section Runs
variable {x x1 x2 x3 : Packing} {type : UInt16} {buf : Bytes} {subs rest : Puts}

/-- Behind a header, the length of what is there being known. -/
theorem Head.kept {nl nl' : Netlink} {len : ℕ} (h : Head nl type len nl') (hend : 20 ≤ nl.txend)
    (mem : Bytes) (hmem : ∀ o k, 4 ≤ o → o + k ≤ nl.txend + 4 → mem.slice o k = nl'.txbuf.slice o k) :
    attrLen mem nl.txend = (4 + len) % 65536 ∧ attrKey mem nl.txend = type.toNat := by
  have hlen := h.len
  have hkey := h.key
  rw [attrLen, Bytes.le16] at hlen
  rw [attrKey, Bytes.le16] at hkey
  constructor
  · rw [attrLen, Bytes.le16, hmem _ _ (by omega) (by omega), hlen]
  · rw [attrKey, Bytes.le16, hmem _ _ (by omega) (by omega), hkey]

theorem Built.put {nl : Netlink} (hend : 20 ≤ x.nl.txend) (hhead : Head x.nl type buf.length nl)
    (hpay : nl.txbuf.slice (x.nl.txend + 4) buf.length = buf)
    (hlen : Nlmsg.len nl.txbuf = nl.txend % 2 ^ 32)
    (hrest : Built { x with nl := nl } rest x2) (hdone : rest = .done → x2 = { x with nl := nl }) :
    Built x (.put type buf rest) x2 := by
  have hle := le_align4 (4 + buf.length)
  have htxend := hhead.txend
  have htxend2 := hrest.txend
  dsimp only at htxend2
  constructor
  · exact hrest.length.trans hhead.length
  · rw [htxend2, htxend, Puts.attrs, Attrs.size, Nat.add_assoc]
  · exact hrest.txover
  · exact hrest.nests
  · intro o k ho hok
    rw [hrest.before o k ho (by dsimp only; omega), hhead.before o k ho hok]
  · intro hsmall
    obtain ⟨hfull, hsmall⟩ := hsmall
    have hlaid := hrest.laid hsmall
    dsimp only at hlaid
    rw [htxend] at hlaid
    obtain ⟨hl, hk⟩ := hhead.kept hend x2.nl.txbuf
      fun o k ho hok => hrest.before o k ho (by dsimp only; omega)
    rw [Nat.mod_eq_of_lt hfull] at hl
    refine ⟨hl, hk, ?_, hlaid⟩
    rw [hrest.before _ _ (by omega) (by dsimp only; omega), hpay]
  · intro _
    by_cases hnil : rest = .done
    · rw [hdone hnil]
      exact hlen
    · exact hrest.msgLen hnil

/-- A nest that has been ended over what was put since it was started: its header holds
the length of both. -/
structure Ended (x : Packing) (type : UInt16) (subs : Puts) (x' : Packing) : Prop where
  length : x'.nl.txbuf.length = x.nl.txbuf.length
  txend : x'.nl.txend = x.nl.txend + (4 + subs.attrs.size)
  txover : x'.nl.txover = false
  nests : ∃ l, x'.nests = x.nests ++ l ∧ l.length = subs.nests + 1
  before : ∀ o k, 4 ≤ o → o + k ≤ x.nl.txend → x'.nl.txbuf.slice o k = x.nl.txbuf.slice o k
  len : attrLen x'.nl.txbuf x.nl.txend = (4 + subs.attrs.size) % 65536
  key : attrKey x'.nl.txbuf x.nl.txend = type.toNat
  laid : subs.attrs.Small → Laid x'.nl.txbuf (x.nl.txend + 4) subs.attrs
  msgLen : Nlmsg.len x'.nl.txbuf = x'.nl.txend % 2 ^ 32

theorem Puts.size_pos {F : Puts} (h : F ≠ .done) : 4 ≤ F.attrs.size := by
  cases F with
  | done => exact absurd rfl h
  | put type buf rest =>
      have hle := le_align4 (4 + buf.length)
      rw [attrs, Attrs.size]
      omega
  | nest type subs rest =>
      rw [attrs, Attrs.size]
      omega

theorem Built.ended {nl : Netlink} (hend : 20 ≤ x.nl.txend) (hroom : x.nl.txend + (4 + subs.attrs.size) ≤ x.nl.txbuf.length)
    (hne : subs ≠ .done) (hhead : Head x.nl type 0 nl)
    (hsubs : Built { nl := nl, nests := x.nests ++ [some x.nl.txend] } subs x1) :
    Ended x type subs (x1.call (.endNest x.nests.length)) := by
  have h4 := Puts.size_pos hne
  have htxend := hhead.txend
  have halign : align4 (4 + 0) = 4 := rfl
  have htxend1 := hsubs.txend
  have hlength := hhead.length
  have hlength1 := hsubs.length
  obtain ⟨l, hnests, hl⟩ := hsubs.nests
  dsimp only at htxend1 hlength1 hnests
  rw [halign] at htxend
  have hlook : x1.nests.getD x.nests.length none = some x.nl.txend := by
    rw [hnests, List.append_assoc]
    simp
  have hcall : x1.call (.endNest x.nests.length) = { x1 with nl := { x1.nl with
      txbuf := x1.nl.txbuf.poke x.nl.txend (Bytes.ofLe 2 (x1.nl.txend - x.nl.txend)) } } := by
    rw [Packing.call, hlook, nlEndNest_some (by omega)]
  have htwo : (Bytes.ofLe 2 (x1.nl.txend - x.nl.txend)).length = 2 := Bytes.length_ofLe 2 _
  have hbehind (o k : ℕ) (ho : x.nl.txend + 2 ≤ o) :
      (x1.nl.txbuf.poke x.nl.txend (Bytes.ofLe 2 (x1.nl.txend - x.nl.txend))).slice o k =
        x1.nl.txbuf.slice o k :=
    Bytes.slice_poke_after (by omega) (by omega)
  obtain ⟨-, hkey⟩ := hhead.kept hend x1.nl.txbuf
    fun o k ho hok => hsubs.before o k ho (by dsimp only; omega)
  rw [hcall]
  constructor
  · dsimp only
    rw [Bytes.length_poke (by omega), hlength1, hlength]
  · dsimp only
    omega
  · exact hsubs.txover
  · exact ⟨some x.nl.txend :: l, by rw [hnests, List.append_assoc]; rfl, by rw [List.length_cons, hl]⟩
  · intro o k ho hok
    dsimp only
    rw [Bytes.slice_poke_before (by omega) hok, hsubs.before o k ho (by dsimp only; omega),
      hhead.before o k ho hok]
  · dsimp only
    rw [attrLen_poke_len (by omega), show x1.nl.txend - x.nl.txend = 4 + subs.attrs.size by omega]
  · dsimp only
    rw [attrKey_poke_len (by omega), hkey]
  · intro hsmall
    have hlaid := hsubs.laid hsmall
    dsimp only at hlaid ⊢
    rw [htxend] at hlaid
    apply hlaid.copy
    intro o k _
    exact (hbehind _ _ (by omega)).symm
  · have hlen := hsubs.msgLen hne
    rw [Nlmsg.len, Bytes.le32] at hlen ⊢
    dsimp only
    rw [Bytes.slice_poke_before (by omega) (by omega), hlen]

theorem Built.nest (hended : Ended x type subs x2) (hsmall : 20 ≤ x.nl.txend) (hrest : Built x2 rest x3)
    (hdone : rest = .done → x3 = x2) : Built x (.nest type subs rest) x3 := by
  have htxend := hended.txend
  obtain ⟨l, hnests, hl⟩ := hended.nests
  obtain ⟨l', hnests', hl'⟩ := hrest.nests
  have hkeep (o k : ℕ) (ho : 4 ≤ o) (hok : o + k ≤ x.nl.txend + (4 + subs.attrs.size)) :
      x3.nl.txbuf.slice o k = x2.nl.txbuf.slice o k := hrest.before o k ho (by omega)
  constructor
  · rw [hrest.length, hended.length]
  · rw [hrest.txend, htxend, Puts.attrs, Attrs.size]
    omega
  · exact hrest.txover
  · refine ⟨l ++ l', by rw [hnests', hnests, List.append_assoc], ?_⟩
    rw [List.length_append, hl, hl', Puts.nests]
    omega
  · intro o k ho hok
    rw [hkeep o k ho (by omega), hended.before o k ho hok]
  · intro hsmall
    obtain ⟨hfull, hsubs, hrest'⟩ := hsmall
    have hlen := hended.len
    have hkey := hended.key
    have hlaid := hrest.laid hrest'
    rw [htxend] at hlaid
    rw [attrLen, Bytes.le16, Nat.mod_eq_of_lt hfull] at hlen
    rw [attrKey, Bytes.le16] at hkey
    constructor
    · rw [attrLen, Bytes.le16, hkeep _ _ (by omega) (by omega), hlen]
    constructor
    · rw [attrKey, Bytes.le16, hkeep _ _ (by omega) (by omega), hkey]
    constructor
    · apply (hended.laid hsubs).copy
      intro o k hok
      exact (hkeep _ _ (by omega) (by omega)).symm
    · exact hlaid
  · intro _
    by_cases hnil : rest = .done
    · rw [hdone hnil]
      exact hended.msgLen
    · exact hrest.msgLen hnil

theorem Packing.run_cons (x : Packing) (c : Call) (cs : List Call) : x.run (c :: cs) = (x.call c).run cs := rfl

theorem Packing.run_append (x : Packing) (cs cs' : List Call) : x.run (cs ++ cs') = (x.run cs).run cs' :=
  List.foldl_append

theorem Puts.run_done {F : Puts} (h : F = .done) (x : Packing) (n : ℕ) : x.run (F.calls n) = x := by
  rw [h]
  rfl

/-- The induction is on the puts; a nest is a run of its own between two calls. -/
theorem Puts.built (F : Puts) {x : Packing} (hover : x.nl.txover = false) (hend : 20 ≤ x.nl.txend)
    (hroom : x.nl.txend + F.attrs.size ≤ x.nl.txbuf.length) (hfilled : F.Filled) :
    Built x F (x.run (F.calls x.nests.length)) := by
  induction F generalizing x with
  | done => exact ⟨rfl, rfl, hover, ⟨[], by rw [List.append_nil]; rfl, rfl⟩, fun _ _ _ _ => rfl, fun _ => trivial,
      fun h => absurd rfl h⟩
  | put type buf rest ih =>
      rw [attrs, Attrs.size, ← Nat.add_assoc] at hroom
      obtain ⟨hhead, hpay, hlen⟩ := nlPut_fits type buf hover hend (by omega)
      have htxend := hhead.txend
      have hlength := hhead.length
      rw [calls, Packing.run_cons]
      apply Built.put hend hhead hpay hlen
      · apply ih (x := x.call (.put type buf)) hhead.txover _ _ hfilled
        · change 20 ≤ (nlPut x.nl type buf).txend
          omega
        · change (nlPut x.nl type buf).txend + rest.attrs.size ≤ (nlPut x.nl type buf).txbuf.length
          omega
      · exact fun h => run_done h _ _
  | nest type subs rest ihsubs ih =>
      obtain ⟨hne, hfsubs, hfrest⟩ := hfilled
      rw [attrs, Attrs.size] at hroom
      obtain ⟨nl, hput, hhead⟩ := nlPutNest_fits type hover (by omega)
      have htxend := hhead.txend
      have hlength := hhead.length
      have halign : align4 (4 + 0) = 4 := rfl
      have hcall : x.call (.putNest type) = { nl := nl, nests := x.nests ++ [some x.nl.txend] } := by
        rw [Packing.call, hput]
      have hsubs := ihsubs (x := { nl := nl, nests := x.nests ++ [some x.nl.txend] }) hhead.txover
        (by dsimp only; omega) (by dsimp only; omega) hfsubs
      have hended := hsubs.ended hend (by omega) hne hhead
      have htxend' := hended.txend
      have hlength' := hended.length
      obtain ⟨l, hnests, hl⟩ := hended.nests
      rw [calls, Packing.run_cons, hcall, Packing.run_append, Packing.run_cons]
      rw [List.length_append, List.length_singleton] at hsubs hended htxend' hlength' hnests
      have hcount : x.nests.length + 1 + subs.nests = (((({ nl := nl, nests := x.nests ++ [some x.nl.txend] } :
          Packing).run (subs.calls (x.nests.length + 1))).call (.endNest x.nests.length)).nests).length := by
        rw [hnests, List.length_append, hl]
        omega
      rw [hcount]
      apply Built.nest hended hend
      · exact ih hended.txover (by omega) (by omega) hfrest
      · exact fun h => run_done h _ _

end Runs

end Wsupp.Nl

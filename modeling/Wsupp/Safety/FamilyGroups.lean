import Mathlib.Data.List.Forall2
import Mathlib.Data.List.GetD
import Wsupp.Choice.Last
import Wsupp.Nl.Receive
import Wsupp.Safety.NetlinkReads

/-!
# Multicast groups of a family

`query_family_grps` asks for a family and reads the groups out of the reply. An
entry without an id is passed over, but in one without a name `nl_sub_str` follows a
null pointer. Where all entries have names, each group asked for is given the id
that comes last.

The attributes of a nest are those that `nl_sub_0` and `nl_sub_n` come to: an
attribute shorter than its header is the last one. On these the specification is
given, as the last of the entries with the name; the loop of the source goes over
all groups asked for in each entry. The result is exact: the query answers if and
only if every entry that is read has a name.
-/
namespace Wsupp.Nl
open Wire
open Nlusctl (EBADMSG)

def GENL_ID_CTRL : UInt16 := 0x10
def CTRL_CMD_GETFAMILY : UInt8 := 3
def CTRL_ATTR_FAMILY_ID : ℕ := 1
def CTRL_ATTR_FAMILY_NAME : UInt16 := 2
def CTRL_ATTR_MCAST_GROUPS : ℕ := 7

/-- `struct nlpair`, with the characters of the name in front of the NUL. A list of groups ends
at a pair without a name. -/
structure Nlpair where
  id : Int
  name : Bytes
deriving DecidableEq

/-- The characters of a C string. -/
def cstr (mem : Bytes) (p : ℕ) : Bytes := (mem.drop p).takeWhile fun x => x ≠ 0

/-- The loop of `nl_check_zstr`; it ends in memory, or where memory ends. -/
def zstrEnd (mem : Bytes) (buf len : ℕ) : ℕ → ℕ → ℕ
  | 0, i => i
  | n + 1, i => if i < len then if mem.at' (buf + i) = 0 then i else zstrEnd mem buf len n (i + 1) else i

def nlCheckZstr (mem : Bytes) (buf len : ℕ) : Bool :=
  let i := zstrEnd mem buf len (mem.length + 1) 0
  if len ≤ i then false
  else if i < len - 1 then false
  else true

/-- The outer `none` is a null pointer that is followed. -/
def nlStr (msg : Bytes) : Option ℕ → Option (Option ℕ)
  | none => none
  | some p => some (if nlCheckZstr msg (p + Nlattr.size) (atPayloadLen msg p) then some (p + Nlattr.size) else none)

def nlSubStr (msg : Bytes) (p type : ℕ) : Option (Option ℕ) := nlStr msg (nlSub msg p type)

def nlSubU32 (msg : Bytes) (p type : ℕ) : Option ℕ := nlSubOfLen msg p type 4

def nlAttrIsNest (msg : Bytes) (p : ℕ) : Bool := nlCheckNest msg (p + Nlattr.size) (atPayloadLen msg p)

def nlGetOfLen (msg : Bytes) (type len : ℕ) : Option ℕ :=
  (nlGet msg type).bind fun p => if attrLen msg p = Nlattr.size + len then some (p + Nlattr.size) else none

def nlGetU16 (msg : Bytes) (type : ℕ) : Option ℕ := nlGetOfLen msg type 2

def nlPutStr (nl : Netlink) (type : UInt16) (str : Bytes) : Netlink := nlPut nl type (str ++ [0])

/-- Messages as `nl_recv` returns them, each with what lies behind it. -/
def nlRecvSeq (nl : Netlink) : List Bytes → Option Bytes
  | [] => none
  | msg :: msgs =>
      if msg.le32 8 = 0 then nlRecvSeq nl msgs
      else if msg.le32 8 ≠ nl.seq then none
      else some msg

/-- What `sendto` returns is given. -/
def nlSendRecvGenl (nl : Netlink) (rd : Int) (msgs : List Bytes) : Option Bytes :=
  if (nlSend nl rd).1 ≠ 0 then none
  else (nlRecvSeq nl msgs).bind fun msg =>
    if Nlmsg.len msg < Nlgen.size then none
    else if nlGen msg then some msg
    else none

/-- The inner loop of `query_family_grps`. -/
def setGroups (name : Bytes) (id : Int) (grps : List Nlpair) : List Nlpair :=
  grps.map fun mc => if name = mc.name then { mc with id := id } else mc

/-- An entry that is a nest; `none` is a null pointer that is followed. -/
def takeGroup (msg : Bytes) (grps : List Nlpair) (p : ℕ) : Option (List Nlpair) :=
  (nlSubStr msg p 1).map fun name =>
    match name, nlSubU32 msg p 2 with
    | some name, some id => setGroups (cstr msg name) (toInt (msg.le32 id)) grps
    | _, _ => grps

/-- The loop over the groups, from an entry on. There are fewer entries than bytes. -/
def takeGroups (msg : Bytes) (groups : ℕ) : ℕ → Option ℕ → List Nlpair → Option (List Nlpair)
  | _, none, grps => some grps
  | 0, some _, grps => some grps
  | n + 1, some p, grps =>
      if nlAttrIsNest msg p then
        (takeGroup msg grps p).bind (takeGroups msg groups n (nlSubN msg groups p))
      else takeGroups msg groups n (nlSubN msg groups p) grps

def familyRequest (nl : Netlink) (name : Bytes) : Netlink :=
  nlPutStr (nlNewCmd nl GENL_ID_CTRL CTRL_CMD_GETFAMILY 1) CTRL_ATTR_FAMILY_NAME name

/-- The value returned, and the groups; `none` where a null pointer is followed. -/
def queryFamilyGrps (nl : Netlink) (name : Bytes) (grps : List Nlpair) (rd : Int) (msgs : List Bytes) :
    Option (Int × List Nlpair) :=
  match nlSendRecvGenl (familyRequest nl name) rd msgs with
  | none => some (-ENOENT, grps)
  | some gen =>
      match nlGetU16 gen CTRL_ATTR_FAMILY_ID, nlGetNest gen CTRL_ATTR_MCAST_GROUPS with
      | none, _ => some (-EBADMSG, grps)
      | some grpid, none => some (gen.le16 grpid, grps)
      | some grpid, some groups =>
          (takeGroups gen groups (gen.length + 1) (nlSub0 gen groups) grps).map fun grps => (gen.le16 grpid, grps)

/-- The first attribute of a type in a nest. -/
def FirstSub (msg : Bytes) (q type p : ℕ) : Prop :=
  (subs msg q).Visits p ∧ attrKey msg p = type ∧ ∀ p' < p, (subs msg q).Visits p' → attrKey msg p' ≠ type

/-- A nest among the groups of a reply. -/
def GroupEntry (msg : Bytes) (q : ℕ) : Prop :=
  ∃ groups, FirstOf msg groups ∧ attrKey msg groups = CTRL_ATTR_MCAST_GROUPS ∧ LooksNest msg groups ∧
    (subs msg groups).Visits q ∧ LooksNest msg q

/-- The name is a string with its NUL at the end of the payload. -/
def Named (msg : Bytes) (q : ℕ) (name : Bytes) : Prop :=
  ∃ p, FirstSub msg q 1 p ∧ cstr msg (p + Nlattr.size) = name ∧ name.length + 1 = atPayloadLen msg p

def Numbered (msg : Bytes) (q : ℕ) (id : Int) : Prop :=
  ∃ p, FirstSub msg q 2 p ∧ attrLen msg p = Nlattr.size + 4 ∧ id = toInt (msg.le32 (p + Nlattr.size))

/-- A well-formed entry: it has a name and an id, and these are what the query reads of
it. -/
structure Gives (msg : Bytes) (q : ℕ) (name : Bytes) (id : Int) : Prop where
  entry : GroupEntry msg q
  named : Named msg q name
  numbered : Numbered msg q id

/-- A group has the id of the last entry of its name, if there is one, and is left as it
was otherwise. -/
structure Resolved (msg : Bytes) (mc mc' : Nlpair) : Prop where
  name : mc'.name = mc.name
  id : (∃ q, Gives msg q mc.name mc'.id ∧ ∀ q' id', Gives msg q' mc.name id' → q' ≤ q) ∨
    (∀ q id, ¬Gives msg q mc.name id) ∧ mc'.id = mc.id

/-- The family id is returned, and the groups are resolved. -/
def Answers (msg : Bytes) (p : ℕ) (grps : List Nlpair) (r : Option (Int × List Nlpair)) : Prop :=
  ∃ grps', r = some ((msg.le16 (p + Nlattr.size) : Int), grps') ∧ List.Forall₂ (Resolved msg) grps grps'

section Names
variable {msg : Bytes} {q p type : ℕ} {name : Bytes} {id : Int} {mem : Bytes} {buf len n i : ℕ}

theorem cstr_zero (h : mem.at' p = 0) : cstr mem p = [] := by
  cases hd : mem.drop p with
  | nil => rw [cstr, hd, List.takeWhile_nil]
  | cons x t =>
      have hx : mem.at' p = x := by
        rw [Bytes.at', List.getD_eq_getElem?_getD, ← Nat.add_zero p, ← List.getElem?_drop, hd]
        rfl
      rw [cstr, hd, List.takeWhile_cons_of_neg (by simp [← hx, h])]

theorem length_cstr_succ (h : mem.at' p ≠ 0) : (cstr mem p).length = (cstr mem (p + 1)).length + 1 := by
  have hp : p < mem.length := by
    by_contra hpast
    rw [Bytes.at', List.getD_eq_default _ _ (not_lt.mp hpast)] at h
    exact h rfl
  have hx : mem[p] ≠ 0 := by
    rw [Bytes.at', List.getD_eq_getElem _ _ hp] at h
    exact h
  rw [cstr, List.drop_eq_getElem_cons hp, List.takeWhile_cons_of_pos (by simp [hx]), List.length_cons, cstr]

theorem zstrEnd_eq (hn : mem.length < buf + i + n) (hi : i ≤ len) :
    zstrEnd mem buf len n i = min len (i + (cstr mem (buf + i)).length) := by
  induction n generalizing i with
  | zero =>
      have hnil : cstr mem (buf + i) = [] := by rw [cstr, List.drop_eq_nil_of_le (by omega), List.takeWhile_nil]
      rw [zstrEnd, hnil, List.length_nil]
      omega
  | succ n ih =>
      rw [zstrEnd]
      by_cases hlt : i < len
      · rw [if_pos hlt]
        by_cases hzero : mem.at' (buf + i) = 0
        · rw [if_pos hzero, cstr_zero hzero, List.length_nil]
          omega
        · rw [if_neg hzero, ih (by omega) (by omega), length_cstr_succ hzero, Nat.add_assoc buf i 1]
          omega
      · rw [if_neg hlt]
        omega

theorem nlCheckZstr_iff : nlCheckZstr mem buf len = true ↔ (cstr mem buf).length + 1 = len := by
  have hend : zstrEnd mem buf len (mem.length + 1) 0 = min len (0 + (cstr mem (buf + 0)).length) :=
    zstrEnd_eq (by omega) (Nat.zero_le _)
  rw [Nat.zero_add] at hend
  unfold nlCheckZstr
  dsimp only
  rw [hend, Nat.add_zero]
  by_cases hlong : len ≤ min len (cstr mem buf).length
  · rw [if_pos hlong]
    simp
    omega
  rw [if_neg hlong]
  by_cases hshort : min len (cstr mem buf).length < len - 1
  · rw [if_pos hshort]
    simp
    omega
  rw [if_neg hshort]
  simp
  omega

theorem nlAttrIsNest_iff : nlAttrIsNest msg q = true ↔ LooksNest msg q := by
  have hnest : nlNest msg q = if nlAttrIsNest msg q then some q else none := rfl
  rw [LooksNest, ← nlNest_iff, hnest]
  cases nlAttrIsNest msg q <;> simp

theorem nlSub_iff (h : LooksNest msg q) : nlSub msg q type = some p ↔ FirstSub msg q type p := by
  have hsearch : nlSub msg q type =
      (subs msg q).search (fun p => attrKey msg p = type) (msg.length + 1) (subs msg q).first := rfl
  rw [hsearch, h.first, h.climbs.search_iff _ (by omega) (by omega), FirstSub, Reader.visits_of_first h.first,
    decide_eq_true_iff]
  simp only [decide_eq_false_iff_not, Reader.visits_of_first h.first, ne_eq]

/-- A search fails only where no attribute is of the type. -/
theorem nlSub_ne_none (h : LooksNest msg q) :
    nlSub msg q type ≠ none ↔ ∃ p, (subs msg q).Visits p ∧ attrKey msg p = type := by
  rw [Option.ne_none_iff_exists']
  constructor
  · intro hfound
    obtain ⟨p, hp⟩ := hfound
    obtain ⟨hvisited, hkey, -⟩ := (nlSub_iff h).mp hp
    exact ⟨p, hvisited, hkey⟩
  · intro hex
    classical
    obtain ⟨hvisited, hkey⟩ := Nat.find_spec hex
    have hfirst (p' : ℕ) (hp' : p' < Nat.find hex) (hvisited' : (subs msg q).Visits p') : attrKey msg p' ≠ type :=
      fun hkey' => Nat.find_min hex hp' ⟨hvisited', hkey'⟩
    exact ⟨Nat.find hex, (nlSub_iff h).mpr ⟨hvisited, hkey, hfirst⟩⟩

/-- The id that an entry has for a name. -/
def idFor (msg name : Bytes) (q : ℕ) : Option Int :=
  (nlSub msg q 1).bind fun p =>
    if cstr msg (p + Nlattr.size) = name ∧ name.length + 1 = atPayloadLen msg p then
      (nlSubU32 msg q 2).map fun id => toInt (msg.le32 id)
    else none

theorem numbered_iff (h : LooksNest msg q) :
    ((nlSubU32 msg q 2).map fun id => toInt (msg.le32 id)) = some id ↔ Numbered msg q id := by
  rw [Option.map_eq_some_iff]
  unfold nlSubU32 nlSubOfLen
  constructor
  · intro hvalue
    obtain ⟨start, hstart, rfl⟩ := hvalue
    obtain ⟨p, hp, hlen⟩ := Option.bind_eq_some_iff.mp hstart
    split at hlen
    next hfour =>
      cases hlen
      exact ⟨p, (nlSub_iff h).mp hp, hfour, rfl⟩
    next => cases hlen
  · intro hnumbered
    obtain ⟨p, hfirst, hfour, heq⟩ := hnumbered
    rw [heq]
    refine ⟨p + Nlattr.size, ?_, rfl⟩
    rw [(nlSub_iff h).mpr hfirst, Option.bind_some, if_pos hfour]

theorem idFor_iff (h : LooksNest msg q) : idFor msg name q = some id ↔ Named msg q name ∧ Numbered msg q id := by
  unfold idFor
  rw [Option.bind_eq_some_iff]
  constructor
  · intro hvalue
    obtain ⟨p, hp, hvalue⟩ := hvalue
    split at hvalue
    next hstring => exact ⟨⟨p, (nlSub_iff h).mp hp, hstring⟩, (numbered_iff h).mp hvalue⟩
    next => cases hvalue
  · intro hboth
    obtain ⟨⟨p, hfirst, hstring⟩, hnumbered⟩ := hboth
    refine ⟨p, (nlSub_iff h).mpr hfirst, ?_⟩
    rw [if_pos hstring]
    exact (numbered_iff h).mpr hnumbered

/-- Only a string with its NUL at the end is a name. -/
theorem idFor_of_sub (hp : nlSub msg q 1 = some p) (name : Bytes) : idFor msg name q =
    if nlCheckZstr msg (p + Nlattr.size) (atPayloadLen msg p) ∧ cstr msg (p + Nlattr.size) = name then
      (nlSubU32 msg q 2).map fun id => toInt (msg.le32 id)
    else none := by
  have hsame : (cstr msg (p + Nlattr.size) = name ∧ name.length + 1 = atPayloadLen msg p) ↔
      (nlCheckZstr msg (p + Nlattr.size) (atPayloadLen msg p) ∧ cstr msg (p + Nlattr.size) = name) := by
    rw [nlCheckZstr_iff]
    constructor
    · intro h
      obtain ⟨hname, hlength⟩ := h
      rw [hname]
      exact ⟨hlength, rfl⟩
    · intro h
      obtain ⟨hlength, hname⟩ := h
      rw [hname] at hlength
      exact ⟨hname, hlength⟩
  rw [idFor, hp, Option.bind_some]
  exact if_congr hsame rfl rfl

theorem takeGroup_none {grps : List Nlpair} (h : nlSub msg q 1 = none) : takeGroup msg grps q = none := by
  rw [takeGroup, nlSubStr, h]
  rfl

theorem takeGroup_some {grps : List Nlpair} (h : nlSub msg q 1 ≠ none) :
    takeGroup msg grps q = some (grps.map fun mc => { mc with id := (idFor msg mc.name q).getD mc.id }) := by
  obtain ⟨p, hp⟩ := Option.ne_none_iff_exists'.mp h
  have hfor := idFor_of_sub hp
  rw [takeGroup, nlSubStr, hp, nlStr, Option.map_some]
  apply congrArg some
  by_cases hstring : nlCheckZstr msg (p + Nlattr.size) (atPayloadLen msg p) = true
  · rw [if_pos hstring]
    cases hid : nlSubU32 msg q 2 with
    | none =>
        have hnone (name : Bytes) : idFor msg name q = none := by rw [hfor, hid, Option.map_none, ite_self]
        simp only [hnone, Option.getD_none, List.map_id']
    | some id =>
        apply List.map_congr_left
        intro mc _
        by_cases hname : cstr msg (p + Nlattr.size) = mc.name
        · rw [if_pos hname, hfor, if_pos ⟨hstring, hname⟩, hid, Option.map_some, Option.getD_some]
        · rw [if_neg hname, hfor, if_neg fun hboth => hname hboth.2, Option.getD_none]
  · rw [if_neg hstring]
    have hnone (name : Bytes) : idFor msg name q = none := by rw [hfor, if_neg fun hboth => hstring hboth.1]
    simp only [hnone, Option.getD_none, List.map_id']

theorem takeGroups_eq (msg : Bytes) (groups n : ℕ) (o : Option ℕ) (grps : List Nlpair) :
    takeGroups msg groups n o grps =
      ((subs msg groups).collect (nlAttrIsNest msg) n o).foldlM (takeGroup msg) grps := by
  induction n generalizing o grps with
  | zero => cases o <;> rfl
  | succ n ih =>
      cases o with
      | none => rfl
      | some p =>
          rw [takeGroups, Reader.collect]
          have hnext : nlSubN msg groups p = (subs msg groups).next p := rfl
          by_cases hp : nlAttrIsNest msg p = true
          · rw [if_pos hp, if_pos hp, List.foldlM_cons]
            cases hgroup : takeGroup msg grps p with
            | none => rfl
            | some grps' => exact ih (nlSubN msg groups p) grps'
          · rw [if_neg hp, if_neg hp, ih, hnext]

/-- What the entries make of one group. -/
def settle (msg : Bytes) (l : List ℕ) (mc : Nlpair) : Nlpair :=
  { mc with id := Choice.last (idFor msg mc.name) l mc.id }

theorem foldlM_takeGroup {l : List ℕ} (h : ∀ p ∈ l, nlSub msg p 1 ≠ none) (grps : List Nlpair) :
    l.foldlM (takeGroup msg) grps = some (grps.map (settle msg l)) := by
  induction l generalizing grps with
  | nil => exact congrArg some (grps.map_id).symm
  | cons p l ih =>
      obtain ⟨hp, hl⟩ := List.forall_mem_cons.mp h
      rw [List.foldlM_cons, takeGroup_some hp, Option.bind_eq_bind, Option.bind_some, ih hl, List.map_map]
      rfl

theorem foldlM_takeGroup_none {l : List ℕ} (h : ∃ p ∈ l, nlSub msg p 1 = none) (grps : List Nlpair) :
    l.foldlM (takeGroup msg) grps = none := by
  induction l generalizing grps with
  | nil =>
      obtain ⟨p, hp, -⟩ := h
      cases hp
  | cons p l ih =>
      rw [List.foldlM_cons]
      by_cases hp : nlSub msg p 1 = none
      · rw [takeGroup_none hp]
        rfl
      · have hl : ∃ p ∈ l, nlSub msg p 1 = none := by
          obtain ⟨p', hmem, hnone⟩ := h
          cases List.mem_cons.mp hmem with
          | inl heq => exact absurd (heq ▸ hnone) hp
          | inr hmem => exact ⟨p', hmem, hnone⟩
        rw [takeGroup_some hp]
        exact ih hl _

end Names

section Answer
variable {msg : Bytes} {groups : ℕ}

theorem groupEntry_iff (h : nlGen msg = true) (hgroups : nlGetNest msg CTRL_ATTR_MCAST_GROUPS = some groups) (q : ℕ) :
    GroupEntry msg q ↔ (subs msg groups).Visits q ∧ LooksNest msg q := by
  obtain ⟨hfirst, hkey, hnest⟩ := (nlGetNest_iff h _).mp hgroups
  constructor
  · intro hentry
    obtain ⟨groups', hfirst', hkey', hnest', hq⟩ := hentry
    have hsame := (nlGetNest_iff h _).mpr ⟨hfirst', hkey', hnest'⟩
    rw [hgroups] at hsame
    cases hsame
    exact hq
  · exact fun hq => ⟨groups, hfirst, hkey, hnest, hq⟩

theorem GroupEntry.nest {q : ℕ} (h : GroupEntry msg q) : LooksNest msg q := by
  obtain ⟨groups', -, -, -, -, hnest⟩ := h
  exact hnest

theorem gives_iff {q : ℕ} {name : Bytes} {id : Int} (h : GroupEntry msg q) :
    Gives msg q name id ↔ idFor msg name q = some id := by
  rw [idFor_iff h.nest]
  constructor
  · exact fun hgives => ⟨hgives.named, hgives.numbered⟩
  · exact fun hboth => ⟨h, hboth.1, hboth.2⟩

/-- All entries, in their order, make of a group what is meant. -/
theorem settle_resolved {l : List ℕ} (hsorted : l.Pairwise (· < ·)) (hl : ∀ q, q ∈ l ↔ GroupEntry msg q) (mc : Nlpair) :
    Resolved msg mc (settle msg l mc) := by
  constructor
  · rfl
  cases Choice.last_spec (f := idFor msg mc.name) hsorted mc.id with
  | inl hfound =>
      obtain ⟨q, hq, hvalue, hlatest⟩ := hfound
      refine .inl ⟨q, (gives_iff ((hl q).mp hq)).mpr hvalue, ?_⟩
      intro q' id' hgives
      have hvalue' := (gives_iff hgives.entry).mp hgives
      exact hlatest q' ((hl q').mpr hgives.entry) (Option.ne_none_iff_exists'.mpr ⟨id', hvalue'⟩)
  | inr hnothing =>
      obtain ⟨hnone, hsame⟩ := hnothing
      refine .inr ⟨?_, hsame⟩
      intro q id hgives
      have hvalue := (gives_iff hgives.entry).mp hgives
      rw [hnone q ((hl q).mpr hgives.entry)] at hvalue
      cases hvalue

theorem takeGroups_resolved (h : nlGen msg = true) (hgroups : nlGetNest msg CTRL_ATTR_MCAST_GROUPS = some groups)
    (grps : List Nlpair) :
    ((∀ q, GroupEntry msg q → nlSub msg q 1 ≠ none) → ∃ grps',
      takeGroups msg groups (msg.length + 1) (nlSub0 msg groups) grps = some grps' ∧
        List.Forall₂ (Resolved msg) grps grps') ∧
    ((∃ q, GroupEntry msg q ∧ nlSub msg q 1 = none) →
      takeGroups msg groups (msg.length + 1) (nlSub0 msg groups) grps = none) := by
  obtain ⟨-, -, hnest⟩ := (nlGetNest_iff h _).mp hgroups
  have hfirst : nlSub0 msg groups = some (groups + 4) := hnest.first
  obtain ⟨hsorted, -⟩ := hnest.climbs.sorted_collect (nlAttrIsNest msg) (msg.length + 1) (some (groups + 4))
  have hl (q : ℕ) : q ∈ (subs msg groups).collect (nlAttrIsNest msg) (msg.length + 1) (some (groups + 4)) ↔
      GroupEntry msg q := by
    rw [hnest.climbs.mem_collect _ (by omega) (by omega), groupEntry_iff h hgroups,
      Reader.visits_of_first hnest.first, nlAttrIsNest_iff]
  rw [takeGroups_eq, hfirst]
  constructor
  · intro hnames
    refine ⟨_, foldlM_takeGroup (fun q hq => hnames q ((hl q).mp hq)) grps, ?_⟩
    rw [List.forall₂_map_right_iff, List.forall₂_same]
    exact fun mc _ => settle_resolved hsorted hl mc
  · intro hmissing
    obtain ⟨q, hq, hnone⟩ := hmissing
    exact foldlM_takeGroup_none ⟨q, (hl q).mpr hq, hnone⟩ grps

theorem nlSendRecvGenl_gen {nl : Netlink} {rd : Int} {msgs : List Bytes} (h : nlSendRecvGenl nl rd msgs = some msg) :
    nlGen msg = true := by
  unfold nlSendRecvGenl at h
  split at h
  · cases h
  obtain ⟨msg', -, h⟩ := Option.bind_eq_some_iff.mp h
  split at h
  · cases h
  split at h
  next hgen =>
    cases h
    exact hgen
  · cases h

end Answer

/-- The query gives its answer exactly when each entry that is a nest has a name to be
read, well-formed or not: an attribute of type 1. Otherwise a null pointer is followed.
The answer gives each group the last id that comes with its name. -/
theorem query_family_grps_iff {nl : Netlink} {name msg : Bytes} {rd : Int} {msgs : List Bytes}
    (hreply : nlSendRecvGenl (familyRequest nl name) rd msgs = some msg) {p : ℕ}
    (hid : FirstOf msg p ∧ attrKey msg p = CTRL_ATTR_FAMILY_ID ∧ attrLen msg p = Nlattr.size + 2)
    (grps : List Nlpair) :
    Answers msg p grps (queryFamilyGrps nl name grps rd msgs) ↔
      ∀ q, GroupEntry msg q → ∃ a, (subs msg q).Visits a ∧ attrKey msg a = 1 := by
  have hgen := nlSendRecvGenl_gen hreply
  have hfamily : nlGetU16 msg CTRL_ATTR_FAMILY_ID = some (p + Nlattr.size) := by
    rw [nlGetU16, nlGetOfLen, (nlGet_iff hgen _).mpr ⟨hid.1, hid.2.1⟩, Option.bind_some, if_pos hid.2.2]
  have hnames (q : ℕ) (hq : GroupEntry msg q) :
      nlSub msg q 1 ≠ none ↔ ∃ a, (subs msg q).Visits a ∧ attrKey msg a = 1 := nlSub_ne_none hq.nest
  cases hgroups : nlGetNest msg CTRL_ATTR_MCAST_GROUPS with
  | none =>
      have hnone (q : ℕ) : ¬GroupEntry msg q := by
        intro hq
        obtain ⟨groups, hfirst, hkey, hnest, -⟩ := hq
        have hfound := (nlGetNest_iff hgen _).mpr ⟨hfirst, hkey, hnest⟩
        rw [hgroups] at hfound
        cases hfound
      have hrun : queryFamilyGrps nl name grps rd msgs = some ((msg.le16 (p + Nlattr.size) : Int), grps) := by
        rw [queryFamilyGrps, hreply]
        dsimp only
        rw [hfamily, hgroups]
      rw [hrun]
      constructor
      · intro _ q hq
        exact absurd hq (hnone q)
      · intro _
        refine ⟨grps, rfl, List.forall₂_same.mpr fun mc _ => ⟨rfl, .inr ⟨?_, rfl⟩⟩⟩
        exact fun q id hgives => hnone q hgives.entry
  | some groups =>
      obtain ⟨hanswers, hcrash⟩ := takeGroups_resolved hgen hgroups grps
      have hrun : queryFamilyGrps nl name grps rd msgs =
          (takeGroups msg groups (msg.length + 1) (nlSub0 msg groups) grps).map fun grps =>
            ((msg.le16 (p + Nlattr.size) : Int), grps) := by
        rw [queryFamilyGrps, hreply]
        dsimp only
        rw [hfamily, hgroups]
      rw [hrun]
      constructor
      · intro hanswered q hq
        rw [← hnames q hq]
        intro hnone
        obtain ⟨grps', hsome, -⟩ := hanswered
        rw [hcrash ⟨q, hq, hnone⟩] at hsome
        cases hsome
      · intro hnamed
        obtain ⟨grps', hsome, hresolved⟩ := hanswers fun q hq => (hnames q hq).mpr (hnamed q hq)
        exact ⟨grps', by rw [hsome]; rfl, hresolved⟩

namespace Sample

def nlattr (type : ℕ) (payload : Bytes) : Bytes :=
  attrHead (4 + payload.length) type ++ payload ++ Bytes.zeros (align4 payload.length - payload.length)

def mlme : Bytes := [109, 108, 109, 101]

def scan : Bytes := [115, 99, 97, 110]

def nl80211 : Bytes := [110, 108, 56, 48, 50, 49, 49]

/-- A family with the id 28, and groups. -/
def family (groups : List Bytes) : Bytes :=
  let body := nlattr 1 [28, 0] ++ nlattr 7 groups.flatten
  Bytes.ofLe 4 (20 + body.length) ++ [16, 0, 0, 0, 1, 0, 0, 0, 0, 0, 0, 0, 1, 2, 0, 0] ++ body

def socket : Netlink := { txbuf := Bytes.zeros 40 }

def wanted : List Nlpair := [⟨-1, mlme⟩, ⟨-1, scan⟩]

/-- One group twice, and another without an id. -/
def repeated : Bytes := family [nlattr 1 (nlattr 1 (mlme ++ [0]) ++ nlattr 2 [5, 0, 0, 0]),
  nlattr 2 (nlattr 1 (scan ++ [0])), nlattr 3 (nlattr 2 [6, 0, 0, 0] ++ nlattr 1 (mlme ++ [0]))]

def nameless : Bytes := family [nlattr 1 (nlattr 2 [5, 0, 0, 0])]

end Sample

theorem repeated_answered :
    queryFamilyGrps Sample.socket Sample.nl80211 Sample.wanted 32 [Sample.repeated] =
      some (28, [⟨6, Sample.mlme⟩, ⟨-1, Sample.scan⟩]) ∧
    (Answers Sample.repeated 20 Sample.wanted
        (queryFamilyGrps Sample.socket Sample.nl80211 Sample.wanted 32 [Sample.repeated]) ↔
      ∀ q, GroupEntry Sample.repeated q →
        ∃ a, (subs Sample.repeated q).Visits a ∧ attrKey Sample.repeated a = 1) := by
  have hreply : nlSendRecvGenl (familyRequest Sample.socket Sample.nl80211) 32 [Sample.repeated] =
      some Sample.repeated := by decide +kernel
  have hgen : nlGen Sample.repeated = true := by decide +kernel
  have hget : nlGet Sample.repeated CTRL_ATTR_FAMILY_ID = some 20 := by decide +kernel
  obtain ⟨hfirst, hkey⟩ := (nlGet_iff hgen _).mp hget
  constructor
  · decide +kernel
  · exact query_family_grps_iff hreply ⟨hfirst, hkey, by decide +kernel⟩ Sample.wanted

/-- The only entry of an accepted reply has an id, but no name. -/
theorem nameless_not_answered :
    nlSendRecvGenl (familyRequest Sample.socket Sample.nl80211) 32 [Sample.nameless] = some Sample.nameless ∧
    nlGetU16 Sample.nameless CTRL_ATTR_FAMILY_ID = some 24 ∧
    queryFamilyGrps Sample.socket Sample.nl80211 Sample.wanted 32 [Sample.nameless] = none ∧
    ¬Answers Sample.nameless 20 Sample.wanted
      (queryFamilyGrps Sample.socket Sample.nl80211 Sample.wanted 32 [Sample.nameless]) := by
  have hcrash : queryFamilyGrps Sample.socket Sample.nl80211 Sample.wanted 32 [Sample.nameless] = none := by
    decide +kernel
  refine ⟨by decide +kernel, by decide +kernel, hcrash, ?_⟩
  intro hanswers
  obtain ⟨grps', hsome, -⟩ := hanswers
  rw [hcrash] at hsome
  cases hsome

end Wsupp.Nl

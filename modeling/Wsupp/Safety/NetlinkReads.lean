import Wsupp.Nl.Attr

/-!
# Attributes of accepted messages

Two walks over the same bytes: `nl_check_nest` accepts a message, and the loops of
`nl_attr_0_in` and `nl_attr_n_in` read it. They part at attributes shorter than
their own header: the check steps over one, the loop returns it and stops behind it.

So what is accepted need not be sound. The result is exact: of a message that has
been accepted all attributes are read inside, at its top and in the nests of a scan
result, if and only if none of them is shorter than its header. An attribute of two
bytes is enough to have four read of a buffer that ends before.
-/
namespace Wsupp.Nl
open Wire

def ATTR_BSS : ℕ := 47
def BSS_BSSID : ℕ := 1
def BSS_INFORMATION_ELEMENTS : ℕ := 6

def nlSubOfLen (msg : Bytes) (p type len : ℕ) : Option ℕ :=
  (nlSub msg p type).bind fun ak =>
    if attrLen msg ak = Nlattr.size + len then some (ak + Nlattr.size) else none

/-- What `parse_scan_result`, if there is a slot for the station, hands over to
`parse_station_ies`: where the elements begin, and their length as a `uint`. -/
def scanIes (msg : Bytes) : Option (ℕ × ℕ) :=
  (nlGetNest msg ATTR_BSS).bind fun bss =>
    (nlSubOfLen msg bss BSS_BSSID 6).bind fun _ =>
      (nlSub msg bss BSS_INFORMATION_ELEMENTS).map fun ies =>
        (ies + Nlattr.size, (nlAttrLen msg ies % 2 ^ 32).toNat)

/-- A whole attribute, and inside the message. -/
structure Inside (msg : Bytes) (p : ℕ) : Prop where
  header : Nlattr.size ≤ attrLen msg p
  fits : p + attrLen msg p ≤ Nlmsg.len msg
  payload : 0 ≤ nlAttrLen msg p

/-- Whatever the readers return is inside the message, also those of a nest in it, and
their loops end. -/
structure ReadsInside (msg : Bytes) : Prop where
  get : ∀ type p, nlGet msg type = some p → Inside msg p
  sub : ∀ type p, nlGetNest msg type = some p → ∀ key q, nlSub msg p key = some q → Inside msg q
  sub0 : ∀ type p, nlGetNest msg type = some p → ∀ q, nlSub0 msg p = some q → Inside msg q
  subN : ∀ type p, nlGetNest msg type = some p →
    ∀ cur q, (subs msg p).Visits cur → nlSubN msg p cur = some q → Inside msg q
  ies : ∀ p len, scanIes msg = some (p, len) → p + len ≤ Nlmsg.len msg
  getEnds : (attrs msg).Ends
  subEnds : ∀ type p, nlGetNest msg type = some p → (subs msg p).Ends

/-- Padded lengths other than zero lead from one attribute to another in front of
the end. -/
inductive Follows (mem : Bytes) (stop : ℕ) : ℕ → ℕ → Prop where
  | here {p : ℕ} (hp : p < stop) : Follows mem stop p p
  | step {p q : ℕ} (h0 : attrLen mem p ≠ 0) (rest : Follows mem stop (p + align4 (attrLen mem p)) q) :
      Follows mem stop p q

/-- No attribute in front is of this type, or shorter than its header. -/
def FirstOf (msg : Bytes) (p : ℕ) : Prop :=
  Follows msg (Nlmsg.len msg) 20 p ∧
    ∀ q < p, Follows msg (Nlmsg.len msg) 20 q → 4 ≤ attrLen msg q ∧ attrKey msg q ≠ attrKey msg p

/-- The payload is made up of attributes. -/
def LooksNest (msg : Bytes) (p : ℕ) : Prop := 8 < attrLen msg p ∧ Chain msg (p + attrLen msg p) (p + 4)

/-- The first attribute of each type is no shorter than its header, nor is any
attribute in it. -/
def Sound (msg : Bytes) : Prop :=
  ∀ p, FirstOf msg p → 4 ≤ attrLen msg p ∧
    (LooksNest msg p → ∀ q, Follows msg (p + attrLen msg p) (p + 4) q → 4 ≤ attrLen msg q)

section Walks
variable {mem : Bytes} {stop buf len p q : ℕ}

theorem Follows.le (h : Follows mem stop p q) : p ≤ q := by
  induction h with
  | here hp => exact le_rfl
  | step _ _ ih => omega

theorem Follows.lt_stop (h : Follows mem stop p q) : q < stop := by
  induction h with
  | here hp => exact hp
  | step _ _ ih => exact ih

/-- Every attribute of a chain ends in front of its end. -/
theorem Chain.fits (hc : Chain mem stop p) (h : Follows mem stop p q) : q + attrLen mem q ≤ stop := by
  induction h with
  | here hp =>
      cases hc with
      | done => omega
      | step _ _ _ rest => exact (Nat.add_le_add_left (le_align4 _) _).trans rest.le
  | step h0 rest ih =>
      cases hc with
      | done =>
          have hle := rest.le
          have hlt := rest.lt_stop
          omega
      | step _ _ _ hrest => exact ih hrest

theorem attrsIn_climbs (mem : Bytes) (buf : ℕ) (hlen : len < 2 ^ 63) :
    (attrsIn mem buf len).Climbs mem.length := by
  intro p q h
  obtain ⟨hq, h4, -, -⟩ := nlAttrNIn_some hlen h
  have hpad := le_align4 (attrLen mem p)
  constructor
  · omega
  · by_contra hpast
    rw [attrLen, Bytes.le16, Bytes.slice, List.drop_eq_nil_of_le (by omega)] at h4
    cases h4

/-- The loop goes the way of the check as far as no attribute is too short. -/
theorem leads_iff (hlen : len < 2 ^ 63) (hp : buf ≤ p) (hstop : p < buf + len) :
    (attrsIn mem buf len).Leads p q ↔
      Follows mem (buf + len) p q ∧ ∀ q' < q, Follows mem (buf + len) p q' → 4 ≤ attrLen mem q' := by
  constructor
  · intro h
    induction h with
    | here p =>
        refine ⟨.here hstop, fun q' hq' h => ?_⟩
        have hle := h.le
        omega
    | step hnext _ ih =>
        obtain ⟨hp', h4, -, hlt⟩ := nlAttrNIn_some hlen hnext
        obtain ⟨hfollows, hlong⟩ := ih (by omega) hlt
        subst hp'
        refine ⟨.step (by omega) hfollows, fun q' hq' h => ?_⟩
        cases h with
        | here _ => exact h4
        | step _ rest => exact hlong q' hq' rest
  · intro h
    obtain ⟨hfollows, hlong⟩ := h
    induction hfollows with
    | here _ => exact .here _
    | step h0 rest ih =>
        have hle := rest.le
        have hlt := rest.lt_stop
        have hpad := four_le_align4 h0
        have h4 := hlong _ (by omega) (.here hstop)
        have hnext := (nlAttrNIn_iff hlen).mpr ⟨rfl, h4, hp, by omega⟩
        exact .step hnext (ih (by omega) (by omega) fun q' hq' h => hlong q' hq' (.step h0 h))

theorem nlAttr0In_chain (h4 : 4 < len) (hc : Chain mem (buf + len) buf) : nlAttr0In mem buf len = some buf := by
  have hfits := hc.fits (.here (by omega))
  unfold nlAttr0In
  rw [Nlattr.size, if_neg (by omega), if_neg (by omega)]

theorem visits_chain (hlen : len < 2 ^ 63) (h4 : 4 < len) (hc : Chain mem (buf + len) buf) :
    (attrsIn mem buf len).Visits q ↔
      Follows mem (buf + len) buf q ∧ ∀ q' < q, Follows mem (buf + len) buf q' → 4 ≤ attrLen mem q' := by
  rw [Reader.visits_iff, ← leads_iff hlen le_rfl (by omega)]
  constructor
  · intro h
    obtain ⟨p, hp, hleads⟩ := h
    obtain ⟨rfl, -, -⟩ := nlAttr0In_some hp
    exact hleads
  · exact fun h => ⟨buf, nlAttr0In_chain h4 hc, h⟩

/-- A search finds the first attribute of its type, up to one too short. -/
theorem nlAttrKIn_chain (hlen : len < 2 ^ 63) (h4 : 4 < len) (hc : Chain mem (buf + len) buf) (type : ℕ) :
    nlAttrKIn mem buf len type = some q ↔ Follows mem (buf + len) buf q ∧ attrKey mem q = type ∧
      ∀ q' < q, Follows mem (buf + len) buf q' → 4 ≤ attrLen mem q' ∧ attrKey mem q' ≠ type := by
  unfold nlAttrKIn
  rw [nlAttr0In_chain h4 hc, (attrsIn_climbs mem buf hlen).search_iff _ (by omega) (by omega),
    leads_iff hlen le_rfl (by omega), decide_eq_true_iff]
  constructor
  · intro h
    obtain ⟨⟨hfollows, hlong⟩, hkey, hfirst⟩ := h
    refine ⟨hfollows, hkey, fun q' hq' h => ⟨hlong q' hq' h, ?_⟩⟩
    have hleads := (leads_iff hlen le_rfl (by omega)).mpr
      ⟨h, fun q'' hq'' h' => hlong q'' (hq''.trans hq') h'⟩
    exact of_decide_eq_false (hfirst q' hq' hleads)
  · intro h
    obtain ⟨hfollows, hkey, hfirst⟩ := h
    refine ⟨⟨hfollows, fun q' hq' h => (hfirst q' hq' h).1⟩, hkey, fun q' hq' hleads => ?_⟩
    have hq := ((leads_iff hlen le_rfl (by omega)).mp hleads).1
    exact decide_eq_false (hfirst q' hq' hq).2

end Walks

section Messages
variable {msg : Bytes} {p q : ℕ}

theorem nlGet_iff (h : nlGen msg = true) (type : ℕ) :
    nlGet msg type = some p ↔ FirstOf msg p ∧ attrKey msg p = type := by
  obtain ⟨h24, hc⟩ := nlGen_iff.mp h
  have hlt := Nlmsg.len_lt msg
  have hstop : 20 + (Nlmsg.len msg - 20) = Nlmsg.len msg := by omega
  have hiff := nlAttrKIn_chain (q := p) (show Nlmsg.len msg - 20 < 2 ^ 63 by omega) (by omega) (hstop ▸ hc) type
  rw [hstop] at hiff
  rw [nlGet, nlPayloadLen_eq (by omega), Nlgen.size, hiff, FirstOf]
  constructor
  · intro h
    obtain ⟨hfollows, rfl, hfirst⟩ := h
    exact ⟨⟨hfollows, hfirst⟩, rfl⟩
  · intro h
    obtain ⟨⟨hfollows, hfirst⟩, rfl⟩ := h
    exact ⟨hfollows, rfl, hfirst⟩

theorem nlGetNest_iff (h : nlGen msg = true) (type : ℕ) :
    nlGetNest msg type = some p ↔ FirstOf msg p ∧ attrKey msg p = type ∧ LooksNest msg p := by
  unfold nlGetNest
  rw [Option.bind_eq_some_iff]
  constructor
  · intro h'
    obtain ⟨p', hp', hnest⟩ := h'
    have heq : p' = p := by
      unfold nlNest at hnest
      split at hnest
      · exact Option.some.inj hnest
      · cases hnest
    subst heq
    obtain ⟨hfirst, hkey⟩ := (nlGet_iff h type).mp hp'
    exact ⟨hfirst, hkey, nlNest_iff.mp hnest⟩
  · intro h'
    obtain ⟨hfirst, hkey, hnest⟩ := h'
    exact ⟨p, (nlGet_iff h type).mpr ⟨hfirst, hkey⟩, nlNest_iff.mpr hnest⟩

/-- The loop over a nest goes the way of the check as well. -/
theorem subs_visits_iff (h : LooksNest msg p) : (subs msg p).Visits q ↔
    Follows msg (p + attrLen msg p) (p + 4) q ∧
      ∀ q' < q, Follows msg (p + attrLen msg p) (p + 4) q' → 4 ≤ attrLen msg q' := by
  obtain ⟨h8, hc⟩ := h
  have hlt := attrLen_lt msg p
  have hstop : p + 4 + (attrLen msg p - 4) = p + attrLen msg p := by omega
  have hiff := visits_chain (q := q) (show attrLen msg p - 4 < 2 ^ 63 by omega) (by omega) (hstop ▸ hc)
  rw [hstop] at hiff
  rw [subs, atPayloadLen_eq (by omega), Nlattr.size, hiff]

theorem FirstOf.fits (h : nlGen msg = true) (hp : FirstOf msg p) : p + attrLen msg p ≤ Nlmsg.len msg :=
  (nlGen_iff.mp h).2.fits hp.1

theorem Inside.mk_of (h4 : 4 ≤ attrLen msg p) (hfits : p + attrLen msg p ≤ Nlmsg.len msg) : Inside msg p where
  header := h4
  fits := hfits
  payload := by
    rw [nlAttrLen, Nlattr.size]
    omega

theorem Sound.visited (hs : Sound msg) (h : nlGen msg = true) (hp : FirstOf msg p) (hnest : LooksNest msg p)
    (hq : (subs msg p).Visits q) : Inside msg q := by
  have hfollows := ((subs_visits_iff hnest).mp hq).1
  have hin := hnest.2.fits hfollows
  have hout := hp.fits h
  exact .mk_of ((hs p hp).2 hnest q hfollows) (by omega)

theorem nlSub_visits {key : ℕ} (h : nlSub msg p key = some q) : (subs msg p).Visits q :=
  (Reader.search_visits (fun _ => .first) h).1

theorem Inside.uint (h : Inside msg p) : (nlAttrLen msg p % 2 ^ 32).toNat = attrLen msg p - 4 := by
  have hlt := attrLen_lt msg p
  have h4 := h.header
  rw [Nlattr.size] at h4
  rw [nlAttrLen, Nlattr.size]
  omega

theorem LooksNest.first (h : LooksNest msg p) : (subs msg p).first = some (p + 4) := by
  obtain ⟨h8, hc⟩ := h
  have hstop : p + 4 + (attrLen msg p - 4) = p + attrLen msg p := by omega
  rw [subs, atPayloadLen_eq (by omega)]
  exact nlAttr0In_chain (by omega) (hstop ▸ hc)

theorem LooksNest.climbs (h : LooksNest msg p) : (subs msg p).Climbs msg.length := by
  have h8 := h.1
  have hlt := attrLen_lt msg p
  rw [subs, atPayloadLen_eq (by omega)]
  exact attrsIn_climbs msg _ (by omega)

theorem subs_ends (h : LooksNest msg p) : (subs msg p).Ends := h.climbs.ends

theorem Sound.readsInside (hs : Sound msg) (h : nlGen msg = true) : ReadsInside msg := by
  have hsub {type p q : ℕ} (hp : nlGetNest msg type = some p) (hq : (subs msg p).Visits q) : Inside msg q := by
    obtain ⟨hfirst, -, hnest⟩ := (nlGetNest_iff h type).mp hp
    exact hs.visited h hfirst hnest hq
  exact {
    get := by
      intro type p hp
      have hfirst := ((nlGet_iff h type).mp hp).1
      exact .mk_of (hs p hfirst).1 (hfirst.fits h)
    sub := fun type p hp key q hq => hsub hp (nlSub_visits hq)
    sub0 := fun type p hp q hq => hsub hp (.first hq)
    subN := fun type p hp cur q hcur hq => hsub hp (.next hcur hq)
    ies := by
      intro p len hies
      obtain ⟨bss, hbss, hies⟩ := Option.bind_eq_some_iff.mp hies
      obtain ⟨-, -, hies⟩ := Option.bind_eq_some_iff.mp hies
      obtain ⟨ies, hfound, heq⟩ := Option.map_eq_some_iff.mp hies
      have hin := hsub hbss (nlSub_visits hfound)
      have hfits := hin.fits
      have hheader := hin.header
      injection heq with hstart huint
      rw [hin.uint] at huint
      rw [Nlattr.size] at hstart hheader
      omega
    getEnds := by
      obtain ⟨h24, -⟩ := nlGen_iff.mp h
      have hlt := Nlmsg.len_lt msg
      rw [attrs, nlPayloadLen_eq (by omega)]
      exact (attrsIn_climbs msg _ (by omega)).ends
    subEnds := fun type p hp => subs_ends ((nlGetNest_iff h type).mp hp).2.2 }

/-- The first attribute too short, if there is one, is returned by a loop. -/
theorem ReadsInside.sound (hr : ReadsInside msg) (h : nlGen msg = true) : Sound msg := by
  intro p hp
  have hget := (nlGet_iff h (attrKey msg p)).mpr ⟨hp, rfl⟩
  refine ⟨(hr.get _ p hget).header, fun hnest q hq => ?_⟩
  have hfound := (nlGetNest_iff h (attrKey msg p)).mpr ⟨hp, rfl, hnest⟩
  -- the attributes in front are long enough, so that the loop does come to this one
  induction q using Nat.strong_induction_on with
  | _ q ih =>
      have hvisited := (subs_visits_iff hnest).mpr ⟨hq, fun q' hq' h' => ih q' hq' h'⟩
      cases hvisited with
      | first hfirst => exact (hr.sub0 _ p hfound q hfirst).header
      | next hcur hnext => exact (hr.subN _ p hfound _ q hcur hnext).header

end Messages

/-- Reading an accepted message stays inside of it exactly when no loop comes to an
attribute shorter than its header. The loops are those of the handlers, over the message
and over the nests they open. -/
theorem attrs_inside_iff (msg : Bytes) (h : nlGen msg = true) : ReadsInside msg ↔ Sound msg :=
  ⟨fun hr => hr.sound h, fun hs => hs.readsInside h⟩

namespace Sample

/-- A scan result: a BSSID, and the elements with a length field of `n`. -/
def scanResult (n : UInt8) : Bytes :=
  [40, 0, 0, 0, 28, 0, 2, 0, 1, 0, 0, 0, 0, 0, 0, 0, 34, 1, 0, 0,
    20, 0, 47, 0, 10, 0, 1, 0, 2, 0, 0, 0, 0, 1, 0, 0, n, 0, 6, 0]

end Sample

theorem whole_elements : ReadsInside (Sample.scanResult 4) ↔ Sound (Sample.scanResult 4) :=
  attrs_inside_iff (Sample.scanResult 4) (by decide +kernel)

/-- Two bytes of header are enough to be accepted, and leave a length of -2 for the
elements of a scan result: a huge one without its sign. -/
theorem short_elements : nlGen (Sample.scanResult 2) = true ∧
    scanIes (Sample.scanResult 2) = some (40, 4294967294) ∧ ¬ ReadsInside (Sample.scanResult 2) := by
  have hies : scanIes (Sample.scanResult 2) = some (40, 4294967294) := by decide +kernel
  refine ⟨by decide +kernel, hies, fun hr => ?_⟩
  have hle := hr.ies 40 4294967294 hies
  have hlen : Nlmsg.len (Sample.scanResult 2) = 40 := by decide +kernel
  omega

end Wsupp.Nl

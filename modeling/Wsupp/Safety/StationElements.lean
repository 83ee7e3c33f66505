import Mathlib.Data.List.DropRight
import Wsupp.StationIes
import Wsupp.Wire.Elements

/-!
# Elements of a station

What `parse_station_ies` takes from a stream of whole elements, against a reading of
the elements one by one. An RSN element is read from the front: what its counts
claim beyond its end is not there, and a suite that is cut off is none.

The reading gives for each element what it says about the ciphers and the name; the
stream is read by folding it over the elements in their order, so a later name
overrides an earlier one and types add up. The vendor element of WPA is told by its
selector. Both the lists of suites and the counts before them may be cut off
anywhere.
-/
namespace Wsupp
open Wire (elements)

def ScanType.or (t t' : ScanType) : ScanType where
  wps := t.wps || t'.wps
  wpa := t.wpa || t'.wpa
  rsnPsk := t.rsnPsk || t'.rsnPsk
  rsnPTkip := t.rsnPTkip || t'.rsnPTkip
  rsnPCcmp := t.rsnPCcmp || t'.rsnPCcmp
  rsnGTkip := t.rsnGTkip || t'.rsnGTkip
  rsnGCcmp := t.rsnGCcmp || t'.rsnGCcmp

/-- A number of two bytes at the front, zero if they are not there. -/
def number : Bytes → ℕ
  | x :: y :: _ => x.toNat + 256 * y.toNat
  | _ => 0

/-- The suites at the front, at most so many, as far as they are whole. -/
def suites : ℕ → Bytes → List Bytes
  | n + 1, x :: y :: z :: t :: b => [x, y, z, t] :: suites n b
  | _, _ => []

/-- 00-0F-AC:02 is TKIP among ciphers, and PSK among the ways of key management. -/
def suite2 : Bytes := [0x00, 0x0F, 0xAC, 0x02]

def suite4 : Bytes := [0x00, 0x0F, 0xAC, 0x04]

/-- Version, group suite, pairwise suites behind their count, key management suites
behind theirs. -/
def rsnBits (b : Bytes) : ScanType :=
  if number b ≠ 1 then {}
  else
    let pairwise := suites (number (b.drop 6)) (b.drop 8)
    let rest := b.drop (8 + 4 * number (b.drop 6))
    { rsnGTkip := (b.drop 2).take 4 = suite2
      rsnGCcmp := (b.drop 2).take 4 = suite4
      rsnPTkip := suite2 ∈ pairwise
      rsnPCcmp := suite4 ∈ pairwise
      rsnPsk := suite2 ∈ suites (number rest) (rest.drop 2) }

def vendorBits (b : Bytes) : ScanType where
  wpa := b.take 4 = [0x00, 0x50, 0xF2, 0x01]
  wps := b.take 4 = [0x00, 0x50, 0xF2, 0x04]

/-- A `struct ies`. -/
abbrev Ie := Wire.Element

def Ie.isSsid (e : Ie) : Prop := e.type = 0

instance decidableIsSsid (e : Ie) : Decidable e.isSsid := inferInstanceAs (Decidable (_ = _))

/-- The name, of at most 32 bytes; trailing zeros are no part of it. -/
def Ie.name (e : Ie) : Bytes := (e.data.take 32).rdropWhile (· = 0)

def Ie.bits (e : Ie) : ScanType :=
  if e.type = 48 then rsnBits e.data else if e.type = 221 then vendorBits e.data else {}

/-- What one element adds to a slot. -/
def Ie.apply (e : Ie) (sc : Scan) : Scan :=
  { sc with
    ssid := if e.isSsid then e.data.take 32 ++ sc.ssid.drop (e.data.take 32).length else sc.ssid
    slen := if e.isSsid then e.name.length else sc.slen
    type := sc.type.or e.bits }

section Suites
variable {b suite : Bytes} {p n : ℕ}

theorem get4be_slice (h : p + 4 ≤ b.length) : get4be b p = (b.slice p 4).beNat := by
  rw [get4be, if_neg (by omega), Bytes.slice_four h]
  simp only [Bytes.beNat, List.foldl_cons, List.foldl_nil]
  omega

/-- A suite is read as its number, where there is one. -/
theorem get4be_eq_iff (suite b : Bytes) (p : ℕ) (hlen : suite.length = 4) (hpos : suite.beNat ≠ 0) :
    get4be b p = suite.beNat ↔ (b.drop p).take 4 = suite := by
  have hslice : (b.drop p).take 4 = b.slice p 4 := rfl
  rw [hslice]
  by_cases hp : p + 4 ≤ b.length
  · have hlen' : (b.slice p 4).length = suite.length := by rw [Bytes.length_slice hp, hlen]
    rw [get4be_slice hp]
    constructor
    · exact Bytes.beNat_inj hlen'
    · exact congrArg Bytes.beNat
  · have hzero : get4be b p = 0 := if_pos (by omega)
    rw [hzero]
    constructor
    · intro h
      exact absurd h.symm hpos
    · intro h
      rw [← h, Bytes.slice, List.length_take, List.length_drop] at hlen
      omega

theorem suites_succ (hp : p + 4 ≤ b.length) :
    suites (n + 1) (b.drop p) = (b.drop p).take 4 :: suites n (b.drop (p + 4)) := by
  have hdrop : b.drop (p + 4) = (b.drop p).drop 4 := List.drop_drop.symm
  have hlen : (b.drop p).length = b.length - p := List.length_drop
  rw [hdrop]
  match hd : b.drop p with
  | [] | [_] | [_, _] | [_, _, _] =>
      rw [hd] at hlen
      simp only [List.length_cons, List.length_nil] at hlen
      omega
  | x :: y :: z :: t :: r => rfl

theorem suites_short (hp : b.length < p + 4) : suites n (b.drop p) = [] := by
  have hlen : (b.drop p).length = b.length - p := List.length_drop
  cases n with
  | zero =>
      cases b.drop p <;> rfl
  | succ n =>
      match hd : b.drop p with
      | [] | [_] | [_, _] | [_, _, _] => rfl
      | x :: y :: z :: t :: r =>
          rw [hd] at hlen
          simp only [List.length_cons] at hlen
          omega

theorem hasSuite_succ (b : Bytes) (p n v : ℕ) :
    hasSuite b p (n + 1) v = (decide (get4be b p = v) || hasSuite b (p + 4) n v) := by
  have hstep (i : ℕ) : p + 4 * (i + 1) = p + 4 + 4 * i := by omega
  rw [hasSuite, List.range_succ_eq_map, List.any_cons, List.any_map, hasSuite, Nat.mul_zero, Nat.add_zero]
  simp only [Function.comp_def, Nat.succ_eq_add_one, hstep]

/-- The loops find a suite exactly if it is among the whole ones. -/
theorem hasSuite_iff (hlen : suite.length = 4) (hpos : suite.beNat ≠ 0) :
    hasSuite b p n suite.beNat = true ↔ suite ∈ suites n (b.drop p) := by
  induction n generalizing p with
  | zero =>
      have hnone : suites 0 (b.drop p) = [] := by cases b.drop p <;> rfl
      rw [hnone]
      exact iff_of_false Bool.false_ne_true (List.not_mem_nil)
  | succ n ih =>
      rw [hasSuite_succ, Bool.or_eq_true, decide_eq_true_iff, get4be_eq_iff _ _ _ hlen hpos, ih]
      by_cases hp : p + 4 ≤ b.length
      · rw [suites_succ hp, List.mem_cons, eq_comm]
      · have hother : (b.drop p).take 4 ≠ suite := by
          intro h
          rw [← h, List.length_take, List.length_drop] at hlen
          omega
        have hhere : suites (n + 1) (b.drop p) = [] := suites_short (by omega)
        have hbeyond : suites n (b.drop (p + 4)) = [] := suites_short (by omega)
        rw [hhere, hbeyond]
        exact or_iff_right hother

theorem hasSuite_eq (suite b : Bytes) (p n : ℕ) (hlen : suite.length = 4) (hpos : suite.beNat ≠ 0) :
    hasSuite b p n suite.beNat = decide (suite ∈ suites n (b.drop p)) := by
  rw [Bool.eq_iff_iff, decide_eq_true_iff]
  exact hasSuite_iff hlen hpos

end Suites

section Rsn
variable {b : Bytes} {p : ℕ}

theorem number_drop (h : p + 2 ≤ b.length) :
    number (b.drop p) = (b.at' p).toNat + 256 * (b.at' (p + 1)).toNat := by
  have hget (k : ℕ) : (b.drop p).getD k 0 = b.at' (p + k) := by
    simp only [Bytes.at', List.getD_eq_getElem?_getD, List.getElem?_drop]
  have hlen : (b.drop p).length = b.length - p := List.length_drop
  cases hd : b.drop p with
  | nil =>
      rw [hd, List.length_nil] at hlen
      omega
  | cons x r =>
      rw [hd] at hlen hget
      cases r with
      | nil =>
          rw [List.length_singleton] at hlen
          omega
      | cons y r =>
          have h0 : x = b.at' p := hget 0
          have h1 : y = b.at' (p + 1) := hget 1
          rw [number, h0, h1]

/-- The reader asks for a byte more than it needs: behind a number that is cut off so
there is no whole suite. -/
theorem suites_count (b : Bytes) (p : ℕ) :
    suites (get2le b p) (b.drop (p + 2)) = suites (number (b.drop p)) (b.drop (p + 2)) := by
  by_cases hp : p + 3 ≤ b.length
  · rw [get2le, if_neg (by omega), number_drop (by omega)]
  · rw [suites_short (by omega), suites_short (by omega)]

/-- An element that ends in the version has nothing else. -/
theorem version_iff (b : Bytes) : get2le b 0 = 1 ↔ number b = 1 ∧ 3 ≤ b.length := by
  by_cases hlen : 3 ≤ b.length
  · have hnumber := number_drop (b := b) (p := 0) (by omega)
    rw [List.drop_zero] at hnumber
    rw [get2le, if_neg (by omega), hnumber]
    exact (and_iff_left hlen).symm
  · have hzero : get2le b 0 = 0 := if_pos (by omega)
    rw [hzero]
    exact iff_of_false (by decide) fun h => hlen h.2

theorem suites_nil (n : ℕ) : suites n [] = [] := by cases n <;> rfl

theorem rsnBits_short (h : b.length < 3) : rsnBits b = {} := by
  have hdrop {k : ℕ} (hk : 2 < k) : b.drop k = [] := List.drop_eq_nil_of_le (by omega)
  have hgroup (suite : Bytes) (hlen : suite.length = 4) : (b.drop 2).take 4 ≠ suite := by
    intro hsuite
    rw [← hsuite, List.length_take, List.length_drop] at hlen
    omega
  rw [rsnBits]
  split_ifs with hversion
  · rfl
  · rw [hdrop (by decide), hdrop (by decide), hdrop (by omega)]
    simp only [suites_nil, List.drop_nil, List.not_mem_nil, hgroup suite2 rfl, hgroup suite4 rfl, decide_false]

theorem ScanType.or_empty (t : ScanType) : t.or {} = t := by
  simp only [ScanType.or, Bool.or_false]

theorem suites_akm (b : Bytes) :
    suites (get2le b (8 + 4 * get2le b 6)) (b.drop (8 + 4 * get2le b 6 + 2)) =
      suites (number (b.drop (8 + 4 * number (b.drop 6)))) ((b.drop (8 + 4 * number (b.drop 6))).drop 2) := by
  rw [List.drop_drop]
  by_cases hlen : 9 ≤ b.length
  · have hcount : get2le b 6 = number (b.drop 6) := by
      rw [get2le, if_neg (by omega), number_drop (by omega)]
    rw [hcount]
    exact suites_count b _
  · rw [suites_short (by omega), suites_short (by omega)]

theorem parseRsnIe_eq (type : ScanType) (b : Bytes) : parseRsnIe type b = type.or (rsnBits b) := by
  by_cases hversion : get2le b 0 = 1
  · obtain ⟨hnumber, -⟩ := (version_iff b).mp hversion
    have h2 (p n : ℕ) : hasSuite b p n 0x000FAC02 = decide (suite2 ∈ suites n (b.drop p)) :=
      hasSuite_eq suite2 b p n rfl (by decide)
    have h4 (p n : ℕ) : hasSuite b p n 0x000FAC04 = decide (suite4 ∈ suites n (b.drop p)) :=
      hasSuite_eq suite4 b p n rfl (by decide)
    have hgroup2 : get4be b 2 = 0x000FAC02 ↔ (b.drop 2).take 4 = suite2 :=
      get4be_eq_iff suite2 b 2 rfl (by decide)
    have hgroup4 : get4be b 2 = 0x000FAC04 ↔ (b.drop 2).take 4 = suite4 :=
      get4be_eq_iff suite4 b 2 rfl (by decide)
    rw [parseRsnIe, if_neg (not_not.mpr hversion), rsnBits, if_neg (not_not.mpr hnumber)]
    simp only [ScanType.or, h2, h4, suites_count b 6, suites_akm, hgroup2, hgroup4, Bool.or_false]
  · have hbits : rsnBits b = {} := by
      by_cases hlen : 3 ≤ b.length
      · have hnumber : number b ≠ 1 := fun h => hversion ((version_iff b).mpr ⟨h, hlen⟩)
        exact if_pos hnumber
      · exact rsnBits_short (by omega)
    rw [parseRsnIe, if_pos hversion, hbits, ScanType.or_empty]

end Rsn

theorem parseVendor_eq (type : ScanType) (b : Bytes) : parseVendor type b = type.or (vendorBits b) := by
  by_cases hlen : b.length < 4
  · have hnone (suite : Bytes) (h4 : suite.length = 4) : b.take 4 ≠ suite := by
      intro h
      rw [← h, List.length_take] at h4
      omega
    rw [parseVendor, if_pos hlen, vendorBits, decide_eq_false (hnone _ rfl), decide_eq_false (hnone _ rfl)]
    exact type.or_empty.symm
  · have h4 : 0 + 4 ≤ b.length := by omega
    have htake : b.take 4 = [b.at' 0, b.at' 1, b.at' 2, b.at' 3] := Bytes.slice_four h4
    have houi : b.take 3 = [b.at' 0, b.at' 1, b.at' 2] := by
      have h3 : (b.take 4).take 3 = b.take 3 := List.take_take
      rw [← h3, htake]
      rfl
    have hsplit (k : UInt8) : b.take 4 = [0x00, 0x50, 0xF2, k] ↔ b.take 3 = msOui ∧ b.at' 3 = k := by
      rw [htake, houi]
      simp only [msOui, List.cons.injEq, and_true, and_assoc]
    rw [parseVendor, if_neg hlen, vendorBits]
    simp only [hsplit]
    by_cases hms : b.take 3 = msOui
    · rw [if_neg (not_not.mpr hms)]
      by_cases h1 : b.at' 3 = 1
      · rw [if_pos h1]
        simp [ScanType.or, hms, h1]
      · rw [if_neg h1]
        by_cases h4 : b.at' 3 = 4
        · rw [if_pos h4]
          simp [ScanType.or, hms, h4]
        · rw [if_neg h4]
          simp [ScanType.or, h1, h4]
    · rw [if_pos hms]
      simp [ScanType.or, hms]

theorem setStationSsid_eq (sc : Scan) (b : Bytes) : setStationSsid sc b =
    { sc with
      ssid := b.take 32 ++ sc.ssid.drop (b.take 32).length
      slen := ((b.take 32).rdropWhile (· = 0)).length } := by
  have hsize : SSIDLEN = 32 := rfl
  have hlen : (b.take 32).length = min b.length 32 := by rw [List.length_take, Nat.min_comm]
  have htake : b.take (min b.length 32) = b.take 32 := by
    rw [Nat.min_comm]
    exact List.take_eq_take_min.symm
  rw [setStationSsid, hsize, Bytes.memcpy, htake, hlen, List.rdropWhile, List.length_reverse]

section Elements
variable {es : List Ie} {sc : Scan}

theorem apply_eq (e : Ie) (sc : Scan) : e.apply sc =
    if e.type = 0 then setStationSsid sc e.data
    else if e.type = 48 then { sc with type := parseRsnIe sc.type e.data }
    else if e.type = 221 then { sc with type := parseVendor sc.type e.data }
    else sc := by
  by_cases h0 : e.type = 0
  · have hssid : e.isSsid := h0
    have h48 : e.type ≠ 48 := by
      rw [h0]
      decide
    have h221 : e.type ≠ 221 := by
      rw [h0]
      decide
    rw [if_pos h0, Ie.apply, if_pos hssid, if_pos hssid, Ie.bits, if_neg h48, if_neg h221, ScanType.or_empty,
      setStationSsid_eq]
    rfl
  · have hssid : ¬ e.isSsid := h0
    rw [if_neg h0, Ie.apply, if_neg hssid, if_neg hssid, Ie.bits, parseRsnIe_eq, parseVendor_eq]
    split_ifs
    · rfl
    · rfl
    · rw [ScanType.or_empty]

/-- The element in front is taken, and the walk goes on behind it. -/
theorem parseIes_cons (n : ℕ) (sc : Scan) (e : Ie) (b : Bytes) :
    parseIes (n + 1) sc (e.bytes ++ b) = parseIes n (e.apply sc) b := by
  have hne : e.bytes ++ b ≠ [] := List.cons_ne_nil _ _
  have hfits : ¬ (e.bytes ++ b).length < 2 + e.data.length := by
    rw [List.length_append, e.length_bytes]
    omega
  rw [parseIes, if_neg hne]
  dsimp only
  rw [e.front_len, if_neg hfits, e.front_type, e.front_data, e.front_rest, apply_eq]

theorem parseIes_elements {n : ℕ} (hn : (elements es).length ≤ n) :
    parseIes n sc (elements es) = es.foldl (fun sc e => e.apply sc) sc := by
  induction es generalizing n sc with
  | nil =>
      cases n with
      | zero => rfl
      | succ n => rfl
  | cons e es ih =>
      rw [Wire.elements_cons, List.length_append, e.length_bytes] at hn
      obtain ⟨n, rfl⟩ := Nat.exists_eq_add_of_lt (show 0 < n by omega)
      rw [Wire.elements_cons, Nat.zero_add, parseIes_cons, ih (by omega)]
      rfl

theorem foldl_nameless (sc : Scan) (h : ∀ e ∈ es, ¬ e.isSsid) :
    (es.foldl (fun sc e => e.apply sc) sc).ssid = sc.ssid ∧
      (es.foldl (fun sc e => e.apply sc) sc).slen = sc.slen := by
  induction es generalizing sc with
  | nil => exact ⟨rfl, rfl⟩
  | cons e es ih =>
      obtain ⟨he, hes⟩ := List.forall_mem_cons.mp h
      obtain ⟨hssid, hslen⟩ := ih (e.apply sc) hes
      constructor
      · rw [List.foldl_cons, hssid]
        exact if_neg he
      · rw [List.foldl_cons, hslen]
        exact if_neg he

theorem foldl_named {before after : List Ie} {e : Ie} (he : e.isSsid) (hafter : ∀ e ∈ after, ¬ e.isSsid) :
    ((before ++ e :: after).foldl (fun sc e => e.apply sc) sc).slen = e.name.length ∧
      ((before ++ e :: after).foldl (fun sc e => e.apply sc) sc).ssid.take e.name.length = e.name := by
  let sc₁ := before.foldl (fun sc e => e.apply sc) sc
  obtain ⟨hssid, hslen⟩ := foldl_nameless (e.apply sc₁) hafter
  have hname : e.name <+: e.data.take 32 := List.rdropWhile_prefix _ _
  rw [List.foldl_append, List.foldl_cons, hssid, hslen]
  constructor
  · exact if_pos he
  · have harray : (e.apply sc₁).ssid = e.data.take 32 ++ sc₁.ssid.drop (e.data.take 32).length := if_pos he
    rw [harray, List.take_append_of_le_length hname.length_le]
    exact (List.prefix_iff_eq_take.mp hname).symm

end Elements

/-- A stream of whole elements is taken element by element. The name comes from the last
element that has one; the ciphers are those any of them names. What an element says
depends on nothing but its type and its contents. -/
theorem parseStationIes_elements (es : List Ie) (sc : Scan) :
    parseStationIes sc (elements es) = es.foldl (fun sc e => e.apply sc) sc ∧
    (∀ before e after, es = before ++ e :: after → e.isSsid → (∀ e ∈ after, ¬ e.isSsid) →
      (parseStationIes sc (elements es)).slen = e.name.length ∧
      (parseStationIes sc (elements es)).ssid.take e.name.length = e.name) ∧
    ((∀ e ∈ es, ¬ e.isSsid) →
      (parseStationIes sc (elements es)).ssid = sc.ssid ∧
      (parseStationIes sc (elements es)).slen = sc.slen) := by
  have hfold : parseStationIes sc (elements es) = es.foldl (fun sc e => e.apply sc) sc :=
    parseIes_elements (Nat.le_refl _)
  rw [hfold]
  constructor
  · rfl
  constructor
  · intro before e after hes he hafter
    rw [hes]
    exact foldl_named he hafter
  · exact foldl_nameless sc

/-- The second name is the one kept, without its zeros. -/
theorem named_twice :
    (parseStationIes {} (elements [⟨0, [0x61], by decide⟩, ⟨0, [0x62, 0x63, 0, 0], by decide⟩,
        ⟨1, [2], by decide⟩])).slen = 2 ∧
      (parseStationIes {} (elements [⟨0, [0x61], by decide⟩, ⟨0, [0x62, 0x63, 0, 0], by decide⟩,
        ⟨1, [2], by decide⟩])).ssid.take 2 = [0x62, 0x63] :=
  (parseStationIes_elements [⟨0, [0x61], by decide⟩, ⟨0, [0x62, 0x63, 0, 0], by decide⟩, ⟨1, [2], by decide⟩] {}).2.1
    [⟨0, [0x61], by decide⟩] ⟨0, [0x62, 0x63, 0, 0], by decide⟩ [⟨1, [2], by decide⟩] rfl rfl (by
      intro e he
      rw [List.mem_singleton.mp he]
      exact (by decide : ¬ (1 : UInt8) = 0))

end Wsupp

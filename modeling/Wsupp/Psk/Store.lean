import Mathlib.Data.List.Nodup
import Wsupp.Psk.Edits
import Wsupp.Reactive.Machine

/-!
# The PSK file as a map

Calls of `save_psk`, `drop_psk` and `load_psk` on a file that has been loaded, with
the map they are to work on kept beside it. Each call has a condition under which it
does to the text what its counterpart does to the map; over a run of calls the text
is the map exactly if each call meets it.

A name whose spelling is cut breaks the correspondence for good, and so does an edit
that moves the block while a pointer into it is still in use. Both are conditions on
the call and on the contents before it, not on what comes out.
-/
namespace Wsupp
open Reactive Config

/-- A call, with what `mremap` answers it or the array it is given. -/
inductive StoreCall where
  | save (ssid psk : Bytes) (io : RemapIO)
  | drop (ssid : Bytes)
  | load (ssid psk : Bytes)

inductive StoreAnswer where
  | dropped (ret : Int)
  | loaded (ret : Int) (psk : Bytes)
deriving DecidableEq, Repr

/-- SSIDs of the length an SSID has, whole keys, and memory to be had. -/
def StoreCall.Allowed : StoreCall → Prop
  | .save ssid psk io => 1 ≤ ssid.length ∧ ssid.length ≤ 32 ∧ psk.length = 32 ∧ io.err = false
  | .drop ssid => 1 ≤ ssid.length ∧ ssid.length ≤ 32
  | .load ssid psk => 1 ≤ ssid.length ∧ ssid.length ≤ 32 ∧ psk.length = 32

/-- The file is in memory: no call has to load it. -/
def StoreCall.run (c : Config) : StoreCall → Option (Config × List StoreAnswer)
  | .save ssid psk io => (c.savePsk {} io ssid psk).map fun c => (c, [])
  | .drop ssid => (c.dropPsk {} ssid).map fun r => (r.2, [.dropped r.1])
  | .load ssid psk =>
      let r := c.loadPsk {} ssid psk
      some (r.2.2, [.loaded r.1 r.2.1])

/-- The process with its file; `none` once it has crashed. -/
def pskStore : Machine (Option Config) StoreCall StoreAnswer where
  enabled c call := c.isSome = true ∧ call.Allowed
  step c call :=
    let r := c.bind call.run
    (r.map Prod.fst, (r.map Prod.snd).getD [])

/-- What the calls make of a map. -/
def StoreCall.record (call : StoreCall) (r : Bytes → Option Bytes) : Bytes → Option Bytes :=
  match call with
  | .save ssid psk _ => Function.update r ssid (some psk)
  | .drop ssid => Function.update r ssid none
  | .load _ _ => r

/-- The process with the map beside it. Each call does to the map what it should do to
the file, whether or not it does. -/
def recordedStore : Machine (Option Config × (Bytes → Option Bytes)) StoreCall StoreAnswer :=
  pskStore.record fun _ call _ r => call.record r

/-- For this SSID the file does what the map says: loading it gives the key in the map,
or fails if there is none. -/
structure Config.Serves (c : Config) (r : Bytes → Option Bytes) (ssid : Bytes) : Prop where
  load : ∀ psk, psk.length = 32 →
    c.loadPsk {} ssid psk = (r ssid).elim (-ENOKEY, psk, c) fun key => (0, key, c)
  drop : ∃ ret c', c.dropPsk {} ssid = some (ret, c') ∧ (ret = 0 ↔ (r ssid).isSome = true)
  lines : (c.linesOf ssid).length = if (r ssid).isSome then 1 else 0

/-- The process is alive, and its file is the map. -/
def IsMap (x : Option Config × (Bytes → Option Bytes)) : Prop :=
  ∃ c, x.1 = some c ∧ ∀ ssid : Bytes, 1 ≤ ssid.length → ssid.length ≤ 32 → c.Serves x.2 ssid

/-- A new SSID is written in full, and the block stays where it is for it. -/
def StoreCall.Sound (x : Option Config) : StoreCall → Prop
  | .save ssid _ io => Fits ssid ∧
      ∀ c ∈ x, c.findSsid ssid = none → ¬ c.Loses io ((spell ssid).length + 66)
  | _ => True

instance (call : StoreCall) : Decidable call.Allowed :=
  match call with
  | .save .. => inferInstanceAs (Decidable (_ ∧ _))
  | .drop .. => inferInstanceAs (Decidable (_ ∧ _))
  | .load .. => inferInstanceAs (Decidable (_ ∧ _))

instance StoreCall.decidableSound (x : Option Config) (call : StoreCall) : Decidable (call.Sound x) :=
  match call with
  | .save .. => inferInstanceAs (Decidable (_ ∧ _))
  | .drop .. => isTrue trivial
  | .load .. => isTrue trivial

instance (c : Option Config) (call : StoreCall) : Decidable (pskStore.enabled c call) :=
  inferInstanceAs (Decidable (_ ∧ _))

/-- The entries are those of the map, and all of them can be found: names do not repeat,
and each of them fits the line it is written on. -/
structure Represents (c : Config) (es : List Entry) (r : Bytes → Option Bytes) : Prop where
  holds : c.Holds es
  fits : ∀ en ∈ es, Fits en.ssid
  nodup : (es.map Entry.ssid).Nodup
  mem_iff : ∀ ssid psk, r ssid = some psk ↔ ⟨ssid, psk⟩ ∈ es

/-- An entry is found under its SSID and no other. -/
theorem spell_eq_iff {en : Entry} (h : (spell en.ssid).length ≤ 32) (ssid : Bytes) :
    spell en.ssid = fmtSsid 0 100 ssid ↔ en.ssid = ssid := by
  rw [eq_comm, fmtSsid_eq_spell (by omega), eq_comm]

namespace Represents
variable {c : Config} {es : List Entry} {r : Bytes → Option Bytes} {ssid : Bytes}

theorem length_spell (h : Represents c es r) {en : Entry} (hen : en ∈ es) : (spell en.ssid).length ≤ 32 :=
  (h.fits en hen).length_le

theorem absent (h : Represents c es r) (hr : r ssid = none) :
    ∀ en ∈ es, spell en.ssid ≠ fmtSsid 0 100 ssid := by
  intro en hen heq
  rw [spell_eq_iff (h.length_spell hen)] at heq
  subst heq
  rw [(h.mem_iff en.ssid en.psk).mpr hen] at hr
  cases hr

theorem finds (h : Represents c es r) {psk : Bytes} (hr : r ssid = some psk) :
    ∃ es₁ es₂, es = es₁ ++ ⟨ssid, psk⟩ :: es₂ ∧ Holds.Finds ssid es₁ ⟨ssid, psk⟩ ∧
      ∀ en ∈ es₁ ++ es₂, en.ssid ≠ ssid := by
  have hmem := (h.mem_iff ssid psk).mp hr
  obtain ⟨es₁, es₂, heq⟩ := List.append_of_mem hmem
  have hnodup := h.nodup
  rw [heq, List.map_append, List.map_cons, List.nodup_middle, List.nodup_cons] at hnodup
  have hother : ∀ en ∈ es₁ ++ es₂, en.ssid ≠ ssid := by
    intro en hen hname
    refine hnodup.1 ?_
    rw [← List.map_append]
    exact List.mem_map.mpr ⟨en, hen, hname⟩
  refine ⟨es₁, es₂, heq, ⟨fun en hen hfound => ?_, ?_⟩, hother⟩
  · rw [spell_eq_iff (h.length_spell (heq ▸ List.mem_append_left _ hen))] at hfound
    exact hother en (List.mem_append_left _ hen) hfound
  · exact (spell_eq_iff (h.length_spell hmem) ssid).mpr rfl

theorem serves (h : Represents c es r) (ssid : Bytes) : c.Serves r ssid := by
  have hlines := h.holds.length_linesOf ssid
  cases hr : r ssid with
  | none =>
      have habsent := h.absent hr
      constructor
      · intro psk _
        rw [hr]
        exact h.holds.loadPsk_absent habsent {} psk
      · exact ⟨-1, c, h.holds.dropPsk_absent habsent {}, by simp [hr]⟩
      · rw [hlines, hr, List.countP_eq_zero.mpr (by simpa using habsent)]
        rfl
  | some psk =>
      obtain ⟨es₁, es₂, rfl, hfinds, hother⟩ := h.finds hr
      constructor
      · intro psk' hpsk'
        rw [hr]
        exact h.holds.loadPsk_finds hfinds hpsk' {}
      · obtain ⟨c', hdrop, -⟩ := h.holds.dropPsk_finds hfinds {}
        exact ⟨0, c', hdrop, by simp [hr]⟩
      · have hzero (es : List Entry) (hes : ∀ en ∈ es, en ∈ es₁ ++ es₂) :
            es.countP (fun en => spell en.ssid = fmtSsid 0 100 ssid) = 0 := by
          refine List.countP_eq_zero.mpr fun en hen => ?_
          have hin := hes en hen
          have hmem : en ∈ es₁ ++ ⟨ssid, psk⟩ :: es₂ := by
            simp only [List.mem_append, List.mem_cons] at hin ⊢
            tauto
          rw [decide_eq_true_eq, spell_eq_iff (h.length_spell hmem)]
          exact hother en hin
        rw [hlines, hr, List.countP_append, List.countP_cons,
          hzero es₁ (fun _ h => List.mem_append_left _ h), hzero es₂ (fun _ h => List.mem_append_right _ h)]
        simp [hfinds.found]

/-- A key saved takes the place of the one there was. -/
theorem replace (h : Represents c es r) {psk psk' : Bytes} (hr : r ssid = some psk)
    (hssid : ssid ≠ []) (hpsk : psk'.length = 32) (hfits : Fits ssid) (io : RemapIO) :
    ∃ c' es', c.savePsk {} io ssid psk' = some c' ∧
      Represents c' es' (Function.update r ssid (some psk')) := by
  obtain ⟨es₁, es₂, rfl, hfinds, hother⟩ := h.finds hr
  obtain ⟨en, hen, rfl, -, hname, hsave⟩ := h.holds.savePsk_writes hssid hpsk {} io
  obtain rfl := hname.mp hfits
  obtain ⟨c', hline, hholds⟩ := h.holds.saveLine_known io hen rfl
  refine ⟨c', _, ?_, hholds, ?_, ?_, ?_⟩
  · rw [hsave, h.holds.findSsid_finds hfinds, hline]
  · intro e he
    rcases List.mem_append.mp he with he | he
    · exact h.fits e (List.mem_append_left _ he)
    rcases List.mem_cons.mp he with rfl | he
    · exact hfits
    · exact h.fits e (List.mem_append_right _ (List.mem_cons_of_mem _ he))
  · have hnodup := h.nodup
    rw [List.map_append, List.map_cons] at hnodup ⊢
    exact hnodup
  · intro s p
    rw [Function.update_apply]
    split
    · next heq =>
        subst heq
        constructor
        · intro hp
          obtain rfl := Option.some.inj hp
          simp
        · intro hmem
          rcases List.mem_append.mp hmem with hmem | hmem
          · exact absurd rfl (hother ⟨_, p⟩ (List.mem_append_left _ hmem))
          rcases List.mem_cons.mp hmem with heq | hmem
          · rw [← heq]
          · exact absurd rfl (hother ⟨_, p⟩ (List.mem_append_right _ hmem))
    · next hne =>
        have hmem := h.mem_iff s p
        simp only [List.mem_append, List.mem_cons, Entry.mk.injEq, hne, false_and, false_or] at hmem
        have hen : (⟨s, p⟩ : Entry) ≠ en := fun heq => hne (congrArg Entry.ssid heq)
        simp only [List.mem_append, List.mem_cons, hen, false_or]
        exact hmem

theorem insert (h : Represents c es r) {psk : Bytes} {io : RemapIO} (hr : r ssid = none)
    (hssid : ssid ≠ []) (hpsk : psk.length = 32) (hfits : Fits ssid)
    (hio : ¬ c.Stalls io ((spell ssid).length + 66)) (hkeep : ¬ c.Loses io ((spell ssid).length + 66)) :
    ∃ c' es', c.savePsk {} io ssid psk = some c' ∧
      Represents c' es' (Function.update r ssid (some psk)) := by
  obtain ⟨en, hen, rfl, -, hname, hsave⟩ := h.holds.savePsk_writes hssid hpsk {} io
  obtain rfl := hname.mp hfits
  have hlen : en.line.length + 1 = (spell en.ssid).length + 66 := by
    rw [hen.length_line]
    omega
  obtain ⟨c', hline, hholds⟩ := h.holds.saveLine_new (by rwa [hlen]) hen (by rwa [hlen])
  have hnew : ∀ e ∈ es, e.ssid ≠ en.ssid := by
    intro e he hname
    have hmem := (h.mem_iff e.ssid e.psk).mpr he
    rw [hname, hr] at hmem
    cases hmem
  refine ⟨c', _, ?_, hholds, ?_, ?_, ?_⟩
  · rw [hsave, h.holds.findSsid_absent (h.absent hr), hline]
  · intro e he
    rcases List.mem_append.mp he with he | he
    · exact h.fits e he
    · rwa [List.mem_singleton.mp he]
  · rw [List.map_append, List.map_singleton, List.nodup_append]
    refine ⟨h.nodup, List.nodup_singleton _, fun a ha b hb => ?_⟩
    obtain ⟨e, he, rfl⟩ := List.mem_map.mp ha
    rw [List.mem_singleton.mp hb]
    exact hnew e he
  · intro s p
    rw [Function.update_apply, List.mem_append, List.mem_singleton]
    split
    · next heq =>
        subst heq
        constructor
        · intro hp
          obtain rfl := Option.some.inj hp
          exact .inr rfl
        · rintro (hmem | heq)
          · exact absurd rfl (hnew ⟨_, p⟩ hmem)
          · rw [← heq]
    · next hne =>
        have hen : (⟨s, p⟩ : Entry) ≠ en := fun heq => hne (congrArg Entry.ssid heq)
        rw [h.mem_iff, or_iff_left hen]

theorem lost (h : Represents c es r) {psk : Bytes} {io : RemapIO} (hnew : c.findSsid ssid = none)
    (hssid : ssid ≠ []) (hpsk : psk.length = 32) (hfits : Fits ssid)
    (hio : ¬ c.Stalls io ((spell ssid).length + 66)) (hlost : c.Loses io ((spell ssid).length + 66)) :
    c.savePsk {} io ssid psk = none := by
  obtain ⟨en, hen, -, -, hname, hwrites⟩ := h.holds.savePsk_writes hssid hpsk {} io
  have hlen : (spell ssid).length + 66 = en.line.length + 1 := by
    rw [hen.length_line, hname.mp hfits]
    omega
  rw [hlen] at hio hlost
  rw [hwrites, hnew, h.holds.saveLine_lost hio hlost]

theorem dropped (h : Represents c es r) (ssid : Bytes) : ∃ ret c' es', c.dropPsk {} ssid = some (ret, c') ∧
    Represents c' es' (Function.update r ssid none) := by
  cases hr : r ssid with
  | none =>
      refine ⟨-1, c, es, h.holds.dropPsk_absent (h.absent hr) {}, ?_⟩
      rwa [← hr, Function.update_eq_self]
  | some psk =>
      obtain ⟨es₁, es₂, rfl, hfinds, hother⟩ := h.finds hr
      obtain ⟨c', hdrop, hholds⟩ := h.holds.dropPsk_finds hfinds {}
      refine ⟨0, c', _, hdrop, hholds, ?_, ?_, ?_⟩
      · intro e he
        refine h.fits e ?_
        simp only [List.mem_append, List.mem_cons] at he ⊢
        tauto
      · have hnodup := h.nodup
        rw [List.map_append, List.map_cons, List.nodup_middle, List.nodup_cons] at hnodup
        rw [List.map_append]
        exact hnodup.2
      · intro s p
        rw [Function.update_apply]
        split
        · next heq =>
            subst heq
            exact iff_of_false (fun h => by cases h) fun hmem => hother _ hmem rfl
        · next hne =>
            have hmem := h.mem_iff s p
            simp only [List.mem_append, List.mem_cons, Entry.mk.injEq, hne, false_and, false_or] at hmem
            rw [List.mem_append]
            exact hmem

/-- An SSID that is not written in full is not found afterwards. -/
theorem cut (h : Represents c es r) {psk : Bytes} {io : RemapIO} (hssid : ssid ≠ [])
    (hpsk : psk.length = 32) (hcut : ¬ Fits ssid) (hio : io.err = false) {c' : Config}
    (hsave : c.savePsk {} io ssid psk = some c') (psk' : Bytes) :
    c'.loadPsk {} ssid psk' = (-ENOKEY, psk', c') := by
  have habsent : ∀ en ∈ es, spell en.ssid ≠ fmtSsid 0 100 ssid := by
    intro en hen heq
    rw [spell_eq_iff (h.length_spell hen)] at heq
    exact hcut (heq ▸ h.fits en hen)
  obtain ⟨en, hen, -, hlen, hname, hwrites⟩ := h.holds.savePsk_writes hssid hpsk {} io
  rw [hwrites, h.holds.findSsid_absent habsent] at hsave
  by_cases hlost : c.Loses io (en.line.length + 1)
  · rw [h.holds.saveLine_lost (not_stalls hio _ _) hlost] at hsave
    cases hsave
  obtain ⟨c'', hline, hholds⟩ := h.holds.saveLine_new (not_stalls hio _ _) hen hlost
  obtain rfl := Option.some.inj (hline.symm.trans hsave)
  refine hholds.loadPsk_absent (fun e he heq => ?_) {} psk'
  rcases List.mem_append.mp he with he | he
  · exact habsent e he heq
  · rw [List.mem_singleton.mp he, spell_eq_iff hlen] at heq
    exact hcut (hname.mpr heq)

end Represents

/-- The process is alive, with entries in its file that are the map. -/
def Stores (x : Option Config × (Bytes → Option Bytes)) : Prop :=
  ∃ c es, x.1 = some c ∧ Represents c es x.2

theorem Stores.isMap {x : Option Config × (Bytes → Option Bytes)} (h : Stores x) : IsMap x := by
  obtain ⟨c, es, hc, hrep⟩ := h
  exact ⟨c, hc, fun ssid _ _ => hrep.serves ssid⟩

section Step
variable {c : Config} {es : List Entry} {r : Bytes → Option Bytes}

theorem step_save {ssid psk : Bytes} {io : RemapIO} {x : Option Config}
    (h : c.savePsk {} io ssid psk = x) :
    (recordedStore.step (some c, r) (.save ssid psk io)).1 =
      (x, Function.update r ssid (some psk)) := by
  change (((c.savePsk {} io ssid psk).map fun c => (c, ([] : List StoreAnswer))).map Prod.fst, _) = _
  rw [h, Option.map_map]
  cases x <;> rfl

theorem step_drop {ssid : Bytes} {ret : Int} {c' : Config} (h : c.dropPsk {} ssid = some (ret, c')) :
    (recordedStore.step (some c, r) (.drop ssid)).1 = (some c', Function.update r ssid none) := by
  change (((c.dropPsk {} ssid).map fun r => (r.2, [StoreAnswer.dropped r.1])).map Prod.fst, _) = _
  rw [h]
  rfl

theorem ne_nil_of_le {ssid : Bytes} (h : 1 ≤ ssid.length) : ssid ≠ [] :=
  List.ne_nil_of_length_pos h

theorem step_stores (h : Represents c es r) {call : StoreCall} (ha : call.Allowed)
    (hs : call.Sound (some c)) : Stores (recordedStore.step (some c, r) call).1 := by
  cases call with
  | save ssid psk io =>
      obtain ⟨hmin, -, hpsk, hio⟩ := ha
      obtain ⟨hfits, hroom⟩ := hs
      cases hr : r ssid with
      | none =>
          have hkeep := hroom c rfl (h.holds.findSsid_absent (h.absent hr))
          obtain ⟨c', es', hsave, hrep⟩ := h.insert hr (ne_nil_of_le hmin) hpsk hfits (not_stalls hio _ _) hkeep
          exact ⟨c', es', congrArg Prod.fst (step_save hsave), step_save hsave ▸ hrep⟩
      | some _ =>
          obtain ⟨c', es', hsave, hrep⟩ := h.replace hr (ne_nil_of_le hmin) hpsk hfits io
          exact ⟨c', es', congrArg Prod.fst (step_save hsave), step_save hsave ▸ hrep⟩
  | drop ssid =>
      obtain ⟨ret, c', es', hdrop, hrep⟩ := h.dropped ssid
      exact ⟨c', es', congrArg Prod.fst (step_drop hdrop), step_drop hdrop ▸ hrep⟩
  | load ssid psk =>
      have hload : (c.loadPsk {} ssid psk).2.2 = c := by
        rw [(h.serves ssid).load psk ha.2.2]
        cases r ssid <;> rfl
      exact ⟨c, es, congrArg some hload, h⟩

theorem step_not_isMap (h : Represents c es r) {call : StoreCall} (ha : call.Allowed)
    (hs : ¬ call.Sound (some c)) : ¬ IsMap (recordedStore.step (some c, r) call).1 := by
  cases call with
  | drop ssid => exact absurd trivial hs
  | load ssid psk => exact absurd trivial hs
  | save ssid psk io =>
      obtain ⟨hmin, hmax, hpsk, hio⟩ := ha
      have hssid := ne_nil_of_le hmin
      rintro ⟨c', hc', hserves⟩
      have hsave : c.savePsk {} io ssid psk = some c' := by
        rw [step_save rfl] at hc'
        exact hc'
      have hload := (hserves ssid hmin hmax).load psk hpsk
      rw [step_save hsave] at hload
      by_cases hfits : Fits ssid
      · -- the SSID is new, and the block is moved
        have hlost : c.findSsid ssid = none ∧ c.Loses io ((spell ssid).length + 66) := by
          simpa [StoreCall.Sound, hfits] using hs
        rw [h.lost hlost.1 hssid hpsk hfits (not_stalls hio _ _) hlost.2] at hsave
        cases hsave
      · rw [h.cut hssid hpsk hfits hio hsave] at hload
        simp [ENOKEY] at hload

end Step

/-- The file stays the map that the calls make, exactly if every SSID saved fits and no
line is added to a block that moves. The map is any one the file has to begin with, and
the calls may come in any order. -/
theorem store_isMap_iff {c : Config} (hc : c.config.isSome = true) (hlen : c.datalen = 0)
    {calls : List StoreCall} (hv : pskStore.Valid (some c) calls) :
    recordedStore.Always IsMap (some c, fun _ => none) calls ↔
      pskStore.Every (fun x call => call.Sound x) (some c) calls := by
  have hstart : Represents c [] fun _ => none := by
    refine ⟨⟨hc, ?_, hlen, ?_, ?_⟩, ?_, List.nodup_nil, ?_⟩
    · rw [hlen]
      rfl
    · rw [hlen]
      exact Nat.zero_le _
    · exact fun en h => by cases h
    · exact fun en h => by cases h
    · exact fun ssid psk => iff_of_false (fun h => by cases h) (fun h => by cases h)
  rw [← Machine.record_every (fun _ call _ r => call.record r) (some c) fun _ => none]
  refine Machine.always_iff_every_of_inv (I := Stores) (fun _ => Stores.isMap) ?_ ?_ ⟨c, [], rfl, hstart⟩
    ((Machine.record_valid ..).mpr hv)
  · rintro ⟨x, r⟩ call ⟨c, es, hx, hrep⟩ he hs
    obtain rfl : x = some c := hx
    exact step_stores hrep he.2 hs
  · rintro ⟨x, r⟩ call ⟨c, es, hx, hrep⟩ he hs
    obtain rfl : x = some c := hx
    exact step_not_isMap hrep he.2 hs

namespace Sample

/-- A block that is mapped for a file that is not there. -/
def emptyFile : Config := { config := some (Bytes.zeros 4096), blocklen := 4096 }

def home : Bytes := "home".toUTF8.toList

def key (x : UInt8) : Bytes := List.replicate 32 x

def storing : List StoreCall :=
  [.save home (key 1) {}, .save [0x20, 0x0A] (key 2) {}, .save home (key 3) {}, .drop [0x20, 0x0A],
    .load home (key 0)]

def longName : Bytes := List.replicate 30 0x61

end Sample

theorem storing_isMap : recordedStore.Always IsMap (some Sample.emptyFile, fun _ => none) Sample.storing :=
  (store_isMap_iff rfl rfl (by decide +kernel)).mpr (by decide +kernel)

/-- A name of thirty bytes is cut where it is saved, and is not found again when its key
is asked for. -/
theorem longName_lost :
    pskStore.Valid (some Sample.emptyFile) [.save Sample.longName (Sample.key 1) {}] ∧
    ¬ recordedStore.Always IsMap (some Sample.emptyFile, fun _ => none)
      [.save Sample.longName (Sample.key 1) {}] := by
  refine ⟨by decide +kernel, fun h => ?_⟩
  obtain ⟨c, hc, hserves⟩ := h.2
  have hload := (hserves Sample.longName (by decide +kernel) (by decide +kernel)).load (Sample.key 0) rfl
  have hlost : ((recordedStore.step (some Sample.emptyFile, fun _ => none)
      (.save Sample.longName (Sample.key 1) {})).1.1.map
      fun c => (c.loadPsk {} Sample.longName (Sample.key 0)).1) = some (-ENOKEY) := by decide +kernel
  rw [hc, Option.map_some, hload] at hlost
  cases hlost

end Wsupp

import Wsupp.Control.TableShape
import Wsupp.Psk.Known

/-!
# Flags of the scan table

`SF_GOOD` and `SF_PASS` remember what a slot's ciphers and the PSK file said when
the slot was looked at. Both may change later: a new result rewrites the slot, and
PSKs are saved and dropped.

The flags are revised when a scan ends, when a connection comes up and when a PSK is
forgotten, and not elsewhere. `keepsFlags` is the condition on a step under which
what is remembered stays true: a rewritten slot still fits its flags, no other slot
is concerned by a new PSK, and no call on the file fails. In a run of such steps the
flags are right whenever they have been revised.
-/
namespace Wsupp
open Reactive View Relation

/-- The flags of a slot say what is the case: a good slot has ciphers the station can
use, and a good one that has been looked at has the mark for a PSK exactly if there is
one. -/
structure Scan.Coherent (known : Bytes → Bool) (sc : Scan) : Prop where
  good : sc.flags.good = true → checkWpa sc = true
  pass : sc.flags.seen = true → sc.flags.good = true → (sc.flags.pass = true ↔ known sc.name = true)

def System.Coherent (x : System) : Prop :=
  ∀ i < x.table.nscans, (x.table.get i).freq ≠ 0 → (x.table.get i).Coherent x.config.known

def Act.handlesConnect : Act → Bool
  | .call (.handleConnect _) => true
  | _ => false

/-- A scan is completed, a connection comes up, or a PSK is forgotten. -/
def System.revises (x : System) (e : Event) : Bool :=
  match e.kind with
  | .netlink .done => x.scanstate = .scandump
  | .frame .. => (x.step e).2.any Act.handlesConnect
  | .connMsg cn msg => msg.cmd = .forget && decide (Act.reply cn 0 ∈ (x.step e).2)
  | _ => false

/-- The file has been loaded, or can be: it is of a size that is accepted and no call
fails. -/
def Tables.Loads (t : Tables) : Prop :=
  t.config.config.isSome = true ∨
    ((∀ io ∈ t.loadIO, io.Ok) ∧ (t.config.file.getD []).length ≤ MAX_CONFIG_SIZE)

/-- What a slot is rewritten to has its flags still. -/
def Scan.Refreshed (known : Bytes → Bool) (sc sc' : Scan) : Prop :=
  (sc.flags.good = true → checkWpa sc' = true) ∧
    (sc.flags.good = true ∨ (sc.flags.seen = false ∧ sc.flags.pass = true) →
      known sc'.name = known sc.name)

def Tables.Refreshes (t : Tables) (bss : Netlink.Bss) : Prop :=
  ∀ i < t.table.nscans, (t.table.get i).freq ≠ 0 →
    some (t.table.get i).bssid = bss.bssid.filter (·.length = 6) →
    (t.table.get i).Refreshed t.config.known (Netlink.scanOf bss (t.table.get i).bssid (t.table.get i))

/-- No good slot but that of the access point has its name. -/
def Tables.Alone (t : Tables) (name : Bytes) : Prop :=
  ∀ i < t.table.nscans, (t.table.get i).freq ≠ 0 → (t.table.get i).flags.good = true →
    (t.table.get i).name = name → findCurrentAp t.ap t.table = some i

/-- A name that the file does not know yet can be saved in full, and concerns one slot. -/
def Tables.SavesFirst (t : Tables) : Prop :=
  let name := t.ap.ssid.take t.ap.slen
  t.config.known name = false → name ≠ [] ∧ Config.Fits name ∧
    ¬ (t.config.loadConfig {}).2.Stalls (t.remapIO.headD {}) ((Config.spell name).length + 66) ∧
    t.Alone name

/-- An event that does not leave flags behind the facts. -/
def Daemon.keepsFlags (s : Daemon) (k : EventKind) : Prop :=
  s.tables.Loads ∧ match k with
    | .netlink (.gen msg) => msg.ifi = some s.ifindex → msg.cmd = .newScanResults → msg.multi = true →
        ∀ bss ∈ msg.bss, s.tables.Refreshes bss
    | .frame sender data => s.eapolstate = .waiting34 → s.verdict sender data = .taken →
        s.ap.unsaved = true → s.tables.SavesFirst
    | _ => True

instance (known : Bytes → Bool) (sc sc' : Scan) : Decidable (sc.Refreshed known sc') :=
  inferInstanceAs (Decidable ((_ → _) ∧ (_ ∨ (_ ∧ _) → _)))

instance (t : Tables) : Decidable t.Loads :=
  inferInstanceAs (Decidable (_ ∨ ((∀ io ∈ t.loadIO, io.Ok) ∧ _)))

instance (t : Tables) (bss : Netlink.Bss) : Decidable (t.Refreshes bss) :=
  inferInstanceAs (Decidable (∀ i < _, (t.table.get i).freq ≠ 0 → _ → Scan.Refreshed _ _ _))

instance (t : Tables) (name : Bytes) : Decidable (t.Alone name) :=
  inferInstanceAs (Decidable (∀ i < _, (t.table.get i).freq ≠ 0 → _ → _ → _ = some i))

instance (t : Tables) : Decidable t.SavesFirst :=
  inferInstanceAs (Decidable (_ → _ ∧ _ ∧ _ ∧ _))

instance (s : Daemon) (k : EventKind) : Decidable (s.keepsFlags k) :=
  haveI : Decidable (match k with
    | .netlink (.gen msg) => msg.ifi = some s.ifindex → msg.cmd = .newScanResults → msg.multi = true →
        ∀ bss ∈ msg.bss, s.tables.Refreshes bss
    | .frame sender data => s.eapolstate = .waiting34 → s.verdict sender data = .taken →
        s.ap.unsaved = true → s.tables.SavesFirst
    | _ => True) := by
    split <;> infer_instance
  inferInstanceAs (Decidable (_ ∧ _))

instance (known : Bytes → Bool) (sc : Scan) : Decidable (sc.Coherent known) :=
  decidable_of_iff ((sc.flags.good = true → checkWpa sc = true) ∧
      (sc.flags.seen = true → sc.flags.good = true → (sc.flags.pass = true ↔ known sc.name = true)))
    ⟨fun h => ⟨h.1, h.2⟩, fun h => ⟨h.good, h.pass⟩⟩

instance (x : System) : Decidable x.Coherent :=
  inferInstanceAs (Decidable (∀ i < _, (x.table.get i).freq ≠ 0 → Scan.Coherent _ _))

/-- What the flags of a slot stand for. A slot that has been seen and is not good any more
is not looked at again, and its `SF_PASS` stands for nothing. -/
structure Scan.Sound (known : Bytes → Bool) (sc : Scan) : Prop where
  seen : sc.flags.good = true → sc.flags.seen = true
  good : sc.flags.good = true → checkWpa sc = true
  pass : sc.flags.good = true ∨ sc.flags.seen = false → sc.flags.pass = true → known sc.name = true
  known : sc.flags.good = true → known sc.name = true → sc.flags.pass = true

namespace Scan.Sound
variable {known known' : Bytes → Bool} {sc sc' : Scan}

theorem coherent (h : sc.Sound known) : sc.Coherent known where
  good := h.good
  pass _ hgood := ⟨h.pass (.inl hgood), h.known hgood⟩

theorem of_flags (h : sc.Sound known) {f : ScanFlags} (hseen : f.seen = sc.flags.seen)
    (hpass : f.pass = sc.flags.pass) (hgood : f.good = true → sc.flags.good = true) :
    Scan.Sound known { sc with flags := f } where
  seen hg := hseen.trans (h.seen (hgood hg))
  good hg := h.good (hgood hg)
  pass hg hp := h.pass (hg.imp hgood hseen.symm.trans) (hpass.symm.trans hp)
  known hg hk := hpass.trans (h.known (hgood hg) hk)

theorem see (h : sc.Sound known) (hunseen : sc.flags.seen = false) (hwpa : checkWpa sc = true) :
    Scan.Sound known { sc with flags := { sc.flags with
      seen := true, good := true, pass := sc.flags.pass || known sc.name } } where
  seen _ := rfl
  good _ := hwpa
  pass _ hp := by
    rcases Bool.or_eq_true_iff.mp hp with hp | hk
    · exact h.pass (.inr hunseen) hp
    · exact hk
  known _ hk := Bool.or_eq_true_iff.mpr (.inr hk)

theorem see_bad (h : sc.Sound known) (hunseen : sc.flags.seen = false) :
    Scan.Sound known { sc with flags := { sc.flags with seen := true } } := by
  have hbad : ¬ sc.flags.good = true := fun hg => by
    rw [h.seen hg] at hunseen
    cases hunseen
  constructor
  · exact fun _ => rfl
  · exact fun hg => absurd hg hbad
  · rintro (hg | hs)
    · exact absurd hg hbad
    · cases hs
  · exact fun hg => absurd hg hbad

theorem rewrite (h : sc.Sound known) (hr : sc.Refreshed known sc')
    (hflags : sc'.flags = { sc.flags with stale := false }) : sc'.Sound known := by
  constructor
  · intro hg
    rw [hflags] at hg ⊢
    exact h.seen hg
  · intro hg
    rw [hflags] at hg
    exact hr.1 hg
  · intro ht hp
    rw [hflags] at ht hp
    rw [hr.2 (ht.imp_right fun hs => ⟨hs, hp⟩)]
    exact h.pass ht hp
  · intro hg hk
    rw [hflags] at hg ⊢
    rw [hr.2 (.inl hg)] at hk
    exact h.known hg hk

theorem empty : Scan.Sound known {} := by
  constructor
  · exact fun h => by cases h
  · exact fun h => by cases h
  · exact fun _ h => by cases h
  · exact fun h => by cases h

end Scan.Sound

/-- The PSK file is the map, and the flags stand for what it knows. This is what every
step that meets the condition keeps. -/
structure Tables.Remembers (r : Bytes → Option Bytes) (t : Tables) : Prop where
  written : t.config.Written r
  key : t.PSK.length = 32
  slots : ∀ i, (t.table.get i).freq ≠ 0 → (t.table.get i).Sound fun n => (r n).isSome

theorem Tables.Loads.loadsBy {t : Tables} (h : t.Loads) : t.config.LoadsBy (t.loadIO.headD {}) := by
  refine h.imp_right fun h => ⟨?_, h.2⟩
  cases hio : t.loadIO with
  | nil => exact LoadIO.ok_default
  | cons io ios => exact h.1 io (hio ▸ List.mem_cons_self)

namespace Tables.Remembers
variable {r : Bytes → Option Bytes} {t t' : Tables}

theorem load_eq (h : t.Loads) : t.config.loadConfig (t.loadIO.headD {}) = t.config.loadConfig {} :=
  Config.loadConfig_ok h.loadsBy

theorem load (h : t.Remembers r) (hl : t.Loads) : t.load.Remembers r ∧ t.load.Loads := by
  have hmapped : t.load.config.config.isSome = true := by
    change (t.config.loadConfig _).2.config.isSome = true
    rw [load_eq hl]
    exact h.written.2.1
  exact ⟨⟨h.written.load (load_eq hl), h.key, h.slots⟩, .inl hmapped⟩

theorem of_flags (h : t.Remembers r) (hconfig : t'.config = t.config) (hkey : t'.PSK.length = 32)
    (hsame : t.table.SameSlots t'.table) (hflags : ∀ i,
      (t'.table.get i).flags.seen = (t.table.get i).flags.seen ∧
      (t'.table.get i).flags.pass = (t.table.get i).flags.pass ∧
      ((t'.table.get i).flags.good = true → (t.table.get i).flags.good = true)) :
    t'.Remembers r where
  written := hconfig ▸ h.written
  key := hkey
  slots i hi := by
    obtain ⟨⟨f, hf⟩, -⟩ := hsame.get i
    obtain ⟨hseen, hpass, hgood⟩ := hflags i
    rw [hf] at hi hseen hpass hgood ⊢
    exact (h.slots i hi).of_flags hseen hpass hgood

theorem move {R : Ap → Ap → Prop} (h : t.Remembers r) (hl : t.Loads) (hm : TableMove R t t') :
    t'.Remembers r ∧ t'.Loads := by
  have hflags := moves_flags (.single hm)
  have hkeep (hconfig : t'.config = t.config) (hkey : t'.PSK.length = 32) : t'.Remembers r :=
    h.of_flags hconfig hkey hm.sameSlots fun i => ⟨(hflags i).seen, (hflags i).pass, (hflags i).good⟩
  cases hm with
  | retunes ap _ => exact ⟨hkeep rfl h.key, hl⟩
  | rekeys PSK hpsk => exact ⟨hkeep rfl (hpsk h.key), hl⟩
  | retries table _ => exact ⟨hkeep rfl h.key, hl⟩
  | fails i _ => exact ⟨hkeep rfl h.key, hl⟩
  | loads => exact h.load hl

theorem moves {R : Ap → Ap → Prop} (h : t.Remembers r) (hl : t.Loads)
    (hm : ReflTransGen (TableMove R) t t') : t'.Remembers r ∧ t'.Loads := by
  induction hm with
  | refl => exact ⟨h, hl⟩
  | tail _ hm ih => exact ih.1.move ih.2 hm

theorem flag (h : t.Remembers r) {i : ℕ} {f : ScanFlags → ScanFlags}
    (hi : (t.table.get i).freq ≠ 0 → Scan.Sound (fun n => (r n).isSome)
      { t.table.get i with flags := f (t.table.get i).flags }) : (t.flag (some i) f).Remembers r where
  written := h.written
  key := h.key
  slots j hj := by
    change ((t.table.flag (some i) f).get j).freq ≠ 0 at hj
    change Scan.Sound _ ((t.table.flag (some i) f).get j)
    rw [ScanTable.get_flag] at hj ⊢
    split at hj
    · next hij =>
        obtain rfl := Option.some.inj hij.1
        rw [if_pos hij]
        exact hi hj
    · next hij =>
        rw [if_neg hij]
        exact h.slots j hj

theorem see (h : t.Remembers r) (hl : t.Loads) (i : ℕ) : (t.see i).Remembers r ∧ (t.see i).Loads := by
  unfold Tables.see
  dsimp only
  split
  · exact ⟨h, hl⟩
  next hnew =>
  obtain ⟨hfreq, hseen⟩ := not_or.mp hnew
  have hunseen := eq_false_of_ne_true hseen
  have hslot := h.slots i hfreq
  split
  · next hwpa =>
      rw [h.written.gotPskFor (load_eq hl)]
      exact ⟨(h.load hl).1.flag fun _ => hslot.see hunseen hwpa, (h.load hl).2⟩
  · exact ⟨h.flag fun _ => hslot.see_bad hunseen, hl⟩

theorem seeAll (h : t.Remembers r) (hl : t.Loads) (is : List ℕ) :
    (t.seeAll is).Remembers r ∧ (t.seeAll is).Loads := by
  induction is generalizing t with
  | nil => exact ⟨h, hl⟩
  | cons i is ih =>
      have hsee := h.see hl i
      exact ih hsee.1 hsee.2

theorem scanned (h : t.Remembers r) (hl : t.Loads) : t.scanned.Remembers r ∧ t.scanned.Loads := by
  have hdrop : Tables.Remembers r { t with table := t.table.dropStale } := by
    refine ⟨h.written, h.key, fun i hi => ?_⟩
    change (t.table.dropStale.get i).freq ≠ 0 at hi
    change Scan.Sound _ (t.table.dropStale.get i)
    rw [ScanTable.get_dropStale] at hi ⊢
    split at hi
    · exact absurd rfl hi
    · next hkept =>
        rw [if_neg hkept]
        exact h.slots i hi
  exact hdrop.seeAll hl _

theorem known_eq (h : t.Remembers r) : t.config.known = fun n => (r n).isSome :=
  funext h.written.known

theorem result (h : t.Remembers r) (ht : t.table.Shaped) {bss : Netlink.Bss} (hr : t.Refreshes bss) :
    (t.result bss).Remembers r := by
  rcases Tables.result_cases ht bss with ⟨heq, -⟩ | ⟨bssid, i, sc, table, hb, heq, hfill⟩
  · rwa [heq]
  rw [heq]
  refine ⟨h.written, h.key, fun j hj => ?_⟩
  change (table.get j).freq ≠ 0 at hj
  change Scan.Sound _ (table.get j)
  rw [hfill.get] at hj ⊢
  split at hj
  swap
  · next hij =>
      rw [if_neg hij]
      exact h.slots j hj
  next hij =>
  rw [if_pos hij]
  have hflags := (Netlink.scanOf_described bss bssid sc).flags
  rcases hfill.slot with ⟨rfl, hfreq, hbi⟩ | ⟨rfl, -⟩
  · have hlt := ht.lt (Scan.ne_of_freq hfreq)
    have hrefresh := hr i hlt hfreq (by rw [hbi, hb])
    rw [hbi, h.known_eq] at hrefresh
    exact (h.slots i hfreq).rewrite hrefresh hflags
  · refine Scan.Sound.empty.rewrite ⟨fun hg => (by cases hg), ?_⟩ hflags
    rintro (hg | ⟨-, hp⟩)
    · cases hg
    · cases hp

theorem mark (h : t.Remembers r) (freqs : List (Option Int)) : (t.mark freqs).Remembers r := by
  refine h.of_flags rfl h.key (t.sameSlots_mark freqs) fun i => ?_
  change ((t.table.map _).get i).flags.seen = _ ∧ ((t.table.map _).get i).flags.pass = _ ∧
    (((t.table.map _).get i).flags.good = true → _)
  rw [ScanTable.get_map]
  split
  · split <;> exact ⟨rfl, rfl, id⟩
  · exact ⟨rfl, rfl, id⟩

/-- A PSK is dropped: the slots with its name lose `SF_PASS`. -/
theorem forget (h : t.Remembers r) (hl : t.Loads) (ht : t.table.Shaped) {ssid : Bytes} {ret : Int}
    {config : Config} (hdrop : t.config.dropPsk (t.loadIO.headD {}) ssid = some (ret, config)) :
    (t.forget ssid config).Remembers (Function.update r ssid none) := by
  refine ⟨(h.written.dropPsk (load_eq hl) hdrop).1, h.key, fun i hi => ?_⟩
  change ((t.table.map _).get i).freq ≠ 0 at hi
  change Scan.Sound _ ((t.table.map _).get i)
  have hin : i < t.table.nscans := by
    by_contra hout
    rw [ScanTable.get_map, if_neg hout, ht.trimmed i (not_lt.mp hout)] at hi
    exact hi rfl
  rw [ScanTable.get_map, if_pos hin] at hi ⊢
  have hname := Scan.name_eq_iff (ht.named i) ssid
  split
  · next hc =>
      rw [if_pos hc] at hi
      have hslot := h.slots i hi
      have heq : Scan.name { t.table.get i with flags := { (t.table.get i).flags with pass := false } } =
        ssid := hname.mp hc
      constructor
      · exact hslot.seen
      · exact hslot.good
      · exact fun _ hp => by cases hp
      · intro _ hk
        rw [heq, Function.update_self] at hk
        cases hk
  · next hc =>
      rw [if_neg hc] at hi
      have hslot := h.slots i hi
      have hne : (t.table.get i).name ≠ ssid := fun heq => hc (hname.mpr heq)
      refine ⟨hslot.seen, hslot.good, ?_, ?_⟩
      · rw [Function.update_of_ne hne]
        exact hslot.pass
      · rw [Function.update_of_ne hne]
        exact hslot.known

theorem forget_fails (h : t.Remembers r) (hl : t.Loads) {ssid : Bytes} {ret : Int} {config : Config}
    (hdrop : t.config.dropPsk (t.loadIO.headD {}) ssid = some (ret, config)) (hret : ret < 0) :
    Tables.Remembers r { t with config := config, loadIO := t.loadIO.tail } := by
  obtain ⟨hwritten, habsent⟩ := h.written.dropPsk (load_eq hl) hdrop
  rw [← habsent hret, Function.update_eq_self] at hwritten
  exact ⟨hwritten, h.key, h.slots⟩

theorem findCurrentAp_name {ap : Ap} {table : ScanTable} {i : ℕ}
    (h : findCurrentAp ap table = some i) : (table.get i).name = ap.ssid.take ap.slen := by
  obtain ⟨-, hp⟩ := ScanTable.find_eq_some h
  simp only [sameSsid, Bool.and_eq_true, decide_eq_true_eq] at hp
  rw [Scan.name, hp.1.2.1, hp.1.2.2]

/-- The PSK that a connection came up with is saved. -/
theorem connects (h : t.Remembers r) (hl : t.Loads) (ht : t.table.Shaped) (hc : Connects t t')
    (hsaves : t.ap.unsaved = true → t.SavesFirst) : ∃ r', t'.Remembers r' := by
  cases hc with
  | keeps _ =>
      refine ⟨r, h.of_flags rfl h.key (t.table.sameSlots_flag t.ap fun f => { f with tried := false })
        fun i => ?_⟩
      change ((t.table.flag _ _).get i).flags.seen = _ ∧ ((t.table.flag _ _).get i).flags.pass = _ ∧
        (((t.table.flag _ _).get i).flags.good = true → _)
      rw [ScanTable.get_flag]
      split <;> exact ⟨rfl, rfl, id⟩
  | @saves config hunsaved hsave =>
      have hfirst := hsaves hunsaved
      unfold Tables.SavesFirst at hfirst
      obtain ⟨name, hname⟩ : ∃ name, t.ap.ssid.take t.ap.slen = name := ⟨_, rfl⟩
      rw [hname] at hfirst hsave
      have hknown := h.written.known name
      refine ⟨Function.update r name (some t.PSK), ?_, h.key, fun i hi => ?_⟩
      · refine h.written.savePsk (load_eq hl) h.key (fun hnew => ?_) hsave
        rw [h.written.findSsid] at hnew
        rw [hnew] at hknown
        obtain ⟨hne, hfits, hroom, -⟩ := hfirst hknown
        exact ⟨hne, hfits, hroom⟩
      · change ((t.table.flag (findCurrentAp t.ap t.table) _).get i).freq ≠ 0 at hi
        change Scan.Sound _ ((t.table.flag (findCurrentAp t.ap t.table) _).get i)
        rw [ScanTable.get_flag] at hi ⊢
        split at hi
        · next hcur =>
            rw [if_pos hcur]
            have hslot := h.slots i hi
            have heq : Scan.name { t.table.get i with flags := { (t.table.get i).flags with
                tried := false, pass := true } } = name :=
              (findCurrentAp_name hcur.1).trans hname
            constructor
            · exact hslot.seen
            · exact hslot.good
            · intro _ _
              rw [heq, Function.update_self]
              rfl
            · exact fun _ _ => rfl
        · next hcur =>
            rw [if_neg hcur]
            have hslot := h.slots i hi
            by_cases heq : (t.table.get i).name = name
            swap
            · refine ⟨hslot.seen, hslot.good, ?_, ?_⟩
              · rw [Function.update_of_ne heq]
                exact hslot.pass
              · rw [Function.update_of_ne heq]
                exact hslot.known
            refine ⟨hslot.seen, hslot.good, ?_, fun hgood _ => ?_⟩
            · intro _ _
              rw [heq, Function.update_self]
              rfl
            · -- a good slot that is not the access point's has a name that was known before
              cases hr : r name with
              | some psk =>
                  refine hslot.known hgood ?_
                  rw [heq, hr]
                  rfl
              | none =>
                  rw [hr] at hknown
                  have hlt := ht.lt (Scan.ne_of_freq hi)
                  have hcur' := (hfirst hknown).2.2.2 i hlt hi hgood heq
                  exact absurd ⟨hcur', ScanTable.get_le hi⟩ hcur

theorem write (h : t.Remembers r) (io : SaveIO) : (t.written io).Remembers r :=
  ⟨h.written.saveConfig io, h.key, h.slots⟩

end Tables.Remembers

theorem moves_key {R : Ap → Ap → Prop} {t t' : Tables} (hm : ReflTransGen (TableMove R) t t')
    (h : t.PSK.length = 32) : t'.PSK.length = 32 := by
  induction hm with
  | refl => exact h
  | tail _ hm ih =>
      cases hm with
      | rekeys PSK hpsk => exact hpsk ih
      | retunes | retries | fails | loads => exact ih

theorem TableStep.remembers {s : Daemon} {k : EventKind} {t : Tables} {r : Bytes → Option Bytes}
    (hstep : TableStep s k t) (h : s.tables.Remembers r) (ht : s.tables.table.Shaped)
    (hk : s.keepsFlags k) : ∃ r', t.Remembers r' := by
  obtain ⟨hl, hk⟩ := hk
  cases hstep with
  | roams _ hm => exact ⟨r, (h.moves hl hm).1⟩
  | configures _ _ _ hm _ hm' =>
      obtain ⟨h', hl'⟩ := h.moves hl hm
      exact ⟨r, (h'.moves hl' hm').1⟩
  | forgets _ _ _ hdrop =>
      split
      · next hret => exact ⟨r, h.forget_fails hl hdrop hret⟩
      · exact ⟨_, h.forget hl ht hdrop⟩
  | dumps _ _ hm =>
      obtain ⟨h', hl'⟩ := h.scanned hl
      exact ⟨r, (h'.moves hl' hm).1⟩
  | marks _ _ _ _ _ => exact ⟨r, h.mark _⟩
  | fills hkind hifi hcmd hmulti hbss =>
      subst hkind
      exact ⟨r, h.result ht (hk hifi hcmd hmulti _ hbss)⟩
  | connects hkind hstate hverdict hc =>
      subst hkind
      exact h.connects hl ht hc (hk hstate hverdict)
  | writes _ => exact ⟨r, h.write _⟩

namespace System

/-- The flags of a running daemon stand for what the PSK file knows. -/
def Remembers (x : System) : Prop :=
  x.halted = false → x.table.Shaped ∧ ∃ r, x.tables.Remembers r

theorem Remembers.coherent {x : System} (h : x.Remembers) (hrun : x.halted = false) : x.Coherent := by
  obtain ⟨-, r, hr⟩ := h hrun
  intro i _ hi
  have hslot := (hr.slots i hi).coherent
  rw [← hr.known_eq] at hslot
  exact hslot

theorem step_remembers {x : System} (hx : x.Remembers) {e : Event} (he : x.Enabled e)
    (hk : (x.before e).keepsFlags e.kind) : (x.step e).1.Remembers := by
  intro hrun
  obtain ⟨hshaped, r, hr⟩ := hx he.1
  refine ⟨step_shaped (fun _ => hshaped) he hrun, ?_⟩
  have hr : (x.before e).tables.Remembers r := ⟨hr.written, hr.key, hr.slots⟩
  exact (step_tables hshaped.named hrun).remembers (s := x.before e) hr hshaped hk

end System

/-- In a run in which the PSK file can be loaded, no slot with flags is rewritten to
what its flags do not fit, and no new PSK concerns other slots than that of the access
point, the flags are right whenever they have been revised. The conditions are on the
steps, each in the state it is made in. -/
theorem flags_coherent {x : System} (hx : x.Initial) {r : Bytes → Option Bytes} (hr : x.config.Written r)
    {es : List Event} (hv : supplicant.Valid x es)
    (hc : supplicant.Every (fun y e => (y.before e).keepsFlags e.kind) x es) :
    supplicant.Every (fun y e => y.revises e = true → (y.step e).1.halted = false →
      (y.step e).1.Coherent) x es := by
  refine Machine.Every.imp (I := System.Remembers) (fun y e hy he hk => System.step_remembers hy he hk)
    ?_ ?_ hv hc
  · intro y e hy he hk _ hrun
    exact (System.step_remembers hy he hk).coherent hrun
  · intro hrun
    obtain ⟨smac, ifindex, psks, env, hpath⟩ := hx.tables
    refine ⟨hx.shaped hrun, r, hr, moves_key hpath rfl, fun i hi => ?_⟩
    have hempty : x.table.get i = {} :=
      ((moves_sameSlots hpath).get i).2 (ScanTable.get_empty i)
    change (x.table.get i).freq ≠ 0 at hi
    rw [hempty] at hi
    exact absurd rfl hi

namespace Sample

/-- The access point is found, and found again without the element that says how it
encrypts. -/
def opened : Event := event <| .netlink <| .gen
  { ifi := some 3, cmd := .newScanResults, multi := true,
    bss := some { bssid := some bssid, freq := some 2412, signal := some (-5000), ies := some [0, 1, 0x78] } }

/-- The access point is found, used and forgotten. -/
def forgotten : List Event :=
  [event (.accept 5), event .turn, notice .newScanResults, found, event (.netlink .done), event .turn,
    asks .connect, event .turn, event (.connMsg 0 { cmd := .forget, ssid := some ssid })]

theorem knows_written : knows.config.Written fun name => if name = ssid then some psk else none := by
  refine @Config.written_of_text _ [⟨ssid, psk⟩] _ (by decide +kernel) (by decide +kernel) (by decide +kernel)
    ?_ ?_ (List.nodup_singleton _) ?_
  · exact List.forall_mem_singleton.mpr ⟨by decide, rfl⟩
  · exact List.forall_mem_singleton.mpr (by decide)
  · intro name key
    rw [List.mem_singleton, Entry.mk.injEq]
    split
    · next h => simp [h, eq_comm]
    · next h => simp [h]

/-- A scan for a client, after which the access point is not protected any more. -/
def unprotected : List Event :=
  [event (.accept 5), event .turn, notice .newScanResults, found, event (.netlink .done), event .turn,
    asks .scan, notice .newScanResults, opened, event (.netlink .done)]

end Sample

theorem forgotten_coherent : supplicant.Every (fun y e => y.revises e = true →
    (y.step e).1.halted = false → (y.step e).1.Coherent) Sample.knows Sample.forgotten :=
  flags_coherent Sample.knows_initial Sample.knows_written (by decide +kernel) (by decide +kernel)

/-- The access point is found again without the element that says how it encrypts. Its
slot is still marked as one that can be used. -/
theorem unprotected_good : Sample.start.Initial ∧ supplicant.Valid Sample.start Sample.unprotected ∧
    ¬ supplicant.Every (fun y e => y.revises e = true →
      (y.step e).1.halted = false → (y.step e).1.Coherent) Sample.start Sample.unprotected :=
  ⟨Sample.start_initial, by decide +kernel, by decide +kernel⟩

end Wsupp

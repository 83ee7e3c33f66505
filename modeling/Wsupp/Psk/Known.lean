import Wsupp.Psk.Cache

/-!
# Networks the PSK file knows

What `got_psk_for` answers while nothing fails, and how saving and dropping a PSK
changes it. The file need not be loaded yet: `Written` says that the file, or the
buffer once there is one, has the lines of a map from names to keys and nothing
else.

Under it the answers of the PSK file are those of the map. Saving a key sets one
value, provided that the name fits a line and there is memory for it; dropping one
clears it. The coherence of the flags of the scan table is proved with these rules,
without looking at the text again.
-/
namespace Wsupp

/-- Nothing fails and nothing is short: the file is opened, mapped and read as a whole,
if it has to be read at all. -/
structure LoadIO.Ok (io : LoadIO) : Prop where
  opened : io.openErr = false
  stated : io.statErr = false
  mapped : io.mmapErr = false
  read : io.readErr = false
  whole : io.short = 0

instance (io : LoadIO) : Decidable io.Ok :=
  decidable_of_iff (io.openErr = false ∧ io.statErr = false ∧ io.mmapErr = false ∧ io.readErr = false ∧
    io.short = 0) ⟨fun ⟨h₁, h₂, h₃, h₄, h₅⟩ => ⟨h₁, h₂, h₃, h₄, h₅⟩, fun ⟨h₁, h₂, h₃, h₄, h₅⟩ => ⟨h₁, h₂, h₃, h₄, h₅⟩⟩

theorem LoadIO.ok_default : LoadIO.Ok {} := ⟨rfl, rfl, rfl, rfl, rfl⟩

namespace Config

/-- The file has been loaded, or these answers to the calls get it loaded. -/
def LoadsBy (c : Config) (io : LoadIO) : Prop :=
  c.config.isSome = true ∨ (io.Ok ∧ (c.file.getD []).length ≤ MAX_CONFIG_SIZE)

/-- `got_psk_for`, with nothing in the way of loading the file. -/
def known (c : Config) (ssid : Bytes) : Bool := (c.gotPskFor {} ssid).1

/-- What the file has in it, once it is loaded, is the map. -/
def Written (c : Config) (r : Bytes → Option Bytes) : Prop :=
  (c.loadConfig {}).1 = 0 ∧ (c.loadConfig {}).2.config.isSome = true ∧
    ∃ es, Represents (c.loadConfig {}).2 es r

theorem openStatConfig_ok {c : Config} {io : LoadIO} (hio : io.Ok)
    (hfile : (c.file.getD []).length ≤ MAX_CONFIG_SIZE) :
    (openStatConfig io c).getD ([], 0) = (c.file.getD [], ((c.file.getD []).length : Int)) := by
  unfold openStatConfig
  cases hc : c.file with
  | none => rfl
  | some text =>
      rw [hc, Option.getD_some] at hfile
      simp [hio.opened, hio.stated, not_lt.mpr hfile]

theorem loadConfig_ok {c : Config} {io : LoadIO} (h : c.LoadsBy io) :
    c.loadConfig io = c.loadConfig {} := by
  rcases h with hmapped | ⟨hio, hfile⟩
  · rw [loadConfig_mapped hmapped, loadConfig_mapped hmapped]
  · unfold loadConfig
    rw [openStatConfig_ok hio hfile, openStatConfig_ok LoadIO.ok_default hfile]
    dsimp only
    unfold mmapConfigBuf readConfigWhole
    simp only [hio.mapped, hio.read, hio.whole]

/-- A file of a size that is accepted is loaded whole. -/
theorem loadConfig_whole {c : Config} (hc : c.config = none)
    (hsize : (c.file.getD []).length ≤ MAX_CONFIG_SIZE) : ∃ c', c.loadConfig {} = (0, c') ∧
      c'.config.isSome = true ∧ c'.buf.take c'.datalen = c.file.getD [] ∧
      c'.datalen = (c.file.getD []).length ∧ c'.datalen ≤ c'.blocklen := by
  unfold loadConfig
  rw [if_neg (by simp [hc]), openStatConfig_ok LoadIO.ok_default hsize]
  obtain ⟨text, htext⟩ : ∃ text, c.file.getD [] = text := ⟨_, rfl⟩
  rw [htext]
  have hroom := le_alignPage ((text.length : Int) + 1024).toNat
  have hmap : ¬ ((false : Bool) = true ∨ (text.length : Int) + 1024 ≤ 0) := by
    rintro (h | h)
    · cases h
    · omega
  have hread : min (text.length : Int).toNat text.length - 0 = text.length := by omega
  dsimp only
  unfold mmapConfigBuf readConfigWhole
  rw [if_neg hmap]
  dsimp only
  by_cases hempty : (text.length : Int) ≤ 0
  · obtain rfl : text = [] := List.length_eq_zero_iff.mp (by omega)
    exact ⟨_, rfl, rfl, rfl, rfl, Nat.zero_le _⟩
  · rw [if_neg hempty, hread, if_neg Bool.false_ne_true]
    dsimp only
    rw [if_neg (lt_irrefl _)]
    refine ⟨_, rfl, rfl, ?_, Int.toNat_natCast _, ?_⟩
    · simp only [buf, Option.getD_some, Int.toNat_natCast]
      rw [length_memcpy_zeros le_rfl (by omega) le_rfl, Nat.sub_self, List.take_length]
      exact List.append_nil text
    · simp only [Int.toNat_natCast]
      omega

theorem written_of_text {c : Config} {es : List Entry} {r : Bytes → Option Bytes} (hc : c.config = none)
    (hfile : c.file.getD [] = entriesText es) (hsize : (entriesText es).length ≤ MAX_CONFIG_SIZE)
    (hproper : ∀ en ∈ es, en.Proper) (hfits : ∀ en ∈ es, Fits en.ssid)
    (hnodup : (es.map Entry.ssid).Nodup) (hr : ∀ ssid psk, r ssid = some psk ↔ ⟨ssid, psk⟩ ∈ es) :
    c.Written r := by
  obtain ⟨c', hload, hmapped, htext, hlen, hroom⟩ := loadConfig_whole hc (by rwa [hfile])
  rw [Written, hload]
  rw [hfile] at htext hlen
  exact ⟨rfl, hmapped, es, ⟨⟨hmapped, htext, hlen, hroom, hproper⟩, hfits, hnodup, hr⟩⟩

section Operations
variable {c : Config} {r : Bytes → Option Bytes} {ssid : Bytes}

theorem Written.loadConfig_eq {io : LoadIO} (h : c.Written r) (hio : c.loadConfig io = c.loadConfig {}) :
    c.loadConfig io = (0, (c.loadConfig {}).2) := by
  rw [hio]
  exact Prod.ext h.1 rfl

theorem written_iff (hmapped : c.config.isSome = true) : c.Written r ↔ ∃ es, Represents c es r := by
  rw [Written, loadConfig_mapped hmapped]
  exact ⟨fun h => h.2.2, fun h => ⟨rfl, hmapped, h⟩⟩

theorem Written.loaded (h : c.Written r) : (c.loadConfig {}).2.Written r := by
  rw [Written, loadConfig_mapped h.2.1]
  exact ⟨rfl, h.2⟩

theorem Written.load {io : LoadIO} (h : c.Written r) (hio : c.loadConfig io = c.loadConfig {}) :
    (c.loadConfig io).2.Written r := by
  rw [hio]
  exact h.loaded

theorem Written.gotPskFor {io : LoadIO} (h : c.Written r) (hio : c.loadConfig io = c.loadConfig {})
    (ssid : Bytes) : (c.gotPskFor io ssid).1 = (r ssid).isSome := by
  have hload := h.loadConfig_eq hio
  obtain ⟨-, -, es, hrep⟩ := h
  rw [Config.gotPskFor, hload]
  dsimp only
  rw [if_neg (not_not.mpr rfl)]
  cases hr : r ssid with
  | none =>
      rw [hrep.holds.findSsid_absent (hrep.absent hr)]
      rfl
  | some psk =>
      obtain ⟨es₁, es₂, rfl, hfinds, -⟩ := hrep.finds hr
      rw [hrep.holds.findSsid_finds hfinds]
      rfl

theorem Written.known (h : c.Written r) (ssid : Bytes) : c.known ssid = (r ssid).isSome :=
  h.gotPskFor rfl ssid

theorem Written.findSsid (h : c.Written r) (ssid : Bytes) :
    (c.loadConfig {}).2.findSsid ssid = none ↔ r ssid = none := by
  have hgot := h.known ssid
  rw [Config.known, Config.gotPskFor, h.loadConfig_eq rfl] at hgot
  dsimp only at hgot
  rw [if_neg (not_not.mpr rfl)] at hgot
  rw [← Option.not_isSome_iff_eq_none, ← Option.not_isSome_iff_eq_none, ← hgot]

/-- A PSK is saved: an SSID that is new has to fit, and there has to be memory for it. -/
theorem Written.savePsk {io : LoadIO} {rio : RemapIO} {psk : Bytes} {c' : Config} (h : c.Written r)
    (hio : c.loadConfig io = c.loadConfig {}) (hpsk : psk.length = 32)
    (hnew : (c.loadConfig {}).2.findSsid ssid = none → ssid ≠ [] ∧ Fits ssid ∧
      ¬ (c.loadConfig {}).2.Stalls rio ((spell ssid).length + 66))
    (hsave : c.savePsk io rio ssid psk = some c') : c'.Written (Function.update r ssid (some psk)) := by
  have hload := h.loadConfig_eq hio
  have hsearch := h.findSsid ssid
  have hloaded := h.loaded
  obtain ⟨-, hmapped, es, hrep⟩ := h
  have hsave' : (c.loadConfig {}).2.savePsk {} rio ssid psk = some c' := by
    rw [← hsave, Config.savePsk, Config.savePsk, hload, loadConfig_mapped hmapped]
  cases hr : r ssid with
  | none =>
      obtain ⟨hssid, hfits, hroom⟩ := hnew (hsearch.mpr hr)
      have hkeep : ¬ (c.loadConfig {}).2.Loses rio ((spell ssid).length + 66) := by
        intro hlost
        rw [hrep.lost (hsearch.mpr hr) hssid hpsk hfits hroom hlost] at hsave'
        cases hsave'
      obtain ⟨c'', es', hins, hrep'⟩ := hrep.insert hr hssid hpsk hfits hroom hkeep
      obtain rfl := Option.some.inj (hins.symm.trans hsave')
      exact (written_iff hrep'.holds.mapped).mpr ⟨es', hrep'⟩
  | some old =>
      have hmem := (hrep.mem_iff ssid old).mp hr
      obtain ⟨c'', es', hrepl, hrep'⟩ := hrep.replace hr (hrep.holds.proper _ hmem).named hpsk
        (hrep.fits _ hmem) rio
      obtain rfl := Option.some.inj (hrepl.symm.trans hsave')
      exact (written_iff hrep'.holds.mapped).mpr ⟨es', hrep'⟩

theorem Written.dropPsk {io : LoadIO} {ret : Int} {c' : Config} (h : c.Written r)
    (hio : c.loadConfig io = c.loadConfig {}) (hdrop : c.dropPsk io ssid = some (ret, c')) :
    c'.Written (Function.update r ssid none) ∧ (ret < 0 → r ssid = none) := by
  have hload := h.loadConfig_eq hio
  obtain ⟨-, hmapped, es, hrep⟩ := h
  have hdrop' : (c.loadConfig {}).2.dropPsk {} ssid = some (ret, c') := by
    rw [← hdrop, Config.dropPsk, Config.dropPsk, hload, loadConfig_mapped hmapped]
  obtain ⟨ret', c'', es', hd, hrep'⟩ := hrep.dropped ssid
  obtain ⟨rfl, rfl⟩ := Prod.mk.inj (Option.some.inj (hd.symm.trans hdrop'))
  have hdropped := (hrep.serves ssid).drop
  refine ⟨?_, fun hneg => ?_⟩
  · exact (written_iff hrep'.holds.mapped).mpr ⟨es', hrep'⟩
  · obtain ⟨ret'', c''', hd', hiff⟩ := hdropped
    obtain ⟨rfl, -⟩ := Prod.mk.inj (Option.some.inj (hd'.symm.trans hd))
    rw [← Option.not_isSome_iff_eq_none, ← hiff]
    omega

theorem Written.saveConfig (h : c.Written r) (io : SaveIO) : (c.saveConfig io).Written r := by
  unfold Config.saveConfig
  split
  · exact h
  next hnone =>
  split
  · exact h
  have hmapped : c.config.isSome = true := by
    rw [not_or] at hnone
    exact Option.isSome_iff_ne_none.mpr hnone.1
  obtain ⟨es, hrep⟩ := (written_iff hmapped).mp h
  refine (written_iff ?_).mpr ⟨es, ⟨?_, hrep.fits, hrep.nodup, hrep.mem_iff⟩⟩
  · exact hmapped
  · exact ⟨hmapped, hrep.holds.text, hrep.holds.len, hrep.holds.room, hrep.holds.proper⟩

end Operations
end Config
end Wsupp

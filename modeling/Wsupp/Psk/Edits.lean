import Wsupp.Psk.Entries

/-!
# Editing the PSK file entry by entry

What loading, saving and dropping a PSK does to the list of entries that the buffer
holds. Looking an SSID up finds the offsets of its line; replacing, adding or
cutting that line gives the text of the list with the entry replaced, added or left
out.

The statements are about a buffer that holds a list of proper entries, with names
that fit a line. A new line grows the block by pages where it has to, which can
fail, and then the buffer is as it was. How often the file was loaded before plays
no part.
-/
namespace Wsupp.Config

/-- A file that has been loaded is not loaded again. -/
theorem loadConfig_mapped {c : Config} (h : c.config.isSome = true) (io : LoadIO) :
    c.loadConfig io = (0, c) := if_pos h

/-- To make room for `n` bytes the block is moved. -/
def Loses (c : Config) (io : RemapIO) (n : ℕ) : Prop :=
  c.blocklen < c.datalen + n ∧ io.moved = true

instance (c : Config) (io : RemapIO) (n : ℕ) : Decidable (c.Loses io n) :=
  inferInstanceAs (Decidable (_ ∧ _))

/-- There is no memory to make room for `n` bytes. -/
def Stalls (c : Config) (io : RemapIO) (n : ℕ) : Prop :=
  c.blocklen < c.datalen + n ∧ io.err = true

instance (c : Config) (io : RemapIO) (n : ℕ) : Decidable (c.Stalls io n) :=
  inferInstanceAs (Decidable (_ ∧ _))

theorem not_stalls {io : RemapIO} (hio : io.err = false) (c : Config) (n : ℕ) : ¬ c.Stalls io n := by
  rintro ⟨-, herr⟩
  rw [hio] at herr
  cases herr

namespace Holds
variable {c : Config} {es es₁ es₂ : List Entry} {en : Entry}

/-- A network is looked up, and the first entry for it is found. -/
structure Finds (ssid : Bytes) (es₁ : List Entry) (en : Entry) : Prop where
  first : ∀ e ∈ es₁, spell e.ssid ≠ fmtSsid 0 100 ssid
  found : spell en.ssid = fmtSsid 0 100 ssid

theorem findSsid_finds {ssid : Bytes} (h : c.Holds (es₁ ++ en :: es₂)) (hf : Finds ssid es₁ en) :
    c.findSsid ssid = some (en.bounds es₁) := h.findSsid_first hf.first hf.found

theorem loadPsk_finds {ssid psk : Bytes} (h : c.Holds (es₁ ++ en :: es₂)) (hf : Finds ssid es₁ en)
    (hpsk : psk.length = 32) (io : LoadIO) : c.loadPsk io ssid psk = (0, en.psk, c) := by
  have hen : en.Proper := h.proper en (by simp)
  have hparse : parseBytes (fmtBytes en.psk) psk = (0, en.psk) :=
    parseBytes_fmtBytes (hen.key.trans hpsk.symm)
  simp only [loadPsk, loadConfig_mapped h.mapped, h.findSsid_finds hf, h.splitLine_entry,
    Nat.add_sub_cancel_left, h.slice_key, hparse]
  rfl

theorem loadPsk_absent {ssid : Bytes} (h : c.Holds es)
    (hes : ∀ en ∈ es, spell en.ssid ≠ fmtSsid 0 100 ssid) (io : LoadIO) (psk : Bytes) :
    c.loadPsk io ssid psk = (-ENOKEY, psk, c) := by
  simp only [loadPsk, loadConfig_mapped h.mapped, h.findSsid_absent hes]
  rfl

theorem take_before (h : c.Holds (es₁ ++ en :: es₂)) : c.buf.take (en.bounds es₁).1 = entriesText es₁ := by
  have htake := congrArg (List.take (entriesText es₁).length) h.text
  rw [entriesText_append, List.take_left, List.take_take, min_eq_left] at htake
  · exact htake
  · rw [h.len, entriesText_append, List.length_append]
    omega

theorem datalen_entry (h : c.Holds (es₁ ++ en :: es₂)) :
    c.datalen = (en.bounds es₁).2 + 1 + (entriesText es₂).length := by
  rw [h.len, entriesText_append, entriesText_cons, List.length_append, List.length_append,
    List.length_cons]
  simp only [Entry.bounds]
  omega

theorem slice_after (h : c.Holds (es₁ ++ en :: es₂)) :
    c.buf.slice (en.bounds es₁).2 (c.datalen - (en.bounds es₁).2) = 0x0A :: entriesText es₂ := by
  have hdrop := congrArg (List.drop en.line.length) h.drop_text
  rw [List.drop_left, List.drop_drop, List.drop_take] at hdrop
  exact hdrop

theorem slice_rest (h : c.Holds (es₁ ++ en :: es₂)) :
    c.buf.slice ((en.bounds es₁).2 + 1) (entriesText es₂).length = entriesText es₂ := by
  have hdrop : (c.buf.slice _ _).drop 1 = entriesText es₂ := congrArg (List.drop 1) h.slice_after
  rw [Bytes.slice, List.drop_take, List.drop_drop, h.datalen_entry] at hdrop
  rw [Bytes.slice]
  convert hdrop using 2
  omega

/-- The buffer after an edit: what it has to begin with is the new text. -/
theorem of_prefix {t : Bytes} {c' : Config} (hc : c'.config = some (entriesText es ++ t))
    (hlen : c'.datalen = (entriesText es).length) (hroom : c'.datalen ≤ c'.blocklen)
    (hproper : ∀ en ∈ es, en.Proper) : c'.Holds es where
  mapped := by rw [hc]; rfl
  text := by
    rw [buf, hc, hlen]
    exact List.take_left
  len := hlen
  room := hroom
  proper := hproper

/-- Extending the data keeps what it holds, unless there is no memory for it. -/
theorem extendConfig_grows (h : c.Holds es) {io : RemapIO} {n : ℕ} (hio : ¬ c.Stalls io n) :
    ∃ c', extendConfig io n c = some c' ∧ c'.config.isSome = true ∧
      c'.buf.take c.datalen = entriesText es ∧ c'.datalen = c.datalen + n ∧ c'.datalen ≤ c'.blocklen := by
  unfold extendConfig
  rw [if_neg (by omega)]
  split
  · next hlt =>
    have herr : ¬ io.err = true := fun herr => hio ⟨by omega, herr⟩
    refine ⟨_, by rw [remapConfig, if_neg herr]; rfl, rfl, ?_, ?_, ?_⟩
    · change (c.buf.take c.blocklen ++ _).take c.datalen = _
      have hle := h.datalen_le
      have hroom := h.room
      rw [List.take_append_of_le_length (by rw [List.length_take]; omega), List.take_take,
        min_eq_left hroom]
      exact h.text
    · change ((c.datalen : Int) + n).toNat = _
      omega
    · exact le_rfl
  · next hlt =>
      refine ⟨_, rfl, h.mapped, h.text, ?_, ?_⟩
      · change ((c.datalen : Int) + n).toNat = _
        omega
      · change ((c.datalen : Int) + n).toNat ≤ c.blocklen
        omega

theorem insertLine_holds (h : c.Holds es) {io : RemapIO} (hio : ¬ c.Stalls io (en.line.length + 1))
    (hen : en.Proper) (hkeep : ¬ c.Loses io (en.line.length + 1)) :
    ∃ c', c.insertLine io en.line = some c' ∧ c'.Holds (es ++ [en]) := by
  obtain ⟨c', hext, hmapped, htext, hlen, hroom⟩ := h.extendConfig_grows hio
  have htext' : entriesText (es ++ [en]) = entriesText es ++ en.line ++ [0x0A] := by
    simp
  refine ⟨{ c' with config := some (c'.buf.take c.datalen ++ en.line ++ [0x0A] ++
    c'.buf.drop (c.datalen + en.line.length + 1)) }, ?_, ?_⟩
  · unfold insertLine
    rw [show ((en.line.length : Int) + 1) = ((en.line.length + 1 : ℕ) : Int) by omega, hext]
    exact if_neg hkeep
  · refine of_prefix (by rw [htext, htext']) ?_ hroom ?_
    · rw [htext']
      change c'.datalen = _
      rw [hlen, h.len, List.length_append, List.length_append, List.length_singleton]
      omega
    · intro e he
      rcases List.mem_append.mp he with he | he
      · exact h.proper e he
      · rwa [List.mem_singleton.mp he]

theorem insertLine_lost (h : c.Holds es) {io : RemapIO} {text : Bytes}
    (hio : ¬ c.Stalls io (text.length + 1)) (hlost : c.Loses io (text.length + 1)) : c.insertLine io text = none := by
  obtain ⟨c', hext, -⟩ := h.extendConfig_grows hio
  unfold insertLine
  rw [show ((text.length : Int) + 1) = ((text.length + 1 : ℕ) : Int) by omega, hext]
  exact if_pos hlost

/-- A line is changed to one of the same length. -/
theorem changePart_holds {en' : Entry} (h : c.Holds (es₁ ++ en :: es₂)) (io : RemapIO) (hen' : en'.Proper)
    (hlen : en'.line.length = en.line.length) :
    (c.changePart io (en.bounds es₁).1 (en.bounds es₁).2 en'.line).Holds (es₁ ++ en' :: es₂) := by
  have hext : c.extendConfig io ((en'.line.length : Int) - ((en.bounds es₁).2 - (en.bounds es₁).1)) =
      some c := by
    have hroom := h.room
    have hzero : (en'.line.length : Int) - ((en.bounds es₁).2 - (en.bounds es₁).1) = 0 := by
      simp only [Entry.bounds, hlen]
      omega
    unfold extendConfig
    rw [hzero, if_neg (by omega), if_neg (by omega), Int.add_zero, Int.toNat_natCast]
  have htext : entriesText (es₁ ++ en' :: es₂) = entriesText es₁ ++ en'.line ++ (0x0A :: entriesText es₂) := by
    simp
  unfold changePart
  rw [hext]
  refine of_prefix (by rw [htext, ← h.take_before, ← h.slice_after]) ?_ h.room ?_
  · change c.datalen = _
    rw [h.len]
    simp [hlen]
  · intro e he
    rcases List.mem_append.mp he with he | he
    · exact h.proper e (List.mem_append_left _ he)
    rcases List.mem_cons.mp he with rfl | he
    · exact hen'
    · exact h.proper e (List.mem_append_right _ (List.mem_cons_of_mem _ he))

theorem dropLine_holds (h : c.Holds (es₁ ++ en :: es₂)) :
    ∃ c', c.dropLine (en.bounds es₁) = some c' ∧ c'.Holds (es₁ ++ es₂) := by
  have hroom := h.room
  have hlen := h.datalen_entry
  have hwidth : (en.bounds es₁).1 ≤ (en.bounds es₁).2 := Nat.le_add_right _ _
  have hnew : (c.datalen : Int) + -(((en.bounds es₁).2 : Int) - (en.bounds es₁).1 + 1) =
      ((entriesText (es₁ ++ es₂)).length : ℕ) := by
    rw [hlen, entriesText_append, List.length_append]
    simp only [Entry.bounds]
    omega
  have hshlen : (c.datalen : Int) - (en.bounds es₁).2 - 1 = ((entriesText es₂).length : ℕ) := by
    omega
  unfold dropLine extendConfig
  rw [hnew, hshlen, if_neg (by omega), if_neg (by rw [entriesText_append, List.length_append]; simp only [Entry.bounds] at *; omega)]
  dsimp only
  rw [if_neg (by omega)]
  refine ⟨_, rfl, ?_⟩
  simp only [Int.toNat_natCast]
  refine of_prefix (t := c.buf.drop ((en.bounds es₁).1 + (entriesText es₂).length)) ?_ rfl ?_ ?_
  · change some (c.buf.take _ ++ c.buf.slice _ _ ++ _) = _
    rw [h.take_before, h.slice_rest, entriesText_append]
    rfl
  · change (entriesText (es₁ ++ es₂)).length ≤ c.blocklen
    rw [entriesText_append, List.length_append]
    simp only [Entry.bounds] at hlen
    omega
  · intro e he
    rcases List.mem_append.mp he with he | he
    · exact h.proper e (List.mem_append_left _ he)
    · exact h.proper e (List.mem_append_right _ (List.mem_cons_of_mem _ he))

theorem modified (h : c.Holds es) : Config.Holds { c with modified := true } es :=
  ⟨h.mapped, h.text, h.len, h.room, h.proper⟩

/-- The entry that `save_psk` makes of an SSID and a key: the SSID may be cut. -/
theorem savePsk_writes {ssid psk : Bytes} (h : c.Holds es) (hssid : ssid ≠ []) (hpsk : psk.length = 32)
    (io : LoadIO) (rio : RemapIO) : ∃ en : Entry, en.Proper ∧ en.psk = psk ∧
      (spell en.ssid).length ≤ 32 ∧ (Fits ssid ↔ en.ssid = ssid) ∧
      c.savePsk io rio ssid psk = saveLine rio (c.findSsid ssid) en.line c := by
  obtain ⟨m, heq, hcut, hlen⟩ := fmtSsid_cut 65 99 ssid
  have hkey : (fmtBytes psk ++ [0x20]).length = 65 := by
    rw [List.length_append, length_fmtBytes, hpsk]
    rfl
  have hfits : Fits ssid ↔ ssid.take m = ssid := by
    rw [fits_iff hssid, heq]
    exact ⟨fun h => spell_injective h, fun h => congrArg spell h⟩
  have hnamed : ssid.take m ≠ [] := by
    intro hnil
    rw [hnil] at hcut
    rcases hcut with hcut | hcut
    · exact hssid hcut.symm
    · rw [spell_nil, List.length_nil] at hcut
      omega
  refine ⟨⟨ssid.take m, psk⟩, ⟨hnamed, hpsk⟩, rfl, ?_, hfits, ?_⟩
  · dsimp only
    omega
  · unfold savePsk
    dsimp only
    rw [loadConfig_mapped h.mapped, hkey, heq]
    dsimp only
    rw [if_neg (not_not.mpr rfl), List.append_assoc]
    rfl

theorem saveLine_new (h : c.Holds es) {io : RemapIO} (hio : ¬ c.Stalls io (en.line.length + 1))
    (hen : en.Proper) (hkeep : ¬ c.Loses io (en.line.length + 1)) :
    ∃ c', saveLine io none en.line c = some c' ∧ c'.Holds (es ++ [en]) := by
  obtain ⟨c', hins, hholds⟩ := h.insertLine_holds hio hen hkeep
  exact ⟨_, by simp only [saveLine, hins, Option.map_some], hholds.modified⟩

theorem saveLine_lost (h : c.Holds es) {io : RemapIO} {text : Bytes}
    (hio : ¬ c.Stalls io (text.length + 1)) (hlost : c.Loses io (text.length + 1)) : saveLine io none text c = none := by
  simp only [saveLine, h.insertLine_lost hio hlost, Option.map_none]

theorem saveLine_known {en' : Entry} (h : c.Holds (es₁ ++ en :: es₂)) (io : RemapIO) (hen' : en'.Proper)
    (hname : en'.ssid = en.ssid) :
    ∃ c', saveLine io (some (en.bounds es₁)) en'.line c = some c' ∧ c'.Holds (es₁ ++ en' :: es₂) := by
  have hen : en.Proper := h.proper en (by simp)
  have hlen : en'.line.length = en.line.length := by rw [hen.length_line, hen'.length_line, hname]
  exact ⟨_, rfl, (h.changePart_holds io hen' hlen).modified⟩

theorem dropPsk_finds {ssid : Bytes} (h : c.Holds (es₁ ++ en :: es₂)) (hf : Finds ssid es₁ en)
    (io : LoadIO) : ∃ c', c.dropPsk io ssid = some (0, c') ∧ c'.Holds (es₁ ++ es₂) := by
  obtain ⟨c', hdrop, hholds⟩ := h.dropLine_holds
  refine ⟨c', ?_, hholds⟩
  simp only [dropPsk, loadConfig_mapped h.mapped, h.findSsid_finds hf, hdrop]
  rfl

theorem dropPsk_absent {ssid : Bytes} (h : c.Holds es)
    (hes : ∀ en ∈ es, spell en.ssid ≠ fmtSsid 0 100 ssid) (io : LoadIO) :
    c.dropPsk io ssid = some (-1, c) := by
  simp only [dropPsk, loadConfig_mapped h.mapped, h.findSsid_absent hes]
  rfl

end Holds
end Wsupp.Config

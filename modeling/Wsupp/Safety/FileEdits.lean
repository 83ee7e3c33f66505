import Wsupp.Psk.Content
import Wsupp.Psk.Known

/-!
# Edits to a file of any content

What `insert_line`, `drop_line` and `save_line` make of the lines of a file. A line
that lacks its newline is the last one; the editing functions expect every line to
have one.

The contents may be anything, and so may the line that is edited. Where the last
line has its newline the edits are those of a list of lines. Where it does not,
adding a line glues the two together and dropping the last line cuts into what lies
behind; both results are exact. The bounds of the block are kept over whole runs of
calls, unless a line is dropped that way.
-/
namespace Wsupp
open Reactive

namespace Config

/-- The list of lines gets one more, and keeps those it had. -/
def Appends (c : Config) (io : RemapIO) (t : Bytes) : Prop :=
  (c.insertLine io t).map lines = some (c.lines ++ [t])

/-- Just this line is taken out of the list, the rest of the text stays as it is, and
the number of bytes that are moved is not negative. -/
def CutsOut (c : Config) (ln : ℕ × ℕ) : Prop :=
  0 ≤ (c.datalen : Int) - ln.2 - 1 ∧
    (c.dropLine ln).map lines = some (c.lines.eraseIdx (c.bounds.idxOf ln)) ∧
    (c.dropLine ln).map data = some (c.data.take ln.1 ++ c.data.drop (ln.2 + 1))

/-- The block has room for so much more, or can be made larger where it is. -/
def Grows (c : Config) (io : RemapIO) (n : ℕ) : Prop :=
  c.datalen + n ≤ c.blocklen ∨ (io.err = false ∧ io.moved = false)

instance (c : Config) (io : RemapIO) (t : Bytes) : Decidable (c.Appends io t) :=
  inferInstanceAs (Decidable (_ = _))

instance (c : Config) (ln : ℕ × ℕ) : Decidable (c.CutsOut ln) :=
  inferInstanceAs (Decidable (_ ∧ _ ∧ _))

instance (c : Config) (io : RemapIO) (n : ℕ) : Decidable (c.Grows io n) :=
  inferInstanceAs (Decidable (_ ∨ _))

/-- A file that is loaded fits into its block. -/
def Sound (c : Config) : Prop := c.config.isSome = true → c.Mapped

/-- Reading fills a block just mapped, and no more than it. -/
theorem readConfigWhole_mapped {c : Config} (h : c.Mapped) {size : Int} (hsize : size.toNat ≤ c.blocklen)
    (io : LoadIO) (src : Bytes) : (readConfigWhole io src size c).2.Mapped ∧
      (readConfigWhole io src size c).2.blocklen = c.blocklen := by
  obtain ⟨hmapped, hfits, hroom⟩ := h
  unfold readConfigWhole
  split_ifs
  · exact ⟨⟨hmapped, hfits, hroom⟩, rfl⟩
  · exact ⟨⟨hmapped, hfits, hroom⟩, rfl⟩
  · refine ⟨⟨rfl, hfits, ?_⟩, rfl⟩
    change _ ≤ (Bytes.memcpy c.buf src _).length
    rw [Bytes.memcpy, List.length_append, List.length_take, List.length_drop]
    dsimp only
    omega

theorem loadConfig_sound {c : Config} (h : c.Sound) (io : LoadIO) : (c.loadConfig io).2.Sound := by
  unfold loadConfig
  split
  · exact h
  generalize (openStatConfig io c).getD ([], 0) = r
  obtain ⟨src, size⟩ := r
  dsimp only
  cases hmmap : mmapConfigBuf io size c with
  | none => exact h
  | some c₁ =>
      unfold mmapConfigBuf at hmmap
      split at hmmap
      · cases hmmap
      next hmap =>
      rw [Option.some.injEq] at hmmap
      have hblock : c₁.blocklen = alignPage (size + 1024).toNat := by rw [← hmmap]
      have hc₁ : c₁.Mapped := by
        rw [← hmmap]
        exact ⟨rfl, Nat.zero_le _, List.length_replicate.ge⟩
      have hsize : size.toNat ≤ c₁.blocklen := by
        have hle := le_alignPage (size + 1024).toNat
        omega
      obtain ⟨hread, hsame⟩ := readConfigWhole_mapped hc₁ hsize io src
      dsimp only
      split
      · exact fun _ => hread
      · exact fun _ => ⟨hread.mapped, by dsimp only; omega, hread.room⟩

/-- A line is where the list of lines has it. -/
theorem Mapped.lineAt_idxOf {c : Config} (h : c.Mapped) {i : ℕ} {val : Bytes} {ln : ℕ × ℕ}
    (hln : c.findLine i val = some ln) : c.LineAt (c.bounds.idxOf ln) ln := by
  obtain ⟨k, hk⟩ := findLine_index hln
  have hmem : ln ∈ c.bounds := List.mem_of_getElem? hk
  refine h.lineAt ?_
  rw [List.getElem?_eq_getElem (List.idxOf_lt_length_of_mem hmem), List.getElem_idxOf]

theorem Mapped.modified {c : Config} (h : c.Mapped) : Mapped { c with modified := true } :=
  ⟨h.mapped, h.fits, h.room⟩

theorem insertLine_mapped {c c' : Config} (h : c.Mapped) {io : RemapIO} {t : Bytes}
    (hins : c.insertLine io t = some c') : c'.Mapped := by
  cases hext : c.extendConfig io (t.length + 1) with
  | none =>
      unfold insertLine at hins
      rw [hext] at hins
      cases hins
      exact h
  | some c₁ =>
      by_cases hmoved : c.blocklen < c.datalen + t.length + 1 ∧ io.moved = true
      · unfold insertLine at hins
        rw [hext] at hins
        dsimp only at hins
        rw [if_pos hmoved] at hins
        cases hins
      · obtain ⟨c₂, hc₂, hmapped, -⟩ := h.insertLine hext hmoved
        rw [hins] at hc₂
        cases hc₂
        exact hmapped

theorem saveLine_mapped {c c' : Config} (h : c.Mapped) {i : ℕ} {val t : Bytes} {io : RemapIO}
    (hsave : c.saveLine io (c.findLine i val) t = some c') : c'.Mapped := by
  unfold saveLine at hsave
  rw [Option.map_eq_some_iff] at hsave
  obtain ⟨c₁, hline, rfl⟩ := hsave
  refine Mapped.modified ?_
  cases hfind : c.findLine i val with
  | some ln =>
      rw [hfind] at hline
      cases hline
      cases hext : c.extendConfig io ((t.length : Int) - (ln.2 - ln.1)) with
      | none =>
          unfold changePart
          rw [hext]
          exact h
      | some c₁ => exact (h.changePart (h.lineAt_idxOf hfind) (by rw [hext]; rfl)).1
  | none =>
      rw [hfind] at hline
      exact insertLine_mapped h hline

theorem dropLine_mapped {c c' : Config} (h : c.Mapped) {i : ℕ} {val : Bytes} {ln : ℕ × ℕ}
    (hln : c.findLine i val = some ln) (hdrop : c.dropLine ln = some c') : c'.Mapped := by
  have hat := h.lineAt_idxOf hln
  by_cases hend : ln.2 < c.datalen
  · obtain ⟨c₁, hc₁, hmapped, -⟩ := h.dropLine hat hend
    rw [hc₁] at hdrop
    cases hdrop
    exact hmapped
  · have hwithin := hat.within
    unfold dropLine at hdrop
    dsimp only at hdrop
    split at hdrop
    · cases hdrop
      exact h
    · rw [if_pos (by omega)] at hdrop
      cases hdrop

theorem saveConfig_sound {c : Config} (h : c.Sound) (io : SaveIO) : (c.saveConfig io).Sound := by
  unfold saveConfig
  split
  · exact h
  split
  · exact h
  · intro hmapped
    have hc := h hmapped
    exact ⟨hc.mapped, hc.fits, hc.room⟩

theorem Sound.edits {c c' : Config} (h : c.Sound) (hedits : c.Edits c') : c'.Sound := by
  intro _
  cases hedits with
  | @save rio ssid psk _ hmapped hsave =>
      unfold savePsk at hsave
      rw [loadConfig_mapped hmapped] at hsave
      exact saveLine_mapped (h hmapped) hsave
  | @drop ssid ret _ hmapped hdrop =>
      unfold dropPsk at hdrop
      rw [loadConfig_mapped hmapped] at hdrop
      dsimp only at hdrop
      rw [if_neg (by decide)] at hdrop
      split at hdrop
      · cases hdrop
        exact h hmapped
      next ln hfind =>
      obtain ⟨c₁, hdrop, heq⟩ := Option.map_eq_some_iff.mp hdrop
      cases heq
      exact dropLine_mapped (h hmapped) hfind hdrop

end Config

theorem FileCall.run_sound {c c' : Config} (h : c.Sound) {call : FileCall} (hrun : call.run c = some c') :
    c'.Sound := by
  cases call with
  | load io =>
      cases hrun
      exact Config.loadConfig_sound h io
  | write io =>
      cases hrun
      exact Config.saveConfig_sound h io
  | save io rio ssid psk =>
      have hload := Config.loadConfig_sound h io
      rcases Config.savePsk_loaded hrun with rfl | ⟨hedits, -⟩
      · exact hload
      · exact hload.edits hedits
  | drop io ssid =>
      have hload := Config.loadConfig_sound h io
      obtain ⟨⟨ret, c''⟩, hdrop, rfl⟩ := Option.map_eq_some_iff.mp hrun
      rcases Config.dropPsk_loaded hdrop with rfl | ⟨hedits, -⟩
      · exact hload
      · exact hload.edits hedits

namespace Config
variable {c : Config}

theorem appends_needs (h : c.Mapped) {io : RemapIO} {t : Bytes} (happ : c.Appends io t) :
    0x0A ∉ t ∧ c.Grows io (t.length + 1) ∧ Text.Ended 0x0A c.data := by
  obtain ⟨c', hins, hlines⟩ := Option.map_eq_some_iff.mp happ
  have hmapped := insertLine_mapped h hins
  have ht : 0x0A ∉ t := by
    have hmem : t ∈ c'.lines := by
      rw [hlines]
      exact List.mem_append_right _ List.mem_cons_self
    rw [hmapped.lines_eq] at hmem
    exact Text.not_mem_of_mem_lines hmem
  have hcount := congrArg List.length hlines
  rw [List.length_append, List.length_singleton] at hcount
  cases hext : c.extendConfig io (t.length + 1) with
  | none =>
      unfold Config.insertLine at hins
      rw [hext] at hins
      cases hins
      omega
  | some c₁ =>
      have hsome : ¬ c.extendConfig io (t.length + 1) = none := by
        rw [hext]
        exact Option.some_ne_none c₁
      rw [extendConfig_eq_none] at hsome
      have hmoved : ¬ (c.blocklen < c.datalen + t.length + 1 ∧ io.moved = true) := by
        intro hmoved
        unfold Config.insertLine at hins
        rw [hext] at hins
        dsimp only at hins
        rw [if_pos hmoved] at hins
        cases hins
      refine ⟨ht, ?_, ?_⟩
      · by_cases hroom : c.datalen + (t.length + 1) ≤ c.blocklen
        · exact .inl hroom
        · refine .inr ⟨eq_false_of_ne_true fun herr => hsome (.inr ⟨by omega, herr⟩),
            eq_false_of_ne_true fun hm => hmoved ⟨by omega, hm⟩⟩
      · by_contra hopen
        obtain ⟨c₂, hc₂, -, hdata⟩ := h.insertLine hext hmoved
        rw [hins] at hc₂
        cases hc₂
        rw [hmapped.lines_eq, hdata, Text.length_lines_open hopen ht, h.lines_eq] at hcount
        omega

theorem appends_of_ended (h : c.Mapped) {io : RemapIO} {t : Bytes} (ht : 0x0A ∉ t)
    (hgrows : c.Grows io (t.length + 1)) (hend : Text.Ended 0x0A c.data) : c.Appends io t := by
  have hmoved : ¬ (c.blocklen < c.datalen + t.length + 1 ∧ io.moved = true) := by
    rintro ⟨hlt, hm⟩
    rcases hgrows with hroom | ⟨-, hstays⟩
    · omega
    · rw [hm] at hstays
      cases hstays
  cases hext : c.extendConfig io (t.length + 1) with
  | none =>
      rw [extendConfig_eq_none] at hext
      rcases hext with hneg | ⟨hlt, herr⟩
      · omega
      rcases hgrows with hroom | ⟨hmem, -⟩
      · omega
      · rw [herr] at hmem
        cases hmem
  | some c₁ =>
      obtain ⟨c₂, hins, hmapped, hdata⟩ := h.insertLine hext hmoved
      unfold Appends
      rw [hins, Option.map_some, hmapped.lines_eq, hdata, h.lines_eq, List.append_assoc,
        Text.lines_append hend, Text.lines_line ht []]
      rfl

theorem cutsOut_of_ended (h : c.Mapped) {i : ℕ} {val : Bytes} {ln : ℕ × ℕ} (hln : c.findLine i val = some ln)
    (hend : ln.2 < c.datalen) : c.CutsOut ln := by
  have hat := h.lineAt_idxOf hln
  obtain ⟨c₁, hdrop, hmapped, hdata⟩ := h.dropLine hat hend
  refine ⟨by omega, ?_, ?_⟩
  · have herased := hat.place.lines_erased
    rw [List.tail_drop] at herased
    rw [hdrop, Option.map_some, hmapped.lines_eq, hdata, herased, h.lines_eq]
  · rw [hdrop, Option.map_some, hdata]

end Config

/-- A line is appended exactly if it has no newline, the block can grow where it is, and
the last line of the file has a newline. A line that was found is cut out exactly if it
has a newline. The rest of the file may be anything. -/
theorem insert_drop_line_iff {c : Config} (h : c.Mapped) :
    (∀ io t, c.Appends io t ↔ 0x0A ∉ t ∧ c.Grows io (t.length + 1) ∧ Text.Ended 0x0A c.data) ∧
    ∀ i val ln, c.findLine i val = some ln → (c.CutsOut ln ↔ ln.2 < c.datalen) := by
  constructor
  · intro io t
    constructor
    · exact Config.appends_needs h
    · rintro ⟨ht, hgrows, hend⟩
      exact Config.appends_of_ended h ht hgrows hend
  · intro i val ln hln
    constructor
    · intro hcut
      have hmoved := hcut.1
      omega
    · exact Config.cutsOut_of_ended h hln

namespace Sample

/-- A file with two lines, as it is once it has been loaded. -/
def twoLines : Config := (Config.loadConfig {} { file := some "k a\nk b\n".toUTF8.toList }).2

def noNewline : Config := (Config.loadConfig {} { file := some "k a\nk b".toUTF8.toList }).2

def newLine : Bytes := "k c".toUTF8.toList

theorem twoLines_mapped : twoLines.Mapped where
  mapped := by decide +kernel
  fits := by decide +kernel
  room := by decide +kernel

end Sample

theorem twoLines_edited : Sample.twoLines.Appends {} Sample.newLine ∧ Sample.twoLines.CutsOut (0, 3) ∧
    Sample.twoLines.CutsOut (4, 7) := by
  obtain ⟨happ, hcut⟩ := insert_drop_line_iff Sample.twoLines_mapped
  constructor
  · exact (happ _ _).mpr (by decide +kernel)
  constructor
  · exact (hcut 1 [0x61] _ (by decide +kernel)).mpr (by decide +kernel)
  · exact (hcut 1 [0x62] _ (by decide +kernel)).mpr (by decide +kernel)

/-- A new line goes on where the last one ends, so the two become one. Dropping that one
moves a negative number of bytes. -/
theorem noNewline_mangled : (Sample.noNewline.insertLine {} Sample.newLine).map Config.lines =
      some ["k a".toUTF8.toList, "k bk c".toUTF8.toList] ∧
    ¬ Sample.noNewline.Appends {} Sample.newLine ∧
    Sample.noNewline.findLine 1 [0x62] = some (4, 7) ∧ Sample.noNewline.dropLine (4, 7) = none ∧
    ¬ Sample.noNewline.CutsOut (4, 7) := by
  decide +kernel

/-- What `save_line` makes of the list of lines: an open last line that is made empty is
not there any more, any other line has the new text. -/
def Config.replaced (c : Config) (ln : ℕ × ℕ) (t : Bytes) : List Bytes :=
  let k := c.bounds.idxOf ln
  if t = [] ∧ ln.2 = c.datalen then c.lines.eraseIdx k else c.lines.set k t

/-- The size that stands for the unset one of a file that is too long is not negative.
`load_config` would take a negative one for the length of the data. -/
def FileCall.Sized : FileCall → Prop
  | .load io => 0 ≤ io.junk
  | .save io .. => 0 ≤ io.junk
  | .drop io _ => 0 ≤ io.junk
  | .write _ => True

/-- In every run of the daemon's calls the data fits into the block, once there is one.
And for any text in the block, `save_line` replaces just the line that was found, and
changes the length of the data by the difference. -/
theorem saveLine_replaces :
    (∀ c calls, c.config = none → pskFile.Valid (some c) calls →
      pskFile.Every (fun _ call => call.Sized) (some c) calls →
      pskFile.Always (fun x => ∀ c ∈ x, c.Sound) (some c) calls) ∧
    ∀ (c : Config) i val ln t io, c.Mapped → c.findLine i val = some ln → 0x0A ∉ t →
      (c.extendConfig io ((t.length : Int) - (ln.2 - ln.1))).isSome = true →
      ∃ c', c.saveLine io (some ln) t = some c' ∧ c'.Mapped ∧ c'.lines = c.replaced ln t ∧
        (c'.datalen : Int) = c.datalen + (t.length - (ln.2 - ln.1)) := by
  constructor
  · intro c calls hc hv _
    refine Machine.always_of_step (I := fun x => ∀ c ∈ x, c.Sound) ?_ ?_ hv
    · intro x call hx _ c' hc'
      obtain ⟨c, hsome, hrun⟩ := Option.bind_eq_some_iff.mp hc'
      exact FileCall.run_sound (hx c hsome) hrun
    · intro c' hc' hmapped
      obtain rfl := Option.some.inj hc'
      rw [hc] at hmapped
      cases hmapped
  intro c i val ln t io h hln ht hext
  have hat := h.lineAt_idxOf hln
  have hle := hat.le
  have hwithin := hat.within
  have hlen := h.length_data
  obtain ⟨hmapped, hdata⟩ := h.changePart hat hext
  refine ⟨_, rfl, hmapped.modified, ?_, ?_⟩
  · have hsame : Config.data { c.changePart io ln.1 ln.2 t with modified := true } = _ := hdata
    dsimp only
    rw [hmapped.modified.lines_eq, hsame, Config.replaced, h.lines_eq]
    have hrest : c.data.drop ln.2 = [] ↔ ln.2 = c.datalen := by
      rw [List.drop_eq_nil_iff]
      omega
    split
    · next hgone =>
        obtain ⟨rfl, hopen⟩ := hgone
        have herased := hat.place.lines_erased
        rw [hrest.mpr hopen, List.tail_nil, List.append_nil] at herased
        rw [hrest.mpr hopen, List.append_nil, List.append_nil, herased]
    · next hkeep =>
        refine hat.place.lines_replaced ht ?_
        rw [not_and_or, ← hrest] at hkeep
        exact hkeep
  · have hcount := hmapped.length_data
    rw [hdata, List.length_append, List.length_append, List.length_take, List.length_drop, hlen] at hcount
    change ((c.changePart io ln.1 ln.2 t).datalen : Int) = _
    omega

/-- The second line gets a longer text, for which the block has to be made larger. -/
theorem twoLines_replaced : ∃ c', Sample.twoLines.saveLine {} (some (4, 7)) (List.replicate 5000 0x61) = some c' ∧
    c'.Mapped ∧ c'.lines = Sample.twoLines.replaced (4, 7) (List.replicate 5000 0x61) ∧
    (c'.datalen : Int) = 5005 := by
  obtain ⟨c', hsave, hmapped, hlines, hlen⟩ := saveLine_replaces.2 Sample.twoLines 1 [0x62] (4, 7)
    (List.replicate 5000 0x61) {} Sample.twoLines_mapped (by decide +kernel) (by decide +kernel)
    (by decide +kernel)
  have hdata : Sample.twoLines.datalen = 8 := by decide +kernel
  refine ⟨c', hsave, hmapped, hlines, ?_⟩
  rw [hlen, hdata, List.length_replicate]
  rfl

/-- An open last line cannot be made empty and still be a line: the text that is left
has one line less. -/
theorem noNewline_emptied : Sample.noNewline.findLine 1 [0x62] = some (4, 7) ∧
    (Sample.noNewline.extendConfig {} (0 - (7 - 4))).isSome = true ∧
    (Sample.noNewline.saveLine {} (some (4, 7)) []).map Config.lines = some ["k a".toUTF8.toList] ∧
    (Sample.noNewline.saveLine {} (some (4, 7)) []).map Config.lines ≠
      some (Sample.noNewline.lines.set (Sample.noNewline.bounds.idxOf (4, 7)) []) := by
  decide +kernel

end Wsupp

import Wsupp.Psk.Store

/-!
# The PSK file and its buffer

Calls of `load_config`, `save_psk`, `drop_psk` and `save_config` on a file of any
content, any of whose system calls may fail or do less than they were asked to.
Beside the file and its buffer stands the text the buffer should hold, as it follows
from the contents read and the edits made since.

The invariant says that a mapped buffer holds this text and that a modified one is
still to be written. It fails where a load has failed after the block was mapped,
since the block is left as if it had been read; the result names that as the only
way.
-/
namespace Wsupp
open Reactive Relation

namespace Config

/-- A buffer that has not been changed is what the file has. -/
def Coherent (c : Config) : Prop :=
  c.config.isSome = true → c.modified = false → c.buf.take c.datalen = c.file.getD []

instance (c : Config) : Decidable c.Coherent := inferInstanceAs (Decidable (_ → _ → _))

end Config

/-- A read of `size` bytes leaves `text` in a zeroed block. -/
def LoadIO.Gets (io : LoadIO) (src : Bytes) (size : ℕ) (text : Bytes) : Prop :=
  let n := min size src.length - io.short
  src.take n ++ Bytes.zeros (size - n) = text

/-- The file is there already, or it is read whole, or no block is mapped for it. A
file that is empty or missing needs no reading; one that is too long is never read,
unless it happens to be what the standard input has. -/
def LoadIO.Clean (io : LoadIO) (c : Config) : Prop :=
  let text := c.file.getD []
  c.config.isSome = true ∨ io.mmapErr = true ∨ text = [] ∨
    (io.openErr = false ∧ io.statErr = false ∧
      ((text.length ≤ MAX_CONFIG_SIZE ∧ io.readErr = false ∧ io.Gets text text.length text) ∨
        (MAX_CONFIG_SIZE < text.length ∧ (io.junk ≤ -1024 ∨
          (0 < io.junk ∧ io.readErr = false ∧ io.Gets io.stdin io.junk.toNat text)))))

/-- Every call of `write` writes something until all is written. -/
def WritesAll : List Int → ℕ → Prop
  | [], _ => True
  | wr :: wrs, n => n = 0 ∨ (0 < wr ∧ WritesAll wrs (n - wr.toNat))

/-- There is nothing to save, or the file is not opened, or all of it is written. -/
def SaveIO.Clean (io : SaveIO) (c : Config) : Prop :=
  c.config = none ∨ c.modified = false ∨ io.openErr = true ∨
    WritesAll io.writes (c.buf.take c.datalen).length

instance (io : LoadIO) (src text : Bytes) (size : ℕ) : Decidable (io.Gets src size text) :=
  inferInstanceAs (Decidable (_ = _))

instance (io : LoadIO) (c : Config) : Decidable (io.Clean c) :=
  inferInstanceAs (Decidable (_ ∨ _ ∨ _ ∨ (_ ∧ _ ∧ ((_ ∧ _ ∧ _) ∨ (_ ∧ (_ ∨ (_ ∧ _ ∧ _)))))))

instance decidableWritesAll : ∀ (wrs : List Int) (n : ℕ), Decidable (WritesAll wrs n)
  | [], _ => isTrue trivial
  | wr :: wrs, n =>
      haveI := decidableWritesAll wrs (n - wr.toNat)
      inferInstanceAs (Decidable (_ ∨ (_ ∧ _)))

instance (io : SaveIO) (c : Config) : Decidable (io.Clean c) :=
  inferInstanceAs (Decidable (_ ∨ _ ∨ _ ∨ _))

namespace Config

/-- What the block has in it once `mmap` and `read` have been called. -/
theorem length_memcpy_zeros {src : Bytes} {n size room : ℕ} (hn : n ≤ size) (hroom : size ≤ room)
    (hsrc : n ≤ src.length) : (Bytes.memcpy (Bytes.zeros room) src n).take size =
      src.take n ++ Bytes.zeros (size - n) := by
  have hlen : (src.take n).length = n := by
    rw [List.length_take, min_eq_left hsrc]
  rw [Bytes.memcpy, List.take_append, hlen, List.take_of_length_le (by omega)]
  simp only [Bytes.zeros, List.drop_replicate, List.take_replicate]
  congr 2
  omega

theorem le_alignPage (n : ℕ) : n ≤ alignPage n := Nat.le_add_right _ _

theorem coherent_mapped {c : Config} (hmapped : c.config.isSome = true) (hclean : c.modified = false) :
    c.Coherent ↔ c.buf.take c.datalen = c.file.getD [] :=
  ⟨fun h => h hmapped hclean, fun h _ _ => h⟩

theorem loadConfig_from {c : Config} (hc : c.config = none) {io : LoadIO} {src : Bytes} {size : Int}
    (hopen : (openStatConfig io c).getD ([], 0) = (src, size)) :
    (c.loadConfig io).2.Coherent ↔ io.mmapErr = true ∨ size ≤ -1024 ∨
      if 0 < size ∧ io.readErr = false then io.Gets src size.toNat (c.file.getD [])
      else c.file.getD [] = [] := by
  unfold loadConfig
  rw [if_neg (by simp [hc]), hopen]
  dsimp only
  unfold mmapConfigBuf
  by_cases hmap : io.mmapErr = true ∨ size + 1024 ≤ 0
  · rw [if_pos hmap]
    refine iff_of_true (fun h => ?_) (hmap.imp_right fun h => .inl (by omega))
    rw [hc] at h
    cases h
  obtain ⟨hmmap, hsize⟩ := not_or.mp hmap
  rw [if_neg hmap, or_iff_right hmmap, or_iff_right (by omega)]
  dsimp only
  unfold readConfigWhole
  by_cases hpos : size ≤ 0
  · have hzero : size.toNat = 0 := by omega
    have hnone : ¬ (0 < size ∧ io.readErr = false) := fun h => absurd h.1 (not_lt.mpr hpos)
    simp only [if_pos hpos, if_neg hnone, hzero]
    exact (coherent_mapped rfl rfl).trans eq_comm
  rw [if_neg hpos]
  by_cases hread : io.readErr = true
  · have hnone : ¬ (0 < size ∧ io.readErr = false) := fun h => by rw [hread] at h; cases h.2
    simp only [if_pos hread, if_neg hnone]
    exact (coherent_mapped rfl rfl).trans eq_comm
  have hgets : 0 < size ∧ io.readErr = false := ⟨not_le.mp hpos, eq_false_of_ne_true hread⟩
  rw [if_neg hread, if_pos hgets]
  have hroom := le_alignPage (size + 1024).toNat
  have htake : (Bytes.memcpy (Bytes.zeros (alignPage (size + 1024).toNat)) src
      (min size.toNat src.length - io.short)).take size.toNat = _ :=
    length_memcpy_zeros (by omega) (by omega) (by omega)
  exact (coherent_mapped rfl rfl).trans (Eq.congr_left htake)

/-- A load leaves a coherent buffer exactly if it is clean. -/
theorem loadConfig_coherent {c : Config} (hc : c.config = none) (io : LoadIO) :
    (c.loadConfig io).2.Coherent ↔ io.Clean c := by
  have hclean : io.Clean c ↔ io.mmapErr = true ∨ c.file.getD [] = [] ∨ _ := or_iff_right (by simp [hc])
  rw [hclean]
  cases hfile : c.file with
  | none =>
      have hopen : (openStatConfig io c).getD ([], 0) = ([], 0) := by simp [openStatConfig, hfile]
      rw [loadConfig_from hc hopen, hfile]
      simp
  | some text =>
      by_cases herr : io.openErr = true ∨ io.statErr = true
      · have hopen : (openStatConfig io c).getD ([], 0) = ([], 0) := by
          simp [openStatConfig, hfile, herr]
        rw [loadConfig_from hc hopen, hfile]
        rcases herr with herr | herr
        · simp [herr]
        · simp [herr]
      rw [not_or, Bool.not_eq_true, Bool.not_eq_true] at herr
      by_cases hsize : MAX_CONFIG_SIZE < text.length
      · have hopen : (openStatConfig io c).getD ([], 0) = (io.stdin, io.junk) := by
          simp [openStatConfig, hfile, herr, hsize]
        have hne : text ≠ [] := by
          rintro rfl
          cases hsize
        rw [loadConfig_from hc hopen, hfile]
        by_cases hjunk : 0 < io.junk ∧ io.readErr = false
        · simp [herr, hsize, hne, hjunk, not_le.mpr hsize]
        · simp [herr, hsize, hne, hjunk, not_le.mpr hsize]
          tauto
      · have hopen : (openStatConfig io c).getD ([], 0) = (text, (text.length : Int)) := by
          simp [openStatConfig, hfile, herr, hsize]
        rw [loadConfig_from hc hopen, hfile]
        by_cases hpos : text = []
        · subst hpos
          simp
        · have hlen : 0 < text.length := List.length_pos_of_ne_nil hpos
          have hneg : ¬ (text.length : Int) ≤ -1024 := by omega
          by_cases hread : io.readErr = false
          · simp [herr, hsize, hpos, hneg, hread, hlen, not_lt.mp hsize]
          · simp [herr, hsize, hpos, hneg, hread]

/-- A load that leaves anything but the buffer there was has mapped a new one. -/
theorem loadConfig_spec (c : Config) (io : LoadIO) : (c.loadConfig io).2.file = c.file ∧
    ((c.loadConfig io).2 = c ∨ (c.loadConfig io).2.modified = false) ∧
    (0 ≤ (c.loadConfig io).1 → (c.loadConfig io).2.config.isSome = true) := by
  unfold loadConfig
  split
  · next h => exact ⟨rfl, .inl rfl, fun _ => h⟩
  dsimp only
  unfold mmapConfigBuf
  split
  · next h =>
      split at h
      · exact ⟨rfl, .inl rfl, fun h => by cases h⟩
      · cases h
  · next h =>
      split at h
      · cases h
      cases h
      unfold readConfigWhole
      split_ifs <;> exact ⟨rfl, .inr rfl, fun _ => rfl⟩

theorem writeall_eq_iff (wrs : List Int) (b : Bytes) : writeall wrs b = b ↔ WritesAll wrs b.length := by
  induction wrs generalizing b with
  | nil => exact iff_of_true rfl trivial
  | cons wr wrs ih =>
      unfold writeall WritesAll
      rw [List.length_eq_zero_iff]
      by_cases hb : b = []
      · rw [if_pos (.inl hb)]
        exact iff_of_true hb.symm (.inl hb)
      by_cases hwr : wr ≤ 0
      · rw [if_pos (.inr hwr)]
        exact iff_of_false (Ne.symm hb) fun h => h.elim hb fun h => absurd h.1 (not_lt.mpr hwr)
      rw [if_neg (by simp [hb, hwr]), or_iff_right hb, and_iff_right (not_le.mp hwr)]
      have hih := ih (b.drop wr.toNat)
      rw [List.length_drop] at hih
      rw [← hih]
      constructor
      · intro h
        conv_rhs at h => rw [← List.take_append_drop wr.toNat b]
        exact List.append_cancel_left h
      · intro h
        rw [h, List.take_append_drop]

theorem saveConfig_coherent {c : Config} (hc : c.Coherent) (io : SaveIO) :
    (c.saveConfig io).Coherent ↔ io.Clean c := by
  unfold saveConfig SaveIO.Clean
  by_cases hnone : c.config = none
  · rw [if_pos (.inl hnone)]
    exact iff_of_true hc (.inl hnone)
  by_cases hmod : c.modified = true
  swap
  · rw [if_pos (.inr hmod)]
    exact iff_of_true hc (.inr (.inl (eq_false_of_ne_true hmod)))
  rw [if_neg (by simp [hnone, hmod]), or_iff_right hnone, or_iff_right (by simp [hmod])]
  by_cases hopen : io.openErr = true
  · rw [if_pos hopen]
    exact iff_of_true hc (.inl hopen)
  rw [if_neg hopen, or_iff_right hopen, ← writeall_eq_iff]
  exact Iff.trans (coherent_mapped (Option.isSome_iff_ne_none.mpr hnone) rfl) eq_comm

/-- Edits change the buffer, and mark it as changed. -/
structure Edited (c c' : Config) : Prop where
  file : c'.file = c.file
  modified : c'.modified = true

theorem extendConfig_file {io : RemapIO} {len : Int} {c c' : Config}
    (h : c.extendConfig io len = some c') : c'.file = c.file := by
  unfold extendConfig at h
  dsimp only at h
  split_ifs at h
  · rw [Option.map_eq_some_iff] at h
    obtain ⟨c'', hremap, rfl⟩ := h
    unfold remapConfig at hremap
    split_ifs at hremap
    cases hremap
    rfl
  · cases h
    rfl

theorem saveLine_edited {io : RemapIO} {ln : Option (ℕ × ℕ)} {text : Bytes} {c c' : Config}
    (h : c.saveLine io ln text = some c') : Edited c c' := by
  unfold saveLine at h
  rw [Option.map_eq_some_iff] at h
  obtain ⟨c'', hline, rfl⟩ := h
  refine ⟨?_, rfl⟩
  change c''.file = c.file
  cases ln with
  | some ln =>
      cases hline
      unfold changePart
      dsimp only
      split
      · rfl
      · next hext =>
          have hfile := extendConfig_file hext
          exact hfile
  | none =>
      unfold insertLine at hline
      dsimp only at hline
      split at hline
      · cases hline
        rfl
      · next hext =>
          split at hline
          · cases hline
          · cases hline
            have hfile := extendConfig_file hext
            exact hfile

theorem dropLine_edited {ln : ℕ × ℕ} {c c' : Config} (h : c.dropLine ln = some c') :
    c' = c ∨ Edited c c' := by
  unfold dropLine at h
  dsimp only at h
  split at h
  · cases h
    exact .inl rfl
  · next hext =>
      split at h
      · cases h
      · cases h
        have hfile := extendConfig_file hext
        exact .inr ⟨hfile, rfl⟩

/-- One call of `save_psk` or `drop_psk` on a file that is loaded, with the lines it
adds, replaces or cuts. -/
inductive Edits (c : Config) : Config → Prop where
  | save {rio ssid psk c'} : c.config.isSome = true → c.savePsk {} rio ssid psk = some c' → Edits c c'
  | drop {ssid ret c'} : c.config.isSome = true → c.dropPsk {} ssid = some (ret, c') → Edits c c'

/-- What a call that edits does once the file is loaded. -/
theorem savePsk_loaded {io : LoadIO} {rio : RemapIO} {ssid psk : Bytes} {c c' : Config}
    (h : c.savePsk io rio ssid psk = some c') :
    c' = (c.loadConfig io).2 ∨ ((c.loadConfig io).2.Edits c' ∧ Edited (c.loadConfig io).2 c') := by
  have hspec := (c.loadConfig_spec io).2.2
  unfold savePsk at h
  dsimp only at h
  generalize hload : c.loadConfig io = r at h hspec ⊢
  obtain ⟨ret, c₁⟩ := r
  dsimp only at h hspec ⊢
  split at h
  · cases h
    exact .inl rfl
  · next hret =>
      have hmapped := hspec (not_not.mp hret).ge
      refine .inr ⟨.save hmapped (?_ : savePsk {} rio ssid psk c₁ = some c'), saveLine_edited h⟩
      unfold savePsk
      rw [loadConfig_mapped hmapped]
      exact h

theorem dropPsk_loaded {io : LoadIO} {ssid : Bytes} {ret : Int} {c c' : Config}
    (h : c.dropPsk io ssid = some (ret, c')) :
    c' = (c.loadConfig io).2 ∨ ((c.loadConfig io).2.Edits c' ∧ Edited (c.loadConfig io).2 c') := by
  have hspec := (c.loadConfig_spec io).2.2
  unfold dropPsk at h
  generalize hload : c.loadConfig io = r at h hspec ⊢
  obtain ⟨err, c₁⟩ := r
  dsimp only at h hspec ⊢
  split at h
  · cases h
    exact .inl rfl
  next herr =>
  split at h
  · cases h
    exact .inl rfl
  next ln hfind =>
  rw [Option.map_eq_some_iff] at h
  obtain ⟨c'', hdrop, heq⟩ := h
  cases heq
  have hmapped := hspec (not_lt.mp herr)
  refine (dropLine_edited hdrop).imp_right fun hedit =>
    ⟨.drop hmapped (?_ : dropPsk {} ssid c₁ = some (0, c')), hedit⟩
  unfold dropPsk
  rw [loadConfig_mapped hmapped]
  simp only [hfind, hdrop]
  rfl

/-- The buffer is what the file has, with edits made to it. -/
def Derived (c : Config) : Prop := c.config.isSome = true → ∃ c₀ : Config, c₀.file = c.file ∧
  c₀.buf.take c₀.datalen = c₀.file.getD [] ∧ ReflTransGen Edits c₀ c

theorem Coherent.derived {c : Config} (h : c.Coherent) (hmod : c.modified = false) : c.Derived :=
  fun hmapped => ⟨c, rfl, h hmapped hmod, .refl⟩

end Config

/-- A call, with what the system calls it makes answer. -/
inductive FileCall where
  | load (io : LoadIO)
  | save (io : LoadIO) (rio : RemapIO) (ssid psk : Bytes)
  | drop (io : LoadIO) (ssid : Bytes)
  | write (io : SaveIO)

namespace FileCall

/-- Where a call is once it has seen to it that the file is loaded. -/
def loaded (c : Config) : FileCall → Config
  | .load io => (c.loadConfig io).2
  | .save io .. => (c.loadConfig io).2
  | .drop io _ => (c.loadConfig io).2
  | .write _ => c

def run (c : Config) : FileCall → Option Config
  | .load io => some (c.loadConfig io).2
  | .save io rio ssid psk => c.savePsk io rio ssid psk
  | .drop io ssid => (c.dropPsk io ssid).map Prod.snd
  | .write io => some (c.saveConfig io)

/-- Nothing goes wrong with the call that is not seen to. -/
def Clean (c : Config) : FileCall → Prop
  | .load io => io.Clean c
  | .save io .. => io.Clean c
  | .drop io _ => io.Clean c
  | .write io => io.Clean c

/-- The call leaves a coherent buffer behind, halfway and at its end. -/
def Coheres (c : Config) (call : FileCall) : Prop :=
  (call.loaded c).Coherent ∧ ∀ c' ∈ call.run c, c'.Coherent

instance (c : Config) (call : FileCall) : Decidable (call.Clean c) :=
  match call with
  | .load io => inferInstanceAs (Decidable (io.Clean c))
  | .save io .. => inferInstanceAs (Decidable (io.Clean c))
  | .drop io _ => inferInstanceAs (Decidable (io.Clean c))
  | .write io => inferInstanceAs (Decidable (io.Clean c))

instance (c : Config) (call : FileCall) : Decidable (call.Coheres c) :=
  inferInstanceAs (Decidable (_ ∧ _))

end FileCall

/-- The process with its file, as a machine whose steps are calls; `none` once it has
crashed. Nothing else of the process has a part in it. -/
def pskFile : Machine (Option Config) FileCall Empty where
  enabled x _ := x.isSome = true
  step x call := (x.bind call.run, [])

instance (x : Option Config) (call : FileCall) : Decidable (pskFile.enabled x call) :=
  inferInstanceAs (Decidable (_ = true))

section Step
variable {c : Config} {call : FileCall}

theorem coheres_of_edits {io : LoadIO} {out : Option Config}
    (hout : ∀ c' ∈ out, c' = (c.loadConfig io).2 ∨
      ((c.loadConfig io).2.Edits c' ∧ Config.Edited (c.loadConfig io).2 c')) :
    ((c.loadConfig io).2.Coherent ∧ ∀ c' ∈ out, c'.Coherent) ↔ (c.loadConfig io).2.Coherent := by
  refine and_iff_left_of_imp fun h c' hc' => ?_
  rcases hout c' hc' with rfl | ⟨-, hedit⟩
  · exact h
  · intro _ hmod
    rw [hedit.modified] at hmod
    cases hmod

theorem load_clean_iff (hc : c.Coherent) (io : LoadIO) : (c.loadConfig io).2.Coherent ↔ io.Clean c := by
  by_cases hmapped : c.config.isSome = true
  · rw [Config.loadConfig_mapped hmapped]
    exact iff_of_true hc (.inl hmapped)
  · exact Config.loadConfig_coherent (by simpa using hmapped) io

theorem FileCall.edits {io : LoadIO} {c' : Config} (hc' : c' ∈ call.run c)
    (hcall : (∃ rio ssid psk, call = .save io rio ssid psk) ∨ ∃ ssid, call = .drop io ssid) :
    c' = (c.loadConfig io).2 ∨
      ((c.loadConfig io).2.Edits c' ∧ Config.Edited (c.loadConfig io).2 c') := by
  rcases hcall with ⟨rio, ssid, psk, rfl⟩ | ⟨ssid, rfl⟩
  · exact Config.savePsk_loaded hc'
  · obtain ⟨⟨ret, c''⟩, hdrop, rfl⟩ := Option.map_eq_some_iff.mp hc'
    exact Config.dropPsk_loaded hdrop

theorem FileCall.coheres_iff (hc : c.Coherent) : call.Coheres c ↔ call.Clean c := by
  cases call with
  | load io =>
      refine Iff.trans ?_ (load_clean_iff hc io)
      refine and_iff_left_of_imp fun h c' hc' => ?_
      obtain rfl := Option.some.inj hc'
      exact h
  | save io rio ssid psk =>
      exact (coheres_of_edits fun c' h => FileCall.edits h (.inl ⟨_, _, _, rfl⟩)).trans (load_clean_iff hc io)
  | drop io ssid =>
      exact (coheres_of_edits fun c' h => FileCall.edits h (.inr ⟨_, rfl⟩)).trans (load_clean_iff hc io)
  | write io =>
      refine Iff.trans ?_ (Config.saveConfig_coherent hc io)
      constructor
      · intro h
        exact h.2 _ rfl
      · intro h
        refine ⟨hc, fun c' hc' => ?_⟩
        obtain rfl := Option.some.inj hc'
        exact h

/-- A load finds the buffer there is, or fills a new one from the file. -/
theorem derived_load (hc : c.Derived) {io : LoadIO} (h : (c.loadConfig io).2.Coherent) :
    (c.loadConfig io).2.Derived := by
  rcases (c.loadConfig_spec io).2.1 with heq | hmod
  · rwa [heq]
  · exact h.derived hmod

theorem derived_edit {c' : Config} (hc : c.Derived)
    (h : c' = c ∨ (c.Edits c' ∧ Config.Edited c c')) : c'.Derived := by
  rcases h with rfl | ⟨hedits, hedited⟩
  · exact hc
  have hmapped : c.config.isSome = true := by
    cases hedits with
    | save h _ => exact h
    | drop h _ => exact h
  obtain ⟨c₀, hfile, htext, hpath⟩ := hc hmapped
  exact fun _ => ⟨c₀, hfile.trans hedited.file.symm, htext, hpath.tail hedits⟩

theorem derived_write (hc : c.Derived) {io : SaveIO} (h : (c.saveConfig io).Coherent) :
    (c.saveConfig io).Derived := by
  unfold Config.saveConfig at h ⊢
  split at h
  · next hnone => rwa [if_pos hnone]
  next hnone =>
  rw [if_neg hnone]
  split at h
  · next hopen => rwa [if_pos hopen]
  next hopen =>
  rw [if_neg hopen]
  exact h.derived rfl

/-- A call that leaves coherent buffers keeps what the buffer comes from. -/
theorem FileCall.derived (hc : c.Derived) (h : call.Coheres c) : ∀ c' ∈ call.run c, c'.Derived := by
  intro c' hc'
  cases call with
  | load io =>
      obtain rfl := Option.some.inj hc'
      exact derived_load hc h.1
  | save io rio ssid psk =>
      exact derived_edit (derived_load hc h.1) (FileCall.edits hc' (.inl ⟨_, _, _, rfl⟩))
  | drop io ssid =>
      exact derived_edit (derived_load hc h.1) (FileCall.edits hc' (.inr ⟨_, rfl⟩))
  | write io =>
      obtain rfl := Option.some.inj hc'
      exact derived_write hc (h.2 _ rfl)

end Step

/-- An unchanged buffer is what the file has, in every call and after it, and at any
time the buffer comes from the file by saving and dropping PSKs, exactly if every load
gets the whole file and every save gets all of the buffer written. -/
theorem buffer_coheres_iff {c : Config} (hc : c.config = none) {calls : List FileCall}
    (hv : pskFile.Valid (some c) calls) :
    (pskFile.Every (fun x call => ∀ c ∈ x, call.Coheres c) (some c) calls ∧
      pskFile.Always (fun x => ∀ c ∈ x, c.Derived) (some c) calls) ↔
    pskFile.Every (fun x call => ∀ c ∈ x, call.Clean c) (some c) calls := by
  have hstart : ∀ c' ∈ some c, c'.Coherent ∧ c'.Derived := by
    intro c' hc'
    obtain rfl := Option.some.inj hc'
    refine ⟨fun h => ?_, fun h => ?_⟩
    · rw [hc] at h
      cases h
    · rw [hc] at h
      cases h
  have hiff : pskFile.Every (fun x call => ∀ c ∈ x, call.Coheres c) (some c) calls ↔
      pskFile.Every (fun x call => ∀ c ∈ x, call.Clean c) (some c) calls := by
    refine Machine.every_congr (I := fun x => ∀ c ∈ x, c.Coherent) ?_ ?_ (fun c' h => (hstart c' h).1) hv
    · intro x call _ _ hcall c' hc'
      obtain ⟨c, hx, hrun⟩ := Option.bind_eq_some_iff.mp hc'
      exact (hcall c hx).2 c' hrun
    · intro x call hx _
      exact forall₂_congr fun c hc => FileCall.coheres_iff (hx c hc)
  rw [← hiff, and_iff_left_iff_imp]
  refine Machine.always_of_every (I := fun x => ∀ c ∈ x, c.Derived) ?_ (fun c' h => (hstart c' h).2) hv
  intro x call hx _ hcall c' hc'
  obtain ⟨c, hc, hrun⟩ := Option.bind_eq_some_iff.mp hc'
  exact FileCall.derived (hx c hc) (hcall c hc) c' hrun

namespace Sample

/-- A file with one network in it. -/
def onDisk : Config := { file := some (entriesText [⟨home, key 1⟩]) }

/-- The file is loaded, another network is saved, and the file is written in two goes. -/
def addition : List FileCall :=
  [.load {}, .save {} {} [0x61] (key 2), .write { writes := [40, 1000] }]

/-- The file cannot be read when it is loaded, and a network is saved afterwards. -/
def unread : List FileCall :=
  [.load { readErr := true }, .save {} {} [0x61] (key 2), .write {}]

end Sample

theorem addition_coheres :
    pskFile.Every (fun x call => ∀ c ∈ x, call.Coheres c) (some Sample.onDisk) Sample.addition ∧
      pskFile.Always (fun x => ∀ c ∈ x, c.Derived) (some Sample.onDisk) Sample.addition :=
  (buffer_coheres_iff rfl (by decide +kernel)).mpr (by decide +kernel)

/-- Reading fails once the block is mapped. A key is saved into the empty block, which
then replaces the file: the network that it had is not in it any more. -/
theorem unread_discards : pskFile.Valid (some Sample.onDisk) Sample.unread ∧
    ¬ pskFile.Every (fun x call => ∀ c ∈ x, call.Coheres c) (some Sample.onDisk) Sample.unread ∧
    (pskFile.after (some Sample.onDisk) Sample.unread).bind Config.file =
      some (entriesText [⟨[0x61], Sample.key 2⟩]) := by
  decide +kernel

end Wsupp

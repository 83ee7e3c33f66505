import Wsupp.Psk.Lines

/-!
# Any content of the file

The file may hold anything. Here are its lines, the way `firstline` and `nextline`
go through them, and what `extend_config` leaves of the text.

A line ends with its newline or with the file. The walk finds each line once, as
offsets that lie inside the text and follow one another, and an edit that keeps to
such offsets moves the text behind it as a whole. Nothing is assumed of what the
lines contain; the modules on entries start from these facts where the lines are
those the daemon writes.
-/
namespace Wsupp.Config

/-- What the block has of the file. -/
def data (c : Config) : Bytes := c.buf.take c.datalen

/-- A file is loaded, and the block has room for it. -/
structure Mapped (c : Config) : Prop where
  mapped : c.config.isSome = true
  fits : c.datalen ≤ c.blocklen
  room : c.blocklen ≤ c.buf.length

def linesFrom (c : Config) : ℕ → Option (ℕ × ℕ) → List (ℕ × ℕ)
  | 0, _ => []
  | _, none => []
  | n + 1, some ln => ln :: linesFrom c n (c.nextline ln)

/-- All lines that `find_line` goes through. -/
def bounds (c : Config) : List (ℕ × ℕ) := c.linesFrom (c.datalen + 1) c.firstline

def text (c : Config) (ln : ℕ × ℕ) : Bytes := c.buf.slice ln.1 (ln.2 - ln.1)

def lines (c : Config) : List Bytes := c.bounds.map c.text

/-- The line is the `k`-th one of the text: its offsets are those of the bytes between
two newlines, the last of which may be missing. -/
structure LineAt (c : Config) (k : ℕ) (ln : ℕ × ℕ) : Prop where
  le : ln.1 ≤ ln.2
  within : ln.2 ≤ c.datalen
  place : Text.At 0x0A c.data k (c.data.take ln.1) (c.text ln) (c.data.drop ln.2)

section Lines
variable {c : Config}

theorem Mapped.length_data (h : c.Mapped) : c.data.length = c.datalen := by
  rw [data, List.length_take, min_eq_left (h.fits.trans h.room)]

theorem text_eq {a z : ℕ} (hz : z ≤ c.datalen) : c.text (a, z) = (c.data.drop a).take (z - a) := by
  rw [text, data, Bytes.slice, List.drop_take, List.take_take, min_eq_left (by omega)]

theorem Mapped.setline_at (h : c.Mapped) {p : ℕ} (hp : p < c.datalen)
    (hend : Text.Ended 0x0A (c.data.take p)) : ∃ e, c.setline p = some (p, e) ∧
      c.LineAt (Text.lines 0x0A (c.data.take p)).length (p, e) := by
  have hlen := h.length_data
  have hsplit := c.data.take_append_drop p
  have hline : c.setline p =
      some (p, p + ((c.data.drop p).takeWhile fun x => x ≠ 0x0A).length) := by
    rw [setline, if_neg (not_le.mpr hp), skipline_eq (h.fits.trans h.room) (by omega)]
    rfl
  generalize hu : c.data.drop p = u at hline hsplit
  have hne : u ≠ [] := by
    intro hnil
    rw [hnil, List.drop_eq_nil_iff] at hu
    omega
  have hat := Text.at_of_ended hend hne
  have hle : (u.takeWhile fun x => x ≠ 0x0A).length ≤ c.datalen - p := by
    have hsub := (u.takeWhile_prefix fun x => x ≠ 0x0A).length_le
    rwa [← hu, List.length_drop, hlen, hu] at hsub
  refine ⟨_, hline, Nat.le_add_right _ _, by dsimp only; omega, ?_⟩
  have htext : c.text (p, p + (u.takeWhile fun x => x ≠ 0x0A).length) = u.takeWhile fun x => x ≠ 0x0A := by
    rw [text_eq (by omega), hu, Nat.add_sub_cancel_left]
    exact (List.prefix_iff_eq_take.mp (u.takeWhile_prefix _)).symm
  have hrest : c.data.drop (p + (u.takeWhile fun x => x ≠ 0x0A).length) = u.dropWhile fun x => x ≠ 0x0A := by
    have hboth := congrArg (List.drop (u.takeWhile fun x => x ≠ 0x0A).length)
      (u.takeWhile_append_dropWhile (p := fun x => x ≠ 0x0A))
    rw [List.drop_left] at hboth
    rw [← List.drop_drop, hu, hboth]
  rw [hsplit] at hat
  rw [htext]
  dsimp only
  rw [hrest]
  exact hat

theorem setline_none {p : ℕ} (hp : c.datalen ≤ p) : c.setline p = none := if_pos hp

namespace LineAt
variable {k p e : ℕ} (h : c.LineAt k (p, e))
include h

theorem take_end : c.data.take e = c.data.take p ++ c.text (p, e) := by
  rw [text_eq h.within, ← List.take_add, Nat.add_sub_cancel' h.le]

theorem drop_start : c.data.drop p = c.text (p, e) ++ c.data.drop e := by
  have hsplit := ((c.data.drop p).take_append_drop (e - p)).symm
  rwa [List.drop_drop, ← text_eq h.within, Nat.add_sub_cancel' h.le] at hsplit

theorem lines_drop : Text.lines 0x0A (c.data.drop p) = c.text (p, e) :: Text.lines 0x0A (c.data.drop (e + 1)) := by
  rw [h.drop_start, ← List.drop_drop]
  rcases h.place.closed with ⟨hafter, hne⟩ | ⟨rest, hafter⟩
  · rw [show c.data.drop e = [] from hafter, List.append_nil, Text.lines_last h.place.inner, if_neg hne]
    rfl
  · rw [show c.data.drop e = 0x0A :: rest from hafter, Text.lines_line h.place.inner]
    rfl

/-- If there is more text, the line has its newline, and the next one starts behind it. -/
theorem next (hmore : e + 1 < c.data.length) : Text.Ended 0x0A (c.data.take (e + 1)) ∧
    (Text.lines 0x0A (c.data.take (e + 1))).length = k + 1 := by
  have hplace := h.place
  rcases hplace.closed with ⟨hafter, -⟩ | ⟨rest, hafter⟩
  · rw [List.drop_eq_nil_iff] at hafter
    dsimp only at hafter
    omega
  rw [hafter] at hplace
  obtain ⟨-, hend, hcount⟩ := hplace.next
  have htake : c.data.take (e + 1) = c.data.take p ++ c.text (p, e) ++ [0x0A] := by
    rw [List.take_add, h.take_end, show c.data.drop e = 0x0A :: rest from hafter]
    rfl
  rw [htake]
  exact ⟨hend, hcount⟩

end LineAt

/-- The lines from `p` on, with their places and their texts. -/
theorem Mapped.linesFrom_spec (h : c.Mapped) (n : ℕ) {p : ℕ} (hn : c.datalen < p + n)
    (hend : p < c.datalen → Text.Ended 0x0A (c.data.take p)) :
    (∀ k ln, (c.linesFrom n (c.setline p))[k]? = some ln →
        c.LineAt ((Text.lines 0x0A (c.data.take p)).length + k) ln) ∧
      (c.linesFrom n (c.setline p)).map c.text = Text.lines 0x0A (c.data.drop p) := by
  have hlen := h.length_data
  induction n generalizing p with
  | zero =>
      have hdrop : c.data.drop p = [] := List.drop_eq_nil_of_le (by omega)
      rw [hdrop]
      exact ⟨fun k ln hk => (by cases hk), rfl⟩
  | succ n ih =>
      by_cases hp : p < c.datalen
      swap
      · have hdrop : c.data.drop p = [] := List.drop_eq_nil_of_le (by omega)
        rw [setline_none (not_lt.mp hp), hdrop]
        exact ⟨fun k ln hk => (by cases hk), rfl⟩
      obtain ⟨e, hset, hat⟩ := h.setline_at hp (hend hp)
      obtain ⟨hplaces, htexts⟩ := ih (p := e + 1) (by have hle := hat.le; dsimp only at hle; omega)
        fun he => (hat.next (by omega)).1
      rw [hset]
      constructor
      · intro k ln hk
        cases k with
        | zero =>
            cases hk
            exact hat
        | succ k =>
            change (c.linesFrom n (c.setline (e + 1)))[k]? = some ln at hk
            have he : e + 1 < c.datalen := by
              by_contra hge
              rw [setline_none (not_lt.mp hge)] at hk
              cases n <;> cases hk
            have hplace := hplaces k ln hk
            rwa [(hat.next (by omega)).2, Nat.add_right_comm, Nat.add_assoc] at hplace
      · rw [hat.lines_drop, ← htexts]
        rfl

theorem Mapped.lines_eq (h : c.Mapped) : c.lines = Text.lines 0x0A c.data :=
  (h.linesFrom_spec (c.datalen + 1) (by omega) fun _ => .inl rfl).2

theorem Mapped.lineAt (h : c.Mapped) {k : ℕ} {ln : ℕ × ℕ} (hk : c.bounds[k]? = some ln) : c.LineAt k ln := by
  have hplace := (h.linesFrom_spec (c.datalen + 1) (by omega) fun _ => .inl rfl).1 k ln hk
  simpa using hplace

theorem findFrom_mem {i : ℕ} {val : Bytes} (n : ℕ) {start : Option (ℕ × ℕ)} {ln : ℕ × ℕ}
    (h : findFrom c i val n start = some ln) : ln ∈ c.linesFrom n start := by
  induction n generalizing start with
  | zero => cases h
  | succ n ih =>
      cases start with
      | none => cases h
      | some l =>
          simp only [findFrom] at h
          split at h
          · exact List.mem_cons_of_mem _ (ih h)
          split at h
          · cases h
            exact List.mem_cons_self
          · exact List.mem_cons_of_mem _ (ih h)

theorem findLine_index {i : ℕ} {val : Bytes} {ln : ℕ × ℕ} (h : c.findLine i val = some ln) :
    ∃ k : ℕ, c.bounds[k]? = some ln := by
  have hmem : ln ∈ c.bounds := findFrom_mem _ h
  exact List.mem_iff_getElem?.mp hmem

end Lines

/-- The data is made longer or shorter, and what there was of it is still in the buffer,
also behind a shorter length. -/
structure Extended (c : Config) (len : Int) (c' : Config) : Prop where
  sound : c'.Mapped
  datalen : (c'.datalen : Int) = c.datalen + len
  kept : c'.buf.take c.datalen = c.data
  room : c.datalen ≤ c'.buf.length

theorem extendConfig_eq_none {c : Config} {io : RemapIO} {len : Int} : c.extendConfig io len = none ↔
    (c.datalen : Int) + len < 0 ∨ ((c.blocklen : Int) < c.datalen + len ∧ io.err = true) := by
  unfold extendConfig remapConfig
  dsimp only
  split
  · next h => simp [h]
  · next h =>
      split
      · next hlt => simp [hlt, h]
      · next hlt => simp [hlt, h]

theorem Mapped.extendConfig {c c' : Config} (h : c.Mapped) {io : RemapIO} {len : Int}
    (hext : c.extendConfig io len = some c') : c.Extended len c' := by
  obtain ⟨hmapped, hfits, hroom⟩ := h
  unfold Config.extendConfig at hext
  dsimp only at hext
  split at hext
  · cases hext
  next hneg =>
  split at hext
  · rw [Option.map_eq_some_iff] at hext
    obtain ⟨c₁, hremap, rfl⟩ := hext
    unfold remapConfig at hremap
    split at hremap
    · cases hremap
    cases hremap
    have halign : ((c.datalen : Int) + len).toNat ≤ alignPage ((c.datalen : Int) + len).toNat :=
      Nat.le_add_right _ _
    have hlen : (c.buf.take c.blocklen ++ Bytes.zeros (c.blocklen +
        alignPage ((c.datalen : Int) + len).toNat - (c.buf.take c.blocklen).length)).length =
        c.blocklen + alignPage ((c.datalen : Int) + len).toNat := by
      rw [List.length_append, List.length_take, Bytes.zeros, List.length_replicate]
      omega
    refine ⟨⟨rfl, le_rfl, ?_⟩, ?_, ?_, ?_⟩
    · change _ ≤ (_ ++ _ : Bytes).length
      rw [hlen]
      dsimp only
      omega
    · dsimp only
      omega
    · change (_ ++ _ : Bytes).take c.datalen = _
      rw [List.take_append_of_le_length (by rw [List.length_take]; omega), List.take_take,
        min_eq_left hfits]
      rfl
    · change _ ≤ (_ ++ _ : Bytes).length
      rw [hlen]
      omega
  · cases hext
    refine ⟨⟨hmapped, ?_, hroom⟩, ?_, rfl, hfits.trans hroom⟩
    · dsimp only
      omega
    · dsimp only
      omega

/-- The block is written over, and starts with the new text. -/
theorem Mapped.overwrite {c c' : Config} (h : c.Mapped) {t r : Bytes}
    (hc : c'.config = some (t ++ r)) (hlen : c'.datalen = c.datalen) (hblock : c'.blocklen = c.blocklen)
    (ht : t.length = c.datalen) (hrest : r.length = c.buf.length - c.datalen) :
    c'.Mapped ∧ c'.data = t := by
  have hbuf : c'.buf = t ++ r := by
    rw [buf, hc]
    rfl
  have hfits := h.fits
  have hroom := h.room
  refine ⟨⟨by rw [hc]; rfl, by omega, ?_⟩, ?_⟩
  · rw [hbuf, List.length_append, hblock]
    omega
  · rw [data, hbuf, hlen, ← ht, List.take_left]

section Edits
variable {c c' : Config} {k : ℕ} {ln : ℕ × ℕ}

/-- What stands before a position and after one in the extended block. -/
theorem Extended.before {len : Int} (h : c.Extended len c') {p : ℕ} (hp : p ≤ c.datalen) :
    c'.buf.take p = c.data.take p := by
  rw [← h.kept, List.take_take, min_eq_left hp]

theorem Extended.after {len : Int} (h : c.Extended len c') (p : ℕ) :
    c'.buf.slice p (c.datalen - p) = c.data.drop p := by
  rw [← h.kept, List.drop_take]
  rfl

/-- Changing a line changes the text of the file in that place. -/
theorem Mapped.changePart (h : c.Mapped) (hat : c.LineAt k ln) {io : RemapIO} {t : Bytes}
    (hext : (c.extendConfig io ((t.length : Int) - (ln.2 - ln.1))).isSome = true) :
    (c.changePart io ln.1 ln.2 t).Mapped ∧
      (c.changePart io ln.1 ln.2 t).data = c.data.take ln.1 ++ t ++ c.data.drop ln.2 := by
  obtain ⟨c₁, hc₁⟩ := Option.isSome_iff_exists.mp hext
  have hex := h.extendConfig hc₁
  have hle := hat.le
  have hwithin := hat.within
  have hlen := hex.datalen
  have hfits := hex.sound.fits
  have hroom := hex.sound.room
  have hdata := h.length_data
  unfold Config.changePart
  rw [hc₁]
  refine hex.sound.overwrite (r := c₁.buf.drop (ln.1 + t.length + (c.datalen - ln.2))) ?_ rfl rfl ?_ ?_
  · dsimp only
    rw [hex.before (by omega), hex.after]
  · rw [List.length_append, List.length_append, List.length_take, List.length_drop]
    omega
  · rw [List.length_drop]
    omega

/-- A line is added to the end of the text, unless there is no memory or the block moves. -/
theorem Mapped.insertLine (h : c.Mapped) {io : RemapIO} {t : Bytes}
    (hext : c.extendConfig io (t.length + 1) = some c') (hkeep : ¬ (c.blocklen < c.datalen + t.length + 1 ∧ io.moved)) :
    ∃ c'', c.insertLine io t = some c'' ∧ c''.Mapped ∧ c''.data = c.data ++ t ++ [0x0A] := by
  have hex := h.extendConfig hext
  have hlen := hex.datalen
  have hfits := hex.sound.fits
  have hroom := hex.sound.room
  have hdata := h.length_data
  unfold Config.insertLine
  rw [hext]
  dsimp only
  rw [if_neg hkeep]
  refine ⟨_, rfl, ?_⟩
  refine hex.sound.overwrite (r := c'.buf.drop (c.datalen + t.length + 1)) ?_ rfl rfl ?_ ?_
  · dsimp only
    rw [hex.kept]
  · rw [List.length_append, List.length_append, List.length_singleton]
    omega
  · rw [List.length_drop]
    omega

/-- A line that has its newline is cut out of the text. -/
theorem Mapped.dropLine (h : c.Mapped) (hat : c.LineAt k ln) (hend : ln.2 < c.datalen) :
    ∃ c'', c.dropLine ln = some c'' ∧ c''.Mapped ∧
      c''.data = c.data.take ln.1 ++ c.data.drop (ln.2 + 1) := by
  have hle := hat.le
  have hdata := h.length_data
  have hroom := h.room
  have hfits := h.fits
  obtain ⟨c₁, hc₁⟩ : ∃ c₁, c.extendConfig {} (-((ln.2 : Int) - ln.1 + 1)) = some c₁ := by
    unfold Config.extendConfig
    dsimp only
    rw [if_neg (by omega), if_neg (by omega)]
    exact ⟨_, rfl⟩
  have hex := h.extendConfig hc₁
  have hlen := hex.datalen
  have hroom₁ := hex.room
  have hshlen : ((c.datalen : Int) - ln.2 - 1).toNat = c.datalen - (ln.2 + 1) := by omega
  unfold Config.dropLine
  rw [hc₁]
  dsimp only
  rw [if_neg (by omega), hshlen]
  refine ⟨_, rfl, ?_⟩
  refine hex.sound.overwrite (r := c₁.buf.drop (ln.1 + (c.datalen - (ln.2 + 1)))) ?_ rfl rfl ?_ ?_
  · dsimp only
    rw [hex.before (by omega), hex.after]
  · rw [List.length_append, List.length_take, List.length_drop]
    omega
  · rw [List.length_drop]
    omega

end Edits
end Wsupp.Config

import Wsupp.Psk.Content

/-!
# Arguments, names and keys in the file

What `split_line` takes for the arguments of a line of any bytes, and how SSIDs and
keys are spelled: which texts can come from `fmt_ssid`, and which ones `parse_bytes`
takes for a key.

A spelled name has no blank or newline in it, tells the name apart from others, and
is unaffected by what follows it in the buffer. An odd backslash at the end of a
line lets the last argument run beyond the line. Keys are read back as written; a
text with a zero byte passes for digits, as a search for a character also finds the
end of the string.
-/
namespace Wsupp.Config

/-- The room check of `fmt_ssid` passes before each byte. -/
def RoomFor (e : ℕ) : ℕ → Bytes → Prop
  | _, [] => True
  | p, x :: ssid => p + 5 < e ∧ RoomFor e (p + (fmtByte x).length) ssid

instance decidableRoomFor (e : ℕ) : ∀ p ssid, Decidable (RoomFor e p ssid)
  | _, [] => isTrue trivial
  | p, x :: ssid =>
      haveI := decidableRoomFor e (p + (fmtByte x).length) ssid
      inferInstanceAs (Decidable (_ ∧ _))

theorem fmtSsid_of_room {e : ℕ} {ssid : Bytes} : ∀ {p}, RoomFor e p ssid → fmtSsid p e ssid = spell ssid := by
  induction ssid with
  | nil => exact fun _ => rfl
  | cons x ssid ih =>
      intro p h
      rw [fmtSsid, if_neg (not_le.mpr h.1), ih h.2, spell_cons]

/-- The text of an SSID has no newline, is one argument wherever it stands before a
separator or the end of the line, and is not that of any other SSID. What stands in the
buffer behind it does not matter. -/
theorem fmtSsid_separable {ssid ssid' : Bytes} {p e p' e' : ℕ} (h : RoomFor e p ssid) (h' : RoomFor e' p' ssid') :
    0x0A ∉ fmtSsid p e ssid ∧
    (∀ (b : Bytes) (z q : ℕ) (t : Bytes), z ≤ b.length → (b.take z).drop q = fmtSsid p e ssid ++ t →
      (t = [] ∨ ∃ x rest, t = x :: rest ∧ isspace x = true) →
      skiparg b z (z - q) q = q + (fmtSsid p e ssid).length) ∧
    (ssid ≠ ssid' → fmtSsid p e ssid ≠ fmtSsid p' e' ssid') := by
  rw [fmtSsid_of_room h, fmtSsid_of_room h']
  refine ⟨newline_spell ssid, ?_, fun hne heq => hne (spell_injective heq)⟩
  intro b z q t hz htext hsep
  refine skiparg_word hz (by omega) (Word.flatMap word_fmtByte ssid) htext ?_
  rcases hsep with rfl | ⟨x, rest, rfl, hx⟩
  · rfl
  · exact hx

namespace Sample

/-- A name with a space, a backslash and an `x` in it, and one with a control character. -/
def spaced : Bytes := "a \\x".toUTF8.toList
def control : Bytes := [0x61, 0x0A]

end Sample

theorem spaced_separable : 0x0A ∉ fmtSsid 0 100 Sample.spaced ∧
    skiparg "a\\ \\\\x\tb".toUTF8.toList 8 (8 - 0) 0 = 0 + (fmtSsid 0 100 Sample.spaced).length ∧
    fmtSsid 0 100 Sample.spaced ≠ fmtSsid 0 100 Sample.control := by
  have hroom : RoomFor 100 0 Sample.spaced := by decide +kernel
  have hroom' : RoomFor 100 0 Sample.control := by decide +kernel
  obtain ⟨hline, harg, hdiff⟩ := fmtSsid_separable hroom hroom'
  refine ⟨hline, ?_, hdiff (by decide +kernel)⟩
  exact harg _ 8 0 "\tb".toUTF8.toList (by decide +kernel) (by decide +kernel)
    (.inr ⟨0x09, [0x62], by decide +kernel, rfl⟩)

/-- Between two arguments, inside one, or right behind a backslash in it. -/
inductive Mode where
  | between | inside | escaped
deriving DecidableEq

/-- The mode after one more byte. -/
def Mode.next (m : Mode) (x : UInt8) : Mode :=
  if m = .escaped then .inside
  else if isspace x then .between
  else if x = 0x5C then .escaped
  else .inside

/-- How many arguments start in a text. -/
def argsFrom (m : Mode) : Bytes → ℕ
  | [] => 0
  | x :: t => (if m = .between ∧ isspace x = false then 1 else 0) + argsFrom (m.next x) t

/-- How many arguments a line has, as one reads it from its start: separators are spaces,
tabs and newlines that have no backslash before them. -/
def args (t : Bytes) : ℕ := argsFrom .between t

/-- The text ends in an odd number of backslashes. -/
def OddTail (t : Bytes) : Prop := (t.reverse.takeWhile fun x => x = 0x5C).length % 2 = 1

instance (t : Bytes) : Decidable (OddTail t) := inferInstanceAs (Decidable (_ = _))

/-- The chunks are not empty, are in order, do not overlap and lie inside the line. -/
def Separate (ln : ℕ × ℕ) (cks : List (ℕ × ℕ)) : Prop :=
  (∀ ck ∈ cks, ln.1 ≤ ck.1 ∧ ck.1 < ck.2 ∧ ck.2 ≤ ln.2) ∧ cks.Pairwise fun x y => x.2 ≤ y.1

instance (ln : ℕ × ℕ) (cks : List (ℕ × ℕ)) : Decidable (Separate ln cks) :=
  inferInstanceAs (Decidable (_ ∧ _))

/-- A text that ends in an odd number of backslashes ends right behind one that takes
the next byte along. -/
theorem oddTail_iff (t : Bytes) : OddTail t ↔ t.foldl Mode.next .between = .escaped := by
  induction t using List.reverseRecOn with
  | nil => decide
  | append_singleton t x ih =>
      rw [List.foldl_append, List.foldl_cons, List.foldl_nil]
      generalize t.foldl Mode.next .between = m at ih ⊢
      unfold OddTail Mode.next
      rw [List.reverse_append, List.reverse_singleton, List.singleton_append, List.takeWhile_cons]
      by_cases hx : x = 0x5C
      · subst hx
        rw [if_pos (by decide), List.length_cons]
        by_cases hm : m = .escaped
        · rw [if_pos hm]
          have hodd := ih.mpr hm
          unfold OddTail at hodd
          exact iff_of_false (by omega) (by decide)
        · rw [if_neg hm]
          have heven := mt ih.mp hm
          unfold OddTail at heven
          exact iff_of_true (by omega) (by decide)
      · rw [if_neg (by simpa using hx), if_neg hx]
        exact iff_of_false (by decide) (by split_ifs <;> decide)

section Scan
variable {b : Bytes} {e : ℕ}

/-- What is left of the line from a position on. -/
def rest (b : Bytes) (e p : ℕ) : Bytes := (b.take e).drop p

theorem rest_cons (he : e ≤ b.length) {p : ℕ} (hp : p < e) : rest b e p = b.at' p :: rest b e (p + 1) := by
  unfold rest
  rw [List.drop_eq_getElem_cons (by rw [List.length_take]; omega), List.getElem_take, Bytes.at',
    List.getD_eq_getElem _ _ (by omega)]

theorem rest_end {p : ℕ} (hp : e ≤ p) : rest b e p = [] :=
  List.drop_eq_nil_of_le (by rw [List.length_take]; omega)

/-- Reading on from `q` counts the same arguments and ends in the same mode. -/
def Resumes (b : Bytes) (e : ℕ) (m : Mode) (p : ℕ) (m' : Mode) (q : ℕ) : Prop :=
  argsFrom m (rest b e p) = argsFrom m' (rest b e q) ∧
    ((rest b e p).foldl Mode.next m = .escaped ↔ (rest b e q).foldl Mode.next m' = .escaped)

theorem Resumes.refl (m : Mode) (p : ℕ) : Resumes b e m p m p := ⟨rfl, .rfl⟩

theorem Resumes.trans {m m' m'' : Mode} {p q r : ℕ} (h : Resumes b e m p m' q) (h' : Resumes b e m' q m'' r) :
    Resumes b e m p m'' r := ⟨h.1.trans h'.1, h.2.trans h'.2⟩

theorem resumes_step (he : e ≤ b.length) {m : Mode} {p : ℕ} (hp : p < e)
    (hm : m = .between → isspace (b.at' p) = true) : Resumes b e m p (m.next (b.at' p)) (p + 1) := by
  unfold Resumes
  rw [rest_cons he hp]
  have hnone : ¬ (m = .between ∧ isspace (b.at' p) = false) := by
    rintro ⟨hb, hs⟩
    rw [hm hb] at hs
    cases hs
  simp only [argsFrom, if_neg hnone, Nat.zero_add, List.foldl_cons, true_and]

/-- A separator or the end of the line ends an argument. -/
theorem resumes_between (he : e ≤ b.length) {p : ℕ} (hp : e ≤ p ∨ isspace (b.at' p) = true) :
    Resumes b e .inside p .between p := by
  unfold Resumes
  by_cases hlt : p < e
  · have hs := hp.resolve_left (not_le.mpr hlt)
    rw [rest_cons he hlt]
    simp [argsFrom, Mode.next, hs]
  · rw [rest_end (not_lt.mp hlt)]
    simp [argsFrom]

theorem skipsep_resumes (he : e ≤ b.length) (n : ℕ) {p : ℕ} (hp : p ≤ e) (hn : e ≤ p + n) :
    p ≤ skipsep b e n p ∧ skipsep b e n p ≤ e ∧ Resumes b e .between p .between (skipsep b e n p) ∧
      (skipsep b e n p < e → isspace (b.at' (skipsep b e n p)) = false) := by
  induction n generalizing p with
  | zero => exact ⟨le_rfl, hp, .refl _ _, fun h => absurd h (by unfold skipsep; omega)⟩
  | succ n ih =>
      unfold skipsep
      by_cases hs : p < e ∧ isspace (b.at' p) = true
      · rw [if_pos hs]
        obtain ⟨hle, hend, hres, hstop⟩ := ih (p := p + 1) hs.1 (by omega)
        have hstep := resumes_step he hs.1 (m := .between) fun _ => hs.2
        rw [Mode.next, if_neg (by decide), if_pos hs.2] at hstep
        exact ⟨by omega, hend, hstep.trans hres, hstop⟩
      · rw [if_neg hs]
        refine ⟨le_rfl, hp, .refl _ _, fun hlt => eq_false_of_ne_true fun h => hs ⟨hlt, h⟩⟩

/-- The end of an argument is at a separator or at the end of the line, or else one
byte behind the end of a line that ends in the middle of an escape. -/
def EndsAt (b : Bytes) (e p q : ℕ) : Prop :=
  (p ≤ q ∧ q ≤ e ∧ Resumes b e .inside p .inside q ∧ (e ≤ q ∨ isspace (b.at' q) = true)) ∨
    (q = e + 1 ∧ argsFrom .inside (rest b e p) = 0 ∧ (rest b e p).foldl Mode.next .inside = .escaped)

theorem EndsAt.of_later {p p' q : ℕ} (hle : p ≤ p') (hres : Resumes b e .inside p .inside p')
    (h : EndsAt b e p' q) : EndsAt b e p q := by
  rcases h with ⟨hq, hend, hmore, hstop⟩ | ⟨hq, hargs, hmode⟩
  · exact .inl ⟨hle.trans hq, hend, hres.trans hmore, hstop⟩
  · exact .inr ⟨hq, hres.1.trans hargs, hres.2.mpr hmode⟩

theorem skiparg_past {n p : ℕ} (hp : e ≤ p) : skiparg b e n p = p := by
  cases n with
  | zero => rfl
  | succ n =>
      rw [skiparg_succ, if_neg]
      exact fun h => absurd h.1 (not_lt.mpr hp)

theorem skiparg_ends (he : e ≤ b.length) (n : ℕ) {p : ℕ} (hp : p ≤ e) (hn : e ≤ p + n) :
    EndsAt b e p (skiparg b e n p) := by
  induction n generalizing p with
  | zero => exact .inl ⟨le_rfl, hp, .refl _ _, .inl (by unfold skiparg; omega)⟩
  | succ n ih =>
      rw [skiparg_succ]
      by_cases hgo : p < e ∧ ¬ isspace (b.at' p) = true
      swap
      · rw [if_neg hgo]
        refine .inl ⟨le_rfl, hp, .refl _ _, ?_⟩
        by_cases hlt : p < e
        · exact .inr (not_not.mp fun h => hgo ⟨hlt, h⟩)
        · exact .inl (not_lt.mp hlt)
      rw [if_pos hgo]
      obtain ⟨hlt, hs⟩ := hgo
      have hstep := resumes_step he hlt (m := .inside) (fun h => by cases h)
      rw [Mode.next, if_neg (by decide), if_neg hs] at hstep
      by_cases hb : b.at' p = 0x5C
      swap
      · rw [if_neg hb] at hstep ⊢
        exact (ih hlt (by omega)).of_later (Nat.le_succ p) hstep
      rw [if_pos hb] at hstep ⊢
      by_cases hmore : p + 1 < e
      · have hnext := resumes_step he hmore (m := .escaped) (fun h => by cases h)
        rw [Mode.next, if_pos rfl] at hnext
        exact (ih hmore (by omega)).of_later (by omega) (hstep.trans hnext)
      · -- the backslash is the last byte of the line
        have hlast : p + 2 = e + 1 := by omega
        rw [hlast, skiparg_past (by omega)]
        rw [Resumes, rest_end (not_lt.mp hmore)] at hstep
        exact .inr ⟨rfl, hstep.1, hstep.2.mpr rfl⟩

end Scan

/-- The chunks follow each other between two positions. -/
def Follow (e : ℕ) : ℕ → List (ℕ × ℕ) → Prop
  | _, [] => True
  | p, ck :: cks => p ≤ ck.1 ∧ ck.1 < ck.2 ∧ ck.2 ≤ e ∧ Follow e ck.2 cks

theorem Follow.mono {e p p' : ℕ} {cks : List (ℕ × ℕ)} (h : Follow e p cks) (hp : p' ≤ p) : Follow e p' cks := by
  cases cks with
  | nil => trivial
  | cons ck cks => exact ⟨hp.trans h.1, h.2⟩

theorem Follow.separate {e p : ℕ} {cks : List (ℕ × ℕ)} (h : Follow e p cks) : Separate (p, e) cks := by
  induction cks generalizing p with
  | nil => exact ⟨fun ck hck => (by cases hck), .nil⟩
  | cons ck cks ih =>
      obtain ⟨hp, hlt, he, hrest⟩ := h
      obtain ⟨hin, hpair⟩ := ih hrest
      constructor
      · intro ck' hck'
        rcases List.mem_cons.mp hck' with rfl | hck'
        · exact ⟨hp, hlt, he⟩
        · obtain ⟨hstart, hne, hend⟩ := hin ck' hck'
          dsimp only at hstart hend
          exact ⟨by omega, hne, hend⟩
      · exact .cons (fun ck' hck' => (hin ck' hck').1) hpair

/-- The line ends in the middle of an escape, in one of its first `nc` arguments. -/
def CutShort (b : Bytes) (e p nc : ℕ) : Prop :=
  (rest b e p).foldl Mode.next .between = .escaped ∧ argsFrom .between (rest b e p) ≤ nc

theorem rest_starts {b : Bytes} {e p : ℕ} (he : e ≤ b.length) (hp : p < e) (hs : isspace (b.at' p) = false) :
    argsFrom .between (rest b e p) = argsFrom .inside (rest b e p) + 1 ∧
      (rest b e p).foldl Mode.next .between = (rest b e p).foldl Mode.next .inside := by
  have hsame : Mode.next .between (b.at' p) = Mode.next .inside (b.at' p) := rfl
  rw [rest_cons he hp]
  constructor
  · simp only [argsFrom, hs, hsame, and_self, if_true, reduceCtorEq, false_and, if_false]
    omega
  · simp only [List.foldl_cons, hsame]

/-- From a position that is not at a separator, the chunks follow each other up to the end of
the line, unless the last of them is cut short. -/
theorem splitFrom_spec {b : Bytes} {e : ℕ} (he : e ≤ b.length) (nc : ℕ) {p : ℕ} (hp : p ≤ e)
    (hs : p < e → isspace (b.at' p) = false) :
    (¬ CutShort b e p nc → Follow e p (splitFrom b e nc p)) ∧
      (CutShort b e p nc → ∃ ck ∈ splitFrom b e nc p, e < ck.2) := by
  induction nc generalizing p with
  | zero =>
      refine ⟨fun _ => trivial, fun hcut => ?_⟩
      obtain ⟨hmode, hargs⟩ := hcut
      by_cases hlt : p < e
      · rw [rest_cons he hlt, argsFrom, if_pos ⟨rfl, hs hlt⟩] at hargs
        omega
      · rw [rest_end (not_lt.mp hlt)] at hmode
        cases hmode
  | succ nc ih =>
      unfold splitFrom
      by_cases hlt : p < e
      swap
      · rw [if_neg hlt]
        refine ⟨fun _ => trivial, fun hcut => ?_⟩
        have hmode := hcut.1
        rw [rest_end (not_lt.mp hlt)] at hmode
        cases hmode
      rw [if_pos hlt]
      obtain ⟨hargs, hmode⟩ := rest_starts he hlt (hs hlt)
      dsimp only
      rcases skiparg_ends he (e - p) hp (by omega) with ⟨hle, hend, hres, hstop⟩ | ⟨hend, hnone, hopen⟩
      · generalize skiparg b e (e - p) p = q at hle hend hres hstop ⊢
        have hne : p ≠ q := by
          rintro rfl
          rcases hstop with hge | hsep
          · omega
          · rw [hs hlt] at hsep
            cases hsep
        obtain ⟨hsep, hsepe, hskip, hnext⟩ := skipsep_resumes he (e - q) hend (by omega)
        generalize skipsep b e (e - q) q = p' at hsep hsepe hskip hnext ⊢
        have hall := (hres.trans (resumes_between he hstop)).trans hskip
        have hcut : CutShort b e p (nc + 1) ↔ CutShort b e p' nc := by
          unfold CutShort
          rw [hargs, hmode, hall.1, hall.2, Nat.add_le_add_iff_right]
        obtain ⟨hfollow, hlong⟩ := ih hsepe hnext
        rw [hcut]
        constructor
        · intro h
          exact ⟨le_rfl, by dsimp only; omega, hend, (hfollow h).mono hsep⟩
        · intro h
          obtain ⟨ck, hck, hlt⟩ := hlong h
          exact ⟨ck, List.mem_cons_of_mem _ hck, hlt⟩
      · have hcut : CutShort b e p (nc + 1) := by
          unfold CutShort
          rw [hargs, hmode, hnone]
          exact ⟨hopen, by omega⟩
        refine ⟨fun h => absurd hcut h, fun _ => ⟨_, List.mem_cons_self, ?_⟩⟩
        dsimp only
        omega

end Wsupp.Config

namespace Wsupp
open Config

/-- The chunks of a line are not empty, in order, disjoint and inside the line exactly
if the line does not end in an odd number of backslashes, or has more arguments than are
asked for. Lines are of any bytes. -/
theorem splitLine_separate_iff {c : Config} {ln : ℕ × ℕ} (hln : ln.1 ≤ ln.2) (hbuf : ln.2 ≤ c.buf.length)
    (nc : ℕ) : Separate ln (c.splitLine ln nc) ↔ ¬ OddTail (c.text ln) ∨ nc < args (c.text ln) := by
  have htext : rest c.buf ln.2 ln.1 = c.text ln := by
    rw [rest, List.drop_take]
    rfl
  obtain ⟨hle, hend, hres, hnext⟩ := skipsep_resumes hbuf (ln.2 - ln.1) hln (by omega)
  obtain ⟨hfollow, hlong⟩ := splitFrom_spec hbuf nc hend hnext
  have hcut : CutShort c.buf ln.2 (skipsep c.buf ln.2 (ln.2 - ln.1) ln.1) nc ↔
      OddTail (c.text ln) ∧ args (c.text ln) ≤ nc := by
    unfold CutShort
    rw [oddTail_iff, args, ← htext, hres.1, hres.2]
  rw [← not_le, ← not_and_or, ← hcut]
  constructor
  · intro hsep h
    obtain ⟨ck, hck, hlt⟩ := hlong h
    have hin := (hsep.1 ck hck).2.2
    omega
  · intro h
    exact ((hfollow h).mono hle).separate

namespace Sample

/-- A line whose name ends in a backslash, and another line behind it. -/
def backslash : Config := (Config.loadConfig {} { file := some "k a\\\nk b\n".toUTF8.toList }).2

end Sample

theorem backslash_key : Separate (0, 4) (Sample.backslash.splitLine (0, 4) 1) :=
  (splitLine_separate_iff (by decide) (by decide +kernel) 1).mpr (by decide +kernel)

/-- The last byte of the line is a backslash, which makes an argument of the newline
behind it. The name takes it along. -/
theorem backslash_exceeds : Sample.backslash.bounds = [(0, 4), (5, 8)] ∧
    Sample.backslash.splitLine (0, 4) 2 = [(0, 1), (2, 5)] ∧
    ¬ Separate (0, 4) (Sample.backslash.splitLine (0, 4) 2) := by
  decide +kernel

namespace Config

/-- `fmt_bytes` at offset `p` of a buffer that ends at `e`: a character that has no room
is left out. -/
def fmtBytesAt (p e : ℕ) : Bytes → Bytes
  | [] => []
  | x :: data =>
      let put (p : ℕ) (y : UInt8) : Bytes := if p < e then [y] else []
      let hh := put p (digits.at' (x.toNat / 16))
      let ll := put (p + hh.length) (digits.at' (x.toNat % 16))
      hh ++ ll ++ fmtBytesAt (p + hh.length + ll.length) e data

theorem fmtBytesAt_of_room {e : ℕ} (data : Bytes) {p : ℕ} (h : p + 2 * data.length ≤ e) :
    fmtBytesAt p e data = fmtBytes data := by
  induction data generalizing p with
  | nil => rfl
  | cons x data ih =>
      rw [List.length_cons] at h
      have hrest := ih (p := p + 1 + 1) (by omega)
      simp only [fmtBytesAt, if_pos (show p < e by omega), List.length_singleton,
        if_pos (show p + 1 < e by omega), hrest]
      rfl

/-- The characters that `parse_bytes` knows: the digits, and the zero that ends them. -/
def Known (x : UInt8) : Prop := x ∈ digits ∨ x = 0

instance (x : UInt8) : Decidable (Known x) := inferInstanceAs (Decidable (_ ∨ _))

theorem known_iff {x : UInt8} : Known x ↔ (digits ++ [0]).idxOf x ≤ 16 := by
  have hlen : (digits ++ [0]).length = 17 := by decide +kernel
  have hmem : x ∈ digits ++ [0] ↔ Known x := by
    rw [List.mem_append, List.mem_singleton]
    rfl
  rw [← hmem, ← List.idxOf_lt_length_iff, hlen]
  omega

theorem digit_known {x : UInt8} (h : Known x) : ∃ i, digit x = some i ∧
    (x ≠ 0 → i < 16 ∧ digits.at' i = x) := by
  refine ⟨_, if_pos (known_iff.mp h), fun hx => ?_⟩
  have hmem := h.resolve_right hx
  have hlt := List.idxOf_lt_length_of_mem hmem
  have hlen : digits.length = 16 := by decide +kernel
  rw [List.idxOf_append_of_mem hmem]
  refine ⟨by omega, ?_⟩
  rw [Bytes.at', List.getD_eq_getElem _ _ hlt, List.getElem_idxOf]

theorem digit_unknown {x : UInt8} (h : ¬ Known x) : digit x = none :=
  if_neg (mt known_iff.mpr h)

/-- Two digits make a byte, and are the ones that it is written with. -/
theorem byte_digits {i j : ℕ} (hi : i < 16) (hj : j < 16) :
    (UInt8.ofNat (i * 16 + j)).toNat / 16 = i ∧ (UInt8.ofNat (i * 16 + j)).toNat % 16 = j := by
  rw [UInt8.toNat_ofNat_of_lt' (by rw [UInt8.size]; omega)]
  omega

theorem einval_ne : ¬ (-EINVAL = 0) := by decide

/-- The loop succeeds exactly if it knows all characters, and then what it has stored
spells the text, unless there is a zero in it. -/
theorem parseLoop_spec (dst : Bytes) {str : Bytes} (h : str.length = 2 * dst.length) :
    ((parseLoop str dst).1 = 0 ↔ ∀ x ∈ str, Known x) ∧
      ((parseLoop str dst).1 = 0 → 0 ∉ str → fmtBytes (parseLoop str dst).2 = str) := by
  induction dst generalizing str with
  | nil =>
      obtain rfl := List.length_eq_zero_iff.mp h
      exact ⟨iff_of_true rfl (fun x hx => (by cases hx)), fun _ _ => rfl⟩
  | cons d dst ih =>
      obtain ⟨hi, lo, str, rfl⟩ : ∃ hi lo str', str = hi :: lo :: str' := by
        cases str with
        | nil => cases h
        | cons hi str =>
            cases str with
            | nil => rw [List.length_singleton, List.length_cons] at h; omega
            | cons lo str => exact ⟨hi, lo, str, rfl⟩
      have hlen : str.length = 2 * dst.length := by
        simp only [List.length_cons] at h
        omega
      obtain ⟨hiff, htext⟩ := ih hlen
      by_cases hknown : Known hi ∧ Known lo
      · obtain ⟨hhi, hlo⟩ := hknown
        obtain ⟨i, hi', hispec⟩ := digit_known hhi
        obtain ⟨j, hj', hjspec⟩ := digit_known hlo
        have hstep : parseLoop (hi :: lo :: str) (d :: dst) =
            ((parseLoop str dst).1, UInt8.ofNat (i * 16 + j) :: (parseLoop str dst).2) := by
          simp only [parseLoop, hi', hj']
        rw [hstep]
        constructor
        · rw [hiff]
          simp only [List.forall_mem_cons, hhi, hlo, true_and]
        · intro hret hzero
          simp only [List.mem_cons, not_or] at hzero
          obtain ⟨hi0, hlo0, hrest⟩ := hzero
          obtain ⟨hilt, hiat⟩ := hispec (Ne.symm hi0)
          obtain ⟨hjlt, hjat⟩ := hjspec (Ne.symm hlo0)
          obtain ⟨hdiv, hmod⟩ := byte_digits hilt hjlt
          have hbyte : fmtBytes (UInt8.ofNat (i * 16 + j) :: (parseLoop str dst).2) =
              digits.at' ((UInt8.ofNat (i * 16 + j)).toNat / 16) ::
                digits.at' ((UInt8.ofNat (i * 16 + j)).toNat % 16) :: fmtBytes (parseLoop str dst).2 := rfl
          rw [hbyte, hdiv, hmod, hiat, hjat, htext hret hrest]
      · have hfail : parseLoop (hi :: lo :: str) (d :: dst) = (-EINVAL, d :: dst) := by
          unfold parseLoop
          rcases not_and_or.mp hknown with hno | hno
          · rw [digit_unknown hno]
          · rw [digit_unknown hno]
            cases digit hi <;> rfl
        rw [hfail]
        have hall : ¬ ∀ x ∈ hi :: lo :: str, Known x := fun h =>
          hknown ⟨h hi List.mem_cons_self, h lo (List.mem_cons_of_mem _ List.mem_cons_self)⟩
        exact ⟨iff_of_false einval_ne hall, fun h => absurd h einval_ne⟩

theorem zero_fmtBytes (data : Bytes) : (0 : UInt8) ∉ fmtBytes data := by
  intro h
  obtain ⟨x, -, hx⟩ := List.mem_flatMap.mp h
  obtain ⟨hhi, hlo, -⟩ := nibbles x
  have hne : ∀ i < 16, digits.at' i ≠ 0 := by decide +kernel
  simp [(hne _ hhi).symm, (hne _ hlo).symm] at hx

end Config

/-- What `fmt_bytes` writes `parse_bytes` reads. The other way round, a text that is
taken is the one that is written for the bytes stored, exactly if it is not one of
digits and zero bytes with at least one of the latter. -/
theorem parseBytes_fmtBytes_iff (data str dst : Bytes) (p e : ℕ) :
    (data.length = dst.length → p + 2 * data.length ≤ e →
      parseBytes (fmtBytesAt p e data) dst = (0, data)) ∧
    (((parseBytes str dst).1 = 0 → str = fmtBytes (parseBytes str dst).2) ↔
      ¬ (str.length = 2 * dst.length ∧ (∀ x ∈ str, Known x) ∧ 0 ∈ str)) := by
  constructor
  · intro hlen hroom
    rw [fmtBytesAt_of_room data hroom]
    exact parseBytes_fmtBytes hlen
  unfold parseBytes
  by_cases hlen : str.length = 2 * dst.length
  swap
  · rw [if_pos hlen]
    exact iff_of_true (fun h => absurd h einval_ne) (fun h => hlen h.1)
  rw [if_neg (not_not.mpr hlen)]
  obtain ⟨hiff, htext⟩ := parseLoop_spec dst hlen
  rw [hiff] at htext ⊢
  constructor
  · intro htake h
    have hzero := h.2.2
    rw [htake h.2.1] at hzero
    exact zero_fmtBytes _ hzero
  · intro hzero hknown
    exact (htext hknown fun h => hzero ⟨hlen, hknown, h⟩).symm

theorem key_read : parseBytes (fmtBytesAt 3 7 [0x0F, 0xA0]) [0, 0] = (0, [0x0F, 0xA0]) :=
  (parseBytes_fmtBytes_iff _ [] _ 3 7).1 (by decide) (by decide)

/-- Zero bytes are taken for digits that are worth sixteen, since the search for the
character finds the end of the table. -/
theorem zeros_parsed : parseBytes [0x00, 0x31, 0x41, 0x00] [0, 0] = (0, [0x01, 0xB0]) ∧
    fmtBytes [0x01, 0xB0] ≠ [0x00, 0x31, 0x41, 0x00] := by
  decide +kernel

end Wsupp

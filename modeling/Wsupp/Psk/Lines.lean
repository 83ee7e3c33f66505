import Wsupp.Config
import Wsupp.Text.Lines

/-!
# Lines of the PSK file

A line that the daemon writes is a key in hexadecimal, a space and an SSID with its
odd bytes escaped. Here is what the search for an SSID makes of a text of such
lines.

Spelling a name and skipping over an argument are inverse to each other, for any
bytes, and the digits of a key are read back as the key. The length of a spelled
name is what decides whether a line fits the buffer it is put together in; a name
that does not is cut in the middle, so the results are about names that do.
-/
namespace Wsupp

/-- What `skiparg` takes for one argument. -/
inductive Word : Bytes → Prop where
  | nil : Word []
  | plain {x w} : Config.isspace x = false → x ≠ 0x5C → Word w → Word (x :: w)
  | escaped {x w} : Word w → Word (0x5C :: x :: w)

namespace Word

theorem append {w w' : Bytes} (h : Word w) (h' : Word w') : Word (w ++ w') := by
  induction h with
  | nil => exact h'
  | plain hs hb _ ih => exact .plain hs hb ih
  | escaped _ ih => exact .escaped ih

theorem head {x : UInt8} {w : Bytes} (h : Word (x :: w)) : Config.isspace x = false := by
  cases h with
  | plain hs _ _ => exact hs
  | escaped _ => rfl

theorem flatMap {f : UInt8 → Bytes} (hf : ∀ x, Word (f x)) (l : Bytes) : Word (l.flatMap f) := by
  induction l with
  | nil => exact .nil
  | cons x l ih => exact (hf x).append ih

end Word

namespace Config

theorem at_of_drop {b : Bytes} {e p : ℕ} {x : UInt8} {t : Bytes} (h : (b.take e).drop p = x :: t) :
    p < e ∧ b.at' p = x ∧ (b.take e).drop (p + 1) = t := by
  have hlt : p < (b.take e).length := by
    by_contra hle
    rw [List.drop_eq_nil_of_le (not_lt.mp hle)] at h
    cases h
  rw [List.drop_eq_getElem_cons hlt] at h
  obtain ⟨hx, ht⟩ := List.cons.inj h
  rw [List.length_take] at hlt
  refine ⟨by omega, ?_, ht⟩
  rw [← hx, List.getElem_take, Bytes.at', List.getD_eq_getElem _ _ (by omega)]

theorem end_of_drop {b : Bytes} {e p : ℕ} (he : e ≤ b.length) (h : (b.take e).drop p = []) : e ≤ p := by
  rw [List.drop_eq_nil_iff, List.length_take] at h
  omega

theorem skipline_eq {b : Bytes} {e n p : ℕ} (he : e ≤ b.length) (hn : e ≤ p + n) :
    skipline b e n p = p + (((b.take e).drop p).takeWhile fun x => x ≠ 0x0A).length :=
  Text.scan_eq (f := skipline b e) (d := 0) (fun _ => rfl)
    (fun n i => by simp only [skipline, Bytes.at', decide_eq_true_eq]; rfl) he hn

theorem skipsep_eq {b : Bytes} {e n p : ℕ} (he : e ≤ b.length) (hn : e ≤ p + n) :
    skipsep b e n p = p + (((b.take e).drop p).takeWhile isspace).length :=
  Text.scan_eq (f := skipsep b e) (d := 0) (fun _ => rfl) (fun _ _ => rfl) he hn

theorem skipsep_none {b : Bytes} {e p : ℕ} {x : UInt8} {t : Bytes} (he : e ≤ b.length)
    (h : (b.take e).drop p = x :: t) (hx : isspace x = false) : skipsep b e (e - p) p = p := by
  rw [skipsep_eq he (by omega), h, List.takeWhile_cons_of_neg (by simp [hx])]
  rfl

theorem skipsep_one {b : Bytes} {e p : ℕ} {x : UInt8} {t : Bytes} (he : e ≤ b.length)
    (h : (b.take e).drop p = 0x20 :: x :: t) (hx : isspace x = false) :
    skipsep b e (e - p) p = p + 1 := by
  rw [skipsep_eq he (by omega), h, List.takeWhile_cons_of_pos rfl,
    List.takeWhile_cons_of_neg (by simp [hx])]
  rfl

theorem skiparg_succ (b : Bytes) (e n p : ℕ) : skiparg b e (n + 1) p =
    if p < e ∧ ¬ isspace (b.at' p) then skiparg b e n (if b.at' p = 0x5C then p + 2 else p + 1)
    else p := rfl

/-- An argument is a word, up to a space or the end. -/
theorem skiparg_word {b : Bytes} {e n p : ℕ} {w t : Bytes} (he : e ≤ b.length) (hn : e ≤ p + n)
    (hw : Word w) (h : (b.take e).drop p = w ++ t) (ht : t.head?.all isspace = true) :
    skiparg b e n p = p + w.length := by
  induction hw generalizing n p with
  | nil =>
      cases n with
      | zero => rfl
      | succ n =>
          refine if_neg fun hp => ?_
          cases t with
          | nil => exact absurd (end_of_drop he h) (not_le.mpr hp.1)
          | cons x t =>
              rw [(at_of_drop h).2.1] at hp
              exact hp.2 ht
  | @plain x w hs hb _ ih =>
      obtain ⟨hp, hx, hrest⟩ := at_of_drop h
      obtain ⟨n, rfl⟩ : ∃ m, n = m + 1 := ⟨n - 1, by omega⟩
      have hstep : skiparg b e (n + 1) p = skiparg b e n (p + 1) := by
        rw [skiparg_succ, hx, if_pos ⟨hp, by simp [hs]⟩, if_neg hb]
      rw [hstep, ih (by omega) hrest, List.length_cons]
      omega
  | @escaped x w _ ih =>
      obtain ⟨hp, hx, hrest⟩ := at_of_drop h
      obtain ⟨hp', -, hrest⟩ := at_of_drop hrest
      obtain ⟨n, rfl⟩ : ∃ m, n = m + 1 := ⟨n - 1, by omega⟩
      have hstep : skiparg b e (n + 1) p = skiparg b e n (p + 2) := by
        rw [skiparg_succ, hx, if_pos ⟨hp, by decide⟩, if_pos rfl]
      rw [hstep, ih (by omega) hrest, List.length_cons, List.length_cons]
      omega

theorem splitFrom_words {b : Bytes} {e p : ℕ} {w w' : Bytes} (he : e ≤ b.length) (hw : Word w)
    (hw' : Word w') (hne : w ≠ []) (hne' : w' ≠ []) (h : (b.take e).drop p = w ++ 0x20 :: w') :
    splitFrom b e 2 (skipsep b e (e - p) p) = [(p, p + w.length), (p + w.length + 1, e)] := by
  obtain ⟨x, v, rfl⟩ := List.exists_cons_of_ne_nil hne
  obtain ⟨x', v', rfl⟩ := List.exists_cons_of_ne_nil hne'
  obtain ⟨hp, -, -⟩ := at_of_drop h
  rw [skipsep_none he h hw.head]
  have hmid : (b.take e).drop (p + (x :: v).length) = 0x20 :: x' :: v' := by
    rw [← List.drop_drop, h, List.drop_left]
  obtain ⟨hp', -, hlast⟩ := at_of_drop hmid
  obtain ⟨hp'', -, -⟩ := at_of_drop hlast
  have hend : p + (x :: v).length + 1 + (x' :: v').length = e := by
    have hlen := congrArg List.length hlast
    rw [List.length_drop, List.length_take] at hlen
    omega
  have harg : skiparg b e (e - p) p = p + (x :: v).length :=
    skiparg_word he (by omega) hw h rfl
  have harg' : skiparg b e (e - (p + (x :: v).length + 1)) (p + (x :: v).length + 1) = e := by
    rw [skiparg_word (t := []) he (by omega) hw' (by rw [hlast, List.append_nil]) rfl, hend]
  simp only [splitFrom, if_pos hp, harg, skipsep_one he hmid hw'.head, if_pos hp'', harg']

/-- The characters of a hexadecimal number: `digit` knows them, and none means
anything else. -/
theorem digits_spec : ∀ i < 16, digit (digits.at' i) = some i ∧
    isspace (digits.at' i) = false ∧ digits.at' i ≠ 0x5C ∧ digits.at' i ≠ 0x0A := by
  decide +kernel

theorem digit_digits {i : ℕ} (hi : i < 16) : digit (digits.at' i) = some i := (digits_spec i hi).1

theorem digits_plain {i : ℕ} (hi : i < 16) :
    isspace (digits.at' i) = false ∧ digits.at' i ≠ 0x5C ∧ digits.at' i ≠ 0x0A := (digits_spec i hi).2

theorem length_fmtBytes (data : Bytes) : (fmtBytes data).length = 2 * data.length := by
  induction data with
  | nil => rfl
  | cons x data ih =>
      simp only [fmtBytes, List.flatMap_cons, List.length_append, List.length_cons, List.length_nil] at ih ⊢
      omega

theorem nibbles (x : UInt8) : x.toNat / 16 < 16 ∧ x.toNat % 16 < 16 ∧
    UInt8.ofNat (x.toNat / 16 * 16 + x.toNat % 16) = x := by
  have hx : x.toNat < 256 := x.toNat_lt
  refine ⟨by omega, Nat.mod_lt _ (by decide), ?_⟩
  rw [Nat.div_add_mod' x.toNat 16, UInt8.ofNat_toNat]

theorem word_fmtBytes (data : Bytes) : Word (fmtBytes data) := by
  refine Word.flatMap (fun x => ?_) data
  obtain ⟨hhi, hlo, -⟩ := nibbles x
  exact .plain (digits_plain hhi).1 (digits_plain hhi).2.1 <|
    .plain (digits_plain hlo).1 (digits_plain hlo).2.1 .nil

theorem parseBytes_fmtBytes {data dst : Bytes} (h : data.length = dst.length) :
    parseBytes (fmtBytes data) dst = (0, data) := by
  unfold parseBytes
  rw [if_neg (by rw [length_fmtBytes, h]; exact not_not.mpr rfl)]
  induction data generalizing dst with
  | nil =>
      cases dst with
      | nil => rfl
      | cons y dst => cases h
  | cons x data ih =>
      cases dst with
      | nil => cases h
      | cons y dst =>
          obtain ⟨hhi, hlo, hx⟩ := nibbles x
          have hrest := ih (Nat.succ.inj h)
          change parseLoop (digits.at' (x.toNat / 16) :: digits.at' (x.toNat % 16) :: fmtBytes data)
            (y :: dst) = _
          simp only [parseLoop, digit_digits hhi, digit_digits hlo, hrest, hx]

theorem fmtByte_cases (x : UInt8) :
    (x = 0x5C ∧ fmtByte x = [0x5C, 0x5C]) ∨ (x = 0x20 ∧ fmtByte x = [0x5C, 0x20]) ∨
    (x < 0x20 ∧ fmtByte x = [0x5C, 0x78, digits.at' (x.toNat / 16), digits.at' (x.toNat % 16)]) ∨
    (x ≠ 0x5C ∧ 0x20 < x ∧ fmtByte x = [x]) := by
  unfold fmtByte
  split_ifs with hb hs hc
  · exact .inl ⟨hb, rfl⟩
  · exact .inr (.inl ⟨hs, rfl⟩)
  · exact .inr (.inr (.inl ⟨UInt8.lt_of_le_of_ne hc hs, rfl⟩))
  · exact .inr (.inr (.inr ⟨hb, UInt8.not_le.mp hc, rfl⟩))

theorem fmtByte_ne_nil (x : UInt8) : fmtByte x ≠ [] := by
  rcases fmtByte_cases x with ⟨-, h⟩ | ⟨-, h⟩ | ⟨-, h⟩ | ⟨-, -, h⟩ <;> simp [h]

theorem length_fmtByte_le (x : UInt8) : (fmtByte x).length ≤ 4 := by
  rcases fmtByte_cases x with ⟨-, h⟩ | ⟨-, h⟩ | ⟨-, h⟩ | ⟨-, -, h⟩ <;> simp [h]

theorem not_isspace {x : UInt8} (h : 0x20 < x) : isspace x = false := by
  have hx : x ≠ 0x20 ∧ x ≠ 0x09 ∧ x ≠ 0x0A := by
    refine ⟨?_, ?_, ?_⟩ <;>
    · rintro rfl
      exact absurd h (by decide)
  simp [isspace, hx]

theorem word_fmtByte (x : UInt8) : Word (fmtByte x) := by
  rcases fmtByte_cases x with ⟨-, h⟩ | ⟨-, h⟩ | ⟨-, h⟩ | ⟨hb, hx, h⟩
  · exact h ▸ .escaped .nil
  · exact h ▸ .escaped .nil
  · obtain ⟨hhi, hlo, -⟩ := nibbles x
    exact h ▸ .escaped (.plain (digits_plain hhi).1 (digits_plain hhi).2.1 <|
      .plain (digits_plain hlo).1 (digits_plain hlo).2.1 .nil)
  · exact h ▸ .plain (not_isspace hx) hb .nil

theorem newline_fmtByte (x : UInt8) : (0x0A : UInt8) ∉ fmtByte x := by
  rcases fmtByte_cases x with ⟨-, h⟩ | ⟨-, h⟩ | ⟨-, h⟩ | ⟨-, hx, h⟩
  · simp [h]
  · simp [h]
  · obtain ⟨hhi, hlo, -⟩ := nibbles x
    simp [h, (digits_plain hhi).2.2.symm, (digits_plain hlo).2.2.symm]
  · have hne : x ≠ 0x0A := by
      rintro rfl
      exact absurd hx (by decide)
    simp [h, hne.symm]

/-- The byte that a text starts with. -/
def readByte (b : Bytes) : UInt8 :=
  if b.at' 0 ≠ 0x5C then b.at' 0
  else if b.at' 1 ≠ 0x78 then b.at' 1
  else UInt8.ofNat ((digit (b.at' 2)).getD 0 * 16 + (digit (b.at' 3)).getD 0)

theorem readByte_fmtByte (x : UInt8) (t : Bytes) : readByte (fmtByte x ++ t) = x := by
  rcases fmtByte_cases x with ⟨hx, h⟩ | ⟨hx, h⟩ | ⟨-, h⟩ | ⟨hx, -, h⟩
  · rw [h, hx]
    rfl
  · rw [h, hx]
    rfl
  · obtain ⟨hhi, hlo, hx⟩ := nibbles x
    rw [h]
    change UInt8.ofNat ((digit (digits.at' (x.toNat / 16))).getD 0 * 16 +
      (digit (digits.at' (x.toNat % 16))).getD 0) = x
    rw [digit_digits hhi, digit_digits hlo]
    exact hx
  · rw [h]
    exact if_pos hx

theorem prefixFree_fmtByte : Text.PrefixFree fmtByte := Text.PrefixFree.of_read readByte_fmtByte

/-- An SSID, escaped in full. -/
def spell (ssid : Bytes) : Bytes := ssid.flatMap fmtByte

@[simp] theorem spell_nil : spell [] = [] := rfl

@[simp] theorem spell_cons (x : UInt8) (ssid : Bytes) : spell (x :: ssid) = fmtByte x ++ spell ssid :=
  List.flatMap_cons

theorem newline_spell (ssid : Bytes) : (0x0A : UInt8) ∉ spell ssid := by
  intro h
  obtain ⟨x, -, hx⟩ := List.mem_flatMap.mp h
  exact newline_fmtByte x hx

theorem spell_injective : Function.Injective spell :=
  prefixFree_fmtByte.flatMap_injective fmtByte_ne_nil

theorem spell_ne_nil {ssid : Bytes} (h : ssid ≠ []) : spell ssid ≠ [] := fun hnil =>
  h (spell_injective hnil)

theorem length_spell_take (ssid : Bytes) (m : ℕ) : (spell (ssid.take m)).length ≤ (spell ssid).length := by
  conv_rhs => rw [← List.take_append_drop m ssid, spell, List.flatMap_append, List.length_append]
  exact Nat.le_add_right _ _

/-- `fmt_ssid` stops between two bytes, either at the end of the SSID or near the end
of the buffer. -/
theorem fmtSsid_cut (p e : ℕ) (ssid : Bytes) : ∃ m, fmtSsid p e ssid = spell (ssid.take m) ∧
    (ssid.take m = ssid ∨ e ≤ p + (spell (ssid.take m)).length + 5) ∧
    p + (spell (ssid.take m)).length ≤ max p (e - 2) := by
  induction ssid generalizing p with
  | nil => exact ⟨0, rfl, .inl rfl, le_max_left _ _⟩
  | cons x ssid ih =>
      unfold fmtSsid
      split
      · next h => exact ⟨0, rfl, .inr h, le_max_left _ _⟩
      next h =>
      obtain ⟨m, heq, hcut, hlen⟩ := ih (p + (fmtByte x).length)
      have hx := length_fmtByte_le x
      refine ⟨m + 1, ?_, ?_, ?_⟩
      · rw [heq, List.take_succ_cons, spell_cons]
      · rw [List.take_succ_cons, spell_cons, List.length_append]
        refine hcut.imp (congrArg _) fun hcut => ?_
        omega
      · rw [List.take_succ_cons, spell_cons, List.length_append]
        omega

/-- What is sought for is an SSID in full, or too long to be found. -/
theorem fmtSsid_eq_spell {ssid ssid' : Bytes} (h : (spell ssid').length < 95) :
    fmtSsid 0 100 ssid = spell ssid' ↔ ssid = ssid' := by
  obtain ⟨m, heq, hcut, -⟩ := fmtSsid_cut 0 100 ssid
  rw [heq]
  constructor
  · intro hspell
    have htake := spell_injective hspell
    rcases hcut with hcut | hcut
    · exact hcut.symm.trans htake
    · rw [hspell] at hcut
      omega
  · rintro rfl
    have hle := length_spell_take ssid m
    rcases hcut with hcut | hcut
    · rw [hcut]
    · omega

/-- The last byte of the SSID starts early enough for `save_psk` to write it. -/
def Fits (ssid : Bytes) : Prop := (spell ssid.dropLast).length ≤ 28

instance (ssid : Bytes) : Decidable (Fits ssid) := inferInstanceAs (Decidable (_ ≤ _))

theorem fmtSsid_append (p e : ℕ) (ssid : Bytes) (x : UInt8) :
    fmtSsid p e (ssid ++ [x]) = spell (ssid ++ [x]) ↔ p + (spell ssid).length + 5 < e := by
  induction ssid generalizing p with
  | nil =>
      simp only [List.nil_append, fmtSsid, spell_nil, List.length_nil, Nat.add_zero, spell_cons,
        List.append_nil]
      split
      · next h => exact iff_of_false (fmtByte_ne_nil x).symm (by omega)
      · next h => exact iff_of_true rfl (by omega)
  | cons y ssid ih =>
      rw [List.cons_append, fmtSsid, spell_cons, spell_cons, List.length_append]
      split
      · next h =>
          refine iff_of_false (fun hnil : [] = _ => ?_) (by omega)
          exact fmtByte_ne_nil y (List.append_eq_nil_iff.mp hnil.symm).1
      · rw [List.append_right_inj, ih]
        omega

theorem fits_iff {ssid : Bytes} (h : ssid ≠ []) : Fits ssid ↔ fmtSsid 65 99 ssid = spell ssid := by
  rw [← List.dropLast_append_getLast h, fmtSsid_append, List.dropLast_concat_getLast h, Fits]
  omega

theorem Fits.length_le {ssid : Bytes} (h : Fits ssid) : (spell ssid).length ≤ 32 := by
  by_cases hnil : ssid = []
  · subst hnil
    exact Nat.zero_le _
  have hlast := length_fmtByte_le (ssid.getLast hnil)
  unfold Fits at h
  rw [← List.dropLast_concat_getLast hnil, spell, List.flatMap_append, List.length_append]
  change (spell _).length + _ ≤ 32
  simp only [List.flatMap_cons, List.flatMap_nil, List.append_nil]
  omega

end Config
end Wsupp

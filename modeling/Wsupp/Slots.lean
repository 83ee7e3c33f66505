import Mathlib.Data.List.GetD
import Wsupp.State

/-!
# Slots of the scan and connection tables

A slot is free when it is all zero. Slots are taken from the front and the count of
slots in use shrinks when the last of them get free.

The table has thirty slots whatever is in it, as a list of that length with the
count beside it; a slot that is looked at past the end is a free one. Each operation
of the source comes with the lemmas that say what it does to the slot with a given
number, so that the modules above look at one slot at a time. The slots for
connections are of the same kind, and there are ten of them.
-/
namespace Wsupp

section Slots
variable {α : Type} [DecidableEq α] (zero : α)

/-- `grab_slot`: the index of a free slot and the new count. -/
def grabSlot (slots : List α) (count total : ℕ) : Option (ℕ × ℕ) :=
  let p := (slots.take count).findIdx (· = zero)
  if p < count then some (p, count)
  else if total ≤ count then none
  else some (count, count + 1)

/-- The `while` loop of `free_slot`. -/
def shrinkCount (slots : List α) : ℕ → ℕ
  | 0 => 0
  | n + 1 => if slots.getD n zero ≠ zero then n + 1 else shrinkCount slots n

def freeSlot (slots : List α) (count p : ℕ) : List α × ℕ :=
  let slots := slots.set p zero
  (slots, shrinkCount zero slots count)

variable {zero}

theorem grabSlot_le {slots : List α} {count total i n : ℕ} (hc : count ≤ total)
    (h : grabSlot zero slots count total = some (i, n)) : n ≤ total := by
  simp only [grabSlot] at h
  split_ifs at h
  · cases h
    exact hc
  · cases h
    omega

theorem shrinkCount_le (slots : List α) (n : ℕ) : shrinkCount zero slots n ≤ n := by
  induction n with
  | zero => exact le_rfl
  | succ n ih =>
      unfold shrinkCount
      split_ifs
      · exact le_rfl
      · omega

theorem lt_shrinkCount {slots : List α} {n i : ℕ} (hi : i < n) (h : slots.getD i zero ≠ zero) :
    i < shrinkCount zero slots n := by
  induction n with
  | zero => omega
  | succ n ih =>
      unfold shrinkCount
      split_ifs with hn
      · exact hi
      · have hne : i ≠ n := fun heq => by subst heq; exact hn h
        exact ih (by omega)

/-- A slot taken is free, or the first one past those in use. -/
theorem grabSlot_some {slots : List α} {count total i n : ℕ}
    (h : grabSlot zero slots count total = some (i, n)) :
    (i < count ∧ n = count ∧ slots.getD i zero = zero) ∨ (i = count ∧ n = count + 1 ∧ count < total) := by
  simp only [grabSlot] at h
  split_ifs at h with hp ht
  · cases h
    refine .inl ⟨hp, rfl, ?_⟩
    by_cases hlen : (slots.take count).findIdx (· = zero) < (slots.take count).length
    · have hget := List.findIdx_getElem (w := hlen)
      rw [List.getElem_take, decide_eq_true_eq] at hget
      rw [List.getD_eq_getElem _ _ (hlen.trans_le (List.length_take_le' ..)), hget]
    · rw [List.length_take] at hlen
      exact List.getD_eq_default _ _ (by omega)
  · cases h
    exact .inr ⟨rfl, rfl, not_le.mp ht⟩

/-- Without a free slot there is no slot to be had. -/
theorem grabSlot_none {slots : List α} {count total i : ℕ} (hcount : count ≤ slots.length)
    (h : grabSlot zero slots count total = none) :
    total ≤ count ∧ (i < count → slots.getD i zero ≠ zero) := by
  simp only [grabSlot] at h
  split_ifs at h with hp htotal
  refine ⟨htotal, ?_⟩
  intro hi hzero
  have hi' : i < (slots.take count).length := by
    rw [List.length_take]
    omega
  have hle : (slots.take count).findIdx (· = zero) ≤ i := by
    by_contra hlt
    have hne := List.not_of_lt_findIdx (not_le.mp hlt)
    rw [List.getElem_take] at hne
    rw [List.getD_eq_getElem _ _ (hi.trans_le hcount)] at hzero
    simp [hzero] at hne
  omega

end Slots

namespace ScanTable

def slots (t : ScanTable) : List Scan := t.scans.take t.nscans

def get (t : ScanTable) (i : ℕ) : Scan := t.scans.getD i {}

def modify (t : ScanTable) (i : ℕ) (f : Scan → Scan) : ScanTable :=
  { t with scans := t.scans.modify i f, size := by simp [t.size] }

/-- `f` applied to every slot in use. -/
def map (t : ScanTable) (f : Scan → Scan) : ScanTable :=
  { t with
    scans := t.slots.map f ++ t.scans.drop t.nscans
    size := by
      have h := t.size
      have hc := t.count_le
      simp only [slots, List.length_append, List.length_map, List.length_take, List.length_drop]
      omega }

/-- The first slot in use that passes a test. -/
def find (t : ScanTable) (p : Scan → Bool) : Option ℕ := t.slots.findIdx? p

def findScanSlot (t : ScanTable) (bssid : Bytes) : Option ℕ :=
  t.find fun sc => sc.freq ≠ 0 && sc.bssid = bssid

/-- A slot given up when there are no free ones: weak, stale and without a PSK. -/
def useless (sc : Scan) : Bool := !decide (-8000 < sc.signal) && sc.flags.stale && !sc.flags.pass

def grabScanSlot (t : ScanTable) (bssid : Bytes) : Option (ℕ × ScanTable) :=
  match t.findScanSlot bssid with
  | some i => some (i, t)
  | none =>
      match h : grabSlot {} t.scans t.nscans NSCANS with
      | some (i, n) => some (i, { t with nscans := n, count_le := grabSlot_le t.count_le h })
      | none => (t.find useless).map fun i => (i, t.modify i fun _ => {})

def freeScanSlot (t : ScanTable) (i : ℕ) : ScanTable :=
  { scans := (freeSlot {} t.scans t.nscans i).1
    nscans := (freeSlot {} t.scans t.nscans i).2
    size := by simp [freeSlot, t.size]
    count_le := (shrinkCount_le _ _).trans t.count_le }

/-- The loop of `drop_stale_scan_slots`, which reads `nscans` afresh each turn. -/
def dropStaleFrom : ℕ → ℕ → ScanTable → ScanTable
  | 0, _, t => t
  | n + 1, i, t =>
      if i < t.nscans then
        dropStaleFrom n (i + 1) (if (t.get i).flags.stale then t.freeScanSlot i else t)
      else t

def dropStale (t : ScanTable) : ScanTable := dropStaleFrom NSCANS 0 t

theorem get_of_le (t : ScanTable) {i : ℕ} (h : NSCANS ≤ i) : t.get i = {} := by
  have hsize := t.size
  exact List.getD_eq_default _ _ (by omega)

@[simp] theorem get_modify (t : ScanTable) (i j : ℕ) (f : Scan → Scan) :
    (t.modify i f).get j = if i = j ∧ j < NSCANS then f (t.get j) else t.get j := by
  have hsize := t.size
  simp only [get, modify, List.getD_eq_getElem?_getD, List.getElem?_modify]
  by_cases hj : j < NSCANS
  · rw [List.getElem?_eq_getElem (by omega)]
    by_cases h : i = j
    · simp [h, hj]
    · simp [h]
  · rw [List.getElem?_eq_none (by omega)]
    simp [hj]

@[simp] theorem get_map (t : ScanTable) (f : Scan → Scan) (i : ℕ) :
    (t.map f).get i = if i < t.nscans then f (t.get i) else t.get i := by
  have hsize := t.size
  have hc := t.count_le
  simp only [get, map, slots, List.getD_eq_getElem?_getD]
  by_cases hi : i < t.nscans
  · rw [List.getElem?_append_left (by simp; omega)]
    simp [hi, List.getElem?_eq_getElem (show i < t.scans.length by omega)]
  · rw [List.getElem?_append_right (by simp; omega)]
    simp only [List.length_map, List.length_take, List.getElem?_drop, hi, if_false]
    rw [show t.nscans + (i - min t.nscans t.scans.length) = i by omega]

/-- A slot found is in use, passes the test, and no earlier one does. -/
theorem find_eq_some {t : ScanTable} {p : Scan → Bool} {i : ℕ} (h : t.find p = some i) :
    i < t.nscans ∧ p (t.get i) = true := by
  have hsize := t.size
  have hc := t.count_le
  unfold find at h
  rw [List.findIdx?_eq_some_iff_getElem] at h
  obtain ⟨hi, hp, -⟩ := h
  simp only [slots, List.length_take, List.getElem_take] at hi hp
  refine ⟨by omega, ?_⟩
  unfold get
  rw [List.getD_eq_getElem _ _ (by omega)]
  exact hp

theorem find_eq_none {t : ScanTable} {p : Scan → Bool} (h : t.find p = none) {i : ℕ}
    (hi : i < t.nscans) : p (t.get i) = false := by
  have hsize := t.size
  have hc := t.count_le
  unfold find at h
  rw [List.findIdx?_eq_none_iff] at h
  refine h _ ?_
  unfold get slots
  rw [List.getD_eq_getElem _ _ (by omega), List.mem_take_iff_getElem]
  exact ⟨i, by omega, rfl⟩

theorem get_freeScanSlot (t : ScanTable) (i j : ℕ) :
    (t.freeScanSlot i).get j = if i = j then {} else t.get j := by
  simp only [freeScanSlot, freeSlot, get, List.getD_eq_getElem?_getD, List.getElem?_set]
  split_ifs
  · rfl
  · rfl
  · rfl

theorem nscans_freeScanSlot_le (t : ScanTable) (i : ℕ) : (t.freeScanSlot i).nscans ≤ t.nscans :=
  shrinkCount_le ..

theorem lt_nscans_freeScanSlot {t : ScanTable} {i j : ℕ} (hj : j < t.nscans)
    (h : (t.freeScanSlot i).get j ≠ {}) : j < (t.freeScanSlot i).nscans :=
  lt_shrinkCount hj h

theorem get_dropStaleFrom (n i : ℕ) (t : ScanTable) (hn : t.nscans ≤ i + n) (j : ℕ) :
    (dropStaleFrom n i t).get j =
      if i ≤ j ∧ j < t.nscans ∧ (t.get j).flags.stale = true then {} else t.get j := by
  induction n generalizing i t with
  | zero =>
      rw [if_neg (by omega)]
      rfl
  | succ n ih =>
      unfold dropStaleFrom
      by_cases hi : i < t.nscans
      swap
      · rw [if_neg hi, if_neg (by omega)]
      rw [if_pos hi]
      by_cases hstale : (t.get i).flags.stale = true
      swap
      · rw [if_neg hstale, ih (i + 1) t (by omega)]
        by_cases hj : i = j
        · subst hj
          rw [if_neg (by omega), if_neg (by simp [hstale])]
        · simp only [show i + 1 ≤ j ↔ i ≤ j by omega]
      have hle := t.nscans_freeScanSlot_le i
      rw [if_pos hstale, ih (i + 1) _ (by omega), get_freeScanSlot]
      by_cases hj : i = j
      · subst hj
        rw [if_neg (by omega), if_pos rfl, if_pos ⟨le_rfl, hi, hstale⟩]
      rw [if_neg hj]
      -- a slot past the new count is free, and so not stale
      by_cases hfree : t.get j = {}
      · simp [hfree]
      have hcount : j < (t.freeScanSlot i).nscans ↔ j < t.nscans :=
        ⟨fun h => h.trans_le hle, fun h => lt_nscans_freeScanSlot h (by rwa [get_freeScanSlot, if_neg hj])⟩
      simp only [hcount, show i + 1 ≤ j ↔ i ≤ j by omega]

@[simp] theorem get_dropStale (t : ScanTable) (i : ℕ) : t.dropStale.get i =
    if i < t.nscans ∧ (t.get i).flags.stale = true then {} else t.get i := by
  have hc := t.count_le
  unfold dropStale
  rw [get_dropStaleFrom _ _ _ (by omega)]
  simp

theorem lt_nscans_dropStaleFrom {n i j : ℕ} {t : ScanTable} (hn : t.nscans ≤ i + n)
    (hj : j < t.nscans) (h : (dropStaleFrom n i t).get j ≠ {}) :
    j < (dropStaleFrom n i t).nscans := by
  induction n generalizing i t with
  | zero => exact hj
  | succ n ih =>
      unfold dropStaleFrom at h ⊢
      split_ifs at h ⊢
      · have hle := t.nscans_freeScanSlot_le i
        refine ih (by omega) (lt_nscans_freeScanSlot hj fun hfree => h ?_) h
        rw [get_dropStaleFrom _ _ _ (by omega), hfree, ite_self]
      · exact ih (by omega) hj h
      · exact hj

theorem lt_nscans_dropStale {t : ScanTable} {i : ℕ} (hi : i < t.nscans) (h : t.dropStale.get i ≠ {}) :
    i < t.dropStale.nscans :=
  lt_nscans_dropStaleFrom (by have := t.count_le; omega) hi h

/-- The slot for a scan result: the one in use for the address, a free one, or
one given up for it. In a table without the address, the slot is cleared. -/
theorem grabScanSlot_some {t t' : ScanTable} {bssid : Bytes} {i : ℕ}
    (h : t.grabScanSlot bssid = some (i, t')) (hfree : ∀ j, t.nscans ≤ j → t.get j = {}) :
    (t' = t ∧ i < t.nscans ∧ (t.get i).freq ≠ 0 ∧ (t.get i).bssid = bssid) ∨
    ((∀ j < t.nscans, (t.get j).freq ≠ 0 → (t.get j).bssid ≠ bssid) ∧ i < t'.nscans ∧
      t.nscans ≤ t'.nscans ∧ (∀ j, t'.nscans ≤ j → t'.get j = {}) ∧
      ∀ j, t'.get j = if i = j then {} else t.get j) := by
  unfold grabScanSlot at h
  split at h
  · next i' hfind =>
      cases h
      obtain ⟨hi, hp⟩ := find_eq_some hfind
      simp only [Bool.and_eq_true, decide_eq_true_eq] at hp
      exact .inl ⟨rfl, hi, hp⟩
  next hfind =>
  have hnone (j : ℕ) (hj : j < t.nscans) (hfreq : (t.get j).freq ≠ 0) : (t.get j).bssid ≠ bssid := by
    have hp := find_eq_none hfind hj
    simpa [hfreq] using hp
  split at h
  · next i' n hgrab =>
      cases h
      refine .inr ⟨hnone, ?_⟩
      have hget (j : ℕ) : ScanTable.get ⟨t.scans, n, t.size, grabSlot_le t.count_le hgrab⟩ j = t.get j := rfl
      rcases grabSlot_some hgrab with ⟨hi, rfl, hzero⟩ | ⟨rfl, rfl, hlt⟩
      · refine ⟨hi, le_rfl, fun j hj => hfree j hj, fun j => ?_⟩
        rw [hget]
        split
        · next heq => rw [← heq]; exact hzero
        · rfl
      · refine ⟨Nat.lt_succ_self _, Nat.le_succ _, fun j hj => hfree j ((Nat.le_succ _).trans hj),
          fun j => ?_⟩
        rw [hget]
        split
        · next heq => rw [← heq]; exact hfree _ le_rfl
        · rfl
  · rw [Option.map_eq_some_iff] at h
    obtain ⟨i', huseless, heq⟩ := h
    cases heq
    have hi := (find_eq_some huseless).1
    have hc := t.count_le
    have hget (j : ℕ) : (t.modify i fun _ => {}).get j = if i = j then {} else t.get j := by
      rw [get_modify]
      by_cases hij : i = j
      · subst hij
        rw [if_pos ⟨rfl, by omega⟩, if_pos rfl]
      · rw [if_neg (fun h => hij h.1), if_neg hij]
    refine .inr ⟨hnone, hi, le_rfl, fun j hj => ?_, hget⟩
    rw [hget, hfree j hj, ite_self]

/-- A slot that is not free is taken for another address only where no slot is free. -/
theorem grabScanSlot_sacrifices {t t' : ScanTable} {bssid : Bytes} {i : ℕ}
    (h : t.grabScanSlot bssid = some (i, t')) (hfree : ∀ j, t.nscans ≤ j → t.get j = {})
    (hused : t.get i ≠ {}) (hother : (t.get i).freq ≠ 0 → (t.get i).bssid ≠ bssid) :
    t.nscans = NSCANS ∧ (∀ j < NSCANS, t.get j ≠ {}) ∧ useless (t.get i) = true := by
  have hcount := t.count_le
  unfold grabScanSlot at h
  split at h
  · next i' hfind =>
      cases h
      obtain ⟨-, hp⟩ := find_eq_some hfind
      simp only [Bool.and_eq_true, decide_eq_true_eq] at hp
      exact absurd hp.2 (hother hp.1)
  split at h
  · next i' n hgrab =>
      cases h
      obtain ⟨-, -, hzero⟩ | ⟨rfl, -, -⟩ := grabSlot_some hgrab
      · exact absurd hzero hused
      · exact absurd (hfree _ le_rfl) hused
  · next hgrab =>
      rw [Option.map_eq_some_iff] at h
      obtain ⟨i', huseless, heq⟩ := h
      cases heq
      have hsize := t.size
      have hfull : NSCANS ≤ t.nscans := (grabSlot_none (i := 0) (by omega) hgrab).1
      refine ⟨le_antisymm hcount hfull, ?_, (find_eq_some huseless).2⟩
      intro j hj
      exact (grabSlot_none (by omega) hgrab).2 (hj.trans_le hfull)

end ScanTable
end Wsupp

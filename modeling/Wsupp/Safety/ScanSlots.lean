import Wsupp.Control.TableShape

/-!
# Slots of the scan table

Slots are reused, trimmed from the end and given up for others. Through all of it
the slots past the count stay free and no address has two slots, which is what
dropping slots and taking them relies on.

The operations are those of the source on the table alone: grabbing a slot for an
address, setting flags and contents, dropping one slot or all stale ones. A run is
any sequence of them. The invariant is kept by each, and what an operation does to
the other slots, and which slot is sacrificed when none is free, is said with it.
-/
namespace Wsupp
open Reactive

namespace ScanTable

/-- The table as its users count on it: what the count means, where free slots may be,
that addresses do not repeat, and what each operation does to the other slots. -/
structure InOrder (t : ScanTable) : Prop where
  size : t.scans.length = NSCANS
  count : t.nscans ≤ NSCANS
  trimmed : ∀ i, t.nscans ≤ i → t.get i = {}
  apart : ∀ i j, (t.get i).freq ≠ 0 → (t.get j).freq ≠ 0 → (t.get i).bssid = (t.get j).bssid → i = j
  /-- What is stale goes, and nothing else changes. -/
  drops : ∀ i, t.dropStale.get i = if (t.get i).flags.stale = true then {} else t.get i
  /-- Only the slot taken changes. -/
  frames : ∀ bssid i t', t.grabScanSlot bssid = some (i, t') → ∀ j, i ≠ j → t'.get j = t.get j
  /-- The slot of another access point is taken only if there is no other, and not any. -/
  sacrifices : ∀ bssid i t', t.grabScanSlot bssid = some (i, t') → (t.get i).freq ≠ 0 →
    (t.get i).bssid ≠ bssid → t.nscans = NSCANS ∧ (∀ j < NSCANS, t.get j ≠ {}) ∧
      (t.get i).flags.stale = true ∧ (t.get i).flags.pass = false ∧ (t.get i).signal ≤ -8000

theorem useless_iff {sc : Scan} :
    useless sc = true ↔ sc.signal ≤ -8000 ∧ sc.flags.stale = true ∧ sc.flags.pass = false := by
  simp [useless, and_assoc]

theorem Shaped.inOrder {t : ScanTable} (h : t.Shaped) : t.InOrder := by
  constructor
  · exact t.size
  · exact t.count_le
  · exact h.trimmed
  · exact h.apart
  · intro i
    rw [get_dropStale]
    by_cases hi : i < t.nscans
    · simp only [hi, true_and]
    · rw [h.trimmed i (not_lt.mp hi)]
      simp
  · intro bssid i t' hgrab j hij
    obtain ⟨rfl, -⟩ | ⟨-, -, -, -, hget⟩ := grabScanSlot_some hgrab h.trimmed
    · rfl
    · rw [hget, if_neg hij]
  · intro bssid i t' hgrab hfreq hother
    have hused : t.get i ≠ {} := Scan.ne_of_freq hfreq
    obtain ⟨hcount, hfull, huseless⟩ := grabScanSlot_sacrifices hgrab h.trimmed hused fun _ => hother
    obtain ⟨hsignal, hstale, hpass⟩ := useless_iff.mp huseless
    exact ⟨hcount, hfull, hstale, hpass, hsignal⟩

end ScanTable

/-- Whatever is scanned, marked and dropped, the scan table stays in order: in every
state of a run of operations the slots past the count are free and no address has two
slots, and each operation does to the other slots what it is to do. -/
theorem scan_table_inOrder {x : System} (hx : x.Initial) {es : List Event} (hv : supplicant.Valid x es) :
    supplicant.Always (fun y => y.halted = false → y.table.InOrder) x es := by
  have hshaped : supplicant.Always System.Shaped x es :=
    Machine.always_of_step (I := System.Shaped) (fun y e hy he => System.step_shaped hy he) hx.shaped hv
  exact hshaped.mono fun y hy hrun => (hy hrun).inOrder

theorem joining_inOrder : supplicant.Always (fun y => y.halted = false → y.table.InOrder)
    Sample.start Sample.joining :=
  scan_table_inOrder Sample.start_initial (by decide +kernel)

end Wsupp

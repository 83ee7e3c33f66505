import Wsupp.Control.TableEvents

/-!
# The shape of the scan table

Slots past the count are free, an address has one slot in use at most, and names fit
their arrays. Every event keeps it so: a slot is grabbed only for an address that
has none, a slot that is dropped is cleared, and the count grows only with a slot.

These are the facts that make the table a finite map from addresses to scan results.
The preferences among slots, the coherence of their flags and the completeness of
the status message all start from them; they are proved once, over the effects of
events on the tables.
-/
namespace Wsupp
open Reactive View Relation

structure ScanTable.Shaped (t : ScanTable) : Prop where
  named : t.Named
  trimmed : ∀ i, t.nscans ≤ i → t.get i = {}
  apart : ∀ i j, (t.get i).freq ≠ 0 → (t.get j).freq ≠ 0 → (t.get i).bssid = (t.get j).bssid → i = j

theorem ScanTable.Shaped.lt {t : ScanTable} (h : t.Shaped) {i : ℕ} (hi : t.get i ≠ {}) :
    i < t.nscans := by
  by_contra hle
  exact hi (h.trimmed i (not_lt.mp hle))

theorem Scan.ne_of_freq {sc : Scan} (h : sc.freq ≠ 0) : sc ≠ {} :=
  fun hfree => h (congrArg Scan.freq hfree)

theorem ScanTable.get_empty (i : ℕ) : ScanTable.get {} i = {} := by
  by_cases hi : i < NSCANS
  · simp [get, hi]
  · exact get_of_le _ (not_lt.mp hi)

theorem ScanTable.shaped_empty : ScanTable.Shaped {} := by
  constructor
  · intro i
    rw [get_empty]
    exact Nat.zero_le _
  · exact fun i _ => get_empty i
  · intro i j hi
    rw [get_empty] at hi
    exact absurd rfl hi

theorem ScanTable.SameSlots.shaped {t t' : ScanTable} (h : t.SameSlots t') (hs : t.Shaped) :
    t'.Shaped := by
  have hsame (i : ℕ) : (t'.get i).freq = (t.get i).freq ∧ (t'.get i).bssid = (t.get i).bssid := by
    obtain ⟨⟨f, hf⟩, -⟩ := h.get i
    rw [hf]
    exact ⟨rfl, rfl⟩
  constructor
  · exact h.named hs.named
  · intro i hi
    rw [h.nscans] at hi
    exact (h.get i).2 (hs.trimmed i hi)
  · intro i j hi hj hb
    rw [(hsame i).1] at hi
    rw [(hsame j).1] at hj
    rw [(hsame i).2, (hsame j).2] at hb
    exact hs.apart i j hi hj hb

theorem ScanTable.sameSlots_map (t : ScanTable) {f : Scan → Scan}
    (hf : ∀ sc, Scan.Same sc (f sc)) :
    t.SameSlots (t.map f) where
  nscans := rfl
  get i := by
    rw [get_map]
    split
    · exact hf _
    · exact .refl _

theorem ScanTable.Shaped.dropStale {t : ScanTable} (h : t.Shaped) : t.dropStale.Shaped := by
  have hkept (i : ℕ) (hi : (t.dropStale.get i).freq ≠ 0) : t.dropStale.get i = t.get i := by
    rw [get_dropStale] at hi ⊢
    split
    · next hd => rw [if_pos hd] at hi; exact absurd rfl hi
    · rfl
  constructor
  · exact h.named.dropStale
  · intro i hi
    by_contra hne
    have hlt : i < t.nscans := by
      refine h.lt fun hfree => hne ?_
      rw [get_dropStale, hfree, ite_self]
    exact absurd (lt_nscans_dropStale hlt hne) (not_lt.mpr hi)
  · intro i j hi hj hb
    rw [hkept i hi, hkept j hj] at hb
    rw [hkept i hi] at hi
    rw [hkept j hj] at hj
    exact h.apart i j hi hj hb

/-- What the elements leave of a slot as it was. -/
structure Scan.Described (sc sc' : Scan) : Prop where
  freq : sc'.freq = sc.freq
  bssid : sc'.bssid = sc.bssid
  flags : sc'.flags = sc.flags
  named : sc.Named → sc'.Named

theorem Scan.Described.trans {sc sc' sc'' : Scan} (h : sc.Described sc') (h' : sc'.Described sc'') :
    sc.Described sc'' :=
  ⟨h'.freq.trans h.freq, h'.bssid.trans h.bssid, h'.flags.trans h.flags, fun hn => h'.named (h.named hn)⟩

theorem setStationSsid_named (sc : Scan) (b : Bytes) : (setStationSsid sc b).Named := by
  have hslen := slen_setStationSsid sc b
  simp only [Scan.Named, setStationSsid, Bytes.memcpy, List.length_append, List.length_take,
    List.length_drop] at hslen ⊢
  omega

theorem parseIes_described (n : ℕ) (sc : Scan) (b : Bytes) : sc.Described (parseIes n sc b) := by
  induction n generalizing sc b with
  | zero => exact ⟨rfl, rfl, rfl, id⟩
  | succ n ih =>
      unfold parseIes
      split
      · exact ⟨rfl, rfl, rfl, id⟩
      dsimp only
      split
      · exact ⟨rfl, rfl, rfl, id⟩
      refine Scan.Described.trans ?_ (ih _ _)
      split
      · exact ⟨rfl, rfl, rfl, fun _ => setStationSsid_named _ _⟩
      split
      · exact ⟨rfl, rfl, rfl, id⟩
      split
      · exact ⟨rfl, rfl, rfl, id⟩
      · exact ⟨rfl, rfl, rfl, id⟩

theorem Netlink.scanOf_described (bss : Bss) (bssid : Bytes) (sc : Scan) :
    Scan.Described { sc with
      bssid := bssid, freq := short (bss.freq.getD 0), signal := short (bss.signal.getD 0), type := {}
      flags := { sc.flags with stale := false } } (scanOf bss bssid sc) := by
  unfold scanOf
  dsimp only
  split
  · exact parseIes_described _ _ _
  · exact ⟨rfl, rfl, rfl, id⟩

/-- An entry rewrites slot `i`, from `sc`: the slot of the address, or a free one if
the address has none. -/
structure ScanTable.Filled (t t' : ScanTable) (bss : Netlink.Bss) (bssid : Bytes) (i : ℕ) (sc : Scan) :
    Prop where
  lt : i < t'.nscans
  trimmed : ∀ j, t'.nscans ≤ j → t'.get j = {}
  get : ∀ j, t'.get j = if i = j then Netlink.scanOf bss bssid sc else t.get j
  slot : (sc = t.get i ∧ sc.freq ≠ 0 ∧ sc.bssid = bssid) ∨
    (sc = {} ∧ ∀ j, (t.get j).freq ≠ 0 → (t.get j).bssid ≠ bssid)

theorem ScanTable.grabScanSlot_filled {t t' : ScanTable} (ht : t.Shaped) (bss : Netlink.Bss)
    {bssid : Bytes} {i : ℕ} (h : t.grabScanSlot bssid = some (i, t')) :
    ∃ sc, t.Filled (t'.modify i (Netlink.scanOf bss bssid)) bss bssid i sc := by
  have hlt {t : ScanTable} {i : ℕ} (hi : i < t.nscans) : i < NSCANS := hi.trans_le t.count_le
  rcases grabScanSlot_some h ht.trimmed with ⟨rfl, hi, hfreq, hb⟩ | ⟨hnone, hi, -, hfree, hget⟩
  · refine ⟨t'.get i, hi, fun j hj => ?_, fun j => ?_, .inl ⟨rfl, hfreq, hb⟩⟩
    · have hne : i ≠ j := fun heq => absurd (heq ▸ hi) (not_lt.mpr hj)
      rw [get_modify, if_neg fun h => hne h.1]
      exact ht.trimmed j hj
    · rw [get_modify]
      by_cases hij : i = j
      · subst hij
        rw [if_pos ⟨rfl, hlt hi⟩, if_pos rfl]
      · rw [if_neg fun h => hij h.1, if_neg hij]
  · refine ⟨{}, hi, fun j hj => ?_, fun j => ?_, .inr ⟨rfl, fun j hfreq => ?_⟩⟩
    · have hne : i ≠ j := fun heq => absurd (heq ▸ hi) (not_lt.mpr hj)
      rw [get_modify, if_neg fun h => hne h.1]
      exact hfree j hj
    · rw [get_modify, hget]
      by_cases hij : i = j
      · subst hij
        rw [if_pos ⟨rfl, hlt hi⟩, if_pos rfl, if_pos rfl]
      · rw [if_neg fun h => hij h.1, if_neg hij, if_neg hij]
    · exact hnone j (ht.lt (Scan.ne_of_freq hfreq)) hfreq

theorem ScanTable.Filled.shaped {t t' : ScanTable} (ht : t.Shaped) {bss : Netlink.Bss} {bssid : Bytes}
    {i : ℕ} {sc : Scan} (h : t.Filled t' bss bssid i sc) : t'.Shaped := by
  have hd := Netlink.scanOf_described bss bssid sc
  have hget (j : ℕ) (hij : i ≠ j) : t'.get j = t.get j := by rw [h.get, if_neg hij]
  have hgeti : t'.get i = Netlink.scanOf bss bssid sc := by rw [h.get, if_pos rfl]
  -- no other slot in use has the address
  have halone (j : ℕ) (hij : i ≠ j) (hj : (t'.get j).freq ≠ 0) : (t'.get j).bssid ≠ bssid := by
    rw [hget j hij] at hj ⊢
    rcases h.slot with ⟨rfl, hfreq, hb⟩ | ⟨-, hnone⟩
    · exact fun heq => hij (ht.apart i j hfreq hj (hb.trans heq.symm))
    · exact hnone j hj
  have hbi : (t'.get i).bssid = bssid := by rw [hgeti, hd.bssid]
  constructor
  · intro j
    by_cases hij : i = j
    · subst hij
      rw [hgeti]
      refine hd.named ?_
      rcases h.slot with ⟨rfl, -, -⟩ | ⟨rfl, -⟩
      · exact ht.named i
      · exact Nat.zero_le _
    · rw [hget j hij]
      exact ht.named j
  · exact h.trimmed
  · intro j k hj hk hb
    by_cases hij : i = j
    · subst hij
      by_contra hik
      exact halone k hik hk (hb.symm.trans hbi)
    · by_cases hik : i = k
      · subst hik
        exact absurd (hb.trans hbi) (halone j hij hj)
      · rw [hget j hij] at hj hb
        rw [hget k hik] at hk hb
        exact ht.apart j k hj hk hb

/-- An entry with an address fills a slot, or finds none to be had. -/
theorem Tables.result_cases {t : Tables} (ht : t.table.Shaped) (bss : Netlink.Bss) :
    (t.result bss = t ∧ ∀ bssid, bss.bssid.filter (·.length = 6) = some bssid →
      ∀ j, (t.table.get j).freq ≠ 0 → (t.table.get j).bssid ≠ bssid) ∨
    ∃ bssid i sc table, bss.bssid.filter (·.length = 6) = some bssid ∧
      t.result bss = { t with table := table } ∧ t.table.Filled table bss bssid i sc := by
  unfold Tables.result
  cases bss.bssid.filter (·.length = 6) with
  | none => exact .inl ⟨rfl, fun bssid h => by cases h⟩
  | some bssid =>
      dsimp only
      cases hgrab : t.table.grabScanSlot bssid with
      | none =>
          refine .inl ⟨rfl, fun b hb j hj => ?_⟩
          cases hb
          have hfind : t.table.findScanSlot bssid = none := by
            unfold ScanTable.grabScanSlot at hgrab
            split at hgrab
            · cases hgrab
            · next h => exact h
          have hp := ScanTable.find_eq_none hfind (ht.lt (Scan.ne_of_freq hj))
          simpa [hj] using hp
      | some r =>
          obtain ⟨sc, hfill⟩ := ScanTable.grabScanSlot_filled ht bss hgrab
          exact .inr ⟨bssid, r.1, sc, _, rfl, rfl, hfill⟩

theorem Scan.same_keep {sc : Scan} (c : Bool) (f : ScanFlags) (h : c = true → sc.freq ≠ 0) :
    sc.Same (if c then { sc with flags := f } else sc) := by
  split
  · next hc => exact Scan.same_flags (h hc) f
  · exact .refl _

theorem Tables.sameSlots_mark (t : Tables) (freqs : List (Option Int)) :
    t.table.SameSlots (t.mark freqs).table := by
  refine t.table.sameSlots_map fun sc => Scan.same_keep _ _ fun h => ?_
  simp only [Bool.and_eq_true, decide_eq_true_eq] at h
  exact h.1

theorem Tables.sameSlots_forget (t : Tables) (ssid : Bytes) (config : Config) :
    t.table.SameSlots (t.forget ssid config).table := by
  refine t.table.sameSlots_map fun sc => ?_
  split
  · refine ⟨⟨_, rfl⟩, fun h => ?_⟩
    rw [h]
  · exact .refl _

theorem Connects.sameSlots {t t' : Tables} (h : Connects t t') : t.table.SameSlots t'.table := by
  cases h with
  | keeps _ => exact t.table.sameSlots_flag t.ap fun f => { f with tried := false }
  | saves _ _ => exact t.table.sameSlots_flag t.ap fun f => { f with tried := false, pass := true }

/-- The end of a dump drops slots, and its entries fill them; nothing else does more
than change flags. -/
theorem TableStep.sameSlots {s : Daemon} {k : EventKind} {t : Tables} (h : TableStep s k t) :
    s.tables.table.SameSlots t.table ∨ (s.tables.table.dropStale.SameSlots t.table ∧ k = .netlink .done) ∨
      ∃ bss, t = s.tables.result bss := by
  cases h with
  | roams _ h => exact .inl (moves_sameSlots h)
  | configures _ _ _ h _ h' => exact .inl ((moves_sameSlots h).trans (moves_sameSlots h'))
  | forgets _ _ _ _ =>
      split
      · exact .inl (.refl _)
      · exact .inl (s.tables.sameSlots_forget _ _)
  | dumps hk _ h => exact .inr (.inl ⟨s.tables.sameSlots_scanned.trans (moves_sameSlots h), hk⟩)
  | marks _ _ _ _ _ => exact .inl (s.tables.sameSlots_mark _)
  | fills _ _ _ _ _ => exact .inr (.inr ⟨_, rfl⟩)
  | connects _ _ _ h => exact .inl h.sameSlots
  | writes _ => exact .inl (.refl _)

theorem Tables.result_shaped {t : Tables} (ht : t.table.Shaped) (bss : Netlink.Bss) :
    (t.result bss).table.Shaped := by
  rcases Tables.result_cases ht bss with ⟨heq, -⟩ | ⟨bssid, i, sc, table, -, heq, hfill⟩
  · rw [heq]
    exact ht
  · rw [heq]
    exact hfill.shaped ht

theorem TableStep.shaped {s : Daemon} {k : EventKind} {t : Tables} (h : TableStep s k t)
    (hs : s.tables.table.Shaped) : t.table.Shaped := by
  rcases h.sameSlots with h | ⟨h, -⟩ | ⟨bss, rfl⟩
  · exact h.shaped hs
  · exact h.shaped hs.dropStale
  · exact Tables.result_shaped hs bss

/-- What moves leave of a slot's flags. -/
structure ScanFlags.Moved (f f' : ScanFlags) : Prop where
  seen : f'.seen = f.seen
  pass : f'.pass = f.pass
  stale : f'.stale = f.stale
  good : f'.good = true → f.good = true

theorem ScanFlags.Moved.refl (f : ScanFlags) : f.Moved f := ⟨rfl, rfl, rfl, id⟩

theorem moves_flags {R : Ap → Ap → Prop} {t t' : Tables} (h : ReflTransGen (TableMove R) t t') (i : ℕ) :
    (t.table.get i).flags.Moved (t'.table.get i).flags := by
  induction h with
  | refl => exact .refl _
  | tail _ hmove ih =>
      have hstep : ∀ {t t' : Tables}, TableMove R t t' →
          (t.table.get i).flags.Moved (t'.table.get i).flags := by
        intro t t' h
        cases h with
        | retunes | rekeys | loads => exact .refl _
        | retries table h =>
            rcases h.get i with heq | ⟨-, b, heq⟩
            · exact heq ▸ .refl _
            · exact heq ▸ ⟨rfl, rfl, rfl, id⟩
        | fails j _ =>
            change (t.table.get i).flags.Moved ((t.table.modify j _).get i).flags
            rw [ScanTable.get_modify]
            split
            · exact ⟨rfl, rfl, rfl, fun h => by cases h⟩
            · exact .refl _
      have h := hstep hmove
      exact ⟨h.seen.trans ih.seen, h.pass.trans ih.pass, h.stale.trans ih.stale, fun hg => ih.good (h.good hg)⟩

theorem ScanTable.get_flag (t : ScanTable) (sc : Option ℕ) (f : ScanFlags → ScanFlags) (i : ℕ) :
    (t.flag sc f).get i =
      if sc = some i ∧ i < NSCANS then { t.get i with flags := f (t.get i).flags } else t.get i := by
  cases sc with
  | none => rw [if_neg fun h => by cases h.1]; rfl
  | some j =>
      simp only [flag, get_modify, Option.some.injEq]

namespace System

/-- While the daemon runs its scan table is in shape. -/
def Shaped (x : System) : Prop := x.halted = false → x.table.Shaped

theorem Initial.shaped {x : System} (h : x.Initial) : x.Shaped := by
  obtain ⟨smac, ifindex, psks, env, hpath⟩ := h.tables
  intro _
  exact (moves_sameSlots hpath).shaped ScanTable.shaped_empty

theorem step_shaped {x : System} (hx : x.Shaped) {e : Event} (he : x.Enabled e) :
    (x.step e).1.Shaped := by
  intro hrun
  exact (step_tables (hx he.1).named hrun).shaped (hx he.1)

theorem Reachable.shaped {x : System} (h : x.Reachable) : x.Shaped := by
  refine Machine.Reachable.invariant (M := supplicant) ?_ ?_ h
  · intro y hy
    exact hy.shaped
  · intro y e hy he
    exact step_shaped hy he

end System
end Wsupp

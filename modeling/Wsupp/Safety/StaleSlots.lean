import Wsupp.Control.TableShape
import Wsupp.Safety.ScanRequests

/-!
# Which slots a scan drops

A scan marks the slots on the frequencies it is going to visit, its dump clears the
marks of what has been found, and the end of the dump drops the rest. A scan that
ends in another way leaves its marks to the next one.

A record keeps what the current scan is to visit and what its dump has reported. The
invariant ties the marks in the table to this record. In a run in which no scan with
marks is aborted or fails, whatever is dropped has been looked for and not been
found; a mark that is left behind makes the next scan drop a slot it never looked
for.
-/
namespace Wsupp
open Reactive View Relation

/-- What the scan that runs has said: the frequencies it was to visit, and the
addresses its dump has had entries for so far. -/
structure ScanRecord where
  listed : List Int := []
  dumped : List Bytes := []

def EventKind.lists (s : Daemon) : EventKind → List Int
  | .netlink (.gen msg) =>
      if msg.ifi = some s.ifindex ∧ msg.cmd = .triggerScan then (msg.freqs.getD []).filterMap id else []
  | _ => []

def EventKind.reports (s : Daemon) : EventKind → List Bytes
  | .netlink (.gen msg) =>
      if msg.ifi = some s.ifindex ∧ msg.cmd = .newScanResults ∧ msg.multi = true then
        (msg.bss.bind fun bss => bss.bssid.filter (·.length = 6)).toList
      else []
  | _ => []

def recordScan (x : System) (e : Event) (_ : List Act) (r : ScanRecord) : ScanRecord :=
  match x.scanstate with
  | .idle => {}
  | .scanning => { listed := r.listed ++ e.kind.lists (x.before e), dumped := [] }
  | .scandump => { r with dumped := r.dumped ++ e.kind.reports (x.before e) }

/-- The daemon with that record. -/
def sweeping : Machine (System × ScanRecord) Event Act := supplicant.record recordScan

def EventKind.isDone : EventKind → Bool
  | .netlink .done => true
  | _ => false

/-- The slot is in use and is freed when the stale slots are dropped. -/
def ScanTable.Drops (t : ScanTable) (i : ℕ) : Prop := t.get i ≠ {} ∧ t.dropStale.get i = {}

instance (t : ScanTable) (i : ℕ) : Decidable (t.Drops i) := inferInstanceAs (Decidable (_ ∧ _))

/-- What the end of a dump drops has been looked for and not been found. -/
def DropsMissing (x : System) (r : ScanRecord) (k : EventKind) : Prop :=
  k.isDone = true → x.scanstate = .scandump → ∀ i < x.table.nscans, x.table.Drops i →
    (x.table.get i).freq ∈ r.listed ∧ (x.table.get i).bssid ∉ r.dumped

/-- A scan that ends without a dump leaves no marks. -/
def Daemon.endsClean (s : Daemon) (k : EventKind) : Prop :=
  k.endsScan s = true → k.isDone = false → ∀ i < s.table.nscans, (s.table.get i).flags.stale = false

instance (x : System) (r : ScanRecord) (k : EventKind) : Decidable (DropsMissing x r k) :=
  inferInstanceAs (Decidable (_ → _ → _))

instance (s : Daemon) (k : EventKind) : Decidable (s.endsClean k) :=
  inferInstanceAs (Decidable (_ → _ → _))

theorem EventKind.isDone_iff {k : EventKind} : k.isDone = true ↔ k = .netlink .done := by
  constructor
  · intro h
    unfold isDone at h
    split at h
    · rfl
    · cases h
  · intro h
    rw [h]
    rfl

/-- A slot that is marked has been listed and not found so far. Without a scan there are
no marks. -/
structure Marked (c : ScanState) (r : ScanRecord) (sc : Scan) : Prop where
  freq : sc.freq ≠ 0
  running : c ≠ .idle
  listed : sc.freq ∈ r.listed
  missing : sc.bssid ∉ r.dumped

def Sweeps (x : System × ScanRecord) : Prop :=
  x.1.halted = false → x.1.table.Shaped ∧
    ∀ i, (x.1.table.get i).flags.stale = true → Marked x.1.scanstate x.2 (x.1.table.get i)

section Step
variable {s : Daemon} {k : EventKind} {t : Tables}

theorem Tables.see_stale (t : Tables) (i j : ℕ) :
    ((t.see i).table.get j).flags.stale = (t.table.get j).flags.stale := by
  have hflag (u : Tables) (f : ScanFlags → ScanFlags) (hf : ∀ fl, (f fl).stale = fl.stale) :
      ((u.flag (some i) f).table.get j).flags.stale = (u.table.get j).flags.stale := by
    change ((u.table.flag (some i) f).get j).flags.stale = _
    rw [ScanTable.get_flag]
    split
    · exact hf _
    · rfl
  unfold see
  dsimp only
  split
  · rfl
  split
  · exact hflag t.load _ fun _ => rfl
  · exact hflag t _ fun _ => rfl

theorem Tables.seeAll_stale (t : Tables) (is : List ℕ) (j : ℕ) :
    ((t.seeAll is).table.get j).flags.stale = (t.table.get j).flags.stale := by
  induction is generalizing t with
  | nil => rfl
  | cons i is ih => exact (ih _).trans (t.see_stale i j)

theorem Tables.get_mark (t : Tables) (freqs : List (Option Int)) (i : ℕ) :
    (t.mark freqs).table.get i =
      if i < t.table.nscans then
        if (t.table.get i).freq ≠ 0 && freqs.contains (some (t.table.get i).freq) then
          { t.table.get i with flags := { (t.table.get i).flags with stale := true } }
        else t.table.get i
      else t.table.get i := ScanTable.get_map ..

theorem Tables.scanned_stale {t : Tables} (ht : t.table.Shaped) (i : ℕ) :
    (t.scanned.table.get i).flags.stale = false := by
  refine (seeAll_stale _ _ _).trans ?_
  change (t.table.dropStale.get i).flags.stale = false
  rw [ScanTable.get_dropStale]
  split
  · rfl
  · next h =>
      by_contra hstale
      rw [Bool.not_eq_false] at hstale
      refine h ⟨ht.lt fun hfree => ?_, hstale⟩
      rw [hfree] at hstale
      cases hstale

theorem Tables.forget_stale (t : Tables) (ssid : Bytes) (config : Config) (i : ℕ) :
    ((t.forget ssid config).table.get i).flags.stale = (t.table.get i).flags.stale := by
  change ((t.table.map _).get i).flags.stale = _
  rw [ScanTable.get_map]
  split
  · split <;> rfl
  · rfl

theorem Connects.stale {t t' : Tables} (h : Connects t t') (i : ℕ) :
    (t'.table.get i).flags.stale = (t.table.get i).flags.stale := by
  cases h with
  | keeps _ =>
      change ((t.table.flag _ _).get i).flags.stale = _
      rw [ScanTable.get_flag]
      split <;> rfl
  | saves _ _ =>
      change ((t.table.flag _ _).get i).flags.stale = _
      rw [ScanTable.get_flag]
      split <;> rfl

theorem EventKind.reports_nil (hk : ¬ k.rewrites s) : k.reports s = [] := by
  cases k with
  | netlink msg =>
      cases msg with
      | gen msg =>
          by_cases h : msg.ifi = some s.ifindex ∧ msg.cmd = .newScanResults ∧ msg.multi = true
          · have hbss : msg.bss = none := by
              by_contra hne
              exact hk ⟨h.1, h.2.1, h.2.2, hne⟩
            simp [reports, hbss]
          · exact if_neg h
      | _ => rfl
  | _ => rfl

/-- What an event does to the marks. -/
inductive Remarks (s : Daemon) (k : EventKind) (t : Tables) : Prop where
  | keeps : s.table.SameSlots t.table →
      (∀ i, (t.table.get i).flags.stale = (s.table.get i).flags.stale) → k.reports s = [] →
      (k = .netlink .done → s.scanstate ≠ .scandump) → Remarks s k t
  | clears : (∀ i, (t.table.get i).flags.stale = false) → Remarks s k t
  | lists {freqs} : s.scanstate = .scanning → k.endsScan s = false →
      k.lists s = freqs.filterMap id → t = s.tables.mark freqs → Remarks s k t
  | reports {bss} : k.endsScan s = false →
      k.reports s = (bss.bssid.filter (·.length = 6)).toList → t = s.tables.result bss → Remarks s k t

theorem TableStep.remarks (hs : s.tables.table.Shaped) (h : TableStep s k t) : Remarks s k t := by
  cases h with
  | roams hk h =>
      exact .keeps (moves_sameSlots h) (fun i => (moves_flags h i).stale) (k.reports_nil hk)
        (fun hd hdump => hk (hd ▸ hdump))
  | configures hk _ _ h _ h' =>
      refine .keeps ((moves_sameSlots h).trans (moves_sameSlots h')) (fun i => ?_) (by rw [hk]; rfl)
        (fun hd => by rw [hk] at hd; cases hd)
      exact (moves_flags h' i).stale.trans (moves_flags h i).stale
  | forgets hk _ _ _ =>
      refine .keeps ?_ (fun i => ?_) (by rw [hk]; rfl) (fun hd => by rw [hk] at hd; cases hd)
      · split
        · exact .refl _
        · exact s.tables.sameSlots_forget _ _
      · split
        · rfl
        · exact s.tables.forget_stale _ _ i
  | dumps hk _ h => exact .clears fun i => (moves_flags h i).stale.trans (Tables.scanned_stale hs i)
  | marks hk hifi hcmd hscan hfreqs =>
      subst hk
      refine .lists hscan (by simp [EventKind.endsScan, Netlink.Msg.endsScan, hcmd]) ?_ rfl
      simp [EventKind.lists, hifi, hcmd, hfreqs]
  | fills hk hifi hcmd hmulti hbss =>
      subst hk
      refine .reports (by simp [EventKind.endsScan, Netlink.Msg.endsScan, hcmd]) ?_ rfl
      simp [EventKind.reports, hifi, hcmd, hmulti, hbss]
  | connects hk _ _ h =>
      exact .keeps h.sameSlots h.stale (by rw [hk]; rfl) (fun hd => by rw [hk] at hd; cases hd)
  | writes hk =>
      exact .keeps (.refl _) (fun _ => rfl) (by rw [hk]; rfl) (fun hd => by rw [hk] at hd; cases hd)

theorem ScanMove.running {asks : Bool} {c c' : Control} (h : ScanMove asks false c c')
    (hc : c.scanstate ≠ .idle) : c'.scanstate ≠ .idle := by
  cases h with
  | rests heq => rwa [show c'.scanstate = c.scanstate from congrArg Prod.fst heq]
  | dumps _ _ heq =>
      rw [show c'.scanstate = .scandump from congrArg Prod.fst heq]
      exact fun h => by cases h
  | ends h _ => cases h
  | asks _ h => exact h

/-- A slot stays listed and missing as long as no entry is for it. -/
theorem Marked.record {x : System} {e : Event} {r : ScanRecord} {sc : Scan} {c : ScanState}
    (h : Marked x.scanstate r sc) (hrep : sc.bssid ∉ e.kind.reports (x.before e)) (hc : c ≠ .idle) :
    Marked c (recordScan x e (x.step e).2 r) sc := by
  have hlisted := h.listed
  have hmissing := h.missing
  unfold recordScan
  cases hs : x.scanstate with
  | idle => exact absurd hs h.running
  | scanning => exact ⟨h.freq, hc, List.mem_append_left _ hlisted, List.not_mem_nil⟩
  | scandump =>
      refine ⟨h.freq, hc, hlisted, fun hmem => ?_⟩
      rcases List.mem_append.mp hmem with hmem | hmem
      · exact hmissing hmem
      · exact hrep hmem

end Step

section Sweep
variable {x : System × ScanRecord} {e : Event}

section Marks
variable {i : ℕ} (hmarked : (x.1.table.get i).flags.stale = true → Marked x.1.scanstate x.2 (x.1.table.get i))
include hmarked

theorem lists_marked {freqs : List (Option Int)} (hscan : x.1.scanstate = .scanning)
    (hlists : e.kind.lists (x.1.before e) = freqs.filterMap id) (hrun : (x.1.step e).1.scanstate ≠ .idle)
    (hstale : (((x.1.before e).tables.mark freqs).table.get i).flags.stale = true) :
    Marked (x.1.step e).1.scanstate (sweeping.step x e).1.2 (((x.1.before e).tables.mark freqs).table.get i) := by
  have hrec : (sweeping.step x e).1.2 = { listed := x.2.listed ++ freqs.filterMap id, dumped := [] } := by
    change recordScan x.1 e (x.1.step e).2 x.2 = _
    unfold recordScan
    rw [hscan, ← hlists]
  have hlisted {sc : Scan} (hfreq : sc.freq ≠ 0) (h : sc.freq ∈ x.2.listed ∨ some sc.freq ∈ freqs) :
      Marked (x.1.step e).1.scanstate (sweeping.step x e).1.2 sc := by
    rw [hrec]
    refine ⟨hfreq, hrun, List.mem_append.mpr (h.imp_right fun hmem => ?_), List.not_mem_nil⟩
    exact List.mem_filterMap.mpr ⟨_, hmem, rfl⟩
  have hold (hi : (x.1.table.get i).flags.stale = true) :
      Marked (x.1.step e).1.scanstate (sweeping.step x e).1.2 (x.1.table.get i) :=
    hlisted (hmarked hi).freq (.inl (hmarked hi).listed)
  rw [Tables.get_mark] at hstale ⊢
  split at hstale
  swap
  · next hi =>
      rw [if_neg hi]
      exact hold hstale
  next hi =>
  rw [if_pos hi]
  split at hstale
  · next hfreq =>
      rw [if_pos hfreq]
      simp only [Bool.and_eq_true, decide_eq_true_eq, List.contains_iff_mem] at hfreq
      exact hlisted hfreq.1 (.inr hfreq.2)
  · next hfreq =>
      rw [if_neg hfreq]
      exact hold hstale

/-- An entry takes the mark off the slot it is for. -/
theorem reports_marked {bss : Netlink.Bss} (hshaped : x.1.table.Shaped)
    (hrep : e.kind.reports (x.1.before e) = (bss.bssid.filter (·.length = 6)).toList)
    (hrun : x.1.scanstate ≠ .idle → (x.1.step e).1.scanstate ≠ .idle)
    (hstale : (((x.1.before e).tables.result bss).table.get i).flags.stale = true) :
    Marked (x.1.step e).1.scanstate (sweeping.step x e).1.2 (((x.1.before e).tables.result bss).table.get i) := by
  have hold (hi : (x.1.table.get i).flags.stale = true)
      (hother : (x.1.table.get i).bssid ∉ e.kind.reports (x.1.before e)) :
      Marked (x.1.step e).1.scanstate (sweeping.step x e).1.2 (x.1.table.get i) :=
    (hmarked hi).record hother (hrun (hmarked hi).running)
  rcases Tables.result_cases (t := (x.1.before e).tables) hshaped bss with
    ⟨heq, hnone⟩ | ⟨bssid, j, sc, table, hb, heq, hfill⟩
  · rw [heq] at hstale ⊢
    refine hold hstale ?_
    rw [hrep]
    intro hmem
    rw [Option.mem_toList] at hmem
    exact hnone _ hmem i (hmarked hstale).freq rfl
  · rw [heq] at hstale ⊢
    change (table.get i).flags.stale = true at hstale
    change Marked _ _ (table.get i)
    rw [hfill.get] at hstale ⊢
    by_cases hij : j = i
    · rw [if_pos hij, (Netlink.scanOf_described _ _ _).flags] at hstale
      cases hstale
    rw [if_neg hij] at hstale ⊢
    refine hold hstale ?_
    rw [hrep, hb]
    intro hmem
    have hbi : (x.1.table.get i).bssid = bssid := List.mem_singleton.mp hmem
    have hfreq := (hmarked hstale).freq
    rcases hfill.slot with ⟨rfl, hj, hbj⟩ | ⟨-, hnone⟩
    · exact hij (hshaped.apart j i hj hfreq (hbj.trans hbi.symm))
    · exact hnone i hfreq hbi

end Marks

/-- A scan that ends otherwise than with a dump leaves no marks. -/
theorem endsScan_of_marked (hc : (x.1.before e).endsClean e.kind)
    (hdone : e.kind = .netlink .done → x.1.scanstate ≠ .scandump) {i : ℕ} (hi : i < x.1.table.nscans)
    (hstale : (x.1.table.get i).flags.stale = true) : e.kind.endsScan (x.1.before e) = false := by
  by_contra h
  rw [Bool.not_eq_false] at h
  by_cases hk : e.kind.isDone = true
  · have hk := EventKind.isDone_iff.mp hk
    rw [hk] at h
    exact hdone hk (of_decide_eq_true h)
  · rw [show (x.1.table.get i).flags.stale = false from hc h (eq_false_of_ne_true hk) i hi] at hstale
    cases hstale

theorem step_sweeps (hx : Sweeps x) (he : x.1.Enabled e) (hc : (x.1.before e).endsClean e.kind) :
    Sweeps (sweeping.step x e).1 := by
  intro hrun
  obtain ⟨hshaped, hmarked⟩ := hx he.1
  refine ⟨System.step_shaped (fun _ => hshaped) he hrun, fun i hstale => ?_⟩
  have hmove := (System.outcome_returns _).mp (EventKind.scanMove (x.1.step_effect e)) hrun
  have hrunning (hends : e.kind.endsScan (x.1.before e) = false) (hs : x.1.scanstate ≠ .idle) :
      (x.1.step e).1.scanstate ≠ .idle := by
    rw [hends] at hmove
    exact hmove.running hs
  change ((x.1.step e).1.table.get i).flags.stale = true at hstale
  change Marked (x.1.step e).1.scanstate _ ((x.1.step e).1.table.get i)
  have hremarks : Remarks (x.1.before e) e.kind (x.1.step e).1.tables :=
    (System.step_tables hshaped.named hrun).remarks (s := x.1.before e) hshaped
  have hget (j : ℕ) : (x.1.step e).1.tables.table.get j = (x.1.step e).1.table.get j := rfl
  generalize (x.1.step e).1.tables = t at hremarks hget
  rw [← hget] at hstale ⊢
  cases hremarks with
  | keeps hsame hmarks hrep hdone =>
      have hstale : (x.1.table.get i).flags.stale = true := (hmarks i).symm.trans hstale
      have hm := hmarked i hstale
      have hi := hshaped.lt (Scan.ne_of_freq hm.freq)
      have hends := endsScan_of_marked hc hdone hi hstale
      have hkeep := hm.record (e := e) (by rw [hrep]; exact List.not_mem_nil) (hrunning hends hm.running)
      obtain ⟨⟨f, hf⟩, -⟩ := hsame.get i
      rw [hf]
      exact ⟨hkeep.freq, hkeep.running, hkeep.listed, hkeep.missing⟩
  | clears h =>
      rw [h i] at hstale
      cases hstale
  | lists hscan hends hlists ht =>
      subst ht
      have hscan : x.1.scanstate = .scanning := hscan
      exact lists_marked (hmarked i) hscan hlists (hrunning hends (by rw [hscan]; decide)) hstale
  | reports hends hrep ht =>
      subst ht
      exact reports_marked (hmarked i) hshaped hrep (hrunning hends) hstale

end Sweep

/-- In a run in which no scan leaves marks behind, what the end of a dump drops has been
looked for by that scan and not been found. A scan leaves marks behind if it is aborted
or fails after its frequencies were listed. -/
theorem drops_missing {x : System} (hx : x.Initial) {es : List Event} (hv : supplicant.Valid x es)
    (hc : supplicant.Every (fun y e => (y.before e).endsClean e.kind) x es) :
    sweeping.Every (fun y e => DropsMissing y.1 y.2 e.kind) (x, {}) es := by
  have hc := (Machine.record_every recordScan x {} es).mpr hc
  refine Machine.Every.imp (I := Sweeps) (fun y e hy he hc => step_sweeps hy he hc) ?_ ?_
    ((Machine.record_valid ..).mpr hv) hc
  · rintro y e hy he - - - i hi ⟨hused, hfree⟩
    rw [ScanTable.get_dropStale] at hfree
    split at hfree
    · next h =>
        have hm := (hy he.1).2 i h.2
        exact ⟨hm.listed, hm.missing⟩
    · exact absurd hfree hused
  · intro hrun
    refine ⟨hx.shaped hrun, fun i hstale => ?_⟩
    obtain ⟨smac, ifindex, psks, env, hpath⟩ := hx.tables
    rw [show (x.table.get i).flags.stale = _ from (moves_flags hpath i).stale,
      show (Daemon.fresh smac ifindex psks env).tables.table.get i = {} from
        ScanTable.get_empty i] at hstale
    cases hstale

namespace Sample

def listing (freqs : List Int) : Event :=
  event (.netlink (.gen { ifi := some 3, cmd := .triggerScan, freqs := some (freqs.map some) }))

/-- A client has the access point looked for, which is not there any more. -/
def vanished : List Event :=
  [event (.accept 5), event .turn, notice .newScanResults, found, event (.netlink .done), event .turn,
    asks .scan, listing [2412], notice .newScanResults, event (.netlink .done)]

/-- Of two scans one is aborted, and the other is for another frequency. -/
def abortedScan : List Event :=
  [event (.accept 5), event .turn, notice .newScanResults, found, event (.netlink .done), event .turn,
    asks .scan, listing [2412], notice .scanAborted, event .turn,
    asks .scan, listing [5180], notice .newScanResults, event (.netlink .done)]

end Sample

theorem vanished_drops_missing :
    sweeping.Every (fun y e => DropsMissing y.1 y.2 e.kind) (Sample.start, {}) Sample.vanished :=
  drops_missing Sample.start_initial (by decide +kernel) (by decide +kernel)

/-- The kernel aborts a scan of one frequency. The next scan is of another one, and at
its end the access point on the first is dropped, which it never looked for. -/
theorem abortedScan_drops : Sample.start.Initial ∧ supplicant.Valid Sample.start Sample.abortedScan ∧
    ¬ sweeping.Every (fun y e => DropsMissing y.1 y.2 e.kind) (Sample.start, {}) Sample.abortedScan :=
  ⟨Sample.start_initial, by decide +kernel, by decide +kernel⟩

end Wsupp

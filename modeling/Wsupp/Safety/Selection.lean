import Mathlib.Logic.Function.Iterate
import Mathlib.Data.Finset.Card
import Wsupp.Control.Choosing

/-!
# Which access point a connection is started on

The loop that tries one access point after another ends on the most preferred of
those it can start on. Each turn that fails leaves the others as eligible and as
preferred as they were, so what the loop ends with can be told from the state it
starts in.

What can be started on depends on the type of the access point, on the PSK file as
the earlier attempts have left it, and on the socket. The result covers termination,
the return value, the choice and the marks left on the slots passed over, for every
table. The preference is that of `get_best_ap`: band first, then signal, then the
place in the table.
-/
namespace Wsupp
open Reactive Prog

section Spec
variable (s : Daemon)

/-- Occupied, good, not tried, and either known or of the SSID the station is fixed on. -/
def Daemon.Eligible (i : ℕ) : Prop := s.table.Among (eligible s.ap) i

instance instDecidableEligible (i : ℕ) : Decidable (s.Eligible i) :=
  inferInstanceAs (Decidable (s.table.Among _ i))

/-- How often the PSK file is looked into before the turn of a slot. -/
def Daemon.readsBefore (i : ℕ) : ℕ := ((Finset.range s.table.nscans).filter fun j =>
  s.Eligible j ∧ s.table.Prefers j i ∧ (s.table.get j).type.rsnPCcmp = true).card

/-- A connection can be started on the slot when its turn comes. -/
def Daemon.Startable (i : ℕ) : Prop :=
  s.Eligible i ∧ (s.table.get i).type.rsnPCcmp = true ∧
    (s.ap.fixed = true ∨
      loadable (loadStep^[s.readsBefore i] s.store) (s.table.get i).name s.PSK = true)

/-- The loop has ended on a slot, or on none: the slot is the most preferred one it can
start on, the command for it is out, and the slots before it have lost their flag. -/
structure Daemon.Connects (choice : Option ℕ) (s' : Daemon) (l : List Act) : Prop where
  nothing : choice = none → ∀ i, ¬ s.Startable i
  best : ∀ i ∈ choice, s.Startable i ∧ ∀ j, s.Startable j → j = i ∨ s.table.Prefers i j
  chosen : ∀ i ∈ choice, s'.table.get i = (s.table.get i).setTried
  failed : ∀ j, s.Eligible j → (∀ i ∈ choice, s.table.Prefers j i) →
    s'.table.get j = (s.table.get j).setFailed
  others : ∀ j, j ∉ choice → ¬ (s.Eligible j ∧ ∀ i ∈ choice, s.table.Prefers j i) →
    s'.table.get j = s.table.get j
  nscans : s'.table.nscans = s.table.nscans
  acts : l = choice.toList.map fun i => .nl (.authenticate (s.table.get i).bssid
    (s.table.get i).freq (s.table.get i).name) (0 < s.env.nlSend.headD 1)
  ap : s.ap.Keeps s'.ap
  control : s'.toControl = if choice.isSome then { s.toControl with authstate := .authenticating }
    else s.toControl

end Spec

/-- What a failed turn leaves to the next one: the same slots with the same preferences,
less the one that failed, and a PSK file that has been read once more. -/
structure Daemon.Passes (s : Daemon) (i : ℕ) (s' : Daemon) : Prop extends s.Steady s' where
  table : s'.table = s.table.modify i Scan.setFailed
  store : s.ap.fixed = false →
    s'.store = if (s.table.get i).type.rsnPCcmp then loadStep s.store else s.store

theorem Daemon.Attempted.passes {s s' s₁ : Daemon} {i : ℕ} (h : s.Attempted i s')
    (h₁ : s₁ = { s' with table := s'.table.modify i fun sc =>
      { sc with flags := { sc.flags with good := false } } }) : s.Passes i s₁ := by
  subst h₁
  refine ⟨⟨h.control, h.socket, h.nlSend, h.ap, h.psk⟩, ?_, h.store⟩
  change s'.table.modify i _ = _
  rw [h.table, ScanTable.modify_modify]
  rfl

namespace Daemon.Passes
variable {s s' : Daemon} {b : ℕ} (h : s.Passes b s') (hb : s.table.FirstAmong (eligible s.ap) b)
include h

theorem get_ne {j : ℕ} (hj : j ≠ b) : s'.table.get j = s.table.get j := by
  rw [h.table, ScanTable.get_modify, if_neg (fun hbj => hj hbj.1.symm)]

theorem rank_get (j : ℕ) : rank (s'.table.get j) = rank (s.table.get j) := by
  rw [h.table, ScanTable.get_modify]
  split <;> rfl

theorem prefers_iff (i j : ℕ) : s'.table.Prefers i j ↔ s.table.Prefers i j := by
  unfold ScanTable.Prefers
  rw [show (fun i => rank (s'.table.get i)) = fun i => rank (s.table.get i) from funext h.rank_get]

theorem nscans : s'.table.nscans = s.table.nscans := by
  rw [h.table]
  rfl

include hb

theorem get_self : s'.table.get b = (s.table.get b).setFailed := by
  have hcount := s.table.count_le
  have hlt : b < s.table.nscans := hb.1.1
  rw [h.table, ScanTable.get_modify, if_pos ⟨rfl, by omega⟩]

theorem eligible_iff (j : ℕ) : s'.Eligible j ↔ s.Eligible j ∧ j ≠ b := by
  unfold Daemon.Eligible ScanTable.Among
  rw [h.nscans, h.ap.eligible_eq]
  by_cases hj : j = b
  · subst hj
    rw [h.get_self hb]
    simp [eligible, connectable, Scan.setFailed]
  · rw [h.get_ne hj]
    simp [hj]

theorem readsBefore_eq {j : ℕ} (hj : s.Eligible j) (hne : j ≠ b) : s.readsBefore j =
    s'.readsBefore j + if (s.table.get b).type.rsnPCcmp then 1 else 0 := by
  have hbj : s.table.Prefers b j := (hb.2 j hj).resolve_left hne
  have hccmp (k : ℕ) : (s'.table.get k).type = (s.table.get k).type := by
    rw [h.table, ScanTable.get_modify]
    split <;> rfl
  have hset : (Finset.range s'.table.nscans).filter (fun k => s'.Eligible k ∧ s'.table.Prefers k j ∧
        (s'.table.get k).type.rsnPCcmp = true) =
      ((Finset.range s.table.nscans).filter fun k => s.Eligible k ∧ s.table.Prefers k j ∧
        (s.table.get k).type.rsnPCcmp = true).erase b := by
    ext k
    simp only [Finset.mem_erase, Finset.mem_filter, h.nscans, h.eligible_iff hb, h.prefers_iff, hccmp]
    tauto
  unfold Daemon.readsBefore
  rw [hset]
  split
  · next hread =>
      refine (Finset.card_erase_add_one ?_).symm
      exact Finset.mem_filter.mpr ⟨Finset.mem_range.mpr hb.1.1, hb.1, hbj, hread⟩
  · next hread =>
      rw [Finset.erase_eq_of_notMem, Nat.add_zero]
      intro hmem
      exact hread (Finset.mem_filter.mp hmem).2.2.2

theorem store_eq {j : ℕ} (hj : s.Eligible j) (hne : j ≠ b) (hfixed : s.ap.fixed = false) :
    loadStep^[s'.readsBefore j] s'.store = loadStep^[s.readsBefore j] s.store := by
  rw [h.readsBefore_eq hb hj hne, h.store hfixed]
  split
  · rw [Function.iterate_succ_apply]
  · rfl

theorem startable_iff {j : ℕ} (hne : j ≠ b) : s'.Startable j ↔ s.Startable j := by
  unfold Daemon.Startable
  rw [h.eligible_iff hb, h.get_ne hne, h.ap.fixed]
  constructor
  · intro hj
    obtain ⟨⟨hj, -⟩, hccmp, hload⟩ := hj
    refine ⟨hj, hccmp, ?_⟩
    cases hfixed : s.ap.fixed with
    | true => exact .inl rfl
    | false =>
        rw [hfixed, h.store_eq hb hj hne hfixed, loadable_congr _ _ h.psk] at hload
        exact hload
  · intro hj
    obtain ⟨hj, hccmp, hload⟩ := hj
    refine ⟨⟨hj, hne⟩, hccmp, ?_⟩
    cases hfixed : s.ap.fixed with
    | true => exact .inl rfl
    | false =>
        rw [h.store_eq hb hj hne hfixed, loadable_congr _ _ h.psk]
        rwa [hfixed] at hload

end Daemon.Passes

section Loop
variable {s s₁ s' : Daemon} {b : ℕ} {choice : Option ℕ} {l : List Act}
  (hb : s.table.FirstAmong (eligible s.ap) b)
include hb

theorem Daemon.readsBefore_first : s.readsBefore b = 0 := by
  unfold Daemon.readsBefore
  rw [Finset.card_eq_zero, Finset.filter_eq_empty_iff]
  intro j _ hj
  obtain ⟨hj, hjb, -⟩ := hj
  obtain rfl | hbj := hb.2 j hj
  · exact hjb.irrefl _
  · exact hjb.asymm hbj

/-- The slot whose turn it is can be started on if `set_current_ap` succeeds. -/
theorem Daemon.startable_first : s.Startable b ↔ s.works b = true := by
  unfold Daemon.Startable Daemon.works
  rw [s.readsBefore_first hb]
  simp [show s.Eligible b from hb.1]

/-- A turn that fails and what the later ones do. -/
theorem Daemon.Passes.connects (h : s.Passes b s₁) (hfails : ¬ s.Startable b)
    (hrest : s₁.Connects choice s' l) : s.Connects choice s' l := by
  have hne (i : ℕ) (hi : i ∈ choice) : i ≠ b := ((h.eligible_iff hb i).mp (hrest.best i hi).1.1).2
  have hstart {i : ℕ} (hi : s.Startable i) : s₁.Startable i :=
    (h.startable_iff hb fun hib => hfails (hib ▸ hi)).mpr hi
  constructor
  case nothing =>
    intro hnone i hi
    exact hrest.nothing hnone i (hstart hi)
  case best =>
    intro i hi
    obtain ⟨hi₁, hrest₁⟩ := hrest.best i hi
    refine ⟨(h.startable_iff hb (hne i hi)).mp hi₁, ?_⟩
    intro j hj
    exact (hrest₁ j (hstart hj)).imp_right (h.prefers_iff i j).mp
  case chosen =>
    intro i hi
    rw [hrest.chosen i hi, h.get_ne (hne i hi)]
  case failed =>
    intro j hj hbefore
    by_cases hjb : j = b
    · subst hjb
      have hgone : ¬ s₁.Eligible j := fun hj₁ => ((h.eligible_iff hb j).mp hj₁).2 rfl
      rw [hrest.others j (fun hmem => hne j hmem rfl) (fun hj₁ => hgone hj₁.1), h.get_self hb]
    · rw [hrest.failed j ((h.eligible_iff hb j).mpr ⟨hj, hjb⟩)
        (fun i hi => (h.prefers_iff j i).mpr (hbefore i hi)), h.get_ne hjb]
  case others =>
    intro j hmem hnot
    have hjb : j ≠ b := by
      intro hjb
      subst hjb
      refine hnot ⟨hb.1, fun i hi => (hb.2 i ?_).resolve_left (hne i hi)⟩
      exact ((h.eligible_iff hb i).mp (hrest.best i hi).1.1).1
    rw [hrest.others j hmem, h.get_ne hjb]
    intro hj
    refine hnot ⟨((h.eligible_iff hb j).mp hj.1).1, fun i hi => ?_⟩
    exact (h.prefers_iff j i).mp (hj.2 i hi)
  case nscans => exact hrest.nscans.trans h.nscans
  case acts =>
    rw [hrest.acts, h.nlSend]
    refine List.map_congr_left fun i hi => ?_
    rw [h.get_ne (hne i (Option.mem_toList.mp hi))]
  case ap => exact h.ap.trans hrest.ap
  case control => rw [hrest.control, h.control]

theorem Daemon.connects_first (hworks : s.Startable b)
    (htable : s'.table = s.table.modify b Scan.setTried)
    (hl : l = [.nl (.authenticate (s.table.get b).bssid (s.table.get b).freq (s.table.get b).name)
      (0 < s.env.nlSend.headD 1)])
    (hap : s.ap.Keeps s'.ap) (hcontrol : s'.toControl = { s.toControl with authstate := .authenticating }) :
    s.Connects (some b) s' l := by
  have hcount := s.table.count_le
  have hlt : b < s.table.nscans := hb.1.1
  constructor
  case nothing => exact nofun
  case best =>
    intro i hi
    cases hi
    exact ⟨hworks, fun j hj => hb.2 j hj.1⟩
  case chosen =>
    intro i hi
    cases hi
    rw [htable, ScanTable.get_modify, if_pos ⟨rfl, by omega⟩]
  case failed =>
    intro j hj hbefore
    have hjb : s.table.Prefers j b := hbefore b rfl
    obtain rfl | hbj := hb.2 j hj
    · exact (hjb.irrefl _).elim
    · exact absurd hjb hbj.asymm
  case others =>
    intro j hmem _
    rw [htable, ScanTable.get_modify, if_neg]
    exact fun hbj => hmem (congrArg some hbj.1)
  case nscans =>
    rw [htable]
    rfl
  case acts => exact hl
  case ap => exact hap
  case control => exact hcontrol

end Loop

theorem Daemon.connects_none {s : Daemon} (hnone : ∀ i, ¬ s.Eligible i) : s.Connects none s [] := by
  constructor
  case nothing => exact fun _ i hi => hnone i hi.1
  case best => exact nofun
  case chosen => exact nofun
  case failed => exact fun j hj => absurd hj (hnone j)
  case others => exact fun _ _ _ => rfl
  case nscans => rfl
  case acts => rfl
  case ap => exact .refl _
  case control => rfl

/-- No eligible slot is left where none could be started on. -/
theorem Daemon.Connects.exhausted {s s' : Daemon} {l : List Act} (h : s.Connects none s' l) (i : ℕ) :
    ¬ s'.table.Among (eligible s.ap) i := by
  intro hi
  by_cases helig : s.Eligible i
  · have hget := h.failed i helig (fun j hj => by cases hj)
    have hok := hi.2
    rw [hget] at hok
    simp [eligible, connectable, Scan.setFailed] at hok
  · have hget := h.others i (fun hmem => by cases hmem) (fun hboth => helig hboth.1)
    refine helig ⟨h.nscans ▸ hi.1, ?_⟩
    rw [← hget]
    exact hi.2

namespace Daemon.Connects
variable {s s' : Daemon} {choice : Option ℕ} {l : List Act} (h : s.Connects choice s' l)
include h

theorem named (hname : s.table.Named) : s'.table.Named := by
  intro j
  by_cases hj : j ∈ choice
  · rw [h.chosen j hj]
    exact hname j
  by_cases hfail : s.Eligible j ∧ ∀ i ∈ choice, s.table.Prefers j i
  · rw [h.failed j hfail.1 hfail.2]
    exact hname j
  · rw [h.others j hj hfail]
    exact hname j

/-- What is eligible after the attempt was so before, and is not preferred to what it is on. -/
theorem left_worse {i : ℕ} (hi : i ∈ choice) {j : ℕ} (hj : s'.table.Among (eligible s.ap) j) :
    s.table.Prefers i j := by
  have hcount := h.nscans
  by_cases hji : j = i
  · subst hji
    have hok := hj.2
    rw [h.chosen j hi] at hok
    simp [eligible, connectable, Scan.setTried] at hok
  have hjc : j ∉ choice := fun hmem => hji (Option.some.inj (hmem.symm.trans hi))
  by_cases hfail : s.Eligible j ∧ ∀ i ∈ choice, s.table.Prefers j i
  · have hok := hj.2
    rw [h.failed j hfail.1 hfail.2] at hok
    simp [eligible, connectable, Scan.setFailed] at hok
  · have helig : s.Eligible j := by
      refine ⟨hcount ▸ hj.1, ?_⟩
      rw [← h.others j hjc hfail]
      exact hj.2
    refine (Choice.before_total (Ne.symm hji)).resolve_right fun hpref => hfail ⟨helig, fun i' hi' => ?_⟩
    obtain rfl : i' = i := Option.some.inj (hi'.symm.trans hi)
    exact hpref

end Daemon.Connects

def Daemon.candidates (s : Daemon) : Finset ℕ := (Finset.range s.table.nscans).filter s.Eligible

theorem Daemon.Passes.candidates {s s₁ : Daemon} {b : ℕ} (h : s.Passes b s₁)
    (hb : s.table.FirstAmong (eligible s.ap) b) : s₁.candidates = s.candidates.erase b := by
  ext j
  simp only [Daemon.candidates, Finset.mem_erase, Finset.mem_filter, h.nscans, h.eligible_iff hb]
  tauto

theorem Daemon.Passes.named {s s₁ : Daemon} {b : ℕ} (h : s.Passes b s₁) (hname : s.table.Named) :
    s₁.table.Named := by
  intro j
  rw [h.table, ScanTable.get_modify]
  split
  · exact hname j
  · exact hname j

/-- How the loop ends: on a slot or on none, or with the process, for want of an EAPOL
socket. -/
def Daemon.Tries (s : Daemon) : Res Daemon Act Bool → Prop
  | .ok started s' l => ∃ choice, started = choice.isSome ∧ s.Connects choice s' l
  | .halt _ l => s.socket = false ∧ Dull l

theorem Daemon.Passes.tries {s s₁ : Daemon} {b : ℕ} {r : Res Daemon Act Bool} (h : s.Passes b s₁)
    (hb : s.table.FirstAmong (eligible s.ap) b) (hfails : ¬ s.Startable b) (hrest : s₁.Tries r) :
    s.Tries r := by
  cases r with
  | ok started s' l =>
      obtain ⟨choice, rfl, hconnects⟩ := hrest
      exact ⟨choice, rfl, h.connects hb hfails hconnects⟩
  | halt s' l => exact ⟨h.socket.symm.trans hrest.1, hrest.2⟩

/-- What one turn does when there is a slot to try. -/
theorem connectLoop_turn {s : Daemon} {b : ℕ} (hauth : s.authstate = .idle) (hscan : s.scanstate = .idle)
    (hname : s.table.Named) (hbest : getBestAp s.ap s.table = some b) :
    (∃ r, s.Tries r ∧ ∀ n, connectLoop (n + 1) s = r) ∨
      ∃ s₁, s.Passes b s₁ ∧ ¬ s.Startable b ∧ ∀ n, connectLoop (n + 1) s = connectLoop n s₁ := by
  have hb := ScanTable.getBestAp_first hbest
  have hmatch : matchSsid s.ap (s.table.get b) = true := by
    have hok := hb.1.2
    rw [eligible, Bool.and_eq_true] at hok
    exact hok.2
  obtain ⟨ret, s₁, l₁, hset, rfl, hret, htried, htuned⟩ := setCurrentAp_returns (hname b) hmatch
  have hloop (n : ℕ) : connectLoop (n + 1) s = (if ret ≠ 0 then (do
        modifyFlags b fun f => { f with good := false }
        connectLoop n) else (do
        let ret ← startConnection
        if ret ≠ 0 then do
          modifyFlags b fun f => { f with good := false }
          connectLoop n
        else pure true) : Handler Bool) s₁ := by
    conv_lhs => unfold connectLoop
    rw [read_bind, hbest]
    exact bind_of_silent hset
  rw [← s.startable_first hb] at hret htuned
  by_cases hworks : s.Startable b
  · left
    have hcontrol := htried.control
    have hstart := startConnection_outcome (s := s₁) (by rw [hcontrol, hauth]) (by rw [hcontrol, hscan])
    obtain ⟨hbssid, hfreq, hssid⟩ := htuned hworks
    rw [hbssid, hfreq, hssid, htried.nlSend, htried.socket, hcontrol, htried.table] at hstart
    unfold wp at hstart
    cases hres : startConnection s₁ with
    | ok ret' s' l =>
        rw [hres] at hstart
        obtain ⟨rfl, hl, hc, hap, htable⟩ := hstart
        have hkeeps : s.ap.Keeps s'.ap := by
          rw [hap]
          exact htried.ap
        refine ⟨.ok true s' l, ⟨some b, rfl, s.connects_first hb hworks htable hl hkeeps hc⟩, fun n => ?_⟩
        rw [hloop, if_neg (not_not.mpr (hret.mpr hworks)), bind_of_ok hres]
        exact congrArg _ (List.append_nil l)
    | halt s' l =>
        rw [hres] at hstart
        refine ⟨.halt s' l, hstart, fun n => ?_⟩
        rw [hloop, if_neg (not_not.mpr (hret.mpr hworks)), bind_of_halt hres]
  · right
    refine ⟨_, htried.passes rfl, hworks, fun n => ?_⟩
    rw [hloop, if_pos (fun h => hworks (hret.mp h))]
    exact bind_of_silent rfl

/-- With as many turns as there are candidates, and a last look for another one, the loop
comes to its end. -/
theorem connectLoop_tries {s : Daemon} (hauth : s.authstate = .idle) (hscan : s.scanstate = .idle)
    (hname : s.table.Named) : ∃ r, s.Tries r ∧ ∀ n, s.candidates.card < n → connectLoop n s = r := by
  induction hcard : s.candidates.card using Nat.strong_induction_on generalizing s with
  | _ k ih =>
      have hpos (n : ℕ) (hn : k < n) : ∃ m, n = m + 1 := ⟨n - 1, by omega⟩
      cases hbest : getBestAp s.ap s.table with
      | none =>
          refine ⟨.ok false s [], ⟨none, rfl, s.connects_none (ScanTable.getBestAp_none hbest)⟩, fun n hn => ?_⟩
          obtain ⟨m, rfl⟩ := hpos n hn
          unfold connectLoop
          rw [read_bind, hbest]
          rfl
      | some b =>
          obtain ⟨r, htries, hloop⟩ | ⟨s₁, hpasses, hfails, hloop⟩ :=
            connectLoop_turn hauth hscan hname hbest
          · refine ⟨r, htries, fun n hn => ?_⟩
            obtain ⟨m, rfl⟩ := hpos n hn
            exact hloop m
          · have hb := ScanTable.getBestAp_first hbest
            have hmem : b ∈ s.candidates :=
              Finset.mem_filter.mpr ⟨Finset.mem_range.mpr hb.1.1, hb.1⟩
            have hless : s₁.candidates.card + 1 = k := by
              rw [hpasses.candidates hb, Finset.card_erase_add_one hmem, hcard]
            have hcontrol := hpasses.control
            obtain ⟨r, hrest, hturns⟩ := ih s₁.candidates.card (by omega)
              (s := s₁) (by rw [hcontrol, hauth]) (by rw [hcontrol, hscan]) (hpasses.named hname) rfl
            refine ⟨r, hpasses.tries hb hfails hrest, fun n hn => ?_⟩
            obtain ⟨m, rfl⟩ := hpos n hn
            rw [hloop m]
            exact hturns m (by omega)

theorem Daemon.candidates_le (s : Daemon) : s.candidates.card ≤ s.table.nscans := by
  have hle := Finset.card_filter_le (Finset.range s.table.nscans) s.Eligible
  rwa [Finset.card_range] at hle

/-- `connect_to_something` takes at most one turn for each slot in use, and starts on
the most preferred slot it can start on, if there is one. What it does to the slots it
passes over, and that nothing else changes, is said with the choice. -/
theorem connectToSomething_connects {s : Daemon} (hauth : s.authstate = .idle)
    (hscan : s.scanstate = .idle) (hsocket : s.socket = true) (hname : s.table.Named) :
    ∃ choice s' l, connectToSomething s = .ok choice.isSome s' l ∧
      (∀ n, s.table.nscans < n → connectLoop n s = .ok choice.isSome s' l) ∧
      (choice.isSome = true ↔ ∃ i, s.Startable i) ∧ s.Connects choice s' l := by
  obtain ⟨r, htries, hloop⟩ := connectLoop_tries hauth hscan hname
  have hcard := s.candidates_le
  have hcount := s.table.count_le
  cases r with
  | halt s' l =>
      have hclosed := htries.1
      rw [hsocket] at hclosed
      cases hclosed
  | ok started s' l =>
      obtain ⟨choice, rfl, hconnects⟩ := htries
      refine ⟨choice, s', l, hloop _ (by omega), fun n hn => hloop n (by omega), ?_, hconnects⟩
      cases choice with
      | none => simpa using hconnects.nothing rfl
      | some i => simpa using ⟨i, (hconnects.best i rfl).1⟩

namespace Sample

def heard (signal : Int) (last : UInt8) (ccmp : Bool) : Scan where
  freq := 2412
  signal := signal
  flags := { seen := true, good := true }
  type := { rsnPsk := true, rsnPCcmp := ccmp, rsnGCcmp := true }
  bssid := [2, 0, 0, 0, 0, last]
  slen := 1
  ssid := ssid ++ Bytes.zeros 31

/-- The access point with the best signal has the wrong ciphers. -/
def crowded : Daemon where
  ap := { fixed := true, slen := 1, ssid := ssid ++ Bytes.zeros 31 }
  table := { scans := [heard (-7000) 1 true, heard (-5000) 2 true, heard (-3000) 3 false] ++
    List.replicate 27 {}, nscans := 3, size := rfl }

theorem crowded_named : crowded.table.Named := by
  intro i
  by_cases hi : i < NSCANS
  · exact (by decide : ∀ i < NSCANS, (crowded.table.get i).slen ≤ (crowded.table.get i).ssid.length) i hi
  · rw [crowded.table.get_of_le (not_lt.mp hi)]
    exact Nat.zero_le _

end Sample

theorem crowded_connects : ∃ choice s' l, connectToSomething Sample.crowded = .ok choice.isSome s' l ∧
    (∀ n, Sample.crowded.table.nscans < n → connectLoop n Sample.crowded = .ok choice.isSome s' l) ∧
    (choice.isSome = true ↔ ∃ i, Sample.crowded.Startable i) ∧ Sample.crowded.Connects choice s' l :=
  connectToSomething_connects rfl rfl rfl Sample.crowded_named

end Wsupp

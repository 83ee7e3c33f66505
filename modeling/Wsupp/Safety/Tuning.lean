import Wsupp.Control.TableShape
import Wsupp.Safety.Modes

/-!
# What connections are started with

The record of the current access point is a copy of a slot in the scan table, made
when the slot was chosen. Scans go on changing the slots, and a connection may be
started from the copy without another look at its slot.

This happens where the daemon goes back to the access point it has lost: it looks
whether the address is still there, but not whether the frequency and the type are
still those of the copy. In every run each connection is started with what the table
says, and with the name the station was told, exactly if the two agree whenever such
a scan ends.
-/
namespace Wsupp
open Reactive View Relation

/-- The SSID a command tells the station to keep to. -/
def EventKind.tells (s : Daemon) : EventKind → Option Bytes
  | .connMsg _ msg =>
      if msg.cmd = .connect ∧ s.authstate = .idle ∧ s.scanstate = .idle then msg.ssid else none
  | _ => none

def Ap.fixedSsid (ap : Ap) : Option Bytes := if ap.fixed then some (ap.ssid.take ap.slen) else none

/-- The SSID at the time the station was told to keep to it. -/
def told (x : System) (e : Event) (_ : List Act) (before : Option Bytes) : Option Bytes :=
  if (x.step e).1.ap.fixed then
    e.kind.tells (x.before e) <|> before <|> (x.step e).1.ap.fixedSsid
  else none

/-- The daemon with that record: the SSID the station was told last, if it is to keep to
one. -/
def tracking : Machine (System × Option Bytes) Event Act := supplicant.record told

/-- The command goes to an access point in the scan table, with the SSID the station
was told. -/
def Follows (t : Tables) (before : Option Bytes) (a : Act) : Prop :=
  t.Tuned ∧ (∃ sent, a = t.authenticates sent) ∧ (t.ap.fixed = true → before = some (t.ap.ssid.take t.ap.slen))

/-- When a scan ends that has been started to reconnect, the slot of the access point
is as the record has it: same frequency, and ciphers that ask for the same elements. -/
def Daemon.agrees (s : Daemon) (k : EventKind) : Prop :=
  s.reconnects k = true → ∀ i ∈ findCurrentAp s.ap s.table.dropStale,
    (s.table.dropStale.get i).freq = s.ap.freq ∧ s.ap.Suits (s.table.dropStale.get i).type

instance (ap : Ap) (type : ScanType) : Decidable (ap.Suits type) := inferInstanceAs (Decidable (_ ∧ _ ∧ _))

instance (t : Tables) : Decidable t.Tuned :=
  inferInstanceAs (Decidable (∃ i < t.table.nscans, (t.table.get i).freq ≠ 0 ∧ _))

instance (t : Tables) (before : Option Bytes) (a : Act) : Decidable (Follows t before a) :=
  inferInstanceAs (Decidable (_ ∧ _ ∧ _))

instance (s : Daemon) (k : EventKind) : Decidable (s.agrees k) := inferInstanceAs (Decidable (_ → _))

section Steps
variable {s : Daemon} {k : EventKind} {ks : List Act} {o : Outcome Unit Tables}

theorem closing_starts {t : Tables} (h : Closing Roams Tables.Starts t ks o) {a : Act} (ha : a ∈ ks) :
    ∃ t', o = .goes () t' ∧ t'.Tuned ∧ ∃ sent, a = t'.authenticates sent := by
  rcases h with ⟨rfl, -⟩ | ⟨b, _, t', rfl, rfl, -, hstarts⟩
  · cases ha
  · obtain rfl := List.mem_singleton.mp ha
    exact ⟨t', rfl, hstarts⟩

/-- A connection is started from a slot, or at the end of a dump without a look at it. -/
theorem EventKind.tableEffect_starts (h : k.tableEffect s ks o) {a : Act} (ha : a ∈ ks) :
    (∃ t, o = .goes () t ∧ t.Tuned ∧ ∃ sent, a = t.authenticates sent) ∨
      (k = .netlink .done ∧ s.scanstate = .scandump ∧ s.findsAgain = true ∧
        o = .goes () s.tables.scanned ∧ ∃ sent, a = s.tables.scanned.authenticates sent) := by
  have hmute (hks : ks = []) : False := by
    rw [hks] at ha
    cases ha
  cases k with
  | connMsg cn msg =>
      simp only [tableEffect, Cntrl.CmdTables] at h
      cases hcmd : msg.cmd <;> simp only [hcmd] at h
      case connect =>
        rcases h with ⟨-, hks, -⟩ | ⟨-, t, -, -, h⟩
        · exact (hmute hks).elim
        · exact .inl (closing_starts h ha)
      all_goals exact (hmute h.1).elim
  | netlink msg =>
      cases msg with
      | done =>
          cases h with
          | no_dump _ => cases ha
          | reconnects sent hd hf =>
              exact .inr ⟨rfl, hd, hf, rfl, sent, List.mem_singleton.mp ha⟩
          | declines _ _ _ => cases ha
          | roams _ _ h => exact .inl (closing_starts h ha)
      | err seq err => exact .inl (closing_starts h ha)
      | gen msg =>
          simp only [tableEffect, MsgTables] at h
          split at h
          swap
          · exact (hmute h.1).elim
          unfold GenTables at h
          cases hcmd : msg.cmd <;> simp only [hcmd] at h
          case triggerScan => exact (hmute h.1).elim
          case newScanResults => exact (hmute h.1).elim
          all_goals exact .inl (closing_starts h ha)
      | other => exact (hmute h.1).elim
  | frame sender data =>
      rcases h with h | ⟨-, -, hks, -⟩
      · exact .inl (closing_starts h ha)
      · exact (hmute hks).elim
  | turn => exact (hmute h.1).elim
  | _ => exact .inl (closing_starts h ha)

/-- From one record to the other, the station is not told another SSID. -/
def Ap.NotTold (ap ap' : Ap) : Prop :=
  ap'.fixed = true → ap.fixed = true → ap'.slen = ap.slen ∧ ap'.ssid = ap.ssid

theorem Ap.NotTold.fixedSsid {ap ap' : Ap} (h : ap.NotTold ap') :
    ap'.fixedSsid = if ap'.fixed then ap.fixedSsid <|> ap'.fixedSsid else none := by
  unfold Ap.fixedSsid
  by_cases hf' : ap'.fixed = true
  swap
  · rw [if_neg hf', if_neg hf']
  by_cases hf : ap.fixed = true
  · obtain ⟨hslen, hssid⟩ := h hf' hf
    simp [hf, hf', hslen, hssid]
  · simp [hf, hf']

theorem moves_neverFixes {t t' : Tables} (h : ReflTransGen Roams t t') : t.ap.NeverFixes t'.ap := by
  induction h with
  | refl => exact fun hf => ⟨hf, rfl, rfl⟩
  | tail _ hmove ih =>
      have hkeep : ∀ {t t' : Tables}, Roams t t' → t.ap.NeverFixes t'.ap := by
        intro t t' h
        cases h with
        | retunes _ h => exact h
        | rekeys | retries | fails | loads => exact fun hf => ⟨hf, rfl, rfl⟩
      intro hf
      obtain ⟨hf₁, hslen₁, hssid₁⟩ := hkeep hmove hf
      obtain ⟨hf₂, hslen₂, hssid₂⟩ := ih hf₁
      exact ⟨hf₂, hslen₁.trans hslen₂, hssid₁.trans hssid₂⟩

theorem roams_notTold {t t' : Tables} (h : ReflTransGen Roams t t') : t.ap.NotTold t'.ap :=
  fun hf _ => (moves_neverFixes h hf).2

theorem EventKind.tells_none (hk : ¬ k.rewrites s) : k.tells s = none := by
  cases k with
  | connMsg cn msg => exact if_neg hk
  | _ => rfl

theorem EventKind.tells_some {cn : ℕ} {msg : Cntrl.Msg} (hcmd : msg.cmd = .connect) (hs : s.Ready) :
    EventKind.tells s (.connMsg cn msg) = msg.ssid := if_pos ⟨hcmd, hs⟩

/-- The SSID the station keeps to changes when it is told another one only. -/
theorem TableStep.fixedSsid {t : Tables} (h : TableStep s k t) :
    t.ap.fixedSsid = if t.ap.fixed then k.tells s <|> s.ap.fixedSsid <|> t.ap.fixedSsid else none := by
  have hnot {t : Tables} (hk : k.tells s = none) (h : s.ap.NotTold t.ap) :
      t.ap.fixedSsid = if t.ap.fixed then k.tells s <|> s.ap.fixedSsid <|> t.ap.fixedSsid else none := by
    rw [hk]
    exact h.fixedSsid
  have hsame {t : Tables} (hk : k.tells s = none) (h : t.ap = s.ap) :
      t.ap.fixedSsid = if t.ap.fixed then k.tells s <|> s.ap.fixedSsid <|> t.ap.fixedSsid else none :=
    hnot hk (h ▸ fun _ _ => ⟨rfl, rfl⟩)
  cases h with
  | roams hk h => exact hnot (k.tells_none hk) (roams_notTold h)
  | configures hk hcmd hready _ hfix h =>
      subst hk
      by_cases hf' : t.ap.fixed = true
      swap
      · rw [if_neg hf', Ap.fixedSsid, if_neg hf']
      obtain ⟨hf, hslen, hssid⟩ := moves_neverFixes h hf'
      have hmsg := hfix hf
      rw [if_pos hf', EventKind.tells_some hcmd hready, hmsg, Ap.fixedSsid, if_pos hf', hslen, hssid]
      rfl
  | forgets hk hcmd _ _ =>
      refine hsame (by simp [hk, EventKind.tells, hcmd]) ?_
      split <;> rfl
  | dumps hk _ h =>
      refine hnot (by simp [hk, EventKind.tells]) ?_
      rw [show s.ap = s.tables.scanned.ap from s.tables.ap_scanned.symm]
      exact roams_notTold h
  | marks hk _ _ _ _ => exact hsame (by simp [hk, EventKind.tells]) rfl
  | fills hk _ _ _ _ =>
      refine hsame (by simp [hk, EventKind.tells]) ?_
      unfold Tables.result
      split
      · rfl
      · split <;> rfl
  | connects hk _ _ h =>
      refine hnot (by simp [hk, EventKind.tells]) ?_
      cases h with
      | keeps _ => exact fun _ _ => ⟨rfl, rfl⟩
      | saves _ _ => exact fun _ _ => ⟨rfl, rfl⟩
  | writes hk => exact hsame (by simp [hk, EventKind.tells]) rfl

end Steps

section Step
variable {x : System × Option Bytes} {e : Event}

/-- What the record says and what is known of each slot in one. -/
def Keeps (x : System × Option Bytes) : Prop :=
  x.1.halted = false → x.1.table.Shaped ∧ x.2 = x.1.ap.fixedSsid

theorem tuned_scanned {t : Tables} : t.scanned.Tuned ↔ Tables.Tuned { t with table := t.table.dropStale } := by
  have hsame := t.sameSlots_scanned
  have hap := t.ap_scanned
  unfold Tables.Tuned
  simp only [hap, hsame.nscans]
  refine exists_congr fun i => and_congr Iff.rfl ?_
  obtain ⟨⟨f, hf⟩, -⟩ := hsame.get i
  rw [hf]
  exact Iff.rfl

/-- The slot that is found is the one with the address. -/
theorem tuned_iff_agrees {ap : Ap} {t : ScanTable} (ht : t.Shaped) {i : ℕ} (hi : findCurrentAp ap t = some i)
    {u : Tables} (hu : u.table = t) (hap : u.ap = ap) :
    u.Tuned ↔ (t.get i).freq = ap.freq ∧ ap.Suits (t.get i).type := by
  subst hu hap
  obtain ⟨hlt, hp⟩ := ScanTable.find_eq_some hi
  simp only [Bool.and_eq_true, decide_eq_true_eq] at hp
  obtain ⟨⟨hfreq, hssid⟩, hbssid⟩ := hp
  constructor
  · rintro ⟨j, hj, hjfreq, hjb, -, hfreq', hsuits⟩
    obtain rfl := ht.apart i j hfreq hjfreq (hbssid.trans hjb.symm)
    exact ⟨hfreq', hsuits⟩
  · rintro ⟨hfreq', hsuits⟩
    exact ⟨i, hlt, hfreq, hbssid, hssid, hfreq', hsuits⟩

/-- A command seen in the view of the tables is one that has been given. -/
theorem mem_authenticates {as : List Act} {a : Act} :
    a ∈ tables.outputs as ↔ a ∈ as ∧ a.authenticates = true := List.mem_filter

theorem System.seen_goes {κ : Type} {V : View Daemon Act κ} {y : System} {c : κ}
    (h : y.seen V = .goes () c) : y.halted = false ∧ V.state y.toDaemon = c := by
  unfold seen at h
  split at h
  · cases h
  · next hrun =>
      cases h
      exact ⟨eq_false_of_ne_true hrun, rfl⟩

theorem step_keeps_told (hx : Keeps x) (he : x.1.Enabled e) : Keeps (tracking.step x e).1 := by
  intro hrun
  obtain ⟨hshaped, htold⟩ := hx he.1
  have hfixed := (System.step_tables (x := x.1) hshaped.named hrun).fixedSsid
  refine ⟨System.step_shaped (fun _ => hshaped) he hrun, ?_⟩
  change told x.1 e (x.1.step e).2 x.2 = (x.1.step e).1.ap.fixedSsid
  rw [told, htold]
  exact hfixed.symm

theorem step_follows (hx : Keeps x) (he : x.1.Enabled e) :
    (∀ a ∈ (tracking.step x e).2, a.authenticates = true →
      Follows (tracking.step x e).1.1.tables (tracking.step x e).1.2 a) ↔
    (x.1.before e).agrees e.kind := by
  have hnext := step_keeps_told hx he
  obtain ⟨hshaped, -⟩ := hx he.1
  have heff := System.step_tableEffect (x := x.1) hshaped.named e
  have hcontrol := x.1.step_effect e
  generalize hs : x.1.before e = s at heff hcontrol ⊢
  have hdrop : s.table.dropStale.Shaped := by
    rw [← hs]
    exact hshaped.dropStale
  have htuned {i : ℕ} (hi : findCurrentAp s.ap s.table.dropStale = some i) : s.tables.scanned.Tuned ↔
      (s.table.dropStale.get i).freq = s.ap.freq ∧ s.ap.Suits (s.table.dropStale.get i).type :=
    tuned_scanned.trans (tuned_iff_agrees hdrop hi rfl rfl)
  -- in a state that goes on, the SSID is the one told
  have hfollows {a : Act} {t : Tables} (ho : (x.1.step e).1.seen tables = .goes () t) (ht : t.Tuned)
      (ha : ∃ sent, a = t.authenticates sent) :
      Follows (tracking.step x e).1.1.tables (tracking.step x e).1.2 a := by
    obtain ⟨hrun, rfl⟩ := System.seen_goes ho
    refine ⟨ht, ha, fun hf => ?_⟩
    rw [(hnext hrun).2]
    exact if_pos hf
  constructor
  · intro h hre i hi
    have hany := EventKind.reconnects hcontrol hre
    rw [control_any Act.authenticates_shown, List.any_eq_true] at hany
    obtain ⟨a, ha, hauth⟩ := hany
    have hmem : a ∈ tables.outputs (x.1.step e).2 := mem_authenticates.mpr ⟨ha, hauth⟩
    have hkind : e.kind = .netlink .done := by
      unfold Daemon.reconnects at hre
      split at hre
      · assumption
      · cases hre
    rw [hkind] at heff hre
    simp only [Daemon.reconnects, Bool.and_eq_true, decide_eq_true_eq, Netlink.currentFound] at hre
    have hagain : s.findsAgain = true := by
      simp [Daemon.findsAgain, hre]
    obtain ⟨htun, -, -⟩ := h a ha hauth
    change (x.1.step e).1.tables.Tuned at htun
    generalize tables.outputs (x.1.step e).2 = ks at heff hmem
    generalize ho : (x.1.step e).1.seen tables = o at heff
    cases heff with
    | no_dump _ => cases hmem
    | reconnects sent _ _ =>
        rw [show (x.1.step e).1.tables = _ from (System.seen_goes ho).2] at htun
        exact (htuned hi).mp htun
    | declines _ _ _ => cases hmem
    | roams _ hno _ => rw [hagain] at hno; cases hno
  · intro hagree a ha hauth
    have hmem : a ∈ tables.outputs (x.1.step e).2 := mem_authenticates.mpr ⟨ha, hauth⟩
    rcases EventKind.tableEffect_starts heff hmem with ⟨t, ho, ht, hsent⟩ | ⟨hkind, hd, hf, ho, hsent⟩
    · exact hfollows ho ht hsent
    have hre : s.reconnects e.kind = true := by
      have hany : (x.1.step e).2.any Act.authenticates = true := List.any_eq_true.mpr ⟨a, ha, hauth⟩
      rw [← control_any Act.authenticates_shown] at hany
      have hmay := EventKind.authenticates hcontrol hany
      simp only [Daemon.findsAgain, Bool.and_eq_true] at hf
      rw [hkind] at hmay ⊢
      simp [Daemon.mayStart, Netlink.currentFound, hd, hf] at hmay
      simp [Daemon.reconnects, Netlink.currentFound, hd, hf, hmay]
    simp only [Daemon.findsAgain, Bool.and_eq_true, Option.isSome_iff_exists] at hf
    obtain ⟨-, i, hi⟩ := hf
    exact hfollows ho ((htuned hi).mpr (hagree hre i hi)) hsent

end Step

/-- Over any run, every connection is started with what the scan table says of an access
point, and with the SSID the station was told, exactly if no scan started to reconnect
finds the access point changed. All other attempts copy the slot anew. -/
theorem tuned_iff {x : System} (hx : x.Initial) {es : List Event} (hv : supplicant.Valid x es) :
    tracking.Every (fun y e => ∀ a ∈ (tracking.step y e).2, a.authenticates = true →
      Follows (tracking.step y e).1.1.tables (tracking.step y e).1.2 a) (x, x.ap.fixedSsid) es ↔
    supplicant.Every (fun y e => (y.before e).agrees e.kind) x es := by
  rw [← Machine.record_every told x x.ap.fixedSsid]
  refine Machine.every_congr (I := Keeps) (fun y e hy he _ => step_keeps_told hy he)
    (fun y e hy he => step_follows hy he) ?_ ((Machine.record_valid ..).mpr hv)
  exact fun hrun => ⟨hx.shaped hrun, rfl⟩

namespace Sample

/-- The access point of `found`, on another channel. -/
def moved : Event := event <| .netlink <| .gen
  { ifi := some 3, cmd := .newScanResults, multi := true
    bss := some { bssid := some bssid, freq := some 2437, signal := some (-5000), ies := some ies } }

/-- The kernel has lost the access point meanwhile, and the scan that is to bring it
back finds it elsewhere. -/
def lostAp : List Event :=
  joining ++ [event (.netlink (.err 4 (-ENOENT))), event .turn, notice .newScanResults, moved,
    event (.netlink .done)]

end Sample

theorem joining_tuned : tracking.Every (fun y e => ∀ a ∈ (tracking.step y e).2, a.authenticates = true →
    Follows (tracking.step y e).1.1.tables (tracking.step y e).1.2 a)
      (Sample.start, Sample.start.ap.fixedSsid) Sample.joining :=
  (tuned_iff Sample.start_initial (by decide +kernel)).mpr (by decide +kernel)

/-- While the connection was lost the access point has moved to another channel. The
scan finds it there, and the daemon authenticates on the old one. -/
theorem lostAp_mistuned : Sample.start.Initial ∧ supplicant.Valid Sample.start Sample.lostAp ∧
    ¬ tracking.Every (fun y e => ∀ a ∈ (tracking.step y e).2, a.authenticates = true →
      Follows (tracking.step y e).1.1.tables (tracking.step y e).1.2 a)
        (Sample.start, Sample.start.ap.fixedSsid) Sample.lostAp :=
  ⟨Sample.start_initial, by decide +kernel, by decide +kernel⟩

end Wsupp

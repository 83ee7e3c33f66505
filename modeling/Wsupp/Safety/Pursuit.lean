import Wsupp.Safety.Attempts
import Wsupp.Safety.Modes
import Wsupp.Safety.RepeatedRequests
import Wsupp.Safety.Selection

/-!
# Serving a request

A request is served by attempts on one access point after another, until one of them
comes up or none is left. Two notifications cut it short: a DISCONNECT, after which
the daemon reports that there is nothing to connect to and goes on as if it were
still looking, and one that tells of another program while there are access points
left.

The runs are those that begin with an accepted request and in which no other
command, rfkill event or scan interferes. In them the request is pursued to its end
exactly if neither notification comes while it would make a difference.
-/
namespace Wsupp
open Reactive Prog View

/-- The access points a request asks for that no connection has been tried to. -/
def untried (msg : Cntrl.Msg) (sc : Scan) : Bool := requested msg sc && !sc.flags.tried

/-- The slot is the most preferred one that an attempt can be on, and what is left to try
afterwards is not preferred to it. -/
structure Daemon.Next (msg : Cntrl.Msg) (s : Daemon) (left : ScanTable) (i : ℕ) : Prop where
  asked : s.table.Among (untried msg) i
  startable : s.Startable i
  best : ∀ j, s.Startable j → j = i ∨ s.table.Prefers i j
  rest : ∀ j, left.Among (untried msg) j → s.table.Prefers i j

/-- A step of serving a request, from `s`: the request is served, another access point
is tried, or nothing is left to try and the client is told. -/
structure Pursues (msg : Cntrl.Msg) (s : Daemon) (y : System) (out : List Act) : Prop where
  /-- It is given up when nothing is left to try, and then it is over. -/
  exhausted : out.any Act.noConnect = true →
    (∀ i, ¬ y.table.Among (untried msg) i) ∧ y.opermode = .neutral
  /-- An attempt is on the next best access point. -/
  best : ∀ bssid freq ssid sent, Act.nl (.authenticate bssid freq ssid) sent ∈ out →
    ∃ i, s.Next msg y.table i ∧ (s.table.get i).bssid = bssid ∧ (s.table.get i).freq = freq ∧
      (s.table.get i).name = ssid
  /-- An attempt given up is followed by another one, unless the device is gone. -/
  follows : y.halted = false → y.opermode = .oneshot →
    s.authstate = .idle ∨ s.authstate = .disconnecting →
    y.authstate = .disconnecting ∨ y.authstate = .netdown ∨ out.any Act.authenticates = true
  /-- Until it is over there is always one under way. -/
  underway : y.halted = false → y.opermode = .oneshot → y.scanstate = .idle → y.authstate ≠ .idle

/-- No command, rfkill or scan interferes. -/
def System.Undisturbed (y : System) (e : Event) : Prop :=
  e.kind.disturbs = false ∧ y.scanstate = .idle ∧ y.rfkilled = false

instance (y : System) (e : Event) : Decidable (y.Undisturbed e) :=
  inferInstanceAs (Decidable (_ ∧ _ ∧ _))

/-- The connection is reported lost, or another program takes the device over with access
points left to try. -/
def System.CutsShort (msg : Cntrl.Msg) (y : System) (e : Event) : Prop :=
  (y.before e).notices .disconnect e.kind = true ∨
    (y.before e).outOfOrder e.kind = true ∧ ∃ i, y.table.Among (untried msg) i

/-- The station is set up for the request: fixed on the SSID asked for, or on none where
any known access point will do. -/
structure Ap.Asks (ap : Ap) (msg : Cntrl.Msg) : Prop where
  known : msg.ssid = none → ap.fixed = false
  told : ∀ ssid ∈ msg.ssid, Cntrl.FixedOn ap ssid

namespace Ap.Asks
variable {ap ap' : Ap} {msg : Cntrl.Msg} (h : ap.Asks msg)
include h

theorem keeps (hk : ap.Keeps ap') : ap'.Asks msg := by
  constructor
  · intro hnone
    rw [hk.fixed, h.known hnone]
  · intro ssid hssid
    obtain ⟨hfixed, hslen, htake⟩ := h.told ssid hssid
    obtain ⟨hslen', hssid'⟩ := hk.ssid hfixed
    exact ⟨hk.fixed.trans hfixed, hslen'.trans hslen, by rw [hssid', htake]⟩

/-- What `get_best_ap` looks for is what is asked for and has not been tried. -/
theorem eligible_eq {sc : Scan} (hsc : sc.Named) : eligible ap sc = untried msg sc := by
  cases hssid : msg.ssid with
  | none =>
      have hfixed := h.known hssid
      simp only [eligible, connectable, matchSsid, untried, requested, hfixed, hssid, Bool.not_false,
        Bool.true_or, Bool.false_or, Option.elim_none, Bool.and_true]
      cases sc.flags.good <;> cases sc.flags.tried <;> cases sc.flags.pass <;> simp
  | some ssid =>
      have hfixed := h.told ssid hssid
      have hname : matchSsid ap sc = decide (sc.name = ssid) := by
        rw [Bool.eq_iff_iff, decide_eq_true_eq]
        exact hfixed.matchSsid_iff hsc
      simp only [eligible, connectable, untried, requested, hname, hfixed.fixed, hssid, Bool.true_or,
        Bool.and_true, Option.elim_some]
      cases sc.flags.good <;> cases sc.flags.tried <;> simp

theorem among_iff {t : ScanTable} (ht : t.Named) (i : ℕ) :
    t.Among (eligible ap) i ↔ t.Among (untried msg) i := by
  unfold ScanTable.Among
  rw [h.eligible_eq (ht i)]

end Ap.Asks

/-- How looking for an access point comes out. -/
def Daemon.Looked (s : Daemon) (s' : Daemon) (l : List Act) : Prop :=
  (∃ i, s.Connects (some i) s' l) ∨ ∃ s₁ conns, s.Connects none s₁ [] ∧ s'.table = s₁.table ∧
    s'.opermode = .neutral ∧ l = [.report .noConnect conns]

theorem reassess_looks {s : Daemon} (hmode : s.opermode = .oneshot) (hauth : s.authstate = .idle)
    (hscan : s.scanstate = .idle) (hname : s.table.Named) :
    wp reassessWifiSituation (fun _ s' l => s.Looked s' l) (fun _ l => Dull l) s := by
  obtain ⟨r, htries, hloop⟩ := connectLoop_tries hauth hscan hname
  have hcard := s.candidates_le
  have hcount := s.table.count_le
  have hconnect : connectToSomething s = r := hloop _ (by omega)
  unfold reassessWifiSituation
  rw [wp_bind, wp_read, if_neg (by simp [hmode]), if_neg (not_not.mpr hauth), if_neg (not_not.mpr hscan)]
  cases r with
  | halt s' l =>
      unfold wp
      rw [bind_of_halt hconnect]
      exact htries.2
  | ok started s₁ l₁ =>
      obtain ⟨choice, rfl, hconnects⟩ := htries
      rw [wp_bind, wp_of_ok hconnect]
      cases choice with
      | some i =>
          rw [if_pos (by rfl), wp_pure, List.append_nil]
          exact .inl ⟨i, hconnects⟩
      | none =>
          have hl : l₁ = [] := hconnects.acts
          have hoper : s₁.opermode = .oneshot :=
            (congrArg Control.opermode hconnects.control).trans hmode
          subst hl
          unfold reportNoConnect sendReport snapToNeutral clearApBssid clearApSsid
          rw [if_neg (by decide), wp_bind, wp_bind, wp_read, wp_emit, wp_bind, wp_read, if_pos hoper,
            wp_bind, wp_update, wp_bind, wp_update, wp_update]
          exact .inr ⟨s₁, _, hconnects, rfl, rfl, rfl⟩

/-- A step in which the daemon looks for an access point, with what it has done before. -/
theorem Daemon.Looked.pursues {msg : Cntrl.Msg} {s s' : Daemon} {l : List Act} (h : s.Looked s' l)
    (hname : s.table.Named) (hasks : s.ap.Asks msg) {pre : List Act} (hpre : Dull pre) (turn : Turn) :
    Pursues msg s { toDaemon := s', turn := turn } (pre ++ l) ∧
      (s'.opermode = .oneshot → s'.ap.Asks msg) := by
  have hno : pre.any Act.noConnect = false := List.any_eq_false.mpr fun a ha => by simp [(hpre a ha).1]
  have hmem {a : Act} (hauth : a.authenticates = true) (ha : a ∈ pre ++ l) : a ∈ l := by
    refine (List.mem_append.mp ha).resolve_left fun hin => ?_
    rw [(hpre a hin).2] at hauth
    cases hauth
  obtain ⟨i, hconnects⟩ | ⟨s₁, conns, hconnects, htable, hmode, rfl⟩ := h
  · obtain ⟨hstart, hbest⟩ := hconnects.best i rfl
    have hl := hconnects.acts
    have hcontrol := hconnects.control
    have hauth : s'.authstate = .authenticating := congrArg Control.authstate hcontrol
    refine ⟨⟨fun hany => ?_, fun bssid freq ssid sent ha => ?_, fun _ _ _ => ?_, fun _ _ _ => ?_⟩,
      fun _ => hasks.keeps hconnects.ap⟩
    · rw [List.any_append, hno, hl] at hany
      cases hany
    · have ha := hmem rfl ha
      rw [hl] at ha
      injection List.mem_singleton.mp ha with hcmd _
      injection hcmd with hbssid hfreq hssid
      have hnext : s.Next msg s'.table i := by
        refine ⟨(hasks.among_iff hname i).mp hstart.1, hstart, hbest, fun j hj => ?_⟩
        exact hconnects.left_worse rfl ((hasks.among_iff (hconnects.named hname) j).mpr hj)
      exact ⟨i, hnext, hbssid.symm, hfreq.symm, hssid.symm⟩
    · right
      right
      rw [List.any_append, hl]
      exact Bool.or_true _
    · exact hauth ▸ nofun
  · have hover : s'.opermode ≠ .oneshot := by simp [hmode]
    refine ⟨⟨fun _ => ⟨fun i hi => ?_, hmode⟩, fun bssid freq ssid sent ha => ?_,
      fun _ h _ => absurd h hover, fun _ h _ => absurd h hover⟩, fun h => absurd h hover⟩
    · have hi : s'.table.Among (untried msg) i := hi
      rw [htable, ← hasks.among_iff (hconnects.named hname)] at hi
      exact hconnects.exhausted i hi
    · cases List.mem_singleton.mp (hmem rfl ha)

/-- Nothing is told of access points by a process that ends. -/
theorem Pursues.of_dull {msg : Cntrl.Msg} {s : Daemon} {y : System} {out : List Act}
    (hhalt : y.halted = true) (h : Dull out) : Pursues msg s y out := by
  have hrun : y.halted ≠ false := by simp [hhalt]
  refine ⟨fun hany => ?_, fun bssid freq ssid sent ha => ?_, fun h => absurd h hrun, fun h => absurd h hrun⟩
  · obtain ⟨a, ha, hno⟩ := List.any_eq_true.mp hany
    rw [(h a ha).1] at hno
    cases hno
  · cases (h _ ha).2

/-- The kernel refuses a DISCONNECT, and the next access point is looked for. -/
theorem EventKind.fails_looks {s : Daemon} {k : EventKind} (h : s.disconnectFails k = true)
    (hmode : s.opermode = .oneshot) (hscan : s.scanstate = .idle) (hname : s.table.Named) :
    wp k.handler (fun _ s' l => Daemon.Looked { s with authstate := .idle } s' l) (fun _ l => Dull l) s := by
  unfold Daemon.disconnectFails at h
  split at h
  swap
  · cases h
  next seq err =>
  simp only [Daemon.failsAuth, Bool.and_eq_true, decide_eq_true_eq] at h
  obtain ⟨⟨hnet, hseq⟩, hdis⟩ := h
  unfold EventKind.handler Netlink.handleMsg Netlink.genlError Netlink.handleAuthError
  rw [wp_bind, wp_read]
  dsimp only
  rw [wp_bind, wp_read, if_neg hnet, if_neg hseq, if_pos (by simp [hdis]), wp_bind, wp_read,
    if_pos hdis, wp_bind, wp_update]
  exact reassess_looks hmode rfl hscan hname

theorem handleDisconnect_gives_up {s : Daemon} (hmode : s.opermode = .neutral ∨ s.opermode = .oneshot) :
    wp handleDisconnect (fun _ s' l => l.any Act.noConnect = true ∧ s'.table = s.table ∧
      s'.opermode = s.opermode) (fun _ _ => False) s := by
  have hkill (s : Daemon) : wp killDhcp (fun _ s' _ => s' = s) (fun _ _ => False) s := by
    unfold killDhcp
    rw [wp_bind, wp_read]
    split <;> rfl
  have hnot : s.opermode ≠ .exitreq ∧ s.opermode ≠ .exit ∧ s.opermode ≠ .rescan ∧ s.opermode ≠ .active := by
    obtain h | h := hmode <;> simp [h]
  obtain ⟨hexitreq, hexit, hrescan, hactive⟩ := hnot
  unfold handleDisconnect clrTimer reportDisconnect reportNoConnect sendReport clearApBssid clearApSsid
  rw [wp_bind, wp_update, wp_bind]
  refine wp_mono (hkill _) (fun _ s₁ l₁ h₁ => ?_) (fun _ _ h => h)
  subst h₁
  simp only [wp_bind, wp_update, wp_read, wp_emit, hexitreq, hexit, hrescan, hactive, if_false]
  simp [Act.noConnect]

theorem snapToDisabled_gives_up (why : String) (s : Daemon) :
    wp (Netlink.snapToDisabled why) (fun _ s' l => l.any Act.noConnect = true ∧ s'.table = s.table ∧
      s'.opermode = .neutral) (fun _ _ => False) s := by
  unfold Netlink.snapToDisabled resetEapolState cleanupKeys Handler.call Handler.warn
  simp only [wp_bind, wp_update, wp_emit]
  refine wp_mono (handleDisconnect_gives_up (.inl rfl)) (fun _ s' l h => ?_) (fun _ _ h => h)
  obtain ⟨hno, htable, hmode⟩ := h
  exact ⟨by simp [hno], htable, hmode⟩

/-- A takeover is reported as if there were nothing to connect to. -/
theorem EventKind.takeover_gives_up {s : Daemon} {k : EventKind} (h : s.outOfOrder k = true) :
    wp k.handler (fun _ s' l => l.any Act.noConnect = true ∧ s'.table = s.table ∧
      s'.opermode = .neutral) (fun _ _ => False) s := by
  have hneg : s.negotiates k = true := by
    simp only [Daemon.outOfOrder, Bool.and_eq_true, Bool.or_eq_true] at h
    simp only [Daemon.negotiates, Bool.or_eq_true]
    exact h.2.imp (fun h => h.imp And.left And.left) And.left
  obtain ⟨msg, rfl, hifi, hcmd⟩ := Daemon.negotiates_iff.mp hneg
  unfold EventKind.handler Netlink.handleMsg
  rw [wp_bind, wp_read]
  dsimp only
  rw [if_pos hifi]
  unfold Netlink.dispatch
  obtain hcmd | hcmd | hcmd := hcmd
  · simp only [Daemon.outOfOrder, Daemon.notices, hifi, hcmd] at h
    simp at h
    rw [hcmd]
    unfold Netlink.cmdAuthenticate
    rw [wp_bind, wp_read, if_neg h.1, if_pos h.2]
    exact snapToDisabled_gives_up _ s
  · simp only [Daemon.outOfOrder, Daemon.notices, hifi, hcmd] at h
    simp at h
    rw [hcmd]
    unfold Netlink.cmdAssociate
    rw [wp_bind, wp_read, if_neg h.1, if_pos h.2]
    exact snapToDisabled_gives_up _ s
  · simp only [Daemon.outOfOrder, Daemon.notices, hifi, hcmd] at h
    simp at h
    rw [hcmd]
    unfold Netlink.cmdConnect when
    rw [wp_bind, wp_read, if_neg h.1, if_pos h.2, wp_bind]
    refine wp_mono (snapToDisabled_gives_up _ s) (fun _ s' l h => ?_) (fun _ _ h => h)
    simpa using h

/-- A connection reported lost is reported as if there were nothing to connect to, and the
request goes on. -/
theorem EventKind.lost_gives_up {s : Daemon} {k : EventKind} (h : s.notices .disconnect k = true)
    (hs : s.authstate ≠ .idle) (hmode : s.opermode = .oneshot) :
    wp k.handler (fun _ s' l => l.any Act.noConnect = true ∧ s'.opermode = .oneshot)
      (fun _ _ => False) s := by
  have hnet : ∃ msg, k = .netlink (.gen msg) ∧ msg.ifi = some s.ifindex ∧ msg.cmd = .disconnect := by
    unfold Daemon.notices at h
    split at h
    · simpa using h
    · cases h
  obtain ⟨msg, rfl, hifi, hcmd⟩ := hnet
  unfold EventKind.handler Netlink.handleMsg
  rw [wp_bind, wp_read]
  dsimp only
  rw [if_pos hifi]
  unfold Netlink.dispatch Netlink.cmdDisconnect resetEapolState cleanupKeys Handler.call
  rw [hcmd]
  dsimp only
  rw [wp_bind, wp_read, if_neg hs]
  simp only [wp_bind, wp_update, wp_emit]
  refine wp_mono (handleDisconnect_gives_up (.inr hmode)) (fun _ s' l h => ?_) (fun _ _ h => h)
  obtain ⟨hno, -, hmode'⟩ := h
  exact ⟨by simp [hno], hmode'.trans hmode⟩

/-- During an attempt only the refusal of a DISCONNECT starts another one. -/
theorem Daemon.mayStart_busy {s : Daemon} {k : EventKind} (hk : k.disturbs = false)
    (hmode : s.opermode = .oneshot) (hs : s.authstate ≠ .idle) (hscan : s.scanstate = .idle)
    (hfails : s.disconnectFails k = false) : s.mayStart k = false := by
  cases k with
  | connMsg cn msg => cases hk
  | rfkill re => cases hk
  | netlink msg =>
      cases msg with
      | done => simp [Daemon.mayStart, hscan]
      | err seq err =>
          have hfails : (s.failsAuth seq err && s.authstate = .disconnecting) = false := hfails
          rw [Daemon.mayStart, hfails, Bool.false_and]
      | gen msg => simp [Daemon.mayStart, hmode]
      | other => rfl
  | frame sender data => simp [Daemon.mayStart, hs]
  | _ => rfl

section Step
variable {msg : Cntrl.Msg} {y : System} {e : Event} (hname : y.table.Named) (hu : y.Undisturbed e)
  (hmode : y.opermode = .oneshot) (hasks : y.ap.Asks msg) (hbusy : y.authstate ≠ .idle)
include hu hmode hbusy

theorem step_starts_nothing (hfails : (y.before e).disconnectFails e.kind = false) :
    (y.step e).2.any Act.authenticates = false := by
  obtain ⟨hk, hscan, -⟩ := hu
  obtain ⟨ks, o, heffect, hany⟩ := y.step_any Act.authenticates_shown e
  rw [hany]
  exact EventKind.starts_nothing heffect (Daemon.mayStart_busy hk hmode hbusy hscan hfails)

omit hu hmode hbusy in
theorem no_attempt {out : List Act} (h : out.any Act.authenticates = false) {bssid : Bytes} {freq : Int}
    {ssid : Bytes} {sent : Bool} : Act.nl (.authenticate bssid freq ssid) sent ∉ out :=
  fun ha => List.any_eq_false.mp h _ ha rfl

omit hu in
/-- A DISCONNECT notification ends the attempt and not the request. -/
theorem step_lost (hlost : (y.before e).notices .disconnect e.kind = true) :
    ¬ Pursues msg (y.before e) (y.step e).1 (y.step e).2 := by
  intro h
  have hstep := System.step_comesBack (EventKind.lost_gives_up hlost hbusy hmode)
  obtain ⟨hno, hmode'⟩ := hstep
  have hneutral := (h.exhausted hno).2
  rw [hmode'] at hneutral
  cases hneutral

theorem step_taken_over (horder : (y.before e).outOfOrder e.kind = true)
    (hfails : (y.before e).disconnectFails e.kind = false) :
    (Pursues msg (y.before e) (y.step e).1 (y.step e).2 ↔ ∀ i, ¬ y.table.Among (untried msg) i) ∧
      (y.step e).1.opermode ≠ .oneshot := by
  obtain ⟨hno, htable, hmode'⟩ := System.step_comesBack (EventKind.takeover_gives_up horder)
  have hover : (y.step e).1.opermode ≠ .oneshot := by simp [hmode']
  refine ⟨⟨fun h i => ?_, fun h => ?_⟩, hover⟩
  · have hnone := (h.exhausted hno).1 i
    rw [htable] at hnone
    exact hnone
  · have hnone := step_starts_nothing hu hmode hbusy hfails
    refine ⟨fun _ => ⟨fun i => ?_, hmode'⟩, fun _ _ _ _ ha => (no_attempt hnone ha).elim,
      fun _ hm => absurd hm hover, fun _ hm => absurd hm hover⟩
    rw [htable]
    exact h i

omit hbusy in
include hname hasks in
/-- An attempt given up is followed by the next one. -/
theorem step_retries (hfails : (y.before e).disconnectFails e.kind = true) :
    Pursues msg (y.before e) (y.step e).1 (y.step e).2 ∧
      ((y.step e).1.halted = false → (y.step e).1.opermode = .oneshot → (y.step e).1.ap.Asks msg) := by
  apply System.step_wp (P := fun y' l => Pursues msg (y.before e) y' l ∧
    (y'.halted = false → y'.opermode = .oneshot → y'.ap.Asks msg))
  refine wp_mono (EventKind.fails_looks hfails hmode hu.2.1 hname) (fun _ s' l h turn => ?_)
    (fun _ l h turn => ⟨.of_dull rfl h, nofun⟩)
  obtain ⟨hpursues, hkeeps⟩ := h.pursues hname hasks (nofun : Dull []) turn
  refine ⟨⟨hpursues.exhausted, fun bssid freq ssid sent ha => ?_, fun hrun hm _ => ?_,
    hpursues.underway⟩, fun _ => hkeeps⟩
  · obtain ⟨i, hnext, hsent⟩ := hpursues.best bssid freq ssid sent ha
    exact ⟨i, ⟨hnext.asked, hnext.startable, hnext.best, hnext.rest⟩, hsent⟩
  · exact hpursues.follows hrun hm (.inl rfl)

include hasks in
theorem step_goes_on (hlost : (y.before e).notices .disconnect e.kind = false)
    (horder : (y.before e).outOfOrder e.kind = false)
    (hfails : (y.before e).disconnectFails e.kind = false) :
    Pursues msg (y.before e) (y.step e).1 (y.step e).2 ∧
      ((y.step e).1.halted = false → (y.step e).1.opermode = .oneshot → (y.step e).1.ap.Asks msg) := by
  have hnone := step_starts_nothing hu hmode hbusy hfails
  obtain ⟨hk, hscan, hrf⟩ := hu
  obtain ⟨hshows, hmoves⟩ := System.step_does
    (EventKind.handler_keeps hk hbusy hscan hlost horder hfails : quests.MovesFrom _ _ (y.before e))
  have hquiet : (y.step e).2.any Act.noConnect = false := by
    rw [List.any_eq_false]
    intro a ha hno
    have hmem : a ∈ quests.outputs (y.step e).2 := List.mem_filter.mpr ⟨ha, hno⟩
    rw [hshows] at hmem
    cases hmem
  have hserves := (System.outcome_returns _).mp
    (EventKind.serves (s := y.before e) hk hscan hrf (y.step_effect e))
  have hstill (hrun : (y.step e).1.halted = false) (hm : (y.step e).1.opermode = .oneshot) :=
    ((hserves hrun hm).2.resolve_left hbusy).resolve_left (by simp [hlost])
  refine ⟨⟨fun hany => ?_, fun _ _ _ _ ha => (no_attempt hnone ha).elim, fun hrun hm hgone => ?_,
    fun hrun hm => ?_⟩, fun hrun hm => ?_⟩
  · rw [hquiet] at hany
    cases hany
  · rw [← control_any Act.authenticates_shown]
    exact (hstill hrun hm).2 (hgone.resolve_left hbusy)
  · exact (hstill hrun hm).1
  · have hkeeps := Quest.Keeps.of_moves ((System.seen_returns _).mp hmoves hrun)
    exact hasks.keeps (hkeeps hm).2

include hname hasks in
/-- A step serves the request exactly if it does not cut it short. -/
theorem step_pursues_iff : (Pursues msg (y.before e) (y.step e).1 (y.step e).2 ↔ ¬ y.CutsShort msg e) ∧
    (¬ y.CutsShort msg e → (y.step e).1.halted = false → (y.step e).1.opermode = .oneshot →
      (y.step e).1.ap.Asks msg) := by
  cases hlost : (y.before e).notices .disconnect e.kind with
  | true =>
      have hcut : y.CutsShort msg e := .inl hlost
      exact ⟨iff_of_false (step_lost hmode hbusy hlost) (not_not.mpr hcut), fun h => absurd hcut h⟩
  | false =>
  cases hfails : (y.before e).disconnectFails e.kind with
  | true =>
      have horder : (y.before e).outOfOrder e.kind = false := by
        unfold Daemon.disconnectFails at hfails
        split at hfails
        · next hk => simp [Daemon.outOfOrder, Daemon.notices, hk]
        · cases hfails
      obtain ⟨hpursues, hkeeps⟩ := step_retries hname hu hmode hasks hfails
      refine ⟨iff_of_true hpursues fun hcut => ?_, fun _ => hkeeps⟩
      simp [System.CutsShort, hlost, horder] at hcut
  | false =>
  cases horder : (y.before e).outOfOrder e.kind with
  | true =>
      have htaken : (Pursues msg (y.before e) (y.step e).1 (y.step e).2 ↔
          ∀ i, ¬ y.table.Among (untried msg) i) ∧ _ := step_taken_over hu hmode hbusy horder hfails
      obtain ⟨hiff, hover⟩ := htaken
      refine ⟨hiff.trans ?_, fun _ _ hm => absurd hm hover⟩
      simp [System.CutsShort, hlost, horder]
  | false =>
      obtain ⟨hpursues, hkeeps⟩ := step_goes_on hu hmode hasks hbusy hlost horder hfails
      refine ⟨iff_of_true hpursues fun hcut => ?_, fun _ => hkeeps⟩
      simp [System.CutsShort, hlost, horder] at hcut

end Step

namespace Cntrl
variable {cn : ℕ} {msg : Msg} {s s' : Daemon}

/-- After the answer, the station looks for an access point. -/
theorem accepted_looks (h : accepted cn msg s = some s') (hname : s'.table.Named) :
    wp (EventKind.connMsg cn msg).handler (fun _ t l => ∃ l', l = [.reply cn 0] ++ l' ∧ s'.Looked t l')
      (fun _ l => Dull l) s := by
  obtain ⟨-, hauth, hscan, hmode, hcall⟩ := accepted_some h
  have hhandler : (EventKind.connMsg cn msg).handler s =
      ((((reassessWifiSituation >>= fun _ => pure REPLIED) >>= fun ret =>
        if 0 < ret then pure ret else reply cn ret) >>= fun _ => pure () : Handler Unit) s').after
          [.reply cn 0] :=
    bind_of_after (bind_of_after hcall)
  rw [wp_of_after hhandler, wp_bind, wp_bind, wp_bind]
  refine wp_mono (reassess_looks hmode hauth hscan hname) (fun _ t l hlooks => ?_) (fun _ l hdull => ?_)
  · rw [wp_pure, if_pos (by decide), wp_pure, wp_pure]
    exact ⟨l, by simp, hlooks⟩
  · refine Dull.append (fun a ha => ?_) hdull
    rw [List.mem_singleton.mp ha]
    exact ⟨rfl, rfl⟩

theorem SetUp.asks (h : SetUp msg s s') : s'.ap.Asks msg :=
  ⟨fun hnone => (h.known hnone).1, fun ssid hssid => (h.told ssid hssid).1⟩

theorem SetUp.named (h : SetUp msg s s') (hname : s.table.Named) : s'.table.Named := by
  intro i
  obtain heq | heq := h.get i
  · rw [heq]
    exact hname i
  · rw [heq]
    exact hname i

end Cntrl

section Request
variable {x : System} {cn : ℕ} {msg : Cntrl.Msg} {env : Env} {s' : Daemon}

/-- A request is being served, if the daemon is in the mode for it. -/
def System.Serving (msg : Cntrl.Msg) (y : System) : Prop :=
  y.Reachable ∧ (y.halted = false → y.opermode = .oneshot →
    y.ap.Asks msg ∧ (y.scanstate = .idle → y.authstate ≠ .idle))

theorem accepted_pursues (hname : x.table.Named)
    (haccept : Cntrl.accepted cn msg (x.before ⟨.connMsg cn msg, env⟩) = some s') :
    Pursues msg s' (x.step ⟨.connMsg cn msg, env⟩).1 (x.step ⟨.connMsg cn msg, env⟩).2 ∧
      ((x.step ⟨.connMsg cn msg, env⟩).1.halted = false →
        (x.step ⟨.connMsg cn msg, env⟩).1.opermode = .oneshot →
          (x.step ⟨.connMsg cn msg, env⟩).1.ap.Asks msg) := by
  obtain ⟨⟨s₁, hset, hap, htable⟩, -⟩ := Cntrl.accepted_some haccept
  have hname' : s'.table.Named := by
    rw [htable]
    exact hset.named hname
  have hasks : s'.ap.Asks msg := by
    rw [hap]
    exact hset.asks
  have hreply : Dull [Act.reply cn 0] := by
    intro a ha
    rw [List.mem_singleton.mp ha]
    exact ⟨rfl, rfl⟩
  apply System.step_wp (P := fun y l => Pursues msg s' y l ∧
    (y.halted = false → y.opermode = .oneshot → y.ap.Asks msg))
  refine wp_mono (Cntrl.accepted_looks haccept hname') (fun _ t l h turn => ?_)
    (fun _ l h turn => ⟨.of_dull rfl h, nofun⟩)
  obtain ⟨l', rfl, hlooks⟩ := h
  obtain ⟨hpursues, hkeeps⟩ := hlooks.pursues hname' hasks hreply turn
  exact ⟨hpursues, fun _ => hkeeps⟩

/-- A request that has been accepted is pursued until it is served or nothing is left to
try, exactly if no step cuts it short. The run begins with the request, and nothing but
the kernel and the access points acts in it. -/
theorem request_pursued_iff (hx : x.Reachable) (he : x.Enabled ⟨.connMsg cn msg, env⟩)
    (haccept : Cntrl.accepted cn msg (x.before ⟨.connMsg cn msg, env⟩) = some s') {es : List Event}
    (hv : supplicant.Valid (x.step ⟨.connMsg cn msg, env⟩).1 es)
    (hu : supplicant.Every System.Undisturbed (x.step ⟨.connMsg cn msg, env⟩).1 es) :
    Pursues msg s' (x.step ⟨.connMsg cn msg, env⟩).1 (x.step ⟨.connMsg cn msg, env⟩).2 ∧
    (supplicant.Every (fun y e => y.opermode = .oneshot →
        Pursues msg (y.before e) (y.step e).1 (y.step e).2) (x.step ⟨.connMsg cn msg, env⟩).1 es ↔
      supplicant.Every (fun y e => y.opermode = .oneshot → ¬ y.CutsShort msg e)
        (x.step ⟨.connMsg cn msg, env⟩).1 es) := by
  obtain ⟨hpursues, hkeeps⟩ := accepted_pursues (hx.shaped he.1).named haccept
  refine ⟨hpursues, ?_⟩
  have hserving : System.Serving msg (x.step ⟨.connMsg cn msg, env⟩).1 :=
    ⟨Machine.Reachable.step hx he, fun hrun hm => ⟨hkeeps hrun hm, hpursues.underway hrun hm⟩⟩
  have hone (y : System) (e : Event) (hy : y.Serving msg) (he : y.Enabled e) (hu : y.Undisturbed e)
      (hm : y.opermode = .oneshot) := step_pursues_iff (hy.1.shaped he.1).named hu hm
    (hy.2 he.1 hm).1 ((hy.2 he.1 hm).2 hu.2.1)
  refine Machine.every_congr_of (fun y e hy he hu hp => ⟨Machine.Reachable.step hy.1 he, fun hrun hm => ?_⟩)
    (fun y e hy he hu => forall_congr' fun hm => (hone y e hy he hu hm).1) hserving hv hu
  -- without a command the mode is not entered
  have hserves := (System.outcome_returns _).mp
    (EventKind.serves (s := y.before e) hu.1 hu.2.1 hu.2.2 (y.step_effect e))
  have hm' : y.opermode = .oneshot := (hserves hrun hm).1
  obtain ⟨hiff, hasks⟩ := hone y e hy he hu hm'
  exact ⟨hasks (hiff.mp (hp hm')) hrun hm, (hp hm').underway hrun hm⟩

end Request

namespace Sample

/-- Another access point of the network, not as near. -/
def foundToo : Event := event <| .netlink <| .gen
  { ifi := some 3, cmd := .newScanResults, multi := true
    bss := some { bssid := some [2, 0, 0, 0, 0, 2], freq := some 2437, signal := some (-6000), ies := some ies } }

def choosing : List Event :=
  [event (.accept 5), event .turn, notice .newScanResults, found, foundToo, event (.netlink .done), event .turn]

def refusal : Event := event (.netlink (.err 9 (-16)))

/-- On each of the two the attempt is refused, and so is the disconnect that gives it up. -/
def refusals : List Event := [refusal, refusal, refusal, refusal]

end Sample

theorem refusals_pursued : ∃ s', Cntrl.accepted 0 { cmd := .connect }
      ((supplicant.after Sample.knows Sample.choosing).before (Sample.asks .connect)) = some s' ∧
    supplicant.Every (fun y e => y.opermode = .oneshot →
        Pursues { cmd := .connect } (y.before e) (y.step e).1 (y.step e).2)
      ((supplicant.after Sample.knows Sample.choosing).step (Sample.asks .connect)).1 Sample.refusals := by
  have haccept : (Cntrl.accepted 0 { cmd := .connect }
      ((supplicant.after Sample.knows Sample.choosing).before (Sample.asks .connect))).isSome = true := by
    decide +kernel
  obtain ⟨s', hs'⟩ := Option.isSome_iff_exists.mp haccept
  have hreach : (supplicant.after Sample.knows Sample.choosing).Reachable :=
    ⟨Sample.knows, Sample.choosing, Sample.knows_initial, by decide +kernel, rfl⟩
  have hquiet : supplicant.Every (fun y e => (y.before e).notices .disconnect e.kind = false ∧
      (y.before e).outOfOrder e.kind = false)
      ((supplicant.after Sample.knows Sample.choosing).step (Sample.asks .connect)).1 Sample.refusals := by
    decide +kernel
  have hvalid : supplicant.Valid
      ((supplicant.after Sample.knows Sample.choosing).step (Sample.asks .connect)).1 Sample.refusals := by
    decide +kernel
  refine ⟨s', hs', (request_pursued_iff hreach (by decide +kernel) hs' hvalid (by decide +kernel)).2.mpr ?_⟩
  refine Machine.Every.imp (I := fun _ => True) (fun _ _ _ _ _ => trivial) (fun y e _ _ h _ hcut => ?_)
    trivial hvalid hquiet
  simp [System.CutsShort, h.1, h.2] at hcut

/-- The attempt on the nearer access point fails. The client is told that there is
nothing to connect to; the other one is not tried, and the mode is not left. -/
theorem turnedAway_cut_short : Sample.knows.Initial ∧
    supplicant.Valid Sample.knows (Sample.choosing ++ [Sample.asks .connect, Sample.notice .disconnect]) ∧
    (Cntrl.accepted 0 { cmd := .connect }
      ((supplicant.after Sample.knows Sample.choosing).before (Sample.asks .connect))).isSome = true ∧
    supplicant.Every System.Undisturbed
      (supplicant.after Sample.knows (Sample.choosing ++ [Sample.asks .connect])) [Sample.notice .disconnect] ∧
    (supplicant.after Sample.knows
      (Sample.choosing ++ [Sample.asks .connect, Sample.notice .disconnect])).opermode = .oneshot ∧
    ¬ supplicant.Every (fun y e => y.opermode = .oneshot →
        Pursues { cmd := .connect } (y.before e) (y.step e).1 (y.step e).2)
      (supplicant.after Sample.knows (Sample.choosing ++ [Sample.asks .connect])) [Sample.notice .disconnect] := by
  refine ⟨Sample.knows_initial, by decide +kernel, by decide +kernel, by decide +kernel, by decide +kernel,
    fun h => ?_⟩
  have hexhausted := (h.1 (by decide +kernel)).exhausted (by decide +kernel)
  exact hexhausted.1 1 (by decide +kernel)

end Wsupp

import Wsupp.Control.Session
import Wsupp.Safety.AuthStates

/-!
# Installation of keys and the state of the connection

Keys go to the kernel, and a connection is reported, where a packet has been
answered. The EAPOL machine dispatches on its own state and never looks at that of
the connection. Nothing but the next prime takes it out of the states in which
packets 3/4 and 1/2 are accepted, neither a disconnect that is asked for nor an
abort, an error or a reset.

So the two machines are in step only as long as the connection is not given up. What
is recorded is whether it has been since the EAPOL machine was primed; `InStep` is
the invariant that ties both states to this record, and the result says that a
packet answered behind the back of the connection is the one way in which keys are
installed out of step.
-/
namespace Wsupp
open Reactive

/-- The connection stands, or only the notification of it is missing. -/
def AuthState.linked (a : AuthState) : Bool := a = .connecting || a = .connected

/-- Keys are installed and connections announced in a state that is linked. The
monitor keeps the state of the last call of `handle_connect`, until it reports. -/
def installMonitor : Monitor Act (Option AuthState) where
  next up a := match a with
    | .call (.handleConnect as) => some as
    | .report (.connected ..) _ => none
    | _ => up
  ok up a := match a with
    | .call (.uploadPtk as) | .call (.uploadGtk as _) | .call (.handleConnect as) => as.linked = true
    | .startDhcp _ | .report (.connected ..) _ => up.any AuthState.linked = true
    | _ => True

instance (up : Option AuthState) (a : Act) : Decidable (installMonitor.ok up a) := by
  unfold installMonitor
  dsimp only
  split <;> infer_instance

theorem installMonitor_hidden (a : Act) (h : a.shown = false) : installMonitor.Ignores a := by
  intro up
  cases a with
  | call c => cases h
  | startDhcp pid => cases h
  | report r conns =>
      cases r with
      | connected bssid ssid freq => cases h
      | _ => exact ⟨rfl, trivial⟩
  | _ => exact ⟨rfl, trivial⟩

theorem Radio.installMonitor {ks : List Act} (h : Radio ks) (up : Option AuthState) :
    installMonitor.Accepts up ks := by
  refine (h.ignored (fun a ha m => ?_) up).2
  cases a with
  | nl cmd sent => exact ⟨rfl, trivial⟩
  | nlAck cmd sent => exact ⟨rfl, trivial⟩
  | _ => cases ha

theorem HandleConnect.installMonitor {c : Control} {ks : List Act} {o : Outcome Unit Control}
    (h : HandleConnect c ks o) (up : Option AuthState) :
    installMonitor.Accepts up ks ↔ c.authstate.linked = true := by
  cases h with
  | connects _ _ _ _ _ =>
      exact ⟨fun h => h.1, fun h => ⟨h, h, h, trivial⟩⟩
  | ends => exact ⟨fun h => h.1, fun h => ⟨h, trivial⟩⟩

/-- The event is a packet 3/4 or 1/2 that is taken and answered. -/
def Daemon.installs (s : Daemon) (k : EventKind) : Bool :=
  s.answers k && (s.eapolstate = .waiting34 || s.eapolstate = .negotiated)

theorem Session.installMonitor {s : Daemon} {k : EventKind} {ks : List Act} {o : Outcome Unit Control}
    (h : Session s k ks o) (up : Option AuthState) :
    installMonitor.Accepts up ks ↔ (s.installs k = true → s.authstate.linked = true) := by
  have hquiet {ks : List Act} (hk : s.installs k = false)
      (hacc : Wsupp.installMonitor.Accepts up ks) :
      Wsupp.installMonitor.Accepts up ks ↔ (s.installs k = true → s.authstate.linked = true) :=
    iff_of_true hacc (fun h => by rw [hk] at h; cases h)
  have hno (hk : s.answers k = false) : s.installs k = false := by rw [Daemon.installs, hk]; rfl
  cases h with
  | leaves hk h => exact hquiet (hno hk) (h.radio.installMonitor _)
  | resets as hk _ h => exact hquiet (hno hk) ⟨trivial, h.radio.installMonitor _⟩
  | snaps as hk _ => exact hquiet (hno hk) ⟨trivial, trivial, trivial⟩
  | primes bssid freq ssid ies sent hk => exact hquiet (hno hk) ⟨trivial, trivial, trivial⟩
  | allows hk _ _ => exact hquiet (hno hk) trivial
  | sends dest frame hk _ _ => exact hquiet (hno hk) ⟨trivial, trivial⟩
  | overwrites dest frame sent hk _ _ => exact hquiet (hno hk) ⟨trivial, trivial, trivial⟩
  | packet1_ends r hk _ h => exact hquiet (hno hk) ⟨trivial, h.installMonitor _⟩
  | packet1_early r kck kek hk _ _ => exact hquiet (hno hk) ⟨trivial, trivial, trivial⟩
  | packet1_sent r kck kek dest frame _ hs _ _ =>
      exact hquiet (by simp [Daemon.installs, hs]) ⟨trivial, trivial, trivial, trivial⟩
  | packet1_fails r kck kek dest frame hk _ _ _ h =>
      exact hquiet (hno hk) ⟨trivial, trivial, trivial, h.radio.installMonitor _⟩
  | packet3_sent r dest frame hk hs _ _ h =>
      have hi : s.installs k = true := by simp [Daemon.installs, hk, hs]
      rw [hi]
      exact ⟨fun h _ => h.2.2.1,
        fun hl => ⟨trivial, trivial, hl rfl, hl rfl, (h.installMonitor _).mpr (hl rfl)⟩⟩
  | packet3_fails r dest frame hk _ _ _ h =>
      exact hquiet (hno hk) ⟨trivial, trivial, h.radio.installMonitor _⟩
  | group1_sent r dest frame hk hs _ _ =>
      have hi : s.installs k = true := by simp [Daemon.installs, hk, hs]
      rw [hi]
      exact ⟨fun h _ => h.2.2.1, fun hl => ⟨trivial, trivial, hl rfl, trivial⟩⟩
  | group1_fails r dest frame hk _ _ _ h =>
      exact hquiet (hno hk) ⟨trivial, trivial, h.radio.installMonitor _⟩

/-- There is a connection, or one is being made that the EAPOL machine is primed for. -/
def AuthState.up (a : AuthState) : Bool := a = .associating || a.linked

/-- The EAPOL machine is primed for a connection, or the kernel declares one that is not
waited for. -/
def Daemon.raises (s : Daemon) (k : EventKind) : Bool :=
  s.notices .authenticate k && s.authstate = .authenticating || s.undoesTakeover k

/-- The connection is given up or lost, or taken over by another program. -/
def Daemon.drops (s : Daemon) (k : EventKind) : Bool :=
  s.givesUp k || s.notices .disconnect k || s.outOfOrder k

/-- Whether the EAPOL machine is left behind after an event: the connection has been
dropped since one was last raised. -/
def Daemon.leavesBehind (s : Daemon) (k : EventKind) (behind : Bool) : Bool :=
  !s.raises k && (behind || s.drops k)

def System.behind (x : System) (e : Event) (_ : List Act) (behind : Bool) : Bool :=
  (x.before e).leavesBehind e.kind behind

/-- The EAPOL machine and the connection are in step. A machine that is not left behind
is idle or works for a connection; in an association it has at most taken packet 1/4;
and where it is left behind, there is no connection. -/
structure InStep (c : Control) (behind : Bool) : Prop where
  up : behind = false → c.eapolstate = .idle ∨ c.authstate.up = true
  early : c.authstate = .associating → behind = false ∧
    (c.eapolstate = .waiting14 ∧ c.eapolsends = false ∨ c.eapolstate = .waiting24)
  down : behind = true → c.authstate.linked = false

section InStep
variable {s : Daemon} {k : EventKind} {c c' : Control} {ks : List Act} {o : Outcome Unit Control} {behind : Bool}

theorem AuthState.not_up {a : AuthState} (h : a = .idle ∨ a = .disconnecting ∨ a = .netdown) : a.up = false := by
  obtain rfl | rfl | rfl := h
  all_goals rfl

theorem AuthState.linked_up {a : AuthState} (h : a.linked = true) : a.up = true := by
  rw [up, h, Bool.or_true]

theorem AuthState.linked_of_up {a : AuthState} (h : a.up = true) (ha : a ≠ .associating) : a.linked = true := by
  rw [up, decide_eq_false ha, Bool.false_or] at h
  exact h

theorem AuthState.not_linked {a : AuthState} (h : a.up = false) : a.linked = false := by
  rw [up, Bool.or_eq_false_iff] at h
  exact h.2

/-- Where there is no connection, the machine is idle or left behind. -/
theorem InStep.of_down (ha : c.authstate.up = false) (h : behind = false → c.eapolstate = .idle) : InStep c behind where
  up hb := .inl (h hb)
  early has := by
    rw [has] at ha
    cases ha
  down _ := AuthState.not_linked ha

/-- In a standing connection there is nothing to say of the machine. -/
theorem InStep.of_linked (ha : c.authstate.linked = true) : InStep c false where
  up _ := .inr (AuthState.linked_up ha)
  early has := by
    rw [has] at ha
    cases ha
  down h := by cases h

/-- The same state of the connection, with the machine further on. -/
theorem InStep.advance (h : InStep c behind) (ha : c'.authstate = c.authstate) (hidle : c.eapolstate ≠ .idle)
    (hearly : c.authstate = .associating → c'.eapolstate = .waiting24) : InStep c' behind where
  up hb := by
    rw [ha]
    exact .inr ((h.up hb).resolve_left hidle)
  early has := by
    rw [ha] at has
    exact ⟨(h.early has).1, .inr (hearly has)⟩
  down hb := by
    rw [ha]
    exact h.down hb

theorem InStep.same (h : InStep c behind) (ha : c'.authstate = c.authstate) (hs : c'.eapolstate = c.eapolstate)
    (hsends : c'.eapolsends = c.eapolsends) : InStep c' behind where
  up hb := by
    rw [ha, hs]
    exact h.up hb
  early has := by
    rw [ha] at has
    rw [hs, hsends]
    exact h.early has
  down hb := by
    rw [ha]
    exact h.down hb

theorem InStep.not_behind (h : InStep c behind) (ha : c.authstate.linked = true) : behind = false := by
  by_contra hb
  have hdown := h.down (eq_true_of_ne_false hb)
  rw [ha] at hdown
  cases hdown

/-- Past packet 1/4 the state is not that of an association. -/
theorem InStep.not_associating (h : InStep c behind) (h14 : c.eapolstate = .waiting14 → c.eapolsends = true)
    (h24 : c.eapolstate ≠ .waiting24) : c.authstate ≠ .associating := by
  intro ha
  obtain ⟨hs, hsends⟩ | hs := (h.early ha).2
  · rw [h14 hs] at hsends
    cases hsends
  · exact h24 hs

/-- An event that leaves the state of the connection as it is. -/
theorem Session.inStep_keeps (h : Session s k ks (.goes () c)) (hm : InStep s.toControl behind)
    (ha : c.authstate = s.authstate) : InStep c behind := by
  cases h with
  | leaves _ h => exact hm.same ha h.2.eapolstate h.2.eapolsends
  | resets as _ _ h => exact hm.same ha h.2.eapolstate h.2.eapolsends
  | snaps as _ _ => exact hm.same ha rfl rfl
  | primes bssid freq ssid ies sent _ =>
      have hb := (hm.early ha.symm).1
      rw [hb]
      exact ⟨fun _ => .inr rfl, fun _ => ⟨rfl, .inl ⟨rfl, rfl⟩⟩, fun h => by cases h⟩
  | allows _ has _ => cases has.symm.trans ha.symm
  | sends dest frame _ has _ => cases has.symm.trans ha.symm
  | overwrites dest frame sent _ has _ => cases has.symm.trans ha.symm
  | packet1_early r kck kek _ hs _ =>
      have hidle : s.eapolstate ≠ .idle := by
        rw [hs]
        decide
      exact hm.advance ha hidle fun _ => rfl
  | packet1_sent r kck kek dest frame _ hs hsends _ =>
      have hnot : s.authstate ≠ .associating := hm.not_associating (fun _ => hsends) (by simp [hs])
      exact hm.advance ha (by simp [hs]) fun has => absurd has hnot
  | packet1_fails r kck kek dest frame _ hs _ _ h => exact hm.same ha h.2.eapolstate h.2.eapolsends
  | packet3_sent r dest frame _ hs _ _ h =>
      have hnot : s.authstate ≠ .associating := hm.not_associating (by simp [hs]) (by simp [hs])
      exact hm.advance ha (by simp [hs]) fun has => absurd has hnot
  | packet3_fails r dest frame _ _ _ _ h => exact hm.same ha h.2.eapolstate h.2.eapolsends
  | group1_sent r dest frame _ _ _ _ => exact hm.same ha rfl rfl
  | group1_fails r dest frame _ _ _ _ h => exact hm.same ha h.2.eapolstate h.2.eapolsends

/-- An idle machine stays idle as long as no association is begun. -/
theorem Session.idle_stays (h : Session s k ks (.goes () c)) (hs : s.eapolstate = .idle) (ha : c.authstate.up = false) :
    c.eapolstate = .idle := by
  have hmachine {state : EapolState} (hstate : s.eapolstate = state) (hne : state ≠ .idle) : False :=
    hne (hstate.symm.trans hs)
  cases h with
  | leaves _ h => exact h.2.eapolstate.trans hs
  | resets as _ _ h => exact h.2.eapolstate.trans hs
  | snaps as _ _ => exact hs
  | primes bssid freq ssid ies sent _ => cases ha
  | allows _ _ _ => cases ha
  | sends dest frame _ _ _ => cases ha
  | overwrites dest frame sent _ _ _ => cases ha
  | packet1_early r kck kek _ hs' _ => exact (hmachine hs' (by decide)).elim
  | packet1_sent r kck kek dest frame _ hs' _ _ => exact (hmachine hs' (by decide)).elim
  | packet1_fails r kck kek dest frame _ hs' _ _ _ => exact (hmachine hs' (by decide)).elim
  | packet3_sent r dest frame _ hs' _ _ _ => exact (hmachine hs' (by decide)).elim
  | packet3_fails r dest frame _ hs' _ _ _ => exact (hmachine hs' (by decide)).elim
  | group1_sent r dest frame _ hs' _ _ => exact (hmachine hs' (by decide)).elim
  | group1_fails r dest frame _ hs' _ _ _ => exact (hmachine hs' (by decide)).elim

theorem Reassess.down (h : Reassess c ks (.goes () c')) (ha : c.authstate = .idle) : c'.authstate.up = false := by
  have hidle : c.authstate.up = false := AuthState.not_up (.inl ha)
  cases h with
  | stays _ => exact hidle
  | starts bssid freq ssid sent _ _ => rfl
  | gives_up _ _ => exact hidle
  | waits _ _ _ => exact hidle

theorem Abort.down (h : Abort c ks (.goes () c')) : c'.authstate.up = false := by
  cases h with
  | disconnects sent _ _ _ => rfl
  | stays h => exact AuthState.not_up (.inr h.symm)
  | reassesses ha h => exact h.down ha

theorem HandleDisconnect.down (h : HandleDisconnect c ks (.goes () c')) (ha : c.authstate = .idle) :
    c'.authstate.up = false := by
  have hidle : c.authstate.up = false := AuthState.not_up (.inl ha)
  cases h with
  | exits _ => exact hidle
  | rescans freq seq _ =>
      rw [Control.startScan_authstate]
      exact hidle
  | tries_other _ h => exact h.down ha
  | gives_up _ => exact hidle

/-- A connection that is given up is none any more. -/
theorem EventKind.givesUp_down (h : k.effect s ks (.goes () c)) (hk : s.givesUp k = true) : c.authstate.up = false := by
  cases k with
  | connMsg cn msg =>
      rw [Daemon.givesUp, Bool.and_eq_true, decide_eq_true_eq] at hk
      have hne := Daemon.busy_iff.mp hk.2
      simp only [EventKind.effect, Cntrl.CmdEffect, hk.1] at h
      cases h with
      | refuses h =>
          obtain h | h | h := h
          · exact absurd h hne.1
          · exact absurd h hne.2.1
          · exact absurd h hne.2.2
      | disconnects sent _ _ _ => rfl
  | netlink msg =>
      cases msg with
      | err seq err =>
          have hseq (hdown : err ≠ -ENETDOWN) : seq ≠ s.scanseq := by
            simp only [Daemon.givesUp, Daemon.failsAuth, hdown, decide_false, Bool.false_or, Bool.and_eq_true,
              decide_eq_true_eq] at hk
            exact hk.1.2
          cases h with
          | killed _ _ => rfl
          | netdown _ _ => rfl
          | scan_ack herr hs =>
              have hdown : err ≠ -ENETDOWN := by
                rw [herr]
                decide
              exact absurd hs (hseq hdown)
          | scan_fails hdown _ hs => exact absurd hs (hseq hdown)
          | idle _ _ ha => exact AuthState.not_up (.inl ha)
          | disconnect_fails _ _ _ h => exact h.down rfl
          | rescans freq seq' _ _ _ =>
              rw [Control.startScan_authstate]
              rfl
          | aborts _ _ _ _ _ h => exact h.down
      | _ => cases hk
  | frame sender data =>
      rw [Daemon.givesUp, Bool.and_eq_true] at hk
      have hno (h : s.frameAborts sender data = false) : False := by
        rw [h] at hk
        cases hk.1
      cases Frame.link h with
      | aborts c pre _ _ _ h => exact h.down
      | stays h _ _ _ => exact (hno h).elim
      | connects h _ _ _ => exact (hno h).elim
  | timer =>
      rw [Daemon.givesUp, Bool.and_eq_true, decide_eq_true_eq] at hk
      have hne := Daemon.busy_iff.mp hk.2
      cases h with
      | exits ha _ => exact absurd ha hne.2.1
      | idles ha _ => exact absurd ha hne.2.1
      | bg_scans seq ha => exact absurd ha hk.1
      | aborts _ _ _ h => exact h.down
      | fg_scans freq seq ha => exact absurd ha hne.1
  | sigterm =>
      have hne := Daemon.busy_iff.mp hk
      cases h with
      | exits _ _ h =>
          obtain h | h | h := h
          · exact absurd h hne.1
          · exact absurd h hne.2.1
          · exact absurd h hne.2.2
      | requests sent _ _ _ _ _ => rfl
  | _ => cases hk

theorem EventKind.disconnect_down (h : k.effect s ks (.goes () c)) (hk : s.notices .disconnect k = true) :
    c.authstate.up = false := by
  cases k with
  | netlink msg =>
      cases msg with
      | gen msg =>
          rw [Daemon.notices, Bool.and_eq_true, decide_eq_true_eq, decide_eq_true_eq] at hk
          simp only [EventKind.effect, Netlink.MsgEffect, hk.1, if_pos, Netlink.GenEffect, hk.2] at h
          cases h with
          | idle ha => exact AuthState.not_up (.inl ha)
          | disconnects _ h => exact h.down rfl
      | _ => cases hk
  | _ => cases hk

theorem Netlink.GenEffect.inStep {msg : Netlink.Gen} (h : Netlink.GenEffect s msg ks (.goes () c))
    (hm : InStep s.toControl behind) (hifi : msg.ifi = some s.ifindex)
    (hcmd : msg.cmd = .authenticate ∨ msg.cmd = .associate ∨ msg.cmd = .connect) :
    InStep c (s.leavesBehind (.netlink (.gen msg)) behind) := by
  have hstays (hext : s.authstate = .external) : s.leavesBehind (.netlink (.gen msg)) behind = behind := by
    obtain hcmd | hcmd | hcmd := hcmd
    all_goals simp [Daemon.leavesBehind, Daemon.raises, Daemon.drops, Daemon.notices, Daemon.undoesTakeover,
      Daemon.outOfOrder, Daemon.givesUp, hcmd, hext]
  have hsnapped : InStep s.toControl.snapped true := .of_down rfl fun h => by cases h
  unfold Netlink.GenEffect at h
  obtain hcmd | hcmd | hcmd := hcmd
  · simp only [hcmd] at h
    cases h with
    | external hext =>
        rw [hstays hext]
        exact hm
    | snaps hext ha =>
        have hbehind : s.leavesBehind (.netlink (.gen msg)) behind = true := by
          simp [Daemon.leavesBehind, Daemon.raises, Daemon.drops, Daemon.notices, Daemon.undoesTakeover,
            Daemon.outOfOrder, hifi, hcmd, hext, ha]
        rw [hbehind]
        exact hsnapped
    | associates bssid freq ssid ies sent ha =>
        have hbehind : s.leavesBehind (.netlink (.gen msg)) behind = false := by
          simp [Daemon.leavesBehind, Daemon.raises, Daemon.notices, hifi, hcmd, ha]
        rw [hbehind]
        exact ⟨fun _ => .inr rfl, fun _ => ⟨rfl, .inl ⟨rfl, rfl⟩⟩, fun h => by cases h⟩
  · simp only [hcmd] at h
    have hup (ha : s.authstate = .associating) : s.leavesBehind (.netlink (.gen msg)) behind = false := by
      simp [Daemon.leavesBehind, Daemon.drops, Daemon.notices, Daemon.outOfOrder, Daemon.givesUp, hcmd, ha,
        (hm.early ha).1]
    cases h with
    | external hext =>
        rw [hstays hext]
        exact hm
    | snaps hext ha =>
        have hbehind : s.leavesBehind (.netlink (.gen msg)) behind = true := by
          simp [Daemon.leavesBehind, Daemon.raises, Daemon.drops, Daemon.notices, Daemon.undoesTakeover,
            Daemon.outOfOrder, hifi, hcmd, hext, ha]
        rw [hbehind]
        exact hsnapped
    | allows ha _ =>
        rw [hup ha]
        exact .of_linked rfl
    | sends dest frame ha _ _ =>
        rw [hup ha]
        exact .of_linked rfl
    | overwrites dest frame sent ha _ _ =>
        rw [hup ha]
        exact .of_linked rfl
  · simp only [hcmd] at h
    cases h with
    | external hext =>
        rw [hstays hext]
        exact hm
    | overwrites hext ha =>
        have hbehind : s.leavesBehind (.netlink (.gen msg)) behind = false := by
          simp [Daemon.leavesBehind, Daemon.raises, Daemon.undoesTakeover, Daemon.notices, hifi, hcmd, hext, ha]
        rw [hbehind]
        exact .of_linked rfl
    | connects ha =>
        have hlinked : s.authstate.linked = true := by
          rw [ha]
          rfl
        have hb : behind = false := hm.not_behind hlinked
        have hbehind : s.leavesBehind (.netlink (.gen msg)) behind = false := by
          simp [Daemon.leavesBehind, Daemon.drops, Daemon.notices, Daemon.outOfOrder, Daemon.givesUp, hcmd, ha, hb]
        rw [hbehind]
        exact .of_linked rfl

/-- Every event keeps both machines in step, or is one that leaves the EAPOL machine
behind. -/
theorem EventKind.inStep (h : k.effect s ks (.goes () c)) (hm : InStep s.toControl behind) :
    InStep c (s.leavesBehind k behind) := by
  by_cases hneg : s.negotiates k = true
  · obtain ⟨msg, rfl, hifi, hcmd⟩ := Daemon.negotiates_iff.mp hneg
    simp only [EventKind.effect, Netlink.MsgEffect, hifi, if_pos] at h
    exact Netlink.GenEffect.inStep h hm hifi hcmd
  rw [Bool.not_eq_true] at hneg
  have hnotices := hneg
  simp only [Daemon.negotiates, Bool.or_eq_false_iff] at hnotices
  obtain ⟨⟨hauth, hassoc⟩, hconn⟩ := hnotices
  have hbehind : s.leavesBehind k behind = (behind || s.givesUp k || s.notices .disconnect k) := by
    simp [Daemon.leavesBehind, Daemon.raises, Daemon.drops, Daemon.undoesTakeover, Daemon.outOfOrder, hauth, hassoc,
      hconn, Bool.or_assoc]
  rw [hbehind]
  by_cases hgives : s.givesUp k = true
  · rw [hgives, Bool.or_true, Bool.true_or]
    exact .of_down (EventKind.givesUp_down h hgives) fun h => by cases h
  by_cases hdisc : s.notices .disconnect k = true
  · rw [hdisc, Bool.or_true]
    exact .of_down (EventKind.disconnect_down h hdisc) fun h => by cases h
  rw [Bool.not_eq_true] at hgives hdisc
  rw [hgives, hdisc, Bool.or_false, Bool.or_false]
  have hsession := EventKind.session h
  -- no connection is dropped, so one that falls or is started was none
  have hdown (hl : s.loose k = true) (ha : c.authstate.up = false) : InStep c behind := by
    have hno : s.authstate.up = false := by
      simp only [Daemon.loose, hgives, hdisc, Bool.or_false, Bool.or_eq_true, decide_eq_true_eq] at hl
      exact AuthState.not_up (hl.imp_right .inr)
    refine .of_down ha fun hb => hsession.idle_stays ?_ ha
    obtain hidle | hup := hm.up hb
    · exact hidle
    · rw [hno] at hup
      cases hup
  have hturns := EventKind.turns hneg h
  generalize ks.filter Act.mlme = shown at hturns
  cases hturns with
  | keeps ha => exact hsession.inStep_keeps hm ha
  | falls hl ha =>
      exact hdown hl (AuthState.not_up (ha.imp_right .inr))
  | starts bssid freq ssid sent hl ha =>
      apply hdown hl
      rw [ha]
      rfl
  | gives_up sent hg _ =>
      rw [hgives] at hg
      cases hg

/-- A packet that is answered is one for a connection exactly if the machine is not left
behind. -/
theorem InStep.installs (hm : InStep s.toControl behind) (hk : s.installs k = true) :
    s.authstate.linked = true ↔ behind = false := by
  rw [Daemon.installs, Bool.and_eq_true, Bool.or_eq_true, decide_eq_true_eq, decide_eq_true_eq] at hk
  have hstate := hk.2
  have hnot : s.authstate ≠ .associating := by
    obtain h | h := hstate
    · exact hm.not_associating (by simp [h]) (by simp [h])
    · exact hm.not_associating (by simp [h]) (by simp [h])
  constructor
  · exact hm.not_behind
  · intro hb
    obtain hidle | hup := hm.up hb
    · rw [hidle] at hstate
      obtain h | h := hstate
      · cases h
      · cases h
    · exact AuthState.linked_of_up hup hnot

end InStep

/-- In a run of the daemon, keys are installed and connections announced in a linked
state only, exactly if no packet 3/4 or 1/2 is answered while the EAPOL machine is left
behind: after the connection it was primed for has been given up, lost or taken over,
and before the next one. The record of this is kept beside the run and made of the
events and the states they find. -/
theorem keys_installed_iff {x : System} (hx : x.Initial) {es : List Event} (hv : supplicant.Valid x es) :
    installMonitor.Accepts none (supplicant.outputs x es) ↔ (supplicant.record System.behind).Every
      (fun y e => ¬ (y.2 = true ∧ (y.1.before e).installs e.kind = true)) (x, false) es := by
  have hsteps : installMonitor.Accepts none (supplicant.outputs x es) ↔ supplicant.Every
      (fun y e => (y.before e).installs e.kind = true → y.authstate.linked = true) x es := by
    refine Monitor.accepts_iff_every (fun y e up => ?_) x none es
    rw [← (System.control_run installMonitor_hidden _ _).2]
    exact (System.step_session y e).installMonitor up
  rw [hsteps, ← Machine.record_every System.behind x false]
  refine Machine.every_congr (I := fun y => y.1.halted = false → InStep y.1.toControl y.2) ?_ ?_ ?_
    ((Machine.record_valid ..).mpr hv)
  · intro y e hy he _ hrun
    have hgoes : (y.1.step e).1.halted = false := hrun
    have heff := y.1.step_effect e
    rw [System.outcome_running hgoes] at heff
    exact EventKind.inStep heff (hy he.1)
  · intro y e hy he
    have hm : InStep (y.1.before e).toControl y.2 := hy he.1
    constructor
    · intro h hbehind
      rw [(hm.installs hbehind.2).mp (h hbehind.2)] at hbehind
      cases hbehind.1
    · intro h hk
      apply (hm.installs hk).mpr
      by_contra hb
      exact h ⟨eq_true_of_ne_false hb, hk⟩
  · obtain ⟨-, mode, freq, seq, -, hc⟩ := hx.starts
    have hidle : InStep { opermode := mode, timerset := true } false := .of_down rfl fun _ => rfl
    have haway := Away.startScan { opermode := mode, timerset := true } freq seq
    intro _
    rw [hc]
    exact hidle.same (by simp) haway.eapolstate haway.eapolsends

/-- A whole handshake and a group key update keep in step. -/
theorem handshake_installs : installMonitor.Accepts none
    (supplicant.outputs Sample.start (Sample.handshake ++ [Sample.groupPacket])) :=
  (keys_installed_iff Sample.start_initial Sample.handshake_valid).mpr (by decide +kernel)

namespace Sample

/-- Packet 3/4 for a session whose keys have been cleared: anyone can sign it
with a key of zeros, and wrap a group key with one. -/
def clearedPacket3 : Event :=
  event <| .frame bssid <| signPacket (Bytes.zeros 16) 1 127
    (KI_SHA + KI_PAIRWISE + KI_ACK + KI_MIC + KI_ENCRYPTED + KI_SECURE) 16
    (Bytes.zeros 7 ++ [6]) (Bytes.zeros 32)
    [212, 97, 96, 251, 90, 23, 190, 230, 64, 39, 197, 194, 58, 246, 212, 72,
      26, 137, 94, 24, 67, 200, 17, 51, 101, 130, 62, 80, 1, 39, 79, 137]

/-- The handshake is cut off after packet 2/4, and the user gives up the next
attempt. -/
def cutHandshake : List Event :=
  joining ++ [notice .authenticate, notice .associate, packet1 5, event .turn, notice .disconnect,
    event .turn, connect, event .turn, asks .neutral, clearedPacket3]

end Sample

/-- In the run above the packet made with zeros comes while a disconnect is waited for.
Both keys are installed and the connection is announced all the same. -/
theorem cutHandshake_installs : Sample.start.Initial ∧
    supplicant.Valid Sample.start Sample.cutHandshake ∧
    ¬ installMonitor.Accepts none (supplicant.outputs Sample.start Sample.cutHandshake) :=
  ⟨Sample.start_initial, by decide +kernel, by decide +kernel⟩

end Wsupp

import Wsupp.Control.Step

/-!
# Steps of a session

A session begins where the EAPOL machine is primed. `Session` sorts the steps of the
daemon by what they do to that machine: most leave it alone, two of the
notifications start it, a lost connection clears its keys, and the rest are packets
that are taken, with or without a reply that goes out.

Each case lists all the outputs that matter for keys, in their order, and the
control variables afterwards. Invariants about keys, nonces and replay counters are
proved by splitting on it, one case for one thing that can happen; no property of
the packets beyond those in the cases is used there.
-/
namespace Wsupp
open Reactive

/-- Commands to the kernel, which do not concern the EAPOL machine. -/
def Act.radio : Act → Bool
  | .nl .. | .nlAck .. => true
  | _ => false

def Radio (ks : List Act) : Prop := ∀ a ∈ ks, a.radio = true

/-- From one to the other the EAPOL machine does not move, and no association is
under way that was not. -/
structure Away (c c' : Control) : Prop where
  eapolstate : c'.eapolstate = c.eapolstate
  eapolsends : c'.eapolsends = c.eapolsends
  replay : c'.replay = c.replay
  kck : c'.KCK = c.KCK
  kek : c'.KEK = c.KEK
  associating : c'.authstate = .associating → c.authstate = .associating

/-- The outcome of a step that leaves the EAPOL machine alone. -/
def Leaves (c : Control) (ks : List Act) : Outcome Unit Control → Prop
  | .goes _ c' => Radio ks ∧ Away c c'
  | .ends => Radio ks

theorem Radio.nil : Radio [] := by simp [Radio]

theorem Radio.cons {a : Act} {ks : List Act} (ha : a.radio = true) (h : Radio ks) : Radio (a :: ks) := by
  intro b hb
  rcases List.mem_cons.mp hb with rfl | hb
  · exact ha
  · exact h b hb

/-- A monitor that has no interest in commands to the kernel. -/
theorem Radio.ignored {μ : Type} {D : Monitor Act μ} (hD : ∀ a, a.radio = true → D.Ignores a)
    {ks : List Act} (h : Radio ks) (m : μ) : D.run m ks = m ∧ D.Accepts m ks :=
  Monitor.ignored_run (fun a ha => hD a (h a ha)) m

/-- What the EAPOL machine has of a state. -/
def Control.machine (c : Control) : EapolState × Bool × Bytes × Bytes × Bytes :=
  (c.eapolstate, c.eapolsends, c.replay, c.KCK, c.KEK)

theorem Away.of_machine {c c' : Control} (hm : c'.machine = c.machine)
    (ha : c'.authstate = .associating → c.authstate = .associating) : Away c c' := by
  simp only [Control.machine, Prod.mk.injEq] at hm
  obtain ⟨hstate, hsends, hreplay, hkck, hkek⟩ := hm
  exact ⟨hstate, hsends, hreplay, hkck, hkek, ha⟩

theorem Away.same {c c' : Control} (hm : c'.machine = c.machine)
    (ha : c'.authstate = c.authstate) : Away c c' :=
  .of_machine hm fun has => ha.symm.trans has

theorem Away.ended {c c' : Control} (hm : c'.machine = c.machine)
    (ha : c'.authstate ≠ .associating) : Away c c' :=
  .of_machine hm fun has => absurd has ha

theorem Away.refl (c : Control) : Away c c := .same rfl rfl

theorem Away.trans {c c' c'' : Control} (h : Away c c') (h' : Away c' c'') : Away c c'' :=
  ⟨h'.1.trans h.1, h'.2.trans h.2, h'.3.trans h.3, h'.4.trans h.4, h'.5.trans h.5,
    fun ha => h.6 (h'.6 ha)⟩

theorem Leaves.radio {c : Control} {ks : List Act} {o : Outcome Unit Control} (h : Leaves c ks o) :
    Radio ks := by
  cases o with
  | goes _ c' => exact h.1
  | ends => exact h

theorem Leaves.after {c c' : Control} {ks : List Act} {o : Outcome Unit Control}
    (hl : Leaves c' ks o) (h : Away c c') : Leaves c ks o := by
  cases o with
  | goes _ c'' => exact ⟨hl.1, h.trans hl.2⟩
  | ends => exact hl

theorem Away.startScan (c : Control) (freq : Int) (seq : ℕ) : Away c (c.startScan freq seq) := by
  unfold Control.startScan
  split
  · exact .same rfl rfl
  split
  · exact .refl c
  · exact .same rfl rfl

theorem Reassess.leaves {c : Control} {ks : List Act} {o : Outcome Unit Control}
    (h : Reassess c ks o) : Leaves c ks o := by
  cases h with
  | stays _ => exact ⟨.nil, .refl c⟩
  | starts _ _ _ _ _ _ => exact ⟨.cons rfl .nil, .ended rfl (by simp)⟩
  | ends _ _ => exact .nil
  | gives_up _ _ => exact ⟨.nil, .same rfl rfl⟩
  | waits _ _ _ => exact ⟨.nil, .same rfl rfl⟩

theorem Abort.leaves {c : Control} {ks : List Act} {o : Outcome Unit Control} (h : Abort c ks o) :
    Leaves c ks o := by
  cases h with
  | disconnects _ _ _ _ => exact ⟨.cons rfl .nil, .ended rfl (by simp)⟩
  | stays _ => exact ⟨.nil, .refl c⟩
  | reassesses _ h => exact h.leaves

theorem Quits.radio {c : Control} {ks : List Act} (h : Quits c ks) : Radio ks := by
  cases h with
  | idle _ => exact .nil
  | disconnects _ _ => exact .cons rfl .nil

theorem HandleDisconnect.leaves {c : Control} {ks : List Act} {o : Outcome Unit Control}
    (h : HandleDisconnect c ks o) : Leaves c ks o := by
  cases h with
  | exits _ => exact ⟨.nil, .same rfl rfl⟩
  | rescans freq seq _ =>
      have h : Away c { c with timerset := false, opermode := .rescan } := .same rfl rfl
      exact ⟨.nil, h.trans (.startScan _ freq seq)⟩
  | tries_other _ h => exact h.leaves.after (.same rfl rfl)
  | gives_up _ => exact ⟨.nil, .same rfl rfl⟩

theorem Stays.leaves {c : Control} {ks : List Act} {o : Outcome Unit Control} (h : Stays c ks o) :
    Leaves c ks o := by
  obtain ⟨rfl, rfl⟩ := h
  exact ⟨.nil, .refl c⟩

theorem StartConnection.leaves {c : Control} {socket : Bool} {ks : List Act} {o : Outcome Int Control}
    (h : StartConnection c socket ks o) : Leaves c ks o.void := by
  cases h with
  | busy _ => exact ⟨.nil, .refl c⟩
  | starts _ _ _ _ _ _ _ => exact ⟨.cons rfl .nil, .ended rfl (by simp)⟩
  | ends _ _ _ => exact .nil

theorem HandleConnect.away {c c' : Control} {ks : List Act} {a : Unit}
    (h : HandleConnect c ks (.goes a c')) : Away c c' := by
  cases h with
  | connects _ _ _ _ _ => exact .same rfl rfl

theorem Netlink.GenlDone.leaves {s : Daemon} {ks : List Act} {o : Outcome Unit Control}
    (h : Netlink.GenlDone s ks o) : Leaves s.toControl ks o := by
  cases h with
  | no_dump _ => exact ⟨.nil, .refl _⟩
  | reconnects _ _ _ h => exact h.leaves.after (.same rfl rfl)
  | misses _ _ _ h => exact h.leaves.after (.same rfl rfl)
  | reassesses _ _ _ h => exact h.leaves.after (.same rfl rfl)
  | rests _ _ _ => exact ⟨.nil, .same rfl rfl⟩

theorem Netlink.GenlError.leaves {c : Control} {seq : ℕ} {err : Int} {ks : List Act}
    {o : Outcome Unit Control} (h : Netlink.GenlError c seq err ks o) : Leaves c ks o := by
  cases h with
  | killed _ _ => exact ⟨.nil, .ended rfl (by simp)⟩
  | netdown _ _ => exact ⟨.nil, .ended rfl (by simp)⟩
  | scan_ack _ _ => exact ⟨.nil, .refl c⟩
  | scan_fails _ _ _ => exact ⟨.nil, .same rfl rfl⟩
  | idle _ _ _ => exact ⟨.nil, .refl c⟩
  | disconnect_fails _ _ _ h =>
      exact h.leaves.after (.ended rfl (by simp))
  | rescans freq seq' _ _ _ =>
      have h : Away c { c with authstate := .idle } := .ended rfl (by simp)
      exact ⟨.nil, h.trans (.startScan _ freq seq')⟩
  | aborts _ _ _ _ _ h => exact h.leaves

theorem Cntrl.CmdEffect.leaves {c : Control} {msg : Cntrl.Msg} {ks : List Act}
    {o : Outcome Unit Control} (h : Cntrl.CmdEffect c msg ks o) : Leaves c ks o := by
  unfold Cntrl.CmdEffect at h
  cases hcmd : msg.cmd <;> simp only [hcmd] at h
  case status => exact Stays.leaves h
  case device => exact Stays.leaves h
  case other => exact Stays.leaves h
  case scan =>
    obtain ⟨rfl, seq, rfl⟩ := h
    exact ⟨.nil, .startScan c 0 seq⟩
  case neutral =>
    cases h with
    | refuses _ => exact ⟨.nil, .same rfl rfl⟩
    | disconnects _ _ _ _ => exact ⟨.cons rfl .nil, .ended rfl (by simp)⟩
  case connect =>
    cases h with
    | refuses => exact ⟨.nil, .refl c⟩
    | accepts _ h => exact h.leaves.after (.same rfl rfl)
  case forget =>
    cases h with
    | goes => exact ⟨.nil, .refl c⟩
    | ends => exact .nil

theorem TimerExpired.leaves {c : Control} {ks : List Act} {o : Outcome Unit Control}
    (h : TimerExpired c ks o) : Leaves c ks o := by
  have htimer (b : Bool) : Away c { c with timerset := b } := .same rfl rfl
  cases h with
  | exits _ _ => exact ⟨.nil, .same rfl rfl⟩
  | idles _ _ => exact ⟨.nil, .ended rfl (by simp)⟩
  | bg_scans seq _ =>
      have h := (htimer false).trans (.startScan _ 0 seq)
      exact ⟨.nil, h.trans (.same rfl rfl)⟩
  | aborts _ _ _ h => exact h.leaves.after (htimer false)
  | fg_scans freq seq _ => exact ⟨.nil, (htimer true).trans (.startScan _ freq seq)⟩

theorem RfkillEffect.leaves {s : Daemon} {re : RfkillEvent} {ks : List Act} {o : Outcome Unit Control}
    (h : RfkillEffect s re ks o) : Leaves s.toControl ks o := by
  have hidle : Away s.toControl { s.toControl with rfkilled := false, authstate := .idle } :=
    .ended rfl (by simp)
  cases h with
  | other _ => exact ⟨.nil, .refl _⟩
  | kills _ _ => exact ⟨.nil, .same rfl rfl⟩
  | quits _ _ _ h => exact h.radio
  | revives _ _ _ _ => exact ⟨.nil, .same rfl rfl⟩
  | rescans freq seq _ _ _ _ _ => exact ⟨.nil, hidle.trans (.startScan _ freq seq)⟩
  | reassesses _ _ _ _ _ h => exact h.leaves.after hidle

theorem Xshutdown.leaves {c : Control} {ks : List Act} {o : Outcome Unit Control}
    (h : Xshutdown c ks o) : Leaves c ks o := by
  cases h with
  | second _ h => exact h.radio
  | exits _ _ _ => exact ⟨.nil, .same rfl rfl⟩
  | requests _ _ _ _ _ _ => exact ⟨.cons rfl .nil, .ended rfl (by simp)⟩

/-- The event is a packet that is taken and answered: the machine is in a state
to answer it, and the reply goes out. -/
def Daemon.answers (s : Daemon) : EventKind → Bool
  | .frame sender data => s.verdict sender data = .taken && s.replies &&
      (s.eapolstate ≠ .waiting14 || s.random && s.eapolsends)
  | _ => false

inductive Session (s : Daemon) (k : EventKind) : List Act → Outcome Unit Control → Prop where
  | leaves {ks o} : s.answers k = false → Leaves s.toControl ks o → Session s k ks o
  | resets {ks o} (as : AuthState) : s.answers k = false → as ≠ .associating →
      Leaves { s.toControl.resetEapol with authstate := as } ks o →
      Session s k (.call .resetEapolState :: ks) o
  | snaps (as : AuthState) : s.answers k = false → as ≠ .associating →
      Session s k Netlink.takeover (.goes () { s.toControl.snapped with authstate := as })
  | primes (bssid freq ssid ies) (sent : Bool) : s.answers k = false →
      Session s k [.call .primeEapolState, .nl (.associate bssid freq ssid ies) sent] (.goes ()
        { s.toControl with
          eapolstate := .waiting14, eapolsends := false, authstate := .associating })
  | allows : s.answers k = false → s.authstate = .associating → s.eapolstate = .waiting14 →
      Session s k [] (.goes () { s.toControl with eapolsends := true, authstate := .connecting })
  | sends (dest frame) : s.answers k = false → s.authstate = .associating →
      s.eapolstate ≠ .waiting14 → Session s k [.eapol dest frame true]
        (.goes () { s.toControl with eapolstate := .waiting34, authstate := .connecting })
  | overwrites (dest frame) (sent : Bool) : s.answers k = false → s.authstate = .associating →
      s.eapolstate ≠ .waiting14 → Session s k [.eapol dest frame false, .nl .disconnect sent]
        (.goes () { s.toControl with authstate := .connecting })
  | packet1_ends {ks} (r : Bytes) : s.answers k = false → s.eapolstate = .waiting14 → Radio ks →
      Session s k (.call (.takePacket1 r) :: ks) .ends
  | packet1_early (r kck kek : Bytes) : s.answers k = false → s.eapolstate = .waiting14 →
      r.length = 8 → Session s k [.call (.takePacket1 r), .call (.pmkToPtk kck kek)]
        (.goes () { s.toControl.keyed r kck kek with eapolstate := .waiting24 })
  | packet1_sent (r kck kek dest frame) : s.answers k = true → s.eapolstate = .waiting14 →
      s.eapolsends = true → r.length = 8 →
      Session s k [.call (.takePacket1 r), .call (.pmkToPtk kck kek), .eapol dest frame true]
        (.goes () { s.toControl.keyed r kck kek with eapolstate := .waiting34 })
  | packet1_fails (r kck kek dest frame) {ks o} : s.answers k = false →
      s.eapolstate = .waiting14 → s.eapolsends = true → r.length = 8 →
      Leaves (s.toControl.keyed r kck kek) ks o →
      Session s k (.call (.takePacket1 r) :: .call (.pmkToPtk kck kek) :: .eapol dest frame false :: ks) o
  | packet3_sent (r dest frame) {ks o} : s.answers k = true → s.eapolstate = .waiting34 →
      r.length = 8 → Bytes.memcmp s.replay r < 0 →
      HandleConnect { s.toControl with replay := r, eapolstate := .negotiated } ks o →
      Session s k (.call (.takePacket3 s.KCK s.KEK r) :: .eapol dest frame true ::
        .call (.uploadPtk s.authstate) :: .call (.uploadGtk s.authstate r) :: ks) o
  | packet3_fails (r dest frame) {ks o} : s.answers k = false → s.eapolstate = .waiting34 →
      r.length = 8 → Bytes.memcmp s.replay r < 0 → Leaves { s.toControl with replay := r } ks o →
      Session s k (.call (.takePacket3 s.KCK s.KEK r) :: .eapol dest frame false :: ks) o
  | group1_sent (r dest frame) : s.answers k = true → s.eapolstate = .negotiated →
      r.length = 8 → Bytes.memcmp s.replay r < 0 →
      Session s k [.call (.takeGroup1 s.KCK s.KEK r), .eapol dest frame true,
        .call (.uploadGtk s.authstate r)] (.goes () { s.toControl with replay := r })
  | group1_fails (r dest frame) {ks o} : s.answers k = false → s.eapolstate = .negotiated →
      r.length = 8 → Bytes.memcmp s.replay r < 0 → Leaves { s.toControl with replay := r } ks o →
      Session s k (.call (.takeGroup1 s.KCK s.KEK r) :: .eapol dest frame false :: ks) o

theorem Frame.session {s : Daemon} {sender data : Bytes} {ks : List Act} {o : Outcome Unit Control}
    (h : Frame s sender data ks o) : Session s (.frame sender data) ks o := by
  have hans : s.answers (.frame sender data) = (s.verdict sender data = .taken && s.replies &&
      (s.eapolstate ≠ .waiting14 || s.random && s.eapolsends)) := rfl
  cases h with
  | ignored hv => exact .leaves (by simp [hans, hv]) ⟨.nil, .refl _⟩
  | aborts hv h => exact .leaves (by simp [hans, hv]) h.leaves
  | packet1_ends r hv hs hrand hq => exact .packet1_ends r (by simp [hans, hs, hrand]) hs hq.radio
  | packet1_early r kck kek hv hs hrand hr hsends =>
      exact .packet1_early r kck kek (by simp [hans, hs, hsends]) hs hr
  | packet1 r kck kek hv hs hrand hr hsends h =>
      cases h with
      | sent dest frame hok h =>
          obtain ⟨rfl, rfl⟩ := h
          exact .packet1_sent r kck kek dest frame (by simp [hans, hv, hok, hrand, hsends]) hs hsends hr
      | fails dest frame hno h =>
          exact .packet1_fails r kck kek dest frame (by simp [hans, hno]) hs hsends hr h.leaves
  | packet3 r hv hs hr hnew h =>
      cases h with
      | sent dest frame hok h =>
          cases h with
          | connects h => exact .packet3_sent r dest frame (by simp [hans, hv, hok, hs]) hs hr hnew h
      | fails dest frame hno h =>
          exact .packet3_fails r dest frame (by simp [hans, hno]) hs hr hnew h.leaves
  | group1 r hv hs hr hnew h =>
      cases h with
      | sent dest frame hok h =>
          obtain ⟨rfl, rfl⟩ := h
          exact .group1_sent r dest frame (by simp [hans, hv, hok, hs]) hs hr hnew
      | fails dest frame hno h =>
          exact .group1_fails r dest frame (by simp [hans, hno]) hs hr hnew h.leaves

theorem Netlink.GenEffect.session {s : Daemon} {msg : Netlink.Gen} {k : EventKind}
    (hk : s.answers k = false) {ks : List Act} {o : Outcome Unit Control}
    (h : Netlink.GenEffect s msg ks o) : Session s k ks o := by
  unfold Netlink.GenEffect at h
  cases hcmd : msg.cmd <;> simp only [hcmd] at h
  case triggerScan => exact .leaves hk (Stays.leaves h)
  case other => exact .leaves hk (Stays.leaves h)
  case newScanResults =>
    cases h with
    | stays => exact .leaves hk ⟨.nil, .refl _⟩
    | dumps seq _ => exact .leaves hk ⟨.nil, .same rfl rfl⟩
  case scanAborted =>
    cases h with
    | stays _ => exact .leaves hk ⟨.nil, .refl _⟩
    | aborts _ => exact .leaves hk ⟨.nil, .same rfl rfl⟩
  case authenticate =>
    cases h with
    | external _ => exact .leaves hk ⟨.nil, .refl _⟩
    | snaps _ _ => exact .snaps .external hk (by decide)
    | associates bssid freq ssid ies sent _ => exact .primes bssid freq ssid ies sent hk
  case associate =>
    cases h with
    | external _ => exact .leaves hk ⟨.nil, .refl _⟩
    | snaps _ _ => exact .snaps .external hk (by decide)
    | allows ha hs => exact .allows hk ha hs
    | sends dest frame ha hs _ => exact .sends dest frame hk ha hs
    | overwrites dest frame sent ha hs _ => exact .overwrites dest frame sent hk ha hs
  case connect =>
    cases h with
    | external _ => exact .leaves hk ⟨.nil, .refl _⟩
    | overwrites _ _ => exact .snaps .connected hk (by decide)
    | connects _ => exact .leaves hk ⟨.nil, .ended rfl (by simp)⟩
  case disconnect =>
    cases h with
    | idle _ => exact .leaves hk ⟨.nil, .refl _⟩
    | disconnects _ h => exact .resets .idle hk (by decide) h.leaves

theorem EventKind.session {s : Daemon} {k : EventKind} {ks : List Act} {o : Outcome Unit Control}
    (h : k.effect s ks o) : Session s k ks o := by
  cases k with
  | frame sender data => exact Frame.session h
  | netlink msg =>
      cases msg with
      | done => exact .leaves rfl (Netlink.GenlDone.leaves h)
      | err seq err => exact .leaves rfl (Netlink.GenlError.leaves h)
      | gen msg =>
          simp only [EventKind.effect, Netlink.MsgEffect] at h
          split at h
          · exact Netlink.GenEffect.session rfl h
          · exact .leaves rfl (Stays.leaves h)
      | other => exact .leaves rfl (Stays.leaves h)
  | connMsg cn msg => exact .leaves rfl (Cntrl.CmdEffect.leaves h)
  | rfkill re => exact .leaves rfl (RfkillEffect.leaves h)
  | timer => exact .leaves rfl (TimerExpired.leaves h)
  | sigterm => exact .leaves rfl (Xshutdown.leaves h)
  | netlinkLost | controlLost | pollError =>
      obtain ⟨rfl, hq⟩ := h
      exact .leaves rfl hq.radio
  | turn =>
      obtain ⟨rfl, rfl⟩ := h
      refine .leaves rfl ?_
      split
      · exact .nil
      · exact ⟨.nil, .refl _⟩
  | connEnd | connHup | frameError | rawsockLost | accept | rfkillLost | reap =>
      exact .leaves rfl (Stays.leaves h)

theorem System.step_session (x : System) (e : Event) :
    Session (x.before e) e.kind (control.outputs (x.step e).2) (x.step e).1.outcome :=
  EventKind.session (step_effect x e)

end Wsupp

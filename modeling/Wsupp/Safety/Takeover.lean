import Wsupp.Control.Turns

/-!
# Takeovers

Where another program takes the interface over, the daemon should keep its hands off
it. Errors, packets and the timer disconnect without looking at the state, so what
is left over from before the takeover breaks this.

Which events do so is a predicate of the state and the event: a command that failed,
a packet that aborts, the timer, a switch that brings the device back without its
interface, and the errors that end the process. After a takeover the mode is the
neutral one, which is the invariant. Over any run nothing is sent after a takeover
that no client has asked for if and only if no such event comes then.
-/
namespace Wsupp
open Reactive

def Act.meddles : Act → Bool
  | .nl (.authenticate ..) _ | .nl (.associate ..) _ | .nl .disconnect _ => true
  | .nlAck .disconnect _ => true
  | _ => false

def EventKind.asked : EventKind → Bool
  | .connMsg .. | .sigterm => true
  | _ => false

/-- The events that lead to a disconnect after a takeover. -/
def Daemon.meddles (s : Daemon) : EventKind → Bool
  | .netlink (.err seq err) => s.failsAuth seq err
  | .frame sender data => s.frameAborts sender data || s.frameQuits sender data
  | .rfkill re => s.watches re && !(re.soft || re.hard) && !s.ifaceUp
  | .timer | .netlinkLost | .controlLost | .pollError => true
  | _ => false

/-- After a takeover the daemon is in the neutral mode. -/
def Control.TakenOver (c : Control) : Prop := c.authstate = .external → c.opermode = .neutral

/-- An event after a takeover either meddles or leaves things as they are, and the mode
is the neutral one afterwards as well. -/
structure HandsOff (s : Daemon) (k : EventKind) (ks : List Act) (o : Outcome Unit Control) : Prop where
  meddles : ks.any Act.meddles = s.meddles k
  neutral : o.Returns Control.TakenOver

section External
variable {s : Daemon} {k : EventKind} {c : Control} {ks : List Act} {o : Outcome Unit Control}

theorem Control.TakenOver.of_ne (h : c.authstate ≠ .external) : c.TakenOver := fun ha => absurd ha h

theorem Reassess.external (h : Reassess c ks o) (ha : c.authstate = .external) :
    ks = [] ∧ o = .goes () c := by
  have hready : ¬ c.Ready := fun hr => absurd (ha.symm.trans hr.1) (by decide)
  cases h with
  | stays _ => exact ⟨rfl, rfl⟩
  | starts _ _ _ _ _ hr => exact absurd hr hready
  | ends _ hr => exact absurd hr hready
  | gives_up _ hr => exact absurd hr hready
  | waits _ _ hr => exact absurd hr hready

theorem Abort.external (h : Abort c ks o) (ha : c.authstate = .external) :
    ks.any Act.meddles = true ∧ o.Returns Control.TakenOver := by
  cases h with
  | disconnects _ _ _ _ => exact ⟨rfl, .of_ne (by simp)⟩
  | stays h => rcases h with h | h <;> rw [ha] at h <;> cases h
  | reassesses h _ => rw [ha] at h; cases h

theorem Quits.external (h : Quits c ks) (ha : c.authstate = .external) :
    ks.any Act.meddles = true := by
  cases h with
  | idle h => rw [ha] at h; cases h
  | disconnects _ _ => rfl

theorem HandleDisconnect.neutral (h : HandleDisconnect c ks o) (hm : c.opermode = .neutral) :
    ks = [] ∧ o = .goes () { c with timerset := false } := by
  cases h with
  | gives_up _ => exact ⟨rfl, rfl⟩
  | exits h => rcases h with h | h <;> rw [hm] at h <;> cases h
  | rescans _ _ h => rcases h with h | h <;> rw [hm] at h <;> cases h
  | tries_other h _ => rcases h with h | h <;> rw [hm] at h <;> cases h

theorem FrameLink.external {sender data : Bytes} (h : FrameLink s sender data ks o)
    (ha : s.authstate = .external) (hm : s.opermode = .neutral) :
    HandsOff s (.frame sender data) ks o := by
  have hmute {ks : List Act} (h : Mute ks) : ks.any Act.meddles = false := by
    refine h.any fun a ha => ?_
    cases a with
    | nl | nlAck => rfl
    | _ => cases ha
  cases h with
  | aborts c pre hab hb hpre h =>
      obtain ⟨hks, ho⟩ := h.external (hb.authstate.trans ha)
      exact ⟨by simp [Daemon.meddles, hab, hks], ho⟩
  | quits pre hq hpre h => exact ⟨by simp [Daemon.meddles, hq, h.external ha], trivial⟩
  | ends hab hq h => exact ⟨by rw [hmute h]; simp [Daemon.meddles, hab, hq], trivial⟩
  | stays hab hq h hb =>
      exact ⟨by rw [hmute h]; simp [Daemon.meddles, hab, hq], fun _ => hb.opermode.trans hm⟩
  | connects hab hq h hb =>
      refine ⟨by rw [hmute h]; simp [Daemon.meddles, hab, hq], fun _ => hb.opermode.trans ?_⟩
      simp [Control.handleConnect, hm]

theorem Netlink.GenlDone.external (h : Netlink.GenlDone s ks o) (ha : s.authstate = .external)
    (hm : s.opermode = .neutral) : HandsOff s (.netlink .done) ks o := by
  have hrec : s.toControl.resetScan.reconnecting.opermode = .neutral := by
    simp [Control.reconnecting, Control.resetScan, hm]
  cases h with
  | no_dump _ => exact ⟨rfl, fun _ => hm⟩
  | reconnects _ _ _ h =>
      cases h with
      | busy _ => exact ⟨rfl, fun _ => hrec⟩
      | starts _ _ _ _ hidle _ _ => exact absurd (ha.symm.trans hidle) (by decide)
      | ends hidle _ _ => exact absurd (ha.symm.trans hidle) (by decide)
  | misses _ _ _ h =>
      obtain ⟨rfl, rfl⟩ := h.external ha
      exact ⟨rfl, fun _ => hrec⟩
  | reassesses _ _ _ h =>
      obtain ⟨rfl, rfl⟩ := h.external ha
      exact ⟨rfl, fun _ => hm⟩
  | rests _ _ _ => exact ⟨rfl, fun _ => hm⟩

theorem Netlink.GenlError.external {seq : ℕ} {err : Int}
    (h : Netlink.GenlError s.toControl seq err ks o) (ha : s.authstate = .external)
    (hm : s.opermode = .neutral) : HandsOff s (.netlink (.err seq err)) ks o := by
  cases h with
  | killed hdown _ => exact ⟨by simp [Daemon.meddles, Daemon.failsAuth, hdown], .of_ne (by simp)⟩
  | netdown hdown _ => exact ⟨by simp [Daemon.meddles, Daemon.failsAuth, hdown], .of_ne (by simp)⟩
  | scan_ack _ hseq => exact ⟨by simp [Daemon.meddles, Daemon.failsAuth, hseq], fun _ => hm⟩
  | scan_fails _ _ hseq => exact ⟨by simp [Daemon.meddles, Daemon.failsAuth, hseq], fun _ => hm⟩
  | idle _ _ h => rw [ha] at h; cases h
  | disconnect_fails _ _ h _ => rw [ha] at h; cases h
  | rescans _ _ _ h _ => rw [ha] at h; cases h
  | aborts hdown hseq _ _ _ h =>
      obtain ⟨hks, ho⟩ := h.external ha
      exact ⟨by simp [Daemon.meddles, Daemon.failsAuth, hdown, hseq, hks], ho⟩

theorem Netlink.GenEffect.external {msg : Netlink.Gen} (h : Netlink.GenEffect s msg ks o)
    (ha : s.authstate = .external) (hm : s.opermode = .neutral) :
    HandsOff s (.netlink (.gen msg)) ks o := by
  unfold Netlink.GenEffect at h
  cases hcmd : msg.cmd <;> simp only [hcmd] at h
  case triggerScan => obtain ⟨rfl, rfl⟩ := h; exact ⟨rfl, fun _ => hm⟩
  case other => obtain ⟨rfl, rfl⟩ := h; exact ⟨rfl, fun _ => hm⟩
  case newScanResults => cases h <;> exact ⟨rfl, fun _ => hm⟩
  case scanAborted => cases h <;> exact ⟨rfl, fun _ => hm⟩
  case authenticate =>
    cases h with
    | external _ => exact ⟨rfl, fun _ => hm⟩
    | snaps h _ => exact absurd ha h
    | associates _ _ _ _ _ h => rw [ha] at h; cases h
  case associate =>
    cases h with
    | external _ => exact ⟨rfl, fun _ => hm⟩
    | snaps h _ => exact absurd ha h
    | allows h _ | sends _ _ h _ _ | overwrites _ _ _ h _ _ => rw [ha] at h; cases h
  case connect =>
    cases h with
    | external _ => exact ⟨rfl, fun _ => hm⟩
    | overwrites h _ => exact absurd ha h
    | connects h => rw [ha] at h; cases h
  case disconnect =>
    cases h with
    | idle _ => exact ⟨rfl, fun _ => hm⟩
    | disconnects _ h =>
        obtain ⟨rfl, rfl⟩ := HandleDisconnect.neutral h hm
        exact ⟨rfl, .of_ne (by simp)⟩

/-- After a takeover, what meddles is known of every event that nobody asked for. -/
theorem EventKind.external (h : k.effect s ks o) (hk : k.asked = false)
    (ha : s.authstate = .external) (hm : s.opermode = .neutral) : HandsOff s k ks o := by
  cases k with
  | connMsg | sigterm => cases hk
  | netlink msg =>
      cases msg with
      | done => exact Netlink.GenlDone.external h ha hm
      | err seq err => exact Netlink.GenlError.external h ha hm
      | gen msg =>
          simp only [EventKind.effect, Netlink.MsgEffect] at h
          split at h
          · exact Netlink.GenEffect.external h ha hm
          · obtain ⟨rfl, rfl⟩ := h
            exact ⟨rfl, fun _ => hm⟩
      | other => obtain ⟨rfl, rfl⟩ := h; exact ⟨rfl, fun _ => hm⟩
  | frame sender data => exact (Frame.link h).external ha hm
  | timer =>
      cases h with
      | exits h _ => rw [ha] at h; cases h
      | idles h _ => rw [ha] at h; cases h
      | bg_scans _ h => rw [ha] at h; cases h
      | aborts _ _ _ h =>
          obtain ⟨hks, ho⟩ := h.external ha
          exact ⟨hks, ho⟩
      | fg_scans _ _ h => rw [ha] at h; cases h
  | rfkill re =>
      cases h with
      | other hw => exact ⟨by simp [Daemon.meddles, hw], fun _ => hm⟩
      | kills _ hoff => exact ⟨by simp [Daemon.meddles, hoff], fun _ => hm⟩
      | quits hw hoff hup hq =>
          exact ⟨by simp [Daemon.meddles, hw, hoff, hup, hq.external ha], trivial⟩
      | revives _ _ hup _ => exact ⟨by simp [Daemon.meddles, hup], fun _ => hm⟩
      | rescans _ _ _ _ _ h _ => rw [ha] at h; cases h
      | reassesses _ _ _ h _ _ => rw [ha] at h; cases h
  | netlinkLost | controlLost | pollError =>
      obtain ⟨rfl, hq⟩ := h
      exact ⟨hq.external ha, trivial⟩
  | turn =>
      obtain ⟨rfl, rfl⟩ := h
      refine ⟨rfl, ?_⟩
      split
      · trivial
      · exact fun _ => hm
  | connEnd | connHup | frameError | rawsockLost | accept | rfkillLost | reap =>
      obtain ⟨rfl, rfl⟩ := h
      exact ⟨rfl, fun _ => hm⟩

/-- What is asked for ends the takeover or leaves the mode as it is. -/
theorem EventKind.asked_takenOver (h : k.effect s ks o) (hk : k.asked = true)
    (ha : s.authstate = .external) (hm : s.opermode = .neutral) : o.Returns Control.TakenOver := by
  cases k with
  | connMsg cn msg =>
      simp only [EventKind.effect, Cntrl.CmdEffect] at h
      cases hcmd : msg.cmd <;> simp only [hcmd] at h
      case scan => obtain ⟨-, seq, rfl⟩ := h; exact fun _ => by simpa using hm
      case neutral =>
        cases h with
        | refuses _ => exact fun _ => rfl
        | disconnects _ _ _ _ => exact .of_ne (by simp)
      case connect =>
        cases h with
        | refuses => exact fun _ => hm
        | accepts hr _ => exact absurd (ha.symm.trans hr.1) (by decide)
      case forget =>
        cases h with
        | goes => exact fun _ => hm
        | ends => trivial
      all_goals obtain ⟨-, rfl⟩ := h; exact fun _ => hm
  | sigterm =>
      cases h with
      | second _ _ => trivial
      | exits _ _ h => rw [ha] at h; rcases h with h | h | h <;> cases h
      | requests _ _ _ _ _ _ => exact .of_ne (by simp)
  | _ => cases hk

theorem Netlink.GenEffect.takenOver {msg : Netlink.Gen} (h : Netlink.GenEffect s msg ks o)
    (ha : s.authstate ≠ .external)
    (hcmd : msg.cmd = .authenticate ∨ msg.cmd = .associate ∨ msg.cmd = .connect) :
    o.Returns Control.TakenOver := by
  unfold Netlink.GenEffect at h
  rcases hcmd with hcmd | hcmd | hcmd <;> simp only [hcmd] at h
  · cases h with
    | external h => exact absurd h ha
    | snaps _ _ => exact fun _ => rfl
    | associates _ _ _ _ _ _ => exact .of_ne (by simp)
  · cases h with
    | external h => exact absurd h ha
    | snaps _ _ => exact fun _ => rfl
    | allows | sends | overwrites => exact .of_ne (by simp)
  · cases h with
    | external h => exact absurd h ha
    | overwrites | connects => exact .of_ne (by simp)

theorem Turns.takenOver (h : Turns s k ks o) (ha : s.authstate ≠ .external) :
    o.Returns Control.TakenOver := by
  cases h with
  | keeps h => exact .of_ne (h ▸ ha)
  | falls _ h => exact .of_ne (by rcases h with h | h <;> simp [h])
  | starts _ _ _ _ _ h => exact .of_ne (by simp [h])
  | gives_up _ _ h => exact .of_ne (by simp [h])
  | ends => trivial

theorem EventKind.takenOver (hs : s.toControl.TakenOver) (h : k.effect s ks o) :
    o.Returns Control.TakenOver := by
  by_cases ha : s.authstate = .external
  · cases hk : k.asked with
    | true => exact EventKind.asked_takenOver h hk ha (hs ha)
    | false => exact (EventKind.external h hk ha (hs ha)).neutral
  cases hneg : s.negotiates k with
  | true =>
      obtain ⟨msg, rfl, hifi, hcmd⟩ := Daemon.negotiates_iff.mp hneg
      simp only [EventKind.effect, Netlink.MsgEffect, hifi, if_pos] at h
      exact Netlink.GenEffect.takenOver h ha hcmd
  | false =>
      exact (EventKind.turns hneg h).takenOver ha

end External

/-- Over any run, the daemon keeps its hands off after a takeover exactly if no event
comes then that meddles: what a client asks for does not count, and neither does what
the kernel reports of the other program's connection. -/
theorem hands_off_iff {x : System} (hx : x.Initial) {es : List Event} (hv : supplicant.Valid x es) :
    supplicant.Every (fun y e => y.authstate = .external → e.kind.asked = false →
      (y.step e).2.any Act.meddles = false) x es ↔
    supplicant.Every (fun y e => y.authstate = .external → e.kind.asked = false →
      (y.before e).meddles e.kind = false) x es := by
  refine Machine.every_congr (I := fun y => y.halted = false → y.toControl.TakenOver) ?_ ?_ ?_ hv
  · intro y e hy he _
    exact (System.outcome_returns _).mp (EventKind.takenOver (s := y.before e) (hy he.1) (y.step_effect e))
  · intro y e hy he
    have hshown (a : Act) (h : a.meddles = true) : a.shown = true := by
      cases a with
      | nl cmd sent => cases cmd <;> first | rfl | cases h
      | nlAck cmd sent => rfl
      | _ => cases h
    refine forall_congr' fun ha => forall_congr' fun hk => ?_
    have hands := EventKind.external (s := y.before e) (y.step_effect e) hk ha (hy he.1 ha)
    rw [← control_any hshown, hands.meddles]
  · obtain ⟨-, mode, freq, seq, -, hc⟩ := hx.starts
    exact fun _ => hc ▸ .of_ne (by simp)

namespace Sample

/-- Another program associates while the answer to AUTHENTICATE is waited for. -/
def takenOver : List Event := joining ++ [notice .associate]

end Sample

theorem takenOver_hands_off : supplicant.Every (fun y e => y.authstate = .external →
    e.kind.asked = false → (y.step e).2.any Act.meddles = false) Sample.start
      (Sample.takenOver ++ [Sample.notice .connect, Sample.event .turn]) :=
  (hands_off_iff Sample.start_initial (by decide +kernel)).mpr (by decide +kernel)

/-- The error of the AUTHENTICATE sent before the takeover comes late, and the daemon
disconnects what the other program has connected. -/
theorem takenOver_meddles : Sample.start.Initial ∧
    supplicant.Valid Sample.start (Sample.takenOver ++ [Sample.event (.netlink (.err 5 (-16)))]) ∧
    ¬ supplicant.Every (fun y e => y.authstate = .external → e.kind.asked = false →
      (y.step e).2.any Act.meddles = false) Sample.start
        (Sample.takenOver ++ [Sample.event (.netlink (.err 5 (-16)))]) :=
  ⟨Sample.start_initial, by decide +kernel, by decide +kernel⟩

end Wsupp

import Wsupp.Control.Link

/-!
# Retries

A daemon that is to stay connected must come back to it by itself. While nothing is
going on, only the poll timer can make it do so. The events that leave it idle
without the timer are four, and each may come when the timer is not set.

The invariant ties the timer to the mode, to the scan and to the state of the
connection: somebody has still to answer, or the timer is set. It is kept by every
event but these four, so over a run the daemon always has a way to go on exactly if
none of them comes at such a moment. Commands the kernel never saw make no
difference.
-/
namespace Wsupp
open Reactive

/-- Told to stay connected, with nothing under way, the daemon has its timer set. -/
def Control.Retries (c : Control) : Prop :=
  c.opermode = .active ∨ c.opermode = .rescan → c.authstate = .idle → c.scanstate = .idle →
    c.rfkilled = false → c.timerset = true

instance (c : Control) : Decidable c.Retries := inferInstanceAs (Decidable (_ ∨ _ → _))

/-- An error of the scan that is under way. -/
def Daemon.failsScan (s : Daemon) (seq : ℕ) (err : Int) : Bool :=
  err ≠ -ENETDOWN && err ≠ 0 && seq = s.scanseq

/-- The daemon is idle without a timer, and the scan it may be waiting for ends
with nothing to follow, or the device comes back. -/
def Daemon.strands (s : Daemon) (k : EventKind) : Bool :=
  (s.opermode = .active || s.opermode = .rescan) && s.authstate = .idle && !s.timerset && match k with
  | .netlink .done => s.scanstate = .scandump && !s.rfkilled && !s.scanreq.reconnectCurrent &&
      !s.scanreq.connectSomething
  | .netlink (.err seq err) => s.failsScan seq err && !s.rfkilled
  | .netlink (.gen msg) => msg.ifi = some s.ifindex && msg.cmd = .scanAborted &&
      s.scanstate = .scanning && !s.rfkilled
  | .rfkill re => s.watches re && !(re.soft || re.hard) && s.ifaceUp && s.scanstate = .idle
  | _ => false

namespace Control.Retries
variable {c : Control}

theorem of_mode (h : ¬ (c.opermode = .active ∨ c.opermode = .rescan)) : c.Retries :=
  fun hm => absurd hm h

theorem of_authstate (h : c.authstate ≠ .idle) : c.Retries := fun _ ha => absurd ha h

theorem of_scanstate (h : c.scanstate ≠ .idle) : c.Retries := fun _ _ hs => absurd hs h

theorem of_rfkilled (h : c.rfkilled = true) : c.Retries := fun _ _ _ hk => by
  rw [h] at hk
  cases hk

theorem of_timerset (h : c.timerset = true) : c.Retries := fun _ _ _ _ => h

theorem beside {c' : Control} (h : c.Retries) (hb : Beside c c') : c'.Retries := by
  unfold Retries
  rw [hb.opermode, hb.authstate, hb.scanstate, hb.rfkilled, hb.timerset]
  exact h

end Control.Retries

section Retries
variable {s : Daemon} {c : Control} {ks : List Act} {o : Outcome Unit Control}

theorem Reassess.retries (h : Reassess c ks o) : o.Returns Control.Retries := by
  cases h with
  | stays h =>
      intro hm ha hs _
      rcases h with h | h
      · simp [h] at hm
      · exact absurd ⟨ha, hs⟩ h
  | starts _ _ _ _ _ _ => exact .of_authstate (by simp)
  | ends _ _ => trivial
  | gives_up _ _ => exact .of_mode (by simp)
  | waits _ _ _ => exact .of_timerset rfl

theorem Abort.retries (h : Abort c ks o) : o.Returns Control.Retries := by
  cases h with
  | disconnects _ _ _ _ => exact .of_authstate (by simp)
  | stays h => exact .of_authstate (by rcases h with h | h <;> simp [h])
  | reassesses _ h => exact h.retries

theorem HandleDisconnect.retries (h : HandleDisconnect c ks o) : o.Returns Control.Retries := by
  cases h with
  | exits _ => exact .of_mode (by simp)
  | rescans _ _ _ => exact .of_scanstate (Control.startScan_scanstate _ _ _)
  | tries_other _ h => exact h.retries
  | gives_up h => exact .of_mode (by rcases h with h | h <;> simp [h])

theorem FrameLink.retries {sender data : Bytes} (hs : s.toControl.Retries)
    (h : FrameLink s sender data ks o) : o.Returns Control.Retries := by
  cases h with
  | aborts _ _ _ _ _ h => exact h.retries
  | quits | ends => trivial
  | stays _ _ _ hb => exact hs.beside hb
  | connects _ _ _ hb => exact .of_timerset hb.timerset

theorem TimerExpired.retries (h : TimerExpired c ks o) : o.Returns Control.Retries := by
  cases h with
  | exits _ _ => exact .of_mode (by simp)
  | idles _ hk => exact .of_rfkilled hk
  | bg_scans _ _ => exact .of_timerset rfl
  | aborts _ _ _ h => exact h.retries
  | fg_scans _ _ _ => exact .of_scanstate (Control.startScan_scanstate _ _ _)

theorem Cntrl.CmdEffect.retries {msg : Cntrl.Msg} (hc : c.Retries) (h : Cntrl.CmdEffect c msg ks o) :
    o.Returns Control.Retries := by
  unfold Cntrl.CmdEffect at h
  cases hcmd : msg.cmd <;> simp only [hcmd] at h
  case status => obtain ⟨-, rfl⟩ := h; exact hc
  case device => obtain ⟨-, rfl⟩ := h; exact hc
  case other => obtain ⟨-, rfl⟩ := h; exact hc
  case scan =>
    obtain ⟨-, seq, rfl⟩ := h
    exact .of_scanstate (Control.startScan_scanstate _ _ _)
  case neutral => cases h <;> exact .of_mode (by simp)
  case connect =>
    cases h with
    | refuses => exact hc
    | accepts _ h => exact h.retries
  case forget =>
    cases h with
    | goes => exact hc
    | ends => trivial

theorem Xshutdown.retries (h : Xshutdown c ks o) : o.Returns Control.Retries := by
  cases h with
  | second _ _ => trivial
  | exits _ _ _ => exact .of_mode (by simp)
  | requests _ _ _ _ _ _ => exact .of_mode (by simp)

theorem Control.resetScan_retries (c : Control) : c.resetScan.Retries ↔
    ((c.opermode = .active || c.opermode = .rescan) && c.authstate = .idle && !c.timerset &&
      !c.rfkilled) = false := by
  unfold Control.Retries Control.resetScan
  cases c.timerset <;> cases c.rfkilled <;> simp

theorem Netlink.GenlDone.retries_iff (hs : s.toControl.Retries) (h : Netlink.GenlDone s ks o) :
    o.Returns Control.Retries ↔ s.strands (.netlink .done) = false := by
  cases h with
  | no_dump hd => exact iff_of_true hs (by simp [Daemon.strands, hd])
  | reconnects hd hr _ h =>
      refine iff_of_true ?_ (by simp [Daemon.strands, hr])
      cases h with
      | busy hb => exact .of_authstate (hb.resolve_right (not_not.mpr rfl))
      | starts _ _ _ _ _ _ _ => exact .of_authstate (by simp)
      | ends _ _ _ => trivial
  | misses hd hr _ h => exact iff_of_true h.retries (by simp [Daemon.strands, hr])
  | reassesses hd hr hc h => exact iff_of_true h.retries (by simp [Daemon.strands, hc])
  | rests hd hr hc =>
      refine s.toControl.resetScan_retries.trans ?_
      simp [Daemon.strands, hd, hr, hc]

theorem Netlink.GenlError.retries_iff {seq : ℕ} {err : Int} (hs : s.toControl.Retries)
    (h : Netlink.GenlError s.toControl seq err ks o) :
    o.Returns Control.Retries ↔ s.strands (.netlink (.err seq err)) = false := by
  have hother (hf : s.failsScan seq err = false) : s.strands (.netlink (.err seq err)) = false := by
    simp [Daemon.strands, hf]
  cases h with
  | killed hdown hk => exact iff_of_true (.of_rfkilled hk) (hother (by simp [Daemon.failsScan, hdown]))
  | netdown hdown _ =>
      exact iff_of_true (.of_authstate (by simp)) (hother (by simp [Daemon.failsScan, hdown]))
  | scan_ack h0 _ => exact iff_of_true hs (hother (by simp [Daemon.failsScan, h0]))
  | scan_fails hdown h0 hseq =>
      refine s.toControl.resetScan_retries.trans ?_
      simp [Daemon.strands, Daemon.failsScan, hdown, h0, hseq]
  | idle _ hseq _ => exact iff_of_true hs (hother (by simp [Daemon.failsScan, hseq]))
  | disconnect_fails _ hseq _ h =>
      exact iff_of_true h.retries (hother (by simp [Daemon.failsScan, hseq]))
  | rescans freq seq' hseq _ _ =>
      exact iff_of_true (.of_scanstate (Control.startScan_scanstate _ _ _))
        (hother (by simp [Daemon.failsScan, hseq]))
  | aborts _ hseq _ _ _ h =>
      exact iff_of_true h.retries (hother (by simp [Daemon.failsScan, hseq]))

theorem Netlink.GenEffect.retries_iff {msg : Netlink.Gen} (hs : s.toControl.Retries)
    (hifi : msg.ifi = some s.ifindex) (h : Netlink.GenEffect s msg ks o) :
    o.Returns Control.Retries ↔ s.strands (.netlink (.gen msg)) = false := by
  unfold Netlink.GenEffect at h
  cases hcmd : msg.cmd <;> simp only [hcmd] at h
  case scanAborted =>
    cases h with
    | stays hno => exact iff_of_true hs (by simp [Daemon.strands, hno])
    | aborts hscan =>
        refine s.toControl.resetScan_retries.trans ?_
        simp [Daemon.strands, hifi, hcmd, hscan]
  all_goals refine iff_of_true ?_ (by simp [Daemon.strands, hcmd])
  case triggerScan => obtain ⟨-, rfl⟩ := h; exact hs
  case other => obtain ⟨-, rfl⟩ := h; exact hs
  case newScanResults =>
    cases h with
    | stays => exact hs
    | dumps _ _ => exact .of_scanstate (by simp)
  case authenticate =>
    cases h with
    | external _ => exact hs
    | snaps _ _ => exact .of_authstate (by simp)
    | associates _ _ _ _ _ _ => exact .of_authstate (by simp)
  case associate =>
    cases h with
    | external _ => exact hs
    | snaps | allows | sends | overwrites => exact .of_authstate (by simp)
  case connect =>
    cases h with
    | external _ => exact hs
    | overwrites | connects => exact .of_authstate (by simp)
  case disconnect =>
    cases h with
    | idle _ => exact hs
    | disconnects _ h => exact h.retries

theorem RfkillEffect.retries_iff {re : RfkillEvent} (hs : s.toControl.Retries)
    (h : RfkillEffect s re ks o) :
    o.Returns Control.Retries ↔ s.strands (.rfkill re) = false := by
  cases h with
  | other hw => exact iff_of_true hs (by simp [Daemon.strands, hw])
  | kills _ hoff => exact iff_of_true (.of_rfkilled rfl) (by simp [Daemon.strands, hoff])
  | quits _ _ hup _ => exact iff_of_true trivial (by simp [Daemon.strands, hup])
  | revives hw hoff hup _ =>
      change Control.Retries { s.toControl with rfkilled := false } ↔ _
      unfold Control.Retries Daemon.strands
      cases s.timerset <;> simp [hw, hoff, hup]
  | rescans freq seq _ _ _ hdown _ =>
      exact iff_of_true (.of_scanstate (Control.startScan_scanstate _ _ _))
        (by simp [Daemon.strands, hdown])
  | reassesses _ _ _ hdown _ h => exact iff_of_true h.retries (by simp [Daemon.strands, hdown])

/-- An event strands the daemon exactly if it is one of the four. -/
theorem EventKind.retries_iff {k : EventKind} (hs : s.toControl.Retries) (h : k.effect s ks o) :
    o.Returns Control.Retries ↔ s.strands k = false := by
  cases k with
  | netlink msg =>
      cases msg with
      | done => exact Netlink.GenlDone.retries_iff hs h
      | err seq err => exact Netlink.GenlError.retries_iff hs h
      | gen msg =>
          simp only [EventKind.effect, Netlink.MsgEffect] at h
          split at h
          · next hifi => exact Netlink.GenEffect.retries_iff hs hifi h
          · next hifi =>
              obtain ⟨-, rfl⟩ := h
              exact iff_of_true hs (by simp [Daemon.strands, hifi])
      | other => obtain ⟨-, rfl⟩ := h; exact iff_of_true hs (Bool.and_false _)
  | rfkill re => exact RfkillEffect.retries_iff hs h
  | frame sender data => exact iff_of_true ((Frame.link h).retries hs) (Bool.and_false _)
  | connMsg cn msg => exact iff_of_true (Cntrl.CmdEffect.retries hs h) (Bool.and_false _)
  | timer => exact iff_of_true (TimerExpired.retries h) (Bool.and_false _)
  | sigterm => exact iff_of_true (Xshutdown.retries h) (Bool.and_false _)
  | netlinkLost | controlLost | pollError =>
      obtain ⟨rfl, -⟩ := h
      exact iff_of_true trivial (Bool.and_false _)
  | turn =>
      obtain ⟨-, rfl⟩ := h
      refine iff_of_true ?_ (Bool.and_false _)
      split
      · trivial
      · exact hs
  | connEnd | connHup | frameError | rawsockLost | accept | rfkillLost | reap =>
      obtain ⟨-, rfl⟩ := h
      exact iff_of_true hs (Bool.and_false _)

end Retries

/-- Over any run, the daemon always has a way to go on exactly if no step strands it.
Commands that could not be sent make no difference, since nobody notices. -/
theorem retries_always_iff {x : System} (hx : x.Initial) {es : List Event}
    (hv : supplicant.Valid x es) :
    supplicant.Always (fun y => y.halted = false → y.toControl.Retries) x es ↔
      supplicant.Every (fun y e => (y.before e).strands e.kind = false) x es := by
  refine Machine.always_iff_every (I := fun _ => True) (fun _ _ _ _ => trivial) ?_ trivial ?_ hv
  · intro y e _ hy he
    rw [← EventKind.retries_iff (s := y.before e) (hy he.1) (y.step_effect e)]
    exact (System.outcome_returns _).symm
  · obtain ⟨-, mode, freq, seq, -, hc⟩ := hx.starts
    exact fun _ => hc ▸ .of_timerset (by simp)

namespace Sample

/-- A station that has been connected to a network before, and is told to be again. -/
def returning : System :=
  .started (some ssid)
    (.fresh [2, 0, 0, 0, 0, 9] 3 (List.replicate 64 0x30 ++ [0x20] ++ ssid ++ [0x0A]) {})

theorem returning_initial : returning.Initial := ⟨[2, 0, 0, 0, 0, 9], 3, _, some ssid, {}, rfl, rfl⟩

def rfkillSwitch (soft : Bool) : Event :=
  event (.rfkill { idx := 0, wlan := true, soft := soft, hard := false })

/-- The network is not found, and the next scan is waited for. -/
def waiting : List Event := [notice .newScanResults, event (.netlink .done)]

end Sample

theorem waiting_retries : supplicant.Always (fun y => y.halted = false → y.toControl.Retries)
    Sample.returning Sample.waiting :=
  (retries_always_iff Sample.returning_initial (by decide +kernel)).mpr (by decide +kernel)

/-- Rfkill on and off while the station is idle leaves the daemon active, with the
device back, but with no scan, no timer and nothing to wait for. -/
theorem rfkillSwitch_strands : Sample.returning.Initial ∧
    supplicant.Valid Sample.returning
      (Sample.waiting ++ [Sample.rfkillSwitch true, Sample.rfkillSwitch false]) ∧
    ¬ supplicant.Always (fun y => y.halted = false → y.toControl.Retries) Sample.returning
      (Sample.waiting ++ [Sample.rfkillSwitch true, Sample.rfkillSwitch false]) :=
  ⟨Sample.returning_initial, by decide +kernel, by decide +kernel⟩

end Wsupp

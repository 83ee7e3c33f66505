import Wsupp.Control.Step

/-!
# The connection in one step

What the rest of a step says about the connection when the EAPOL machine is left
out: which packets give the connection up, and which events may send AUTHENTICATE. A
packet gives it up if it makes no sense to the machine or cannot be answered;
whatever else starts a connection has been asked to.

The predicates are functions of the state before the event and of the event, so
results about whole runs can name the events they exclude. They come from the
relations of the key negotiation by forgetting the keys.
-/
namespace Wsupp
open Reactive

/-- Commands to the kernel and takeovers: what a connection is about. -/
def Act.link : Act → Bool
  | .nl .. | .nlAck .. | .call .snapToDisabled => true
  | _ => false

def Act.authenticates : Act → Bool
  | .nl (.authenticate ..) _ => true
  | _ => false

def Mute (ks : List Act) : Prop := ∀ a ∈ ks, a.link = false

theorem Mute.nil : Mute [] := fun _ h => nomatch h

theorem Mute.cons {a : Act} {ks : List Act} (ha : a.link = false) (h : Mute ks) : Mute (a :: ks) := by
  intro b hb
  rcases List.mem_cons.mp hb with rfl | hb
  · exact ha
  · exact h b hb

/-- A kind of output about the connection does not occur in mute ones. -/
theorem Mute.any {p : Act → Bool} (hp : ∀ a, p a = true → a.link = true) {ks : List Act}
    (h : Mute ks) : ks.any p = false := by
  rw [List.any_eq_false]
  intro a ha hpa
  have hlink := hp a hpa
  rw [h a ha] at hlink
  cases hlink

theorem Act.authenticates_link (a : Act) (h : a.authenticates = true) : a.link = true := by
  cases a with
  | nl cmd sent => rfl
  | _ => cases h

/-- From one to the other only the EAPOL machine has moved, with the keys it holds.
Everything about the connection, the scan and the mode is the same. -/
structure Beside (c c' : Control) : Prop where
  opermode : c'.opermode = c.opermode
  authstate : c'.authstate = c.authstate
  scanstate : c'.scanstate = c.scanstate
  timerset : c'.timerset = c.timerset
  rfkilled : c'.rfkilled = c.rfkilled

section StartScan
variable (c : Control) (freq : Int) (seq : ℕ)

@[simp] theorem Control.startScan_opermode : (c.startScan freq seq).opermode = c.opermode := by
  unfold startScan
  split <;> [rfl; split <;> rfl]

@[simp] theorem Control.startScan_authstate : (c.startScan freq seq).authstate = c.authstate := by
  unfold startScan
  split <;> [rfl; split <;> rfl]

@[simp] theorem Control.startScan_timerset : (c.startScan freq seq).timerset = c.timerset := by
  unfold startScan
  split <;> [rfl; split <;> rfl]

theorem Control.startScan_scanstate : (c.startScan freq seq).scanstate ≠ .idle := by
  unfold startScan
  split
  · simp
  · next h => split <;> exact h

end StartScan

theorem Beside.refl (c : Control) : Beside c c := ⟨rfl, rfl, rfl, rfl, rfl⟩

/-- What a kind of output about the connection is asked of may be asked of what shows. -/
theorem control_any {p : Act → Bool} (hp : ∀ a, p a = true → a.shown = true) (ks : List Act) :
    (control.outputs ks).any p = ks.any p := by
  simp only [View.outputs, List.any_filter]
  refine List.any_congr rfl fun a => ?_
  cases h : p a with
  | false => exact Bool.and_false _
  | true => rw [Bool.and_true]; exact hp a h

/-- The packet makes no sense, or the reply to it does not go out. -/
def Daemon.frameAborts (s : Daemon) (sender data : Bytes) : Bool :=
  match s.verdict sender data with
  | .aborts => true
  | .taken => (s.eapolstate ≠ .waiting14 || s.random && s.eapolsends) && !s.replies
  | .ignored => false

/-- No random bytes are left for the reply to packet 1/4. -/
def Daemon.frameQuits (s : Daemon) (sender data : Bytes) : Bool :=
  s.verdict sender data = .taken && s.eapolstate = .waiting14 && !s.random

inductive FrameLink (s : Daemon) (sender data : Bytes) : List Act → Outcome Unit Control → Prop where
  | aborts (c pre) {ks o} : s.frameAborts sender data = true → Beside s.toControl c → Mute pre →
      Abort c ks o → FrameLink s sender data (pre ++ ks) o
  | quits (pre) {ks} : s.frameQuits sender data = true → Mute pre → Quits s.toControl ks →
      FrameLink s sender data (pre ++ ks) .ends
  | ends {ks} : s.frameAborts sender data = false → s.frameQuits sender data = false → Mute ks →
      FrameLink s sender data ks .ends
  | stays {ks c} : s.frameAborts sender data = false → s.frameQuits sender data = false →
      Mute ks → Beside s.toControl c → FrameLink s sender data ks (.goes () c)
  | connects {ks c} : s.frameAborts sender data = false → s.frameQuits sender data = false →
      Mute ks → Beside s.toControl.handleConnect c → FrameLink s sender data ks (.goes () c)

theorem HandleConnect.mute {c : Control} {ks : List Act} {o : Outcome Unit Control}
    (h : HandleConnect c ks o) : Mute ks := by
  cases h with
  | connects _ _ _ _ _ => exact .cons rfl (.cons rfl (.cons rfl .nil))
  | ends => exact .cons rfl .nil

theorem Frame.link {s : Daemon} {sender data : Bytes} {ks : List Act} {o : Outcome Unit Control}
    (h : Frame s sender data ks o) : FrameLink s sender data ks o := by
  have hquits (hs : s.eapolstate ≠ .waiting14) : s.frameQuits sender data = false := by
    simp [Daemon.frameQuits, hs]
  cases h with
  | ignored hv =>
      exact .stays (by simp [Daemon.frameAborts, hv]) (by simp [Daemon.frameQuits, hv]) .nil (.refl _)
  | aborts hv h => exact .aborts _ [] (by simp [Daemon.frameAborts, hv]) (.refl _) .nil h
  | packet1_ends r hv hs hrand hq =>
      exact .quits [_] (by simp [Daemon.frameQuits, hv, hs, hrand]) (.cons rfl .nil) hq
  | packet1_early r kck kek hv hs hrand _ hsends =>
      exact .stays (by simp [Daemon.frameAborts, hv, hs, hsends])
        (by simp [Daemon.frameQuits, hrand]) (.cons rfl (.cons rfl .nil)) ⟨rfl, rfl, rfl, rfl, rfl⟩
  | packet1 r kck kek hv hs hrand _ hsends h =>
      have hq : s.frameQuits sender data = false := by simp [Daemon.frameQuits, hrand]
      cases h with
      | sent dest frame hok h =>
          obtain ⟨rfl, rfl⟩ := h
          exact .stays (by simp [Daemon.frameAborts, hv, hok]) hq
            (.cons rfl (.cons rfl (.cons rfl .nil))) ⟨rfl, rfl, rfl, rfl, rfl⟩
      | fails dest frame hno h =>
          exact .aborts (s.toControl.keyed r kck kek) [_, _, _]
            (by simp [Daemon.frameAborts, hv, hs, hrand, hsends, hno])
            ⟨rfl, rfl, rfl, rfl, rfl⟩ (.cons rfl (.cons rfl (.cons rfl .nil))) h
  | packet3 r hv hs _ _ h =>
      have hq := hquits (by simp [hs])
      cases h with
      | sent dest frame hok h =>
          have ha : s.frameAborts sender data = false := by simp [Daemon.frameAborts, hv, hok]
          cases h with
          | connects h =>
              have hmute := h.mute
              cases h with
              | connects _ _ _ _ _ =>
                  exact .connects ha hq (.cons rfl (.cons rfl (.cons rfl (.cons rfl hmute))))
                    ⟨rfl, rfl, rfl, rfl, rfl⟩
              | ends => exact .ends ha hq (.cons rfl (.cons rfl (.cons rfl (.cons rfl hmute))))
      | fails dest frame hno h =>
          exact .aborts { s.toControl with replay := r } [_, _]
            (by simp [Daemon.frameAborts, hv, hs, hno])
            ⟨rfl, rfl, rfl, rfl, rfl⟩ (.cons rfl (.cons rfl .nil)) h
  | group1 r hv hs _ _ h =>
      have hq := hquits (by simp [hs])
      cases h with
      | sent dest frame hok h =>
          obtain ⟨rfl, rfl⟩ := h
          exact .stays (by simp [Daemon.frameAborts, hv, hok]) hq
            (.cons rfl (.cons rfl (.cons rfl .nil))) ⟨rfl, rfl, rfl, rfl, rfl⟩
      | fails dest frame hno h =>
          exact .aborts { s.toControl with replay := r } [_, _]
            (by simp [Daemon.frameAborts, hv, hs, hno])
            ⟨rfl, rfl, rfl, rfl, rfl⟩ (.cons rfl (.cons rfl .nil)) h

theorem Reassess.authenticates {c : Control} {ks : List Act} {o : Outcome Unit Control}
    (h : Reassess c ks o) (ha : ks.any Act.authenticates = true) :
    c.opermode ≠ .neutral ∧ c.Ready := by
  cases h with
  | starts _ _ _ _ hm hr => exact ⟨hm, hr⟩
  | stays | ends | gives_up | waits => cases ha

theorem Abort.authenticates {c : Control} {ks : List Act} {o : Outcome Unit Control}
    (h : Abort c ks o) (ha : ks.any Act.authenticates = true) :
    c.authstate = .idle ∧ c.opermode ≠ .neutral := by
  cases h with
  | reassesses hidle h => exact ⟨hidle, (h.authenticates ha).1⟩
  | disconnects | stays => cases ha

theorem HandleDisconnect.authenticates {c : Control} {ks : List Act} {o : Outcome Unit Control}
    (h : HandleDisconnect c ks o) (ha : ks.any Act.authenticates = true) :
    c.opermode = .active ∨ c.opermode = .rescan := by
  cases h with
  | tries_other hm _ => exact hm
  | exits | rescans | gives_up => cases ha

theorem Quits.authenticates {c : Control} {ks : List Act} (h : Quits c ks) :
    ks.any Act.authenticates = false := by
  cases h <;> rfl

theorem FrameLink.authenticates {s : Daemon} {sender data : Bytes} {ks : List Act}
    {o : Outcome Unit Control} (h : FrameLink s sender data ks o)
    (ha : ks.any Act.authenticates = true) :
    s.frameAborts sender data = true ∧ s.authstate = .idle ∧ s.opermode ≠ .neutral := by
  have hmute {ks : List Act} (h : Mute ks) := h.any Act.authenticates_link
  cases h with
  | aborts c pre hab hc hpre h =>
      rw [List.any_append, hmute hpre, Bool.false_or] at ha
      obtain ⟨hidle, hm⟩ := h.authenticates ha
      exact ⟨hab, hc.authstate ▸ hidle, hc.opermode ▸ hm⟩
  | quits pre _ hpre hq =>
      rw [List.any_append, hmute hpre, hq.authenticates] at ha
      cases ha
  | ends _ _ h => rw [hmute h] at ha; cases ha
  | stays _ _ h _ => rw [hmute h] at ha; cases ha
  | connects _ _ h _ => rw [hmute h] at ha; cases ha

/-- An error of a command other than the scan: what `genl_error` passes on. -/
def Daemon.failsAuth (s : Daemon) (seq : ℕ) (err : Int) : Bool :=
  err ≠ -ENETDOWN && seq ≠ s.scanseq

/-- The event may send AUTHENTICATE: a connect request, the end of a foreground
scan, and the retries after a connection is lost, with one that is made whatever
the mode is. -/
def Daemon.mayStart (s : Daemon) : EventKind → Bool
  | .connMsg _ msg => msg.cmd = .connect && s.authstate = .idle && s.scanstate = .idle
  | .netlink .done => s.scanstate = .scandump && s.authstate = .idle &&
      if s.scanreq.reconnectCurrent && Netlink.currentFound s then s.socket
      else s.opermode ≠ .neutral && (s.scanreq.reconnectCurrent || s.scanreq.connectSomething)
  | .netlink (.gen msg) => msg.ifi = some s.ifindex && msg.cmd = .disconnect &&
      s.authstate ≠ .idle && (s.opermode = .active || s.opermode = .rescan)
  | .netlink (.err seq err) =>
      s.failsAuth seq err && s.authstate = .disconnecting && s.opermode ≠ .neutral
  | .frame sender data =>
      s.frameAborts sender data && s.authstate = .idle && s.opermode ≠ .neutral
  | .rfkill re => s.watches re && !(re.soft || re.hard) && s.authstate = .netdown &&
      s.opermode ≠ .neutral
  | _ => false

theorem Netlink.GenlDone.authenticates {s : Daemon} {ks : List Act} {o : Outcome Unit Control}
    (h : Netlink.GenlDone s ks o) (ha : ks.any Act.authenticates = true) :
    s.mayStart (.netlink .done) = true := by
  have hmode {c : Control} : c.reconnecting.opermode ≠ .neutral → c.opermode ≠ .neutral := by
    unfold Control.reconnecting
    intro h hc
    simp [hc] at h
  cases h with
  | no_dump _ => cases ha
  | reconnects hd hr hf h =>
      cases h with
      | busy _ => cases ha
      | starts _ _ _ _ hidle _ hsock =>
          have hidle : s.authstate = .idle := hidle
          simp [Daemon.mayStart, hd, hr, hf, hidle, hsock]
      | ends _ _ _ => cases ha
  | misses hd hr hf h =>
      obtain ⟨hm, hidle, -⟩ := h.authenticates ha
      have hidle : s.authstate = .idle := hidle
      have hm : s.opermode ≠ .neutral := hmode hm
      simp [Daemon.mayStart, hd, hr, hf, hidle, hm]
  | reassesses hd hr hs h =>
      obtain ⟨hm, hidle, -⟩ := h.authenticates ha
      have hidle : s.authstate = .idle := hidle
      have hm : s.opermode ≠ .neutral := hm
      simp [Daemon.mayStart, hd, hr, hs, hidle, hm]
  | rests _ _ _ => cases ha

theorem Netlink.MsgEffect.authenticates {s : Daemon} {msg : Netlink.Msg} {ks : List Act}
    {o : Outcome Unit Control} (h : Netlink.MsgEffect s msg ks o)
    (ha : ks.any Act.authenticates = true) : s.mayStart (.netlink msg) = true := by
  cases msg with
  | done => exact Netlink.GenlDone.authenticates h ha
  | err seq err =>
      cases h with
      | disconnect_fails hdown hseq hdis h =>
          have hm : s.opermode ≠ .neutral := (h.authenticates ha).1
          simp [Daemon.mayStart, Daemon.failsAuth, hdown, hseq, hdis, hm]
      | aborts _ _ hidle _ _ h => exact absurd (h.authenticates ha).1 hidle
      | killed | netdown | scan_ack | scan_fails | idle | rescans => cases ha
  | gen msg =>
      simp only [Netlink.MsgEffect] at h
      split at h
      · next hifi =>
          unfold Netlink.GenEffect at h
          cases hcmd : msg.cmd <;> simp only [hcmd] at h
          case disconnect =>
            cases h with
            | idle _ => cases ha
            | disconnects hne h =>
                have hm : s.opermode = .active ∨ s.opermode = .rescan := h.authenticates ha
                simpa [Daemon.mayStart, hifi, hcmd, hne] using hm
          case triggerScan => rw [h.1] at ha; cases ha
          case other => rw [h.1] at ha; cases ha
          all_goals cases h <;> cases ha
      · rw [h.1] at ha
        cases ha
  | other => rw [h.1] at ha; cases ha

theorem EventKind.authenticates {s : Daemon} {k : EventKind} {ks : List Act}
    {o : Outcome Unit Control} (h : k.effect s ks o) (ha : ks.any Act.authenticates = true) :
    s.mayStart k = true := by
  cases k with
  | connMsg cn msg =>
      simp only [EventKind.effect, Cntrl.CmdEffect] at h
      cases hcmd : msg.cmd <;> simp only [hcmd] at h
      case connect =>
        cases h with
        | refuses => cases ha
        | accepts hready _ => simp [Daemon.mayStart, hcmd, hready.1, hready.2]
      case neutral => cases h <;> cases ha
      case forget => cases h <;> cases ha
      case scan => rw [h.1] at ha; cases ha
      all_goals rw [h.1] at ha; cases ha
  | netlink msg => exact Netlink.MsgEffect.authenticates h ha
  | frame sender data =>
      obtain ⟨hab, hidle, hm⟩ := (Frame.link h).authenticates ha
      simp [Daemon.mayStart, hab, hidle, hm]
  | rfkill re =>
      cases h with
      | reassesses hw hoff _ hdown _ h =>
          have hm : s.opermode ≠ .neutral := (h.authenticates ha).1
          simp [Daemon.mayStart, hw, hoff, hdown, hm]
      | quits _ _ _ hq => rw [hq.authenticates] at ha; cases ha
      | other | kills | revives | rescans => cases ha
  | timer =>
      cases h with
      | aborts hidle _ _ h => exact absurd (h.authenticates ha).1 hidle
      | exits | idles | bg_scans | fg_scans => cases ha
  | sigterm =>
      cases h with
      | second _ hq => rw [hq.authenticates] at ha; cases ha
      | exits | requests => cases ha
  | netlinkLost | controlLost | pollError => rw [h.2.authenticates] at ha; cases ha
  | turn => rw [h.1] at ha; cases ha
  | connEnd | connHup | frameError | rawsockLost | accept | rfkillLost | reap =>
      rw [h.1] at ha
      cases ha

theorem EventKind.starts_nothing {s : Daemon} {k : EventKind} {ks : List Act}
    {o : Outcome Unit Control} (h : k.effect s ks o) (hk : s.mayStart k = false) :
    ks.any Act.authenticates = false := by
  rw [← Bool.not_eq_true]
  intro ha
  rw [EventKind.authenticates h ha] at hk
  cases hk

end Wsupp

import Wsupp.Control.Descriptors
import Wsupp.Reactive.Simulation
import Wsupp.Refinement.NetlinkDecoding
import Wsupp.Safety.NetlinkStream
import Wsupp.Safety.PollTable
import Wsupp.Service

/-!
# From bytes to messages

Whatever comes in, and in whatever pieces, the service does what the daemon does
with the messages that are in it, one after the other: `service` is simulated by
`supplicant`. What holds of every state the daemon can reach holds of the service as
well.

A handler of the service covers several events of the daemon, or none where what has
come is not a whole message yet. `Covers` follows the text of such a handler and
keeps account of how far the turn has come, because the events have to be enabled
one after the other. Texts for the user are not compared, nor are the answers of
system calls that nobody has asked for.
-/
namespace Wsupp
open Reactive Prog View Machine

/-- Everything but the texts for the user. -/
def Act.effect : Act → Bool
  | .warn _ => false
  | _ => true

/-- The turn of `y` has come no further than `t`, and both know the same of the
descriptors that are polled only if they are open. -/
structure Turn.Before (u t : Turn) : Prop where
  stage : u.stage ≤ t.stage
  rawsock : u.rawsock = t.rawsock
  rfkill : u.rfkill = t.rfkill

/-- The daemon is in the same state, and its turn has come no further, so that what may
come next on one side may come on the other. -/
structure System.Stands (x y : System) : Prop where
  daemon : y.toDaemon = x.toDaemon
  halted : y.halted = x.halted
  turn : x.halted = false → y.turn.Before x.turn

/-- As `System.Stands`, but for the answers of calls that nobody has asked for; and the
buffer of the service is in order. -/
structure Service.Stands (x : Service) (y : System) : Prop where
  inOrder : Nl.InOrder x.nl
  system : x.toSystem.Stands { y with env := x.env }

/-- Some events lead the daemon to where `x` stands, with these effects. -/
abbrev System.Comes (y x : System) (out : List Act) : Prop :=
  supplicant.Follows Act.effect System.Stands y x out

/-- From `y` some events do what the handler does; `P` holds of what it returns. The turn
comes no further than `t`. -/
def Covers {α : Type} (t : Turn) (P : α → Daemon → Prop) (y : System) (m : Handler α) : Prop :=
  wp m (fun a s out => P a s ∧ y.Comes { toDaemon := s, turn := t } out)
    (fun s out => y.Comes { toDaemon := s, turn := t, halted := true } out)
    y.toDaemon

section Covers
variable {α β : Type} {t u : Turn} {P : α → Daemon → Prop} {Q : β → Daemon → Prop} {y : System}

theorem covers_pure (hrun : y.halted = false) (h : y.turn.Before t) {a : α} (hP : P a y.toDaemon) :
    Covers t P y (pure a) :=
  ⟨hP, .refl ⟨rfl, hrun, fun _ => h⟩⟩

/-- Where the process has ended, the turn does not matter. -/
theorem System.Comes.ended {s : Daemon} {out : List Act} (h : y.Comes { toDaemon := s, turn := t, halted := true } out) :
    y.Comes { toDaemon := s, turn := u, halted := true } out := by
  obtain ⟨es, hv, hstands, hout⟩ := h
  exact ⟨es, hv, ⟨hstands.daemon, hstands.halted, fun h => by cases h⟩, hout⟩

theorem covers_bind {m : Handler α} {f : α → Handler β} (hm : Covers t P y m)
    (hf : ∀ a y', y'.halted = false → y'.turn.Before t → P a y'.toDaemon → Covers u Q y' (f a)) :
    Covers u Q y (m >>= f) := by
  unfold Covers at *
  rw [wp_bind]
  refine wp_mono hm ?_ fun _ _ h => h.ended
  intro a s out hout
  obtain ⟨hP, es, hv, hstands, hfilter⟩ := hout
  have hdaemon : s = (supplicant.after y es).toDaemon := hstands.daemon.symm
  have hnext := hf a _ hstands.halted (hstands.turn rfl) (hdaemon ▸ hP)
  rw [← hdaemon] at hnext
  have hjoin {x : System} {l : List Act} (h : (supplicant.after y es).Comes x l) :
      y.Comes x (out ++ l) := by
    obtain ⟨fs, hfs, hR, hl⟩ := Follows.after hv h
    exact ⟨fs, hfs, hR, by rw [hl, List.filter_append, List.filter_append, hfilter]⟩
  exact wp_mono hnext (fun b s' l h => ⟨h.1, hjoin h.2⟩) fun s' l h => hjoin h

theorem Turn.Before.next (h : u.Before t) (k : EventKind) (s : Daemon) : (k.next u s).Before (k.next t s) := by
  cases k with
  | turn => exact ⟨le_rfl, rfl, rfl⟩
  | reap pid exited signaled => exact h
  | _ => exact ⟨max_le_max_right _ h.stage, h.rawsock, h.rfkill⟩

/-- One event, which finds the answers of the calls that have not been used yet. -/
theorem covers_event {k : EventKind} (hrun : y.halted = false) (h : y.turn.Before t)
    (hstage : y.turn.stage ≤ k.stages.1) (hpolled : k.polled y = true) :
    wp k.handler (fun _ s out => y.Comes { toDaemon := s, turn := k.next t s } out)
      (fun s out => y.Comes { toDaemon := s, turn := t, halted := true } out)
      y.toDaemon := by
  have henabled : supplicant.enabled y ⟨k, y.env⟩ := ⟨hrun, hstage, hpolled⟩
  unfold wp
  cases hm : k.handler y.toDaemon with
  | ok a s out =>
      have hstep : supplicant.step y ⟨k, y.env⟩ = ({ toDaemon := s, turn := k.next y.turn s }, out) :=
        System.step_ok (x := y) (e := ⟨k, y.env⟩) hm
      have hstands : System.Stands { toDaemon := s, turn := k.next t s } (supplicant.step y ⟨k, y.env⟩).1 := by
        rw [hstep]
        exact ⟨rfl, rfl, fun _ => h.next k s⟩
      have hcomes : y.Comes _ _ := Follows.step henabled (.refl hstands)
      rw [hstep, List.append_nil] at hcomes
      exact hcomes
  | halt s out =>
      have hstep : supplicant.step y ⟨k, y.env⟩ = ({ toDaemon := s, turn := y.turn, halted := true }, out) :=
        System.step_halt (x := y) (e := ⟨k, y.env⟩) hm
      have hstands : System.Stands { toDaemon := s, turn := t, halted := true } (supplicant.step y ⟨k, y.env⟩).1 := by
        rw [hstep]
        exact ⟨rfl, rfl, fun _ => h⟩
      have hcomes : y.Comes _ _ := Follows.step henabled (.refl hstands)
      rw [hstep, List.append_nil] at hcomes
      exact hcomes

theorem covers_message {k : EventKind} (hrun : y.halted = false) (h : y.turn.Before t)
    (hstage : t.stage ≤ k.stages.1) (hafter : ∀ s, k.next t s = t) (hpolled : k.polled y = true) :
    Covers t (fun _ _ => True) y k.handler := by
  refine wp_mono (covers_event hrun h (h.stage.trans hstage) hpolled) ?_ fun _ _ h => h
  intro a s out hcomes
  rw [hafter] at hcomes
  exact ⟨trivial, hcomes⟩

theorem covers_congr {m n : Handler α} (h : m y.toDaemon = n y.toDaemon) : Covers t P y m ↔ Covers t P y n := by
  unfold Covers wp
  rw [h]

end Covers

section Netlink
open Nl

theorem Bytes.leNat_take_le (b : Bytes) (k : ℕ) : Bytes.leNat (b.take k) ≤ Bytes.leNat b := by
  induction b generalizing k with
  | nil => rw [List.take_nil]
  | cons x b ih =>
      cases k with
      | zero => exact Nat.zero_le _
      | succ k =>
          have hle := ih k
          rw [List.take_succ_cons, Bytes.leNat, Bytes.leNat]
          omega

theorem Nl.InOrder.message_whole {nl nl' : NetlinkRx} (h : InOrder nl) (hget : nlGetNowait nl = some nl') :
    Nlmsg.len nl'.message ≤ nl'.message.length := by
  obtain ⟨hready, -, -, hmessage, -⟩ := h.nlGetNowait_some hget
  have hlen : Nlmsg.len nl.unread ≤ nl.unread.length := hready.2.2
  have htake : Bytes.slice (nl.unread.take (Nlmsg.len nl.unread)) 0 4 =
      (Bytes.slice nl.unread 0 4).take (Nlmsg.len nl.unread) := by
    rw [Bytes.slice, Bytes.slice, List.drop_zero, List.drop_zero, List.take_take, List.take_take, min_comm]
  rw [hmessage, List.length_take_of_le hlen]
  calc
    Nlmsg.len (nl.unread.take (Nlmsg.len nl.unread)) =
        Bytes.leNat ((Bytes.slice nl.unread 0 4).take (Nlmsg.len nl.unread)) := congrArg Bytes.leNat htake
    _ ≤ Nlmsg.len nl.unread := Bytes.leNat_take_le _ _

theorem Nl.InOrder.recv {nl : NetlinkRx} (h : InOrder nl) (r : Recv) : InOrder (Nl.nlRecvNowait nl r).2 := by
  have hbuffer := h.buffer
  have hsmall := h.small
  have hend := h.rxend
  have hrxlen := h.rxlen
  have herr (err : Int) : InOrder { nl with err := err } := ⟨hbuffer, hsmall, h.msgptr, h.msgend, hend, hrxlen⟩
  have hroom : toInt ((nl.rxlen : Int) - nl.rxend) = (nl.rxlen - nl.rxend : ℕ) := by
    rw [toInt_of_lt (by omega) (by omega)]
    omega
  unfold Nl.nlRecvNowait nlRecvChunk
  dsimp only
  rw [hroom, Int.toNat_natCast]
  split
  · exact h
  cases r with
  | failed => exact herr (-1)
  | datagram b =>
      have hfits : (b.take (nl.rxlen - nl.rxend)).length ≤ nl.rxlen - nl.rxend := List.length_take_le ..
      dsimp only
      split
      · exact herr 0
      refine ⟨?_, hsmall, h.msgptr, h.msgend, ?_, ?_⟩
      · change (nl.rxbuf.poke nl.rxend _).length = nl.rxlen
        rw [Bytes.length_poke (by omega), hbuffer]
      · change nl.msgend ≤ ((nl.rxend + (b.take (nl.rxlen - nl.rxend)).length : ℕ) : Int)
        omega
      · change nl.rxend + (b.take (nl.rxlen - nl.rxend)).length ≤ nl.rxlen
        omega

variable {t : Turn} {y : System}

theorem covers_handleMsgs (ht : t.stage = 22) (n : ℕ) {nl : NetlinkRx} (h : InOrder nl) (hrun : y.halted = false)
    (hturn : y.turn.Before t) : Covers t (fun nl _ => InOrder nl) y (Netlink.Raw.handleMsgs n nl) := by
  induction n generalizing nl y with
  | zero => exact covers_pure hrun hturn h
  | succ n ih =>
      rw [Netlink.Raw.handleMsgs]
      cases hget : nlGetNowait nl with
      | none => exact covers_pure hrun hturn h.nlShiftRxbuf.1
      | some nl' =>
          have hnext := (h.nlGetNowait_some hget).2.1
          have hwhole := h.message_whole hget
          refine covers_bind (P := fun _ _ => True) ?_ fun _ y' hrun' hturn' _ => ih hnext hrun' hturn'
          rw [covers_congr (Netlink.handleMsg_decode nl'.message hwhole y.toDaemon)]
          apply covers_message (k := .netlink (Netlink.decode nl'.message)) hrun hturn ht.le
          · intro s
            change ({ t with stage := max t.stage 22 } : Turn) = t
            rw [max_eq_left ht.ge]
          · rfl

theorem handleMsgs_of_drain {n : ℕ} {nl last : NetlinkRx} {handled : List NetlinkRx}
    (h : drain n nl = some (handled, last)) :
    Netlink.Raw.handleMsgs n nl = (handled.map NetlinkRx.message).foldr
      (fun msg rest => Netlink.Raw.handleMsg msg >>= fun _ => rest) (pure (nlShiftRxbuf last)) := by
  induction n generalizing nl handled with
  | zero => cases h
  | succ n ih =>
      rw [drain] at h
      rw [Netlink.Raw.handleMsgs]
      cases hget : nlGetNowait nl with
      | none =>
          rw [hget] at h
          cases h
          rfl
      | some nl' =>
          rw [hget] at h
          obtain ⟨d, hdrain, hd⟩ := Option.map_eq_some_iff.mp h
          cases hd
          rw [List.map_cons, List.foldr_cons, ← ih hdrain]

/-- The messages of a round are handled one after the other, and the loop comes to its end. -/
theorem handleNetlink_of_round {nl : NetlinkRx} {r : Recv} {round : Round} (h : Nl.handleNetlink nl r = some round) :
    Netlink.Raw.handleNetlink nl r = round.messages.foldr
      (fun msg rest => Netlink.Raw.handleMsg msg >>= fun _ => rest) (pure round.shifted) := by
  unfold Nl.handleNetlink at h
  unfold Netlink.Raw.handleNetlink
  dsimp only at h ⊢
  split_ifs at h with hneg
  obtain ⟨d, hdrain, rfl⟩ := Option.map_eq_some_iff.mp h
  rw [if_neg hneg]
  exact handleMsgs_of_drain hdrain

/-- What the process does in the end does not depend on what it says. -/
theorem quit_halts (s : Daemon) : ∃ s' out, ∀ {α : Type} (text : String),
    (quit text : Handler α) s = .halt s' (.warn text :: out) := by
  have hwarn (text : String) : (Handler.warn text : Handler Unit) s = .ok () s [.warn text] := rfl
  by_cases h : s.authstate = .idle
  · refine ⟨s, [.exit], fun text => ?_⟩
    unfold quit
    rw [bind_of_ok (hwarn text), read_bind, if_pos h]
    rfl
  · refine ⟨{ s with seq := (s.seq + 1) % 2 ^ 32, env := { s.env with nlSend := s.env.nlSend.tail } },
      [.nlAck .disconnect (0 < s.env.nlSend.headD 1), .exit], fun text => ?_⟩
    unfold quit
    rw [bind_of_ok (hwarn text), read_bind, if_neg h]
    rfl

theorem covers_handleNetlink (ht : t.stage = 22) {nl : NetlinkRx} (h : InOrder nl) (r : Recv) (hrun : y.halted = false)
    (hturn : y.turn.Before t) : Covers t (fun nl _ => InOrder nl) y (Netlink.Raw.handleNetlink nl r) := by
  unfold Netlink.Raw.handleNetlink
  dsimp only
  split
  · -- nothing can be received: the daemon says that it has lost the connection
    obtain ⟨s, out, hquit⟩ := quit_halts y.toDaemon
    have hlost := covers_event (k := .netlinkLost) hrun hturn (hturn.stage.trans ht.le) rfl
    have hhandler : EventKind.netlinkLost.handler y.toDaemon = .halt s (.warn "lost netlink connection\n" :: out) :=
      hquit _
    unfold wp at hlost
    rw [hhandler] at hlost
    unfold Covers wp
    rw [hquit]
    exact hlost
  · exact covers_handleMsgs ht _ (h.recv r) hrun hturn

end Netlink

section Others
open Nlusctl
variable {t : Turn} {y : System} {cn : ℕ}

/-- A connection that is polled stays so while its messages are handled. -/
structure Daemon.Serves (s : Daemon) (cn : ℕ) : Prop where
  bound : cn < s.nconns
  fd : 0 < (s.conns.getD cn {}).fd

theorem dispatchCmd_serves (msg : Cntrl.Msg) {s : Daemon} (h : s.Serves cn) :
    wp (Cntrl.dispatchCmd cn msg) (fun ret s' _ => 0 < ret ∧ s'.Serves cn) (fun _ _ => True) s := by
  have hret := Cntrl.dispatchCmd_returns cn msg s
  have hstay := Cntrl.descriptors_dispatchCmd cn msg s
  unfold MovesFrom View.Does at hstay
  unfold wp at *
  cases hm : Cntrl.dispatchCmd cn msg s with
  | halt s' out => trivial
  | ok ret s' out =>
      rw [hm] at hret hstay
      have hret : ret = Cntrl.REPLIED := hret
      have hsame : descriptors.state s' = descriptors.state s := stays_eq hstay.2
      obtain ⟨hcount, hfds⟩ := Prod.mk.inj hsame
      refine ⟨by rw [hret]; decide, ?_, ?_⟩
      · exact hcount ▸ h.bound
      · have hfd := h.fd
        rw [← getD_map_fd] at hfd ⊢
        rw [hfds]
        exact hfd

theorem covers_dispatchCmd (ht : t.stage = 2 * cn + 1) (msg : Cntrl.Msg) (hrun : y.halted = false)
    (hturn : y.turn.Before t) (h : y.toDaemon.Serves cn) :
    Covers t (fun ret s => 0 < ret ∧ s.Serves cn) y (Cntrl.dispatchCmd cn msg) := by
  have hafter (s : Daemon) : (EventKind.connMsg cn msg).next t s = t := by
    change ({ t with stage := max t.stage (2 * cn + 1) } : Turn) = t
    rw [max_eq_left ht.ge]
  have hpolled : (EventKind.connMsg cn msg).polled y = true := by
    unfold EventKind.polled
    rw [Bool.and_eq_true]
    exact ⟨decide_eq_true h.bound, decide_eq_true h.fd⟩
  have hevent := covers_message (k := .connMsg cn msg) hrun hturn ht.le hafter hpolled
  have hserves := dispatchCmd_serves msg h
  unfold Covers at *
  unfold wp at *
  have hhandler : (EventKind.connMsg cn msg).handler y.toDaemon =
      (Cntrl.dispatchCmd cn msg >>= fun _ => pure ()) y.toDaemon := rfl
  rw [hhandler] at hevent
  cases hm : Cntrl.dispatchCmd cn msg y.toDaemon with
  | ok ret s out =>
      rw [bind_of_ok hm] at hevent
      rw [hm] at hserves
      have hcomes : y.Comes _ (out ++ []) := hevent.2
      rw [List.append_nil] at hcomes
      exact ⟨hserves, hcomes⟩
  | halt s out =>
      rw [bind_of_halt hm] at hevent
      exact hevent

theorem covers_endConn (ht : t.stage = 2 * cn + 2) (fault : Bool) (hrun : y.halted = false)
    (hstage : y.turn.stage ≤ 2 * cn + 1) (hturn : y.turn.Before t) (h : y.toDaemon.Serves cn) :
    Covers t (fun _ _ => True) y (Cntrl.endConn cn fault) := by
  have hpolled : (EventKind.connEnd cn fault).polled y = true := by
    unfold EventKind.polled
    rw [Bool.and_eq_true]
    exact ⟨decide_eq_true h.bound, decide_eq_true h.fd⟩
  have hevent := covers_event (k := .connEnd cn fault) hrun hturn hstage hpolled
  refine wp_mono hevent ?_ fun _ _ h => h
  intro _ s out hcomes
  have hafter : (EventKind.connEnd cn fault).next t s = t := by
    change ({ t with stage := max t.stage (2 * cn + 2) } : Turn) = t
    rw [max_eq_left ht.ge]
  rw [hafter] at hcomes
  exact ⟨trivial, hcomes⟩

/-- The messages come in one stage of the turn, and the end of the connection in the next. -/
theorem covers_connTurns {u : Turn} (hu : u.stage = 2 * cn + 1) (ht : t.stage = 2 * cn + 2) (hut : u.Before t) (n : ℕ)
    (ur : Urbuf) (s : List Wire.Arrival) (hrun : y.halted = false) (hturn : y.turn.Before u) (h : y.toDaemon.Serves cn) :
    Covers t (fun _ _ => True) y (connTurns cn n ur s) := by
  have hlater {y : System} (hturn : y.turn.Before u) : y.turn.Before t :=
    ⟨hturn.stage.trans hut.stage, hturn.rawsock.trans hut.rawsock, hturn.rfkill.trans hut.rfkill⟩
  induction n generalizing ur s y with
  | zero => exact covers_pure hrun (hlater hturn) trivial
  | succ n ih =>
      rw [connTurns]
      dsimp only
      split
      · exact covers_endConn ht _ hrun (hturn.stage.trans hu.le) (hlater hturn) h
      cases (ucRecv ur false s).2.1.msg with
      | none => exact covers_pure hrun (hlater hturn) trivial
      | some msg =>
          dsimp only
          generalize Cntrl.request (Ucmsg.bytes msg) = request
          apply covers_bind (covers_dispatchCmd hu request hrun hturn h)
          intro ret y' hrun' hturn' hserves
          obtain ⟨hpos, hserves⟩ := hserves
          split
          · next hneg => exact absurd hneg hpos.le.not_gt
          · exact ih _ _ hrun' hturn' hserves

/-- What comes after a handler need only agree on what it can return. -/
theorem bind_of_returns {α β : Type} {p : α → Prop} {m : Handler α} {f g : α → Handler β} (h : Cntrl.Returns p m)
    (hfg : ∀ a, p a → f a = g a) : m >>= f = m >>= g := by
  funext s
  have hs := h s
  unfold wp at hs
  cases hm : m s with
  | ok a s' out =>
      rw [hm] at hs
      rw [bind_of_ok hm, bind_of_ok hm, hfg a hs]
  | halt s' out => rw [bind_of_halt hm, bind_of_halt hm]

/-- What `handle_conn` hands over is handled in its order, and then the connection may end. -/
theorem connTurns_of_loop {n : ℕ} {ur : Urbuf} {s rest : List Wire.Arrival} {msgs : List Bytes} {ret : Int}
    (h : Cntrl.connLoop n ur s = some (msgs, ret, rest)) :
    connTurns cn n ur s = msgs.foldr (fun msg rest => Cntrl.dispatchCmd cn (Cntrl.request msg) >>= fun _ => rest)
      (Cntrl.endConn cn (ret ≠ -EBADF ∧ ret ≠ -EAGAIN)) := by
  induction n generalizing ur s msgs with
  | zero => cases h
  | succ n ih =>
      rw [Cntrl.connLoop] at h
      rw [connTurns]
      dsimp only at h ⊢
      split_ifs at h ⊢ with hneg
      · cases h
        rfl
      cases hmsg : (ucRecv ur false s).2.1.msg with
      | none =>
          rw [hmsg] at h
          cases h
      | some msg =>
          rw [hmsg] at h
          obtain ⟨⟨ms, ret', rest'⟩, hloop, hr⟩ := Option.map_eq_some_iff.mp h
          cases hr
          rw [List.foldr_cons, ← ih hloop]
          refine bind_of_returns (Cntrl.dispatchCmd_returns cn _) fun ret hret => ?_
          rw [hret, if_neg (by decide)]

theorem covers_handleControl (ht : t.stage = 25) {cfds : List Int} (hcfds : ∀ cfd ∈ cfds, 0 < cfd)
    (hrun : y.halted = false) (hturn : y.turn.Before t) : Covers t (fun _ _ => True) y (handleControl cfds) := by
  induction cfds generalizing y with
  | nil => exact covers_pure hrun hturn trivial
  | cons cfd cfds ih =>
      have hpos := List.forall_mem_cons.mp hcfds
      have hafter (s : Daemon) : (EventKind.accept cfd).next t s = t := by
        change ({ t with stage := max t.stage 25 } : Turn) = t
        rw [max_eq_left ht.ge]
      refine covers_bind (covers_message (k := .accept cfd) hrun hturn ht.le hafter (decide_eq_true hpos.1)) ?_
      exact fun _ y' hrun' hturn' _ => ih hpos.2 hrun' hturn'

/-- A read that is too short is passed over, and so is an event of another kind of device. -/
theorem covers_handleRfkillReads (ht : t.stage = 26) (hopen : t.rfkill = true) (reads : List Bytes)
    (hrun : y.halted = false) (hturn : y.turn.Before t) :
    Covers t (fun _ _ => True) y (handleRfkillReads reads) := by
  induction reads generalizing y with
  | nil => exact covers_pure hrun hturn trivial
  | cons b bs ih =>
      rw [handleRfkillReads]
      refine covers_bind (P := fun _ _ => True) ?_ fun _ y' hrun' hturn' _ => ih hrun' hturn'
      unfold when
      split
      · have hafter (s : Daemon) : (EventKind.rfkill (rfkillEvent (b.take 128))).next t s = t := by
          change ({ t with stage := max t.stage 26 } : Turn) = t
          rw [max_eq_left ht.ge]
        exact covers_message (k := .rfkill (rfkillEvent (b.take 128))) hrun hturn ht.le hafter
          (hturn.rfkill.trans hopen)
      · exact covers_pure hrun hturn trivial

end Others

section Runs
variable {x : Service} {y : System} {e : Input × Env}

theorem EventKind.polled_env (k : EventKind) (y : System) (env : Env) :
    k.polled { y with env := env } = k.polled y := by
  cases k <;> rfl

/-- What is polled, does not depend on the answers nor on how far the turn has come. -/
theorem EventKind.polled_stands (k : EventKind) {x y : System} (hsame : { y.toDaemon with env := x.env } = x.toDaemon)
    (hturn : y.turn.Before x.turn) : k.polled y = k.polled x := by
  have hnconns : y.nconns = x.nconns := congrArg (·.nconns) hsame
  have hconns : y.conns = x.conns := congrArg (·.conns) hsame
  have htimer : y.timerset = x.timerset := congrArg (·.timerset) hsame
  have hrawsock := hturn.rawsock
  have hrfkill := hturn.rfkill
  cases k <;> simp only [EventKind.polled, hnconns, hconns, htimer, hrawsock, hrfkill]

/-- The answers an event brings replace those that are left. -/
theorem System.Comes.fresh {env : Env} {z : System} {out : List Act} (h : { y with env := env }.Comes z out) :
    supplicant.Follows Act.effect (fun z y => z.Stands { y with env := z.env }) y z out := by
  obtain ⟨es, hv, hstands, hout⟩ := h
  have hsame : ({ supplicant.after { y with env := env } es with env := z.env } : System) =
      supplicant.after { y with env := env } es := by
    rw [← hstands.daemon]
  cases es with
  | nil =>
      refine ⟨[], trivial, ?_, hout⟩
      rw [← hsame] at hstands
      exact hstands
  | cons e es =>
      have henabled : supplicant.enabled y e := by
        obtain ⟨hrun, hstage, hpolled⟩ := hv.1
        exact ⟨hrun, hstage, (EventKind.polled_env e.kind y env).symm.trans hpolled⟩
      refine ⟨e :: es, ⟨henabled, hv.2⟩, ?_, hout⟩
      rw [← hsame] at hstands
      exact hstands

theorem Turn.Before.later {u t : Turn} {n : ℕ} (h : u.Before t) (hn : u.stage ≤ n) : u.Before { t with stage := n } :=
  ⟨hn, h.rawsock, h.rfkill⟩

theorem wp_keeping {nl : Nl.NetlinkRx} {m : Handler Unit} {Q : Daemon → List Act → Prop} {R : Daemon → List Act → Prop}
    {s : Daemon} (h : wp m (fun _ s out => Q s out) R s) (hnl : Nl.InOrder nl) :
    wp (m >>= fun _ => pure nl) (fun nl s out => Nl.InOrder nl ∧ Q s out) R s := by
  rw [wp_bind]
  refine wp_mono h ?_ fun s out h => h
  intro a s out h
  rw [wp_pure, List.append_nil]
  exact ⟨hnl, h⟩

/-- A covered handler, in a turn that comes to its stage. -/
theorem Covers.inTurn {nl : Nl.NetlinkRx} {m : Handler Unit} {t u : Turn} (h : Covers t (fun _ _ => True) y m)
    (hnl : Nl.InOrder nl) :
    wp (m >>= fun _ => pure nl) (fun nl s out => Nl.InOrder nl ∧ y.Comes { toDaemon := s, turn := t } out)
      (fun s out => y.Comes { toDaemon := s, turn := u, halted := true } out) y.toDaemon :=
  wp_keeping (wp_mono h (fun _ _ _ h => h.2) fun _ _ h => h.ended) hnl

/-- An input is covered, and leaves the buffer in order. -/
theorem covers_input (i : Input) (hinOrder : Nl.InOrder x.nl) (hrun : y.halted = false) (hturn : y.turn.Before x.turn)
    (hstage : x.turn.stage ≤ i.stages.1) (hcomes : x.Comes i)
    (hsame : { y.toDaemon with env := x.env } = x.toDaemon) :
    wp (i.handler x.nl) (fun nl s out => Nl.InOrder nl ∧ y.Comes { toDaemon := s, turn := i.next x.turn s } out)
      (fun s out => y.Comes { toDaemon := s, turn := x.turn, halted := true } out) y.toDaemon := by
  have hlast : y.turn.stage ≤ i.stages.1 := hturn.stage.trans hstage
  have hnext (n : ℕ) : y.turn.Before { x.turn with stage := max x.turn.stage n } :=
    hturn.later (hturn.stage.trans (le_max_left ..))
  cases i with
  | netlink r =>
      have hstage : x.turn.stage ≤ 21 := hstage
      have hcovers := covers_handleNetlink (max_eq_right (hstage.trans (by decide))) hinOrder r hrun (hnext 22)
      exact wp_mono hcovers (fun _ _ _ h => h) fun _ _ h => h.ended
  | conn cn n s =>
      have hstage : x.turn.stage ≤ 2 * cn + 1 := hstage
      obtain ⟨hcount, hfd, -⟩ := hcomes
      have hserves : y.toDaemon.Serves cn := by
        have hx : x.toDaemon.Serves cn := ⟨hcount, hfd⟩
        rw [← hsame] at hx
        exact ⟨hx.bound, hx.fd⟩
      have hcovers := covers_connTurns (u := { x.turn with stage := 2 * cn + 1 })
        (t := { x.turn with stage := max x.turn.stage (2 * cn + 2) }) rfl (max_eq_right (by omega))
        ⟨le_max_of_le_right (Nat.le_succ _), rfl, rfl⟩ n { size := Cntrl.rxbufSize } s hrun (hturn.later hlast) hserves
      exact hcovers.inTurn hinOrder
  | accept cfds =>
      have hstage : x.turn.stage ≤ 25 := hstage
      exact (covers_handleControl (max_eq_right hstage) hcomes hrun (hnext 25)).inTurn hinOrder
  | rfkill reads =>
      have hstage : x.turn.stage ≤ 25 := hstage
      have hcovers := covers_handleRfkillReads (t := { x.turn with stage := max x.turn.stage 26 })
        (max_eq_right (hstage.trans (by decide))) hcomes.1 reads hrun (hnext 26)
      exact hcovers.inTurn hinOrder
  | other k =>
      have hpolled : k.polled y = true := (EventKind.polled_stands k hsame hturn).trans hcomes.2
      exact wp_keeping (covers_event hrun hturn hlast hpolled) hinOrder

/-- What the service does with an input, the daemon does with some events. -/
theorem service_simulates : service.Simulates supplicant Act.effect Service.Stands := by
  intro x y e hR henabled
  obtain ⟨hrunning, hstage, hcomes⟩ := henabled
  obtain ⟨hinOrder, hdaemon, hhalted, hturn⟩ := hR
  have hdaemon : { y.toDaemon with env := x.env } = x.toDaemon := hdaemon
  have hbefore : ({ x.toDaemon with env := e.2 } : Daemon) = { y.toDaemon with env := e.2 } :=
    (congrArg (fun s : Daemon => { s with env := e.2 }) hdaemon).symm
  have hcovers := covers_input (y := { y with env := e.2 }) e.1 hinOrder (hhalted.trans hrunning) (hturn hrunning)
    hstage hcomes hdaemon
  unfold wp at hcovers
  have hcarry {z : System} {nl : Nl.NetlinkRx} {out : List Act} (hnl : Nl.InOrder nl)
      (h : { y with env := e.2 }.Comes z out) :
      supplicant.Follows Act.effect Service.Stands y { toSystem := z, nl := nl } out := by
    obtain ⟨es, hv, hstands, hout⟩ := h.fresh
    exact ⟨es, hv, ⟨hnl, hstands⟩, hout⟩
  change supplicant.Follows Act.effect Service.Stands y (x.step e).1 (x.step e).2
  unfold Service.step
  cases hm : e.1.handler x.nl { x.toDaemon with env := e.2 } with
  | ok nl s out =>
      rw [hbefore] at hm
      rw [hm] at hcovers
      exact hcarry hcovers.1 hcovers.2
  | halt s out =>
      rw [hbefore] at hm
      rw [hm] at hcovers
      exact hcarry hinOrder hcovers

/-- The messages in an input are handled one after the other, and none is left that is all
there. -/
def Input.InTurn (nl : Nl.NetlinkRx) : Input → Prop
  | .netlink r => (Nl.nlRecvNowait nl r).1 < 0 ∨ ∃ round, Nl.handleNetlink nl r = some round ∧
      Netlink.Raw.handleNetlink nl r = round.messages.foldr
        (fun msg rest => Netlink.Raw.handleMsg msg >>= fun _ => rest) (pure round.shifted)
  | .conn cn n s => ∃ msgs ret rest, Cntrl.handleConn n s = some (msgs, ret, rest) ∧
      handleConn cn n s = msgs.foldr (fun msg rest => Cntrl.dispatchCmd cn (Cntrl.request msg) >>= fun _ => rest)
        (Cntrl.endConn cn (ret ≠ -Nlusctl.EBADF ∧ ret ≠ -Nlusctl.EAGAIN))
  | _ => True

theorem Service.Comes.inTurn {i : Input} (h : x.Comes i) (hinOrder : Nl.InOrder x.nl) : i.InTurn x.nl := by
  cases i with
  | netlink r =>
      by_cases hneg : (Nl.nlRecvNowait x.nl r).1 < 0
      · exact .inl hneg
      right
      have hreceived := hinOrder.recv r
      have henough : (Nl.nlRecvNowait x.nl r).2.unread.length < (Nl.nlRecvNowait x.nl r).2.rxend + 1 := by
        rw [hreceived.length_unread]
        omega
      obtain ⟨handled, last, hdrain, -⟩ := Nl.drain_cuts hreceived henough
      have hround : Nl.handleNetlink x.nl r =
          some ⟨(Nl.nlRecvNowait x.nl r).2, handled, Nl.nlShiftRxbuf last⟩ := by
        unfold Nl.handleNetlink
        dsimp only
        rw [if_neg hneg, hdrain]
        rfl
      exact ⟨_, hround, handleNetlink_of_round hround⟩
  | conn cn n s =>
      obtain ⟨⟨msgs, ret, rest⟩, hloop⟩ := Option.isSome_iff_exists.mp h.2.2
      exact ⟨msgs, ret, rest, hloop, connTurns_of_loop hloop⟩
  | _ => trivial

/-- Whatever comes in, in whatever pieces: the messages are handled in their order, and the
daemon, given them one by one, gets from the same state to the same state, with the same
effects. -/
theorem service_refines {x : Service} (hx : Nl.InOrder x.nl) {es : List (Input × Env)} (hv : service.Valid x es) :
    service.Every (fun y e => e.1.InTurn y.nl) x es ∧
    ∃ fs, supplicant.Valid x.toSystem fs ∧
      { (supplicant.after x.toSystem fs).toDaemon with env := (service.after x es).env } = (service.after x es).toDaemon ∧
      (supplicant.after x.toSystem fs).halted = (service.after x es).halted ∧
      (supplicant.outputs x.toSystem fs).filter Act.effect = (service.outputs x es).filter Act.effect := by
  have hstands : x.Stands x.toSystem := ⟨hx, rfl, rfl, fun _ => ⟨le_rfl, rfl, rfl⟩⟩
  constructor
  · refine every_of_step (I := fun y => ∃ z, y.Stands z) ?_ ?_ ⟨_, hstands⟩ hv
    · intro y e hy he
      obtain ⟨z, hz⟩ := hy
      obtain ⟨fs, -, hnext, -⟩ := service_simulates _ _ _ hz he
      exact ⟨_, hnext⟩
    · intro y e hy he
      obtain ⟨z, hz⟩ := hy
      exact he.2.2.inTurn hz.inOrder
  · obtain ⟨fs, hfs, hlast, hout⟩ := service_simulates.run hstands hv
    exact ⟨fs, hfs, hlast.system.daemon, hlast.system.halted, hout⟩

/-- What holds of every state the daemon can reach, holds of those of the service. -/
theorem Service.Reachable.daemon {x : Service} (h : x.Reachable) :
    ∃ y : System, y.Reachable ∧ { y.toDaemon with env := x.env } = x.toDaemon ∧ y.halted = x.halted := by
  have hstart : ∀ z : Service, z.Initial → ∃ y : System, y.Initial ∧ z.Stands y := fun z hz =>
    ⟨z.toSystem, hz.1, hz.2, rfl, rfl, fun _ => ⟨le_rfl, rfl, rfl⟩⟩
  obtain ⟨y, hy, hstands⟩ := service_simulates.reachable hstart h
  exact ⟨y, hy, hstands.system.daemon, hstands.system.halted⟩

end Runs

namespace Sample

def service : Service := { toSystem := start, nl := { rxbuf := Bytes.zeros 64, rxlen := 64 } }

/-- A client is accepted, the end of a dump comes in two parts, and the client asks for two things. -/
def arriving : List (Input × Env) :=
  [(.accept [5], {}),
    (.other .turn, {}),
    (.netlink (.datagram [16, 0, 0, 0, 3, 0, 2, 0, 0]), {}),
    (.other .turn, {}),
    (.netlink (.datagram [0, 0, 0, 0, 0, 0, 0]), {}),
    (.other .turn, {}),
    (.conn 0 3 [.bytes 8 [0, 0, 0, 0, 0, 0, 0, 8, 0, 0, 0, 2, 0, 0, 0]], {})]

theorem arriving_valid : Wsupp.service.Valid service arriving := by
  have hdone {x : Service} {r : Nl.Recv} (h : ∀ round ∈ Nl.handleNetlink x.nl r, ∀ m ∈ round.messages,
      Nl.Nlmsg.size ≤ m.length ∧ Nl.nlGen m = false) : x.Comes (.netlink r) := fun round hround m hm =>
    ⟨(h round hround m hm).1, fun hgen => absurd hgen (by rw [(h round hround m hm).2]; exact Bool.false_ne_true)⟩
  have hturn {x : Service} : x.Comes (.other .turn) := ⟨rfl, rfl⟩
  refine ⟨⟨?_, ?_, List.forall_mem_singleton.mpr ?_⟩, ⟨?_, ?_, hturn⟩, ⟨?_, ?_, hdone ?_⟩, ⟨?_, ?_, hturn⟩,
    ⟨?_, ?_, hdone ?_⟩, ⟨?_, ?_, hturn⟩, ⟨?_, ?_, ?_, ?_, ?_⟩, trivial⟩
  all_goals decide +kernel

end Sample

theorem arriving_refined : service.Every (fun y e => e.1.InTurn y.nl) Sample.service Sample.arriving ∧
    ∃ fs, supplicant.Valid Sample.start fs ∧
    { (supplicant.after Sample.start fs).toDaemon with env := (service.after Sample.service Sample.arriving).env } =
      (service.after Sample.service Sample.arriving).toDaemon ∧
    (supplicant.after Sample.start fs).halted = (service.after Sample.service Sample.arriving).halted ∧
    (supplicant.outputs Sample.start fs).filter Act.effect =
      (service.outputs Sample.service Sample.arriving).filter Act.effect :=
  service_refines (Nl.InOrder.fresh (by decide)) Sample.arriving_valid

end Wsupp

import Wsupp.Control.Choosing
import Wsupp.Safety.AuthStates

/-!
# While an attempt is under way

A request is served by one attempt at a time. As long as `authstate` is not back at
`AS_IDLE`, hardly any handler looks for an access point, says that there is none or
lets go of the SSID asked for: what a handler does to these is composed along its
text.

The places where an attempt ends are the loss of its connection and the failure of
its command, and what is done there depends on the mode of operation. In one of them
the request is dropped with a report although other access points are left. The
result says that a request is pursued in a run exactly as long as this is avoided.
-/
namespace Wsupp
open Reactive Prog View Relation Handler

/-- What a request is served with: the mode of operation, the state of the connection
and the record of the station. -/
structure Quest where
  opermode : OperMode
  authstate : AuthState
  ap : Ap

def Daemon.quest (s : Daemon) : Quest where
  opermode := s.opermode
  authstate := s.authstate
  ap := s.ap

def quests : View Daemon Act Quest where
  state := Daemon.quest
  shows := Act.noConnect

/-- A request still served is served with the same SSID. -/
def Quest.Keeps (q q' : Quest) : Prop :=
  q'.opermode = .oneshot → q.opermode = .oneshot ∧ q.ap.Keeps q'.ap

/-- And the attempt is not over. -/
def Quest.Holds (q q' : Quest) : Prop := q.Keeps q' ∧ (q.authstate ≠ .idle → q'.authstate ≠ .idle)

theorem Quest.Keeps.refl (q : Quest) : q.Keeps q := fun h => ⟨h, .refl _⟩

theorem Quest.Keeps.trans {q q' q'' : Quest} (h : q.Keeps q') (h' : q'.Keeps q'') : q.Keeps q'' := by
  intro hmode
  obtain ⟨hmode', hap'⟩ := h' hmode
  obtain ⟨hmode, hap⟩ := h hmode'
  exact ⟨hmode, hap.trans hap'⟩

theorem Quest.Holds.of_moves {q q' : Quest} (h : ReflTransGen Quest.Holds q q') : q.Holds q' := by
  induction h with
  | refl => exact ⟨.refl q, id⟩
  | tail _ h ih => exact ⟨ih.1.trans h.1, h.2 ∘ ih.2⟩

theorem Quest.Keeps.of_moves {q q' : Quest} (h : ReflTransGen Quest.Keeps q q') : q.Keeps q' := by
  induction h with
  | refl => exact .refl q
  | tail _ h ih => exact ih.trans h

/-- During an attempt the handler does not end it, and keeps to what is asked for. -/
def Busy {α : Type} (m : Handler α) : Prop :=
  ∀ s : Daemon, s.authstate ≠ .idle → quests.MovesFrom Quest.Holds m s

section Rules
variable {α β : Type}

theorem busy_of_stay {m : Handler α} (h : quests.Moves stay m) : Busy m := fun s _ => h.of_stay s

theorem busy_pure (a : α) : Busy (pure a : Handler α) := busy_of_stay (moves_pure a)

theorem busy_exit : Busy (Prog.exit : Handler α) := busy_of_stay moves_exit

theorem busy_emit {a : Act} (h : a.noConnect = false) : Busy (emit a) := busy_of_stay (moves_emit h)

theorem busy_keep {g : Daemon → Daemon} (h : ∀ s, (g s).quest = s.quest) : Busy (update g) :=
  busy_of_stay (moves_keep h)

theorem busy_update {g : Daemon → Daemon} (h : ∀ s : Daemon, s.quest.Holds (g s).quest) :
    Busy (update g) :=
  fun s _ => moves_update h s

theorem busy_bind {m : Handler α} {f : α → Handler β} (hm : Busy m) (hf : ∀ a, Busy (f a)) :
    Busy (m >>= f) := by
  intro s hs
  apply (hm s hs).bind
  intro a s' hpath
  exact hf a s' ((Quest.Holds.of_moves hpath).2 hs)

theorem busy_read {f : Daemon → Handler α}
    (h : ∀ s : Daemon, s.authstate ≠ .idle → quests.MovesFrom Quest.Holds (f s) s) : Busy (read >>= f) :=
  fun s hs => movesFrom_read_bind.mpr (h s hs)

theorem busy_reads {f : Daemon → Handler α} (h : ∀ s, Busy (f s)) : Busy (read >>= f) :=
  busy_read fun s hs => h s s hs

theorem busy_ite {c : Prop} [Decidable c] {m n : Handler α} (hm : Busy m) (hn : Busy n) :
    Busy (if c then m else n) := by
  split
  · exact hm
  · exact hn

end Rules

section Handlers

theorem stays_answer {γ : Type} (get : Env → List γ) (set : Env → List γ → Env) (dflt : γ) :
    quests.Moves stay (answer get set dflt) :=
  Quiet.moves ⟨fun _ => ⟨rfl, _, rfl⟩⟩

theorem busy_warn (text : String) : Busy (warn text) := busy_emit rfl

theorem busy_call (c : Call) : Busy (call c) := busy_emit rfl

theorem stays_quit {α : Type} (text : String) : quests.Moves stay (quit text : Handler α) := by
  have hexit : quests.Moves stay (do
      emit .exit
      Prog.exit : Handler α) := moves_bind (moves_emit rfl) fun _ => moves_exit
  apply moves_bind (moves_emit rfl)
  intro _
  apply moves_read
  intro _
  apply moves_ite hexit
  exact moves_bind (moves_keep fun _ => rfl) fun _ => moves_bind (stays_answer _ _ _) fun _ =>
    moves_bind (moves_emit rfl) fun _ => hexit

theorem stays_nlSend (cmd : NlCommand) : quests.Moves stay (nlSend cmd) :=
  moves_bind (moves_keep fun _ => rfl) fun _ => moves_bind (stays_answer _ _ _) fun _ =>
    moves_bind (moves_emit rfl) fun _ => moves_pure _

theorem stays_sendCheck (cmd : NlCommand) : quests.Moves stay (sendCheck cmd) :=
  moves_bind (stays_nlSend cmd) fun _ => moves_ite (moves_pure _) (stays_quit _)

theorem busy_sendSetAuthstate (cmd : NlCommand) {as : AuthState} (has : as ≠ .idle) :
    Busy (sendSetAuthstate cmd as) := by
  apply busy_bind (busy_of_stay (stays_sendCheck cmd))
  intro _
  exact busy_update fun s => ⟨.refl s.quest, fun _ => has⟩

theorem stays_startScan (freq : Int) : quests.Moves stay (startScan freq) := by
  have htrigger : quests.Moves stay (triggerScan freq) := by
    refine moves_bind (moves_when (moves_keep fun _ => rfl)) fun _ => ?_
    apply moves_bind (stays_nlSend _)
    intro _
    apply moves_ite
    · exact moves_bind (moves_keep fun _ => rfl) fun _ => moves_pure _
    · exact moves_bind (moves_keep fun _ => rfl) fun _ => moves_pure _
  apply moves_read
  intro _
  apply moves_ite
  · exact moves_bind (moves_keep fun _ => rfl) fun _ => htrigger
  · exact moves_ite (moves_pure _) (moves_bind (moves_keep fun _ => rfl) fun _ => moves_pure _)

theorem busy_startDisconnect : Busy startDisconnect := by
  apply busy_reads
  intro _
  split
  · exact busy_pure _
  · exact busy_pure _
  · exact busy_pure _
  · exact busy_bind (busy_sendSetAuthstate _ (by decide)) fun _ => busy_pure _

theorem busy_uploadPtk : Busy uploadPtk :=
  busy_reads fun _ => busy_bind (busy_call _) fun _ => busy_of_stay (stays_sendCheck _)

theorem busy_uploadGtk : Busy uploadGtk :=
  busy_reads fun _ => busy_bind (busy_call _) fun _ => busy_of_stay (stays_sendCheck _)

theorem stays_sendReport {r : Report} (hr : r ≠ .noConnect) : quests.Moves stay (sendReport r) := by
  apply moves_read
  intro _
  apply moves_emit
  cases r with
  | noConnect => exact absurd rfl hr
  | _ => rfl

theorem stays_setTimer (seconds : ℕ) : quests.Moves stay (setTimer seconds) := moves_keep fun _ => rfl

theorem busy_triggerDhcp : Busy triggerDhcp := by
  have hkill : Busy killDhcp := busy_reads fun _ => busy_ite (busy_pure _) (busy_emit rfl)
  apply busy_bind hkill
  intro _
  apply busy_bind (busy_of_stay (stays_answer _ _ _))
  intro _
  apply busy_ite
  · exact busy_bind (busy_warn _) fun _ => busy_bind (busy_emit rfl) fun _ => busy_exit
  · exact busy_bind (busy_emit rfl) fun _ => busy_keep fun _ => rfl

/-- Nothing is looked for as long as the attempt is not over. -/
theorem busy_reassess : Busy reassessWifiSituation := by
  apply busy_read
  intro s hs
  split
  · exact moves_pure _ s
  · exact moves_pure _ s

theorem busy_abortConnection : Busy abortConnection :=
  busy_bind busy_startDisconnect fun _ => busy_ite (busy_pure _) busy_reassess

theorem busy_xabort (why : String) : Busy (xabort why) :=
  busy_bind (busy_warn _) fun _ => busy_abortConnection

theorem busy_sendPacket (buf : Bytes) (len : ℕ) : Busy (sendPacket buf len) := by
  apply busy_reads
  intro _
  apply busy_bind (busy_of_stay (stays_answer _ _ _))
  intro _
  apply busy_bind (busy_emit rfl)
  intro _
  apply busy_ite (busy_pure _)
  exact busy_bind (busy_warn _) fun _ => busy_bind busy_abortConnection fun _ => busy_pure _

theorem busy_sendPacket2 : Busy sendPacket2 :=
  busy_reads fun _ => busy_bind (busy_sendPacket _ _) fun _ =>
    busy_ite (busy_keep fun _ => rfl) (busy_pure _)

theorem busy_modifyFlags (i : ℕ) (f : ScanFlags → ScanFlags) : Busy (modifyFlags i f) :=
  busy_keep fun _ => rfl

theorem busy_flagSlot (sc : Option ℕ) (f : ScanFlags → ScanFlags) : Busy (flagSlot sc f) := by
  cases sc with
  | none => exact busy_pure _
  | some i => exact busy_modifyFlags i f

theorem busy_savePsk (ssid : Bytes) : Busy (savePsk ssid) := by
  apply busy_bind (busy_of_stay (stays_answer _ _ _))
  intro _
  apply busy_bind (busy_of_stay (stays_answer _ _ _))
  intro _
  apply busy_reads
  intro _
  split
  · exact busy_keep fun _ => rfl
  · exact busy_bind (busy_emit rfl) fun _ => busy_exit

theorem busy_handleConnect : Busy handleConnect := by
  have hsave (sc : Option ℕ) : Busy (saveUnsavedPsk sc) := by
    apply busy_reads
    intro _
    exact busy_ite (busy_bind (busy_savePsk _) fun _ => busy_flagSlot _ _) (busy_pure _)
  have hreport : Busy reportConnected := busy_reads fun _ => busy_of_stay (stays_sendReport nofun)
  have hunsaved : Busy (update fun s => { s with ap := { s.ap with unsaved := false } }) :=
    busy_update fun s => ⟨fun hmode => ⟨hmode, rfl, fun _ => ⟨rfl, rfl⟩⟩, id⟩
  have hrest : Busy (do
      let s ← read
      let sc := findCurrentAp s.ap s.table
      flagSlot sc fun f => { f with tried := false }
      saveUnsavedPsk sc
      update fun s => { s with ap := { s.ap with unsaved := false } }
      triggerDhcp
      reportConnected : Handler Unit) :=
    busy_reads fun _ => busy_bind (busy_flagSlot _ _) fun _ => busy_bind (hsave _) fun _ =>
      busy_bind hunsaved fun _ => busy_bind busy_triggerDhcp fun _ => hreport
  intro s hs
  -- the SSID is let go of before the mode is left
  unfold handleConnect call setTimer MovesFrom
  rw [does_read_bind, does_emit_bind, does_update_bind, does_update_bind, does_update_bind]
  have hleft : s.quest.Holds ({ s with
      ap := { s.ap with success := true, fixed := true }
      pollts := TIME_TO_BG_SCAN
      timerset := true
      opermode := if s.opermode = .rescan ∨ s.opermode = .oneshot then .active else s.opermode } :
      Daemon).quest := by
    refine ⟨fun hmode => ?_, fun _ => hs⟩
    change (if s.opermode = .rescan ∨ s.opermode = .oneshot then OperMode.active else s.opermode) =
      .oneshot at hmode
    split at hmode
    · cases hmode
    · next hno => exact absurd (Or.inr hmode) hno
  exact does_mono (hrest _ hs) fun ks o ho => ho.after (.single hleft)

theorem busy_sendPacket4 : Busy sendPacket4 := by
  apply busy_reads
  intro _
  apply busy_bind (busy_sendPacket _ _)
  intro _
  apply busy_ite
  · exact busy_bind (busy_keep fun _ => rfl) fun _ => busy_bind busy_uploadPtk fun _ =>
      busy_bind busy_uploadGtk fun _ => busy_bind (busy_keep fun _ => rfl) fun _ => busy_handleConnect
  · exact busy_pure _

theorem busy_recvPacket1 (ek : Bytes) : Busy (recvPacket1 ek) := by
  have hrand : Busy fillRand := by
    apply busy_bind (busy_of_stay (stays_answer _ _ _))
    intro rand
    cases rand with
    | none => exact busy_of_stay (stays_quit _)
    | some rand => exact busy_ite (busy_of_stay (stays_quit _)) (busy_keep fun _ => rfl)
  have hkeys : Busy pmkToPtk :=
    busy_reads fun _ => busy_bind (busy_keep fun _ => rfl) fun _ => busy_call _
  apply busy_ite (busy_xabort _)
  apply busy_ite (busy_warn _)
  exact busy_bind (busy_keep fun _ => rfl) fun _ => busy_bind (busy_call _) fun _ =>
    busy_bind hrand fun _ => busy_bind hkeys fun _ => busy_reads fun _ =>
      busy_ite busy_sendPacket2 (busy_keep fun _ => rfl)

theorem busy_recvPacket3 (ek : Bytes) : Busy (recvPacket3 ek) := by
  apply busy_reads
  intro s
  apply busy_ite (busy_xabort _)
  apply busy_ite (busy_xabort _)
  apply busy_ite (busy_xabort _)
  apply busy_ite (busy_xabort _)
  apply busy_ite (busy_xabort _)
  apply busy_ite (busy_xabort _)
  split
  · exact busy_xabort _
  · exact busy_bind (busy_keep fun _ => rfl) fun _ => busy_bind (busy_call _) fun _ => busy_sendPacket4

theorem busy_recvGroup1 (ek : Bytes) : Busy (recvGroup1 ek) := by
  have hsend : Busy sendGroup2 :=
    busy_reads fun _ => busy_bind (busy_sendPacket _ _) fun _ => busy_ite busy_uploadGtk (busy_pure _)
  apply busy_reads
  intro s
  apply busy_ite (busy_warn _)
  apply busy_ite (busy_warn _)
  apply busy_ite (busy_warn _)
  apply busy_ite (busy_warn _)
  apply busy_ite (busy_xabort _)
  split
  · exact busy_xabort _
  · exact busy_bind (busy_keep fun _ => rfl) fun _ => busy_bind (busy_call _) fun _ => hsend

theorem busy_handleRawsock (sender data : Bytes) : Busy (handleRawsock sender data) := by
  have hdispatch (ek : Bytes) : Busy (dispatchEapol ek) := by
    apply busy_reads
    intro s
    split
    · exact busy_recvPacket1 ek
    · exact busy_recvPacket3 ek
    · exact busy_recvGroup1 ek
    · exact busy_warn _
    · exact busy_warn _
  apply busy_reads
  intro s
  apply busy_ite (busy_warn _)
  apply busy_ite (busy_warn _)
  apply busy_ite (busy_warn _)
  apply busy_ite (busy_warn _)
  exact busy_ite (busy_warn _) (hdispatch _)

end Handlers
/-- Commands of the clients and rfkill. -/
def EventKind.disturbs : EventKind → Bool
  | .connMsg .. | .rfkill _ => true
  | _ => false

/-- The kernel refuses the DISCONNECT of an attempt that was given up. -/
def Daemon.disconnectFails (s : Daemon) : EventKind → Bool
  | .netlink (.err seq err) => s.failsAuth seq err && s.authstate = .disconnecting
  | _ => false

section Quests
variable {s : Daemon} {k : EventKind}

theorem keeps_authstate (f : Daemon → AuthState) : quests.Moves Quest.Keeps
    (update fun s => { s with authstate := f s } : Handler Unit) :=
  moves_update fun _ hmode => ⟨hmode, .refl _⟩

theorem Busy.keeps {α : Type} {m : Handler α} (hm : Busy m) (hs : s.authstate ≠ .idle) :
    quests.MovesFrom Quest.Keeps m s :=
  (hm s hs).mono fun _ _ h => h.1

theorem genlError_keeps (hs : s.authstate ≠ .idle) {seq : ℕ} {err : Int}
    (hfails : s.disconnectFails (.netlink (.err seq err)) = false) :
    quests.MovesFrom Quest.Keeps (Netlink.genlError seq err) s := by
  have hdown : quests.Moves Quest.Keeps Netlink.snapToNetdown := by
    refine moves_bind (moves_keep fun _ => rfl) fun _ => moves_read fun s => ?_
    refine moves_bind (keeps_authstate _) fun _ => ?_
    exact moves_bind (moves_when (stays_setTimer 1).of_stay) fun _ =>
      (stays_sendReport (r := .netDown) nofun).of_stay
  have hfail : quests.Moves Quest.Keeps (Netlink.handleScanError err) := by
    apply moves_ite (moves_pure _)
    exact moves_bind (moves_keep fun _ => rfl) fun _ => (stays_sendReport (r := .scanFail) nofun).of_stay
  have hscan : quests.Moves Quest.Keeps (do
      update fun s => { s with authstate := .idle }
      let _ ← startScan s.ap.freq
      pure () : Handler Unit) :=
    moves_bind (keeps_authstate _) fun _ => moves_bind (stays_startScan _).of_stay fun _ => moves_pure _
  unfold Netlink.genlError
  rw [movesFrom_read_bind]
  split
  · exact hdown s
  next hnet =>
  split
  · exact hfail s
  next hseq =>
  unfold Netlink.handleAuthError
  rw [movesFrom_read_bind]
  split
  · next hdis => simp [Daemon.disconnectFails, Daemon.failsAuth, hnet, hseq, hdis] at hfails
  split
  · exact hscan s
  · exact busy_abortConnection.keeps hs

theorem dispatch_keeps {msg : Netlink.Gen} (hs : s.authstate ≠ .idle) (hscan : s.scanstate = .idle)
    (hifi : msg.ifi = some s.ifindex) (hlost : s.notices .disconnect (.netlink (.gen msg)) = false)
    (horder : s.outOfOrder (.netlink (.gen msg)) = false) :
    quests.MovesFrom Quest.Keeps (Netlink.dispatch msg) s := by
  unfold Netlink.dispatch
  split
  · unfold Netlink.cmdTriggerScan
    rw [movesFrom_read_bind, if_pos (by simp [hscan])]
    exact moves_pure _ s
  · unfold Netlink.cmdScanResults
    rw [movesFrom_read_bind]
    split
    · have hparse : quests.Moves stay (Netlink.parseScanResult msg) := by
        apply moves_read
        intro _
        split
        · exact moves_pure _
        split
        · exact moves_pure _
        split
        · exact moves_pure _
        · exact moves_keep fun _ => rfl
      exact hparse.of_stay s
    · rw [if_neg (by simp [hscan])]
      exact moves_pure _ s
  · unfold Netlink.cmdScanAborted
    rw [movesFrom_read_bind, if_pos (by simp [hscan])]
    exact moves_pure _ s
  · next hcmd =>
      have hnext : Busy (do
          primeEapolState
          triggerAssociation : Handler Unit) :=
        busy_bind (busy_bind (busy_keep fun _ => rfl) fun _ => busy_call _) fun _ =>
          busy_reads fun _ => busy_sendSetAuthstate _ (by decide)
      unfold Netlink.cmdAuthenticate
      rw [movesFrom_read_bind]
      split
      · exact moves_pure _ s
      next hext =>
      split
      · next hne => simp [Daemon.outOfOrder, Daemon.notices, hifi, hcmd, hext, hne] at horder
      · exact hnext.keeps hs
  · next hcmd =>
      have hallow : Busy allowEapolSends :=
        busy_reads fun _ => busy_ite (busy_keep fun _ => rfl) busy_sendPacket2
      have hnext : Busy (do
          allowEapolSends
          update fun s => { s with authstate := .connecting } : Handler Unit) :=
        busy_bind hallow fun _ => busy_update fun s => ⟨.refl s.quest, by simp [Daemon.quest]⟩
      unfold Netlink.cmdAssociate
      rw [movesFrom_read_bind]
      split
      · exact moves_pure _ s
      next hext =>
      split
      · next hne => simp [Daemon.outOfOrder, Daemon.notices, hifi, hcmd, hext, hne] at horder
      · exact hnext.keeps hs
  · next hcmd =>
      unfold Netlink.cmdConnect when
      rw [movesFrom_read_bind]
      split
      · exact moves_pure _ s
      next hext =>
      split
      · next hne => simp [Daemon.outOfOrder, Daemon.notices, hifi, hcmd, hext, hne] at horder
      · exact moves_bind (moves_pure ()) (fun _ => keeps_authstate fun _ => .connected) s
  · next hcmd => simp [Daemon.notices, hifi, hcmd] at hlost
  · exact moves_pure _ s

theorem timerExpired_keeps (hs : s.authstate ≠ .idle) : quests.MovesFrom Quest.Keeps timerExpired s := by
  have hexit : quests.Moves Quest.Keeps (update fun s => { s with opermode := .exit } : Handler Unit) :=
    moves_update fun _ hmode => nomatch hmode
  have hscan : quests.Moves Quest.Keeps routineBgScan :=
    moves_bind (stays_startScan 0).of_stay fun _ => (stays_setTimer _).of_stay
  unfold timerExpired clrTimer MovesFrom
  rw [does_update_bind, does_read_bind]
  split
  · split
    · exact hexit _
    · exact keeps_authstate (fun _ => .idle) _
  split
  · exact hscan _
  · exact busy_abortConnection.keeps hs

/-- While an attempt is under way, nothing is reported and the station keeps to what is asked
for, unless the attempt is reported lost, taken over or has been given up. -/
theorem EventKind.handler_keeps (hk : k.disturbs = false) (hs : s.authstate ≠ .idle)
    (hscan : s.scanstate = .idle) (hlost : s.notices .disconnect k = false)
    (horder : s.outOfOrder k = false) (hfails : s.disconnectFails k = false) :
    quests.MovesFrom Quest.Keeps k.handler s := by
  have hstay {m : Handler Unit} (hm : quests.Moves stay m) : quests.MovesFrom Quest.Keeps m s :=
    hm.of_stay s
  cases k with
  | connMsg cn msg => cases hk
  | rfkill re => cases hk
  | connEnd cn fault => exact hstay (moves_ite (moves_emit rfl) (moves_pure _))
  | connHup cn => exact hstay (moves_keep fun _ => rfl)
  | netlink msg =>
      unfold EventKind.handler Netlink.handleMsg
      rw [movesFrom_read_bind]
      cases msg with
      | done =>
          unfold Netlink.genlDone
          rw [movesFrom_read_bind, if_pos (by simp [hscan])]
          exact moves_pure _ s
      | err seq err => exact genlError_keeps hs hfails
      | gen msg =>
          dsimp only
          split
          · next hifi => exact dispatch_keeps hs hscan hifi hlost horder
          · exact moves_pure _ s
      | other => exact moves_pure _ s
  | netlinkLost => exact hstay (stays_quit _)
  | frame sender data => exact (busy_handleRawsock sender data).keeps hs
  | frameError => exact hstay (moves_emit rfl)
  | rawsockLost => exact hstay (moves_keep fun _ => rfl)
  | accept cfd =>
      refine hstay (moves_read fun _ => ?_)
      split
      · exact moves_keep fun _ => rfl
      · exact moves_pure _
  | controlLost => exact hstay (stays_quit _)
  | rfkillLost => exact hstay (moves_keep fun _ => rfl)
  | timer => exact timerExpired_keeps hs
  | sigterm =>
      have hset (f : Daemon → OperMode) (hf : ∀ s, f s ≠ .oneshot) : Busy (update fun s => { s with
          opermode := f s } : Handler Unit) :=
        busy_update fun s => ⟨fun hmode => absurd hmode (hf s), id⟩
      have hshut : Busy xshutdown := by
        apply busy_reads
        intro s
        apply busy_ite (busy_of_stay (stays_quit _))
        apply busy_ite (hset _ fun _ => by decide)
        exact busy_bind busy_startDisconnect fun ret => hset _ fun _ => by split <;> decide
      exact hshut.keeps hs
  | pollError => exact hstay (stays_quit _)
  | reap pid exited signaled =>
      refine hstay (moves_read fun _ => moves_ite (moves_pure _) ?_)
      refine moves_bind (moves_keep fun _ => rfl) fun _ => ?_
      exact moves_bind (moves_when (moves_emit rfl)) fun _ => moves_when (moves_emit rfl)
  | turn =>
      have hsave : quests.Moves stay saveConfig :=
        moves_bind (stays_answer _ _ _) fun _ => moves_keep fun _ => rfl
      have hstate : quests.Moves stay saveState :=
        moves_read fun _ => moves_ite (moves_emit rfl) (moves_pure _)
      refine hstay (moves_bind hsave fun _ => moves_read fun _ => moves_ite ?_ (moves_pure _))
      exact moves_bind hstate fun _ => moves_bind (moves_emit rfl) fun _ => moves_exit

end Quests

section Control
variable {s : Daemon} {k : EventKind} {ks : List Act} {o : Outcome Unit Control} {c : Control}

/-- A request served after the event was so before, and an attempt is still or again under
way unless it was reported lost. -/
def Serves (s : Daemon) (k : EventKind) (ks : List Act) (c : Control) : Prop :=
  c.opermode = .oneshot → s.opermode = .oneshot ∧ (s.authstate = .idle ∨ s.notices .disconnect k = true ∨
    ((c.scanstate = .idle → c.authstate ≠ .idle) ∧ (s.authstate = .disconnecting →
      c.authstate = .disconnecting ∨ c.authstate = .netdown ∨ ks.any Act.authenticates = true)))

namespace Serves

theorem of_mode (h : c.opermode ≠ .oneshot) : Serves s k ks c := fun hmode => absurd hmode h

theorem of_idle (hmode : c.opermode = .oneshot → s.opermode = .oneshot) (h : s.authstate = .idle) :
    Serves s k ks c :=
  fun hm => ⟨hmode hm, .inl h⟩

theorem of_eq (hmode : c.opermode = s.opermode) (h : c.authstate = s.authstate) : Serves s k ks c := by
  intro hm
  refine ⟨hmode ▸ hm, ?_⟩
  by_cases hidle : s.authstate = .idle
  · exact .inl hidle
  · right
    right
    constructor
    · intro _
      rwa [h]
    · intro hdis
      exact .inl (h.trans hdis)

theorem of_ne (hmode : c.opermode = s.opermode) (h : c.authstate ≠ .idle)
    (hs : s.authstate ≠ .disconnecting) : Serves s k ks c :=
  fun hm => ⟨hmode ▸ hm, .inr (.inr ⟨fun _ => h, fun hdis => absurd hdis hs⟩)⟩

end Serves

theorem Reassess.oneshot {c₀ : Control} (h : Reassess c₀ ks o) :
    o.Returns fun c => c.opermode = .oneshot → c₀.opermode = .oneshot := by
  cases h with
  | stays _ => exact id
  | starts _ _ _ _ _ _ => exact id
  | ends _ _ => trivial
  | gives_up _ _ => exact nofun
  | waits _ _ _ => exact id

theorem Abort.serves {c₀ : Control} {ks' : List Act} (h : Abort c₀ ks' o)
    (hmode : c₀.opermode = s.opermode) (hauth : c₀.authstate = s.authstate) :
    o.Returns (Serves s k ks) := by
  cases h with
  | disconnects _ _ _ h => exact .of_ne hmode (by simp) (hauth ▸ h)
  | stays _ => exact .of_eq hmode hauth
  | reassesses hidle h =>
      have hone := h.oneshot
      cases o with
      | ends => trivial
      | goes a c => exact .of_idle (fun hm => hmode ▸ hone hm) (hauth ▸ hidle)

theorem Netlink.GenlError.serves {seq : ℕ} {err : Int} (hscan : s.scanstate = .idle)
    (hrf : s.rfkilled = false) (h : Netlink.GenlError s.toControl seq err ks o) :
    o.Returns (Serves s k ks) := by
  cases h with
  | killed _ hk => rw [hrf] at hk; cases hk
  | netdown _ _ => exact fun hm => ⟨hm, .inr (.inr ⟨by simp, fun _ => .inr (.inl rfl)⟩)⟩
  | scan_ack _ _ => exact .of_eq rfl rfl
  | scan_fails _ _ _ => exact .of_eq rfl rfl
  | idle _ _ _ => exact .of_eq rfl rfl
  | disconnect_fails _ _ hdis h =>
      cases h with
      | stays h =>
          obtain hneutral | hready := h
          · have hneutral : s.opermode = .neutral := hneutral
            exact .of_mode (by simp [hneutral])
          · exact absurd ⟨rfl, hscan⟩ hready
      | starts _ _ _ _ _ _ =>
          exact fun hm => ⟨hm, .inr (.inr ⟨by simp, fun _ => .inr (.inr rfl)⟩)⟩
      | ends _ _ => trivial
      | gives_up _ _ => exact .of_mode (by simp)
      | waits _ hne _ => exact .of_mode hne
  | rescans freq seq' _ hauth _ =>
      refine fun hm => ⟨by simpa using hm, .inr (.inr ⟨fun hidle => ?_, fun hdis => ?_⟩)⟩
      · exact absurd hidle (Control.startScan_scanstate _ _ _)
      · rw [hauth] at hdis
        cases hdis
  | aborts _ _ _ _ _ h => exact h.serves rfl rfl

theorem HandleDisconnect.serves {c₀ : Control} {ks' : List Act} (h : HandleDisconnect c₀ ks' o)
    (hmode : c₀.opermode = s.opermode) (hk : s.notices .disconnect k = true) :
    o.Returns (Serves s k ks) := by
  cases h with
  | exits _ => exact .of_mode (by simp)
  | rescans _ _ _ => exact .of_mode (by simp)
  | tries_other _ h =>
      have hone := h.oneshot
      cases o with
      | ends => trivial
      | goes a c => exact .of_mode fun hm => nomatch hone hm
  | gives_up _ => exact fun hm => ⟨hmode ▸ hm, .inr (.inl hk)⟩

theorem Netlink.GenEffect.serves {msg : Netlink.Gen} (hifi : msg.ifi = some s.ifindex)
    (h : Netlink.GenEffect s msg ks o) : o.Returns (Serves s (.netlink (.gen msg)) ks) := by
  unfold Netlink.GenEffect at h
  cases hcmd : msg.cmd <;> simp only [hcmd] at h
  case triggerScan => obtain ⟨-, rfl⟩ := h; exact .of_eq rfl rfl
  case other => obtain ⟨-, rfl⟩ := h; exact .of_eq rfl rfl
  case newScanResults => cases h <;> exact .of_eq rfl rfl
  case scanAborted => cases h <;> exact .of_eq rfl rfl
  case authenticate =>
    cases h with
    | external _ => exact .of_eq rfl rfl
    | snaps _ _ => exact .of_mode (by simp [Control.snapped])
    | associates _ _ _ _ _ h => exact .of_ne rfl (by simp) (by simp [h])
  case associate =>
    cases h with
    | external _ => exact .of_eq rfl rfl
    | snaps _ _ => exact .of_mode (by simp [Control.snapped])
    | allows h _ => exact .of_ne rfl (by simp) (by simp [h])
    | sends _ _ h _ _ => exact .of_ne rfl (by simp) (by simp [h])
    | overwrites _ _ _ h _ _ => exact .of_ne rfl (by simp) (by simp [h])
  case connect =>
    cases h with
    | external _ => exact .of_eq rfl rfl
    | overwrites _ _ => exact .of_mode (by simp [Control.snapped])
    | connects h => exact .of_ne rfl (by simp) (by simp [h])
  case disconnect =>
    cases h with
    | idle _ => exact .of_eq rfl rfl
    | disconnects _ h => exact h.serves rfl (by simp [Daemon.notices, hifi, hcmd])

theorem Netlink.MsgEffect.serves {msg : Netlink.Msg} (hscan : s.scanstate = .idle)
    (hrf : s.rfkilled = false) (h : Netlink.MsgEffect s msg ks o) :
    o.Returns (Serves s (.netlink msg) ks) := by
  cases msg with
  | done =>
      cases h with
      | no_dump _ => exact .of_eq rfl rfl
      | reconnects hd | misses hd | reassesses hd | rests hd => rw [hscan] at hd; cases hd
  | err seq err => exact Netlink.GenlError.serves hscan hrf h
  | gen msg =>
      simp only [Netlink.MsgEffect] at h
      split at h
      · next hifi => exact Netlink.GenEffect.serves hifi h
      · obtain ⟨-, rfl⟩ := h
        exact .of_eq rfl rfl
  | other => obtain ⟨-, rfl⟩ := h; exact .of_eq rfl rfl

theorem FrameLink.serves {sender data : Bytes} (h : FrameLink s sender data ks o) :
    o.Returns (Serves s k ks) := by
  cases h with
  | aborts c pre _ hb _ h => exact h.serves hb.opermode hb.authstate
  | quits | ends => trivial
  | stays _ _ _ hb => exact .of_eq hb.opermode hb.authstate
  | connects _ _ _ hb =>
      refine .of_mode ?_
      rw [hb.opermode, Control.handleConnect]
      dsimp only
      split
      · simp
      · next hno => exact fun hm => hno (.inr hm)

theorem EventKind.serves (hk : k.disturbs = false) (hscan : s.scanstate = .idle)
    (hrf : s.rfkilled = false) (h : k.effect s ks o) : o.Returns (Serves s k ks) := by
  cases k with
  | connMsg cn msg => cases hk
  | rfkill re => cases hk
  | netlink msg => exact Netlink.MsgEffect.serves hscan hrf h
  | frame sender data => exact (Frame.link h).serves
  | timer =>
      cases h with
      | exits _ _ => exact .of_mode (by simp)
      | idles _ hk => rw [hrf] at hk; cases hk
      | bg_scans _ _ => exact .of_eq (by simp) (by simp)
      | aborts _ _ _ h => exact h.serves rfl rfl
      | fg_scans _ _ h => exact .of_idle (by simp) h
  | sigterm =>
      cases h with
      | second _ _ => trivial
      | exits _ _ _ => exact .of_mode (by simp)
      | requests _ _ _ _ _ _ => exact .of_mode (by simp)
  | netlinkLost | controlLost | pollError =>
      obtain ⟨rfl, -⟩ := h
      trivial
  | turn =>
      obtain ⟨-, rfl⟩ := h
      split
      · trivial
      · exact .of_eq rfl rfl
  | connEnd | connHup | frameError | rawsockLost | accept | rfkillLost | reap =>
      obtain ⟨-, rfl⟩ := h
      exact .of_eq rfl rfl

end Control

end Wsupp

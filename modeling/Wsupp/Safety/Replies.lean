import Wsupp.Cntrl
import Wsupp.Psk.Content
import Wsupp.Reactive.Moves

/-!
# One reply to every command

Before it replies a command writes nothing to any connection, and after the reply
only reports follow. The exception is a `forget` whose line ends the PSK file
without a newline: the daemon does not survive the edit.

The handlers are followed through a view that shows what is written to clients. What
comes before the reply is shown to be quiet, which includes the failures of commands
to the kernel, since none is noticed; what comes after it may report or end the
process. So for every state and every message there is one reply and it comes first,
exactly if the edit stays inside the buffer.
-/
namespace Wsupp
open Reactive Prog View Handler

/-- The reply as its connection gets it, with the code in the header. -/
def Act.replied : Act → Option (ℕ × Int)
  | .reply cn code => some (cn, code)
  | .replyStatus cn => some (cn, 0)
  | .replyDevice cn => some (cn, 0)
  | _ => none

def Act.written : Act → Bool
  | .report .. => true
  | a => a.replied.isSome

def clients : View Daemon Act Unit where
  state _ := ()
  shows := Act.written

namespace Cntrl

/-- A single reply, of which the client can tell that it is one, and nothing in
front of it. -/
def RepliesFirst (cn : ℕ) (ks : List Act) : Prop :=
  ∃ a rest code, ks = a :: rest ∧ a.replied = some (cn, code) ∧ code ≤ 0 ∧
    ∀ b ∈ rest, b.replied = none

def OneReply (s : Daemon) (cn : ℕ) (msg : Msg) : Prop :=
  clients.Does (dispatchCmd cn msg) s fun ks _ => RepliesFirst cn ks

/-- The line of the SSID is the last one of the file, but not the only one, and has
no newline. -/
def DropsPastEnd (s : Daemon) (ssid : Bytes) : Prop :=
  match s.config.loadConfig (s.env.loadIO.headD {}) with
  | (ret, c) => 0 ≤ ret ∧ ∃ ln, c.findSsid ssid = some ln ∧ ln.2 = c.datalen ∧ 0 < ln.1

end Cntrl

namespace Config
variable {c : Config}

theorem skipline_le {b : Bytes} {e : ℕ} (n p : ℕ) (hp : p ≤ e) :
    p ≤ skipline b e n p ∧ skipline b e n p ≤ e := by
  induction n generalizing p with
  | zero => exact ⟨le_rfl, hp⟩
  | succ n ih =>
      unfold skipline
      split
      · next h =>
          have hnext := ih (p + 1) h.1
          omega
      · exact ⟨le_rfl, hp⟩

/-- A line of the file lies inside the data. -/
def Within (c : Config) (ln : ℕ × ℕ) : Prop := ln.1 ≤ ln.2 ∧ ln.2 ≤ c.datalen

theorem setline_within {p : ℕ} {ln : ℕ × ℕ} (h : c.setline p = some ln) : c.Within ln := by
  unfold setline at h
  split at h
  · cases h
  · next hp =>
      cases h
      exact skipline_le _ p (by omega)

theorem findFrom_within {i : ℕ} {val : Bytes} (n : ℕ) {start : Option (ℕ × ℕ)} {ln : ℕ × ℕ}
    (hstart : ∀ l, start = some l → c.Within l) (h : findFrom c i val n start = some ln) :
    c.Within ln := by
  induction n generalizing start with
  | zero => cases h
  | succ n ih =>
      cases start with
      | none => cases h
      | some l =>
          have hnext : ∀ l', c.nextline l = some l' → c.Within l' := fun l' hl' => setline_within hl'
          simp only [findFrom] at h
          split at h
          · exact ih hnext h
          split at h
          · cases h
            exact hstart _ rfl
          · exact ih hnext h

theorem findSsid_within {ssid : Bytes} {ln : ℕ × ℕ} (h : c.findSsid ssid = some ln) : c.Within ln :=
  findFrom_within _ (fun _ => setline_within) h

/-- With a newline there is something to move up, or nothing; without one the
length of the move is negative. -/
theorem dropLine_none {ln : ℕ × ℕ} (h : c.Within ln) :
    c.dropLine ln = none ↔ ln.2 = c.datalen ∧ 0 < ln.1 := by
  obtain ⟨h₁, h₂⟩ := h
  unfold dropLine
  dsimp only
  split
  · next hext =>
      simp only [extendConfig_eq_none, Bool.false_eq_true, and_false, or_false] at hext
      simp only [reduceCtorEq, false_iff]
      omega
  · next c' hext =>
      have hsome : ¬ c.extendConfig {} (-((ln.2 : Int) - ln.1 + 1)) = none := by
        rw [hext]
        exact Option.some_ne_none c'
      simp only [extendConfig_eq_none, Bool.false_eq_true, and_false, or_false] at hsome
      split
      · simp only [true_iff]
        omega
      · simp only [reduceCtorEq, false_iff]
        omega

end Config

namespace Cntrl

theorem dropPsk_none {s : Daemon} {ssid : Bytes} :
    s.config.dropPsk (s.env.loadIO.headD {}) ssid = none ↔ DropsPastEnd s ssid := by
  unfold Config.dropPsk DropsPastEnd
  generalize s.config.loadConfig (s.env.loadIO.headD {}) = r
  obtain ⟨ret, c⟩ := r
  dsimp only
  split
  · next hret => simp [hret]
  · next hret =>
      split
      · next hfind => simp [hfind]
      · next ln hfind =>
          rw [Option.map_eq_none_iff, Config.dropLine_none (Config.findSsid_within hfind)]
          simp [hfind, not_lt.mp hret]

theorem clients_update (f : Daemon → Daemon) : clients.Quiet (update f) := quiet_update fun _ => rfl

theorem clients_answer {α : Type} (get : Env → List α) (set : Env → List α → Env) (dflt : α) :
    clients.Quiet (answer get set dflt) :=
  quiet_read_bind fun _ => quiet_bind (clients_update _) fun _ => quiet_pure _

theorem clients_nlSend (cmd : NlCommand) : clients.Quiet (nlSend cmd) :=
  quiet_bind (clients_update _) fun _ => quiet_bind (clients_answer _ _ _) fun _ =>
    quiet_bind (quiet_emit rfl) fun _ => quiet_pure _

theorem nlSend_eq (cmd : NlCommand) (s : Daemon) : ∃ s' l, nlSend cmd s =
    .ok (if s.env.nlSend.headD 1 ≤ 0 then 1 else 0) s' l ∧ clients.outputs l = [] :=
  ⟨_, _, rfl, rfl⟩

theorem clients_sendCheck (cmd : NlCommand) : clients.Quiet (sendCheck cmd) := by
  constructor
  intro s
  obtain ⟨s', l, hsend, hl⟩ := nlSend_eq cmd s
  have hpos : (0 : Int) ≤ if s.env.nlSend.headD 1 ≤ 0 then 1 else 0 := by
    split
    · exact Int.one_nonneg
    · exact le_rfl
  unfold sendCheck
  apply does_bind_wp (Q := fun ret _ ks => 0 ≤ ret ∧ ks = []) (R := fun _ => False)
  · unfold wp
    rw [hsend]
    exact ⟨hpos, hl⟩
  · intro ks ret s₁ h
    rw [if_pos h.1, h.2]
    exact ⟨rfl, (), rfl⟩
  · exact fun _ h => h.elim

theorem clients_startScan (freq : Int) : clients.Quiet (startScan freq) := by
  have htrigger : clients.Quiet (triggerScan freq) :=
    quiet_bind (quiet_when (clients_update _)) fun _ => quiet_bind (clients_nlSend _) fun _ =>
      quiet_ite (quiet_bind (clients_update _) fun _ => quiet_pure _)
        (quiet_bind (clients_update _) fun _ => quiet_pure _)
  apply quiet_read_bind
  intro _
  apply quiet_ite
  · exact quiet_bind (clients_update _) fun _ => htrigger
  · exact quiet_ite (quiet_pure _) (quiet_bind (clients_update _) fun _ => quiet_pure _)

theorem clients_sendSetAuthstate (cmd : NlCommand) (as : AuthState) :
    clients.Quiet (sendSetAuthstate cmd as) :=
  quiet_bind (clients_sendCheck cmd) fun _ => clients_update _

theorem clients_startDisconnect : clients.Quiet startDisconnect := by
  apply quiet_read_bind
  intro _
  split
  · exact quiet_pure _
  · exact quiet_pure _
  · exact quiet_pure _
  · exact quiet_bind (clients_sendSetAuthstate _ _) fun _ => quiet_pure _

theorem clients_setRep (cn : ℕ) (rep : Bool) : clients.Quiet (setRep cn rep) := clients_update _

theorem clients_clrTimer : clients.Quiet clrTimer := clients_update _

theorem clients_clearApBssid : clients.Quiet clearApBssid := clients_update _

theorem clients_clearApSsid : clients.Quiet clearApSsid := clients_update _

theorem clients_loadPsk (ssid : Bytes) : clients.Quiet (loadPsk ssid) :=
  quiet_bind (clients_answer _ _ _) fun _ => quiet_read_bind fun _ =>
    quiet_bind (clients_update _) fun _ => quiet_pure _

theorem clients_setFixed (ssid : Bytes) : clients.Quiet (setFixed ssid) :=
  quiet_ite (quiet_pure _) <| quiet_bind (clients_update _) fun _ =>
    quiet_bind clients_clearApBssid fun _ => quiet_bind (clients_update _) fun _ => quiet_pure _

theorem clients_configureStation (msg : Msg) : clients.Quiet (configureStation msg) := by
  have hreset : clients.Quiet resetStation :=
    quiet_bind clients_clearApBssid fun _ => clients_clearApSsid
  have hlast (f : Daemon → Daemon) (ret : Int) :
      clients.Quiet (if ret < 0 then pure ret else update f >>= fun _ => pure 0 : Handler Int) :=
    quiet_ite (quiet_pure _) (quiet_bind (clients_update f) fun _ => quiet_pure _)
  apply quiet_bind hreset
  intro _
  split
  · exact quiet_pure _
  split
  · apply quiet_bind (clients_loadPsk _)
    intro ret
    apply quiet_ite (quiet_pure ret)
    exact quiet_bind (clients_setFixed _) (hlast _)
  · apply quiet_ite
    · exact quiet_bind (clients_setFixed _) (hlast _)
    · exact quiet_bind (quiet_emit rfl) fun _ => quiet_pure _

/-- Nothing is written to any connection; the daemon may end. -/
abbrev Silent {α : Type} (m : Handler α) : Prop := clients.Moves stay m

theorem silent_update (f : Daemon → Daemon) : Silent (update f) := (clients_update f).moves

theorem silent_quit {α : Type} (text : String) : Silent (quit text : Handler α) := by
  apply moves_bind (moves_emit rfl)
  intro _
  apply moves_read
  intro _
  apply moves_ite
  · exact moves_bind (moves_emit rfl) fun _ => moves_exit
  · exact moves_bind (silent_update _) fun _ => moves_bind (clients_answer _ _ _).moves fun _ =>
      moves_bind (moves_emit rfl) fun _ => moves_bind (moves_emit rfl) fun _ => moves_exit

theorem silent_modifyFlags (i : ℕ) (f : ScanFlags → ScanFlags) : Silent (modifyFlags i f) :=
  silent_update _

theorem silent_setCurrentAp (i : ℕ) : Silent (setCurrentAp i) := by
  apply moves_read
  intro _
  apply moves_bind (silent_modifyFlags i _)
  intro _
  apply moves_bind (silent_update _)
  intro _
  apply moves_ite (moves_pure _)
  apply moves_bind (silent_update _)
  intro _
  apply moves_ite (moves_pure _)
  apply moves_bind (silent_update _)
  intro _
  apply moves_read
  intro _
  exact moves_bind (clients_loadPsk _).moves fun _ => moves_ite (moves_pure _) (moves_pure _)

theorem silent_startConnection : Silent startConnection := by
  have hopen : Silent openRawsock :=
    moves_bind (clients_answer _ _ _).moves fun _ => moves_ite (silent_update _) (silent_quit _)
  have hreopen : Silent reopenRawsock := moves_read fun _ => moves_ite (moves_pure _) hopen
  have hauth : Silent triggerAuthentication := moves_read fun _ => (clients_sendSetAuthstate _ _).moves
  apply moves_read
  intro _
  apply moves_ite (moves_pure _)
  apply moves_ite (moves_pure _)
  exact moves_bind hreopen fun _ => moves_bind hauth fun _ => moves_pure _

theorem silent_connectLoop (n : ℕ) : Silent (connectLoop n) := by
  induction n with
  | zero => exact moves_pure _
  | succ n ih =>
      apply moves_read
      intro _
      split
      · exact moves_pure _
      apply moves_bind (silent_setCurrentAp _)
      intro _
      apply moves_ite (moves_bind (silent_modifyFlags _ _) fun _ => ih)
      apply moves_bind silent_startConnection
      intro _
      exact moves_ite (moves_bind (silent_modifyFlags _ _) fun _ => ih) (moves_pure _)

/-- The only thing written is `NO_CONNECT`, when nothing was found. -/
theorem reassess_replies_nothing (s : Daemon) :
    clients.Does reassessWifiSituation s fun ks _ => ∀ b ∈ ks, b.replied = none := by
  have hnone {α : Type} {m : Handler α} (hm : Silent m) (s : Daemon) :
      clients.Does m s fun ks _ => ∀ b ∈ ks, b.replied = none := by
    apply does_mono (hm s)
    intro ks o h b hb
    rw [h.1] at hb
    cases hb
  have hsnap : Silent snapToNeutral :=
    moves_bind clients_clearApBssid.moves fun _ => moves_bind clients_clearApSsid.moves fun _ =>
      silent_update _
  have hidle : Silent idleThenRescan := silent_update _
  unfold reassessWifiSituation
  rw [does_read_bind]
  split
  · exact hnone (moves_pure _) s
  split
  · exact hnone (moves_pure _) s
  split
  · exact hnone (moves_pure _) s
  apply (silent_connectLoop (NSCANS + 1)).does_bind (by simp)
  intro started s₁ _
  split
  · exact hnone (moves_pure _) s₁
  have hreport : clients.Does reportNoConnect s₁ fun ks _ => ∀ b ∈ ks, b.replied = none := by
    unfold reportNoConnect sendReport
    rw [does_read_bind, does_emit]
    intro b hb
    cases List.mem_singleton.mp (List.mem_of_mem_filter hb)
    rfl
  apply does_bind hreport
  · intro ks _ _ hks s₂ _
    have hlast : Silent (read >>= fun s => if s.opermode = .oneshot then snapToNeutral else idleThenRescan) :=
      moves_read fun _ => moves_ite hsnap hidle
    apply does_mono (hnone hlast s₂)
    intro ks' _ hks' b hb
    exact (List.mem_append.mp hb).elim (hks b) (hks' b)
  · exact fun _ h => h

theorem reply_first {cn : ℕ} {err : Int} (herr : err ≤ 0) (s : Daemon) :
    clients.Does (reply cn err) s fun ks _ => RepliesFirst cn ks :=
  ⟨.reply cn err, [], err, rfl, rfl, herr, fun _ h => nomatch h⟩

/-- A handler leaves the reply to its caller, with a return value that is not positive,
or has replied itself. -/
inductive Called (cn : ℕ) : List Act → Outcome Int Unit → Prop where
  | leaves {ret : Int} : ret ≤ 0 → Called cn [] (.goes ret ())
  | replied {ks : List Act} {ret : Int} : 0 < ret → RepliesFirst cn ks → Called cn ks (.goes ret ())
  | ended {ks : List Act} : RepliesFirst cn ks → Called cn ks .ends

theorem cmdStatus_called (cn : ℕ) (s : Daemon) : clients.Does (cmdStatus cn) s (Called cn) := by
  unfold cmdStatus
  rw [does_emit_bind]
  apply does_bind_quiet (clients_setRep cn false)
  intro _ _ _
  exact .replied (by decide) ⟨_, [], 0, rfl, rfl, le_rfl, fun _ h => nomatch h⟩

theorem cmdDevice_called (cn : ℕ) (s : Daemon) : clients.Does (cmdDevice cn) s (Called cn) :=
  .replied (by decide) ⟨_, [], 0, rfl, rfl, le_rfl, fun _ h => nomatch h⟩

theorem cmdScan_called (cn : ℕ) (s : Daemon) : clients.Does (cmdScan cn) s (Called cn) := by
  apply does_bind_quiet (clients_startScan 0)
  intro ret _ _
  split
  · next h => exact .leaves h.le
  apply does_bind_quiet (clients_setRep cn true)
  intro _ _ _
  exact .leaves le_rfl

theorem cmdNeutral_called (cn : ℕ) (s : Daemon) : clients.Does (cmdNeutral cn) s (Called cn) := by
  apply does_bind_quiet (clients_update _)
  intro _ _ _
  apply does_bind_quiet clients_startDisconnect
  intro ret _ _
  split
  · next h => exact .leaves h.le
  apply does_bind_quiet (clients_setRep cn true)
  intro _ _ _
  apply does_bind_quiet clients_clrTimer
  intro _ _ _
  exact .leaves le_rfl

theorem cmdConnect_called (cn : ℕ) (msg : Msg) (s : Daemon) :
    clients.Does (cmdConnect cn msg) s (Called cn) := by
  unfold cmdConnect
  rw [does_read_bind]
  split
  · exact .leaves (by decide)
  split
  · exact .leaves (by decide)
  apply does_bind_quiet (clients_configureStation msg)
  intro ret _ _
  split
  · next h => exact .leaves h.le
  apply does_bind_quiet (clients_update _)
  intro _ _ _
  apply does_bind_quiet (clients_setRep cn true)
  intro _ s₁ _
  have hreply : clients.Does (reply cn 0) s₁ fun ks o => ks = [.reply cn 0] ∧ o = .goes REPLIED () :=
    ⟨rfl, rfl⟩
  apply does_bind hreply
  · intro ks ret _ hks s₂ _
    obtain ⟨rfl, hret⟩ := hks
    injection hret with hret
    apply does_bind_quiet clients_clrTimer
    intro _ s₃ _
    have hfirst {ks : List Act} (hks : ∀ b ∈ ks, b.replied = none) :
        RepliesFirst cn ([Act.reply cn 0] ++ ks) := ⟨_, ks, 0, rfl, rfl, le_rfl, hks⟩
    apply does_bind (reassess_replies_nothing s₃)
    · intro ks _ _ hks s₄ _
      rw [does_pure, List.append_nil]
      exact .replied (by rw [hret]; decide) (hfirst hks)
    · exact fun ks hks => .ended (hfirst hks)
  · intro _ h
    cases h.2

theorem dropPsk_does (ssid : Bytes) (s : Daemon) : clients.Does (dropPsk ssid) s fun ks o => ks = [] ∧
    ((∃ ret, o = .goes ret ()) ∧ ¬ DropsPastEnd s ssid ∨ o = .ends ∧ DropsPastEnd s ssid) := by
  simp only [Does, dropPsk, answerLoadIO, answer, wp_bind, wp_read, wp_update, wp_pure]
  split
  · next ret c hdrop =>
      rw [← dropPsk_none, hdrop]
      exact ⟨rfl, .inl ⟨⟨ret, rfl⟩, Option.some_ne_none _⟩⟩
  · next hdrop => exact ⟨rfl, .inr ⟨trivial, dropPsk_none.mp hdrop⟩⟩

/-- The edit of the PSK file is the one thing that may go wrong. -/
theorem cmdForget_called (cn : ℕ) (msg : Msg) (s : Daemon) :
    clients.Does (cmdForget msg) s fun ks o =>
      Called cn ks o ∧ (∀ ssid, msg.ssid = some ssid → ¬ DropsPastEnd s ssid) ∨
        ks = [] ∧ o = .ends ∧ ∃ ssid, msg.ssid = some ssid ∧ DropsPastEnd s ssid := by
  unfold cmdForget
  split
  · next hssid =>
      left
      constructor
      · exact .leaves (by decide)
      · intro ssid h
        rw [hssid] at h
        cases h
  · next ssid hssid =>
      apply does_bind (dropPsk_does ssid s)
      · intro ks ret _ h s₁ _
        obtain ⟨rfl, h⟩ := h
        have hinside : ∀ ssid, msg.ssid = some ssid → ¬ DropsPastEnd s ssid := by
          intro ssid' h'
          rw [hssid] at h'
          cases h'
          exact h.elim (fun h => h.2) (fun h => nomatch h.1)
        split
        · next hret => exact .inl ⟨.leaves hret.le, hinside⟩
        · apply does_bind_quiet (clients_update _)
          intro _ _ _
          exact .inl ⟨.leaves le_rfl, hinside⟩
      · intro ks h
        obtain ⟨rfl, h⟩ := h
        rcases h with ⟨⟨ret, h⟩, -⟩ | ⟨-, h⟩
        · cases h
        · exact .inr ⟨rfl, rfl, ssid, hssid, h⟩

/-- The command does not survive its handler. -/
def Crashes (s : Daemon) (msg : Msg) : Prop :=
  msg.cmd = .forget ∧ ∃ ssid, msg.ssid = some ssid ∧ DropsPastEnd s ssid

theorem call_called (cn : ℕ) (msg : Msg) (s : Daemon) : clients.Does (call cn msg) s fun ks o =>
    Called cn ks o ∧ ¬ Crashes s msg ∨ ks = [] ∧ o = .ends ∧ Crashes s msg := by
  have hother {m : Handler Int} (hcmd : msg.cmd ≠ .forget) (hm : clients.Does m s (Called cn)) :
      clients.Does m s fun ks o =>
        Called cn ks o ∧ ¬ Crashes s msg ∨ ks = [] ∧ o = .ends ∧ Crashes s msg :=
    does_mono hm fun _ _ h => .inl ⟨h, fun hc => hcmd hc.1⟩
  unfold call
  split
  · next h => exact hother (by simp [h]) (cmdStatus_called cn s)
  · next h => exact hother (by simp [h]) (cmdDevice_called cn s)
  · next h => exact hother (by simp [h]) (cmdScan_called cn s)
  · next h => exact hother (by simp [h]) (cmdNeutral_called cn s)
  · next h => exact hother (by simp [h]) (cmdConnect_called cn msg s)
  · next h =>
      apply does_mono (cmdForget_called cn msg s)
      intro ks o hcalled
      rcases hcalled with ⟨hcalled, hinside⟩ | ⟨hks, ho, hcrash⟩
      · exact .inl ⟨hcalled, fun ⟨_, ssid, hssid, hdrops⟩ => hinside ssid hssid hdrops⟩
      · exact .inr ⟨hks, ho, h, hcrash⟩
  · next h => exact hother (by simp [h]) (.leaves (by decide))

theorem dispatchCmd_replies (cn : ℕ) (msg : Msg) (s : Daemon) :
    clients.Does (dispatchCmd cn msg) s fun ks _ =>
      RepliesFirst cn ks ∧ ¬ Crashes s msg ∨ ks = [] ∧ Crashes s msg := by
  apply does_bind (call_called cn msg s)
  · intro ks ret _ h s₁ _
    rcases h with ⟨hcalled, hcrash⟩ | ⟨-, ho, -⟩
    · cases hcalled with
      | leaves hret =>
          rw [if_neg (not_lt.mpr hret)]
          exact does_mono (reply_first hret s₁) fun _ _ h => .inl ⟨h, hcrash⟩
      | replied hret hks =>
          rw [if_pos hret, does_pure, List.append_nil]
          exact .inl ⟨hks, hcrash⟩
    · cases ho
  · intro ks h
    rcases h with ⟨hcalled, hcrash⟩ | ⟨hks, -, hcrash⟩
    · cases hcalled with
      | ended hks => exact .inl ⟨hks, hcrash⟩
    · exact .inr ⟨hks, hcrash⟩

theorem Crashes.unanswered {s : Daemon} {cn : ℕ} {msg : Msg} (hcrash : Crashes s msg) : ¬ OneReply s cn msg := by
  intro hone
  obtain ⟨ks, _, h, a, rest, code, hks, -⟩ := does_common (dispatchCmd_replies cn msg s) hone
  rcases h with h | h
  · exact h.2 hcrash
  · rw [h.1] at hks
    cases hks

/-- Every command gets its one reply first, but a `forget` of the SSID in an unfinished
last line. That line is cut out beyond the end of the block, which the process does not
survive. -/
theorem one_reply_iff (s : Daemon) (cn : ℕ) (msg : Msg) :
    OneReply s cn msg ↔ ¬ (msg.cmd = .forget ∧ ∃ ssid, msg.ssid = some ssid ∧ DropsPastEnd s ssid) := by
  constructor
  · intro hone hcrash
    exact Crashes.unanswered hcrash hone
  · intro hcrash
    apply does_mono (dispatchCmd_replies cn msg s)
    intro ks _ h
    exact h.elim (fun h => h.1) (fun h => (hcrash h.2).elim)

namespace Sample

/-- Two lines, of which the second one has no newline. -/
def unfinished : Daemon := { config := { file := some ("0A a\n0B b".toUTF8.toList) } }

end Sample

/-- The second line has no newline, as an editor may leave it. A client that has its
network forgotten gets no answer. -/
theorem forget_unanswered :
    ¬ OneReply Sample.unfinished 0 { cmd := .forget, ssid := some [0x62] } := by
  apply Crashes.unanswered
  refine ⟨rfl, [0x62], rfl, by decide +kernel, (5, 9), ?_⟩
  decide +kernel

end Cntrl
end Wsupp

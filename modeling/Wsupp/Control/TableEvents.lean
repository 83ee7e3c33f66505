import Wsupp.Control.Step
import Wsupp.Control.TableSteps

/-!
# The tables from event to event

The commands of the clients and with them all events: `EventKind.tableEffect` is
what later modules know about a step as far as the access point record, the scan
table and the PSK file go. For most events it only says that the tables have moved;
for the end of a dump, a scan result, the three commands that set the station and a
connection that comes up it says what they are afterwards.

The control variables enter only where the source tests them before it touches a
table. The start before the loop is an effect of the same kind, on an empty table.
-/
namespace Wsupp
open Reactive Prog View Relation

abbrev Changes : Tables → Tables → Prop := TableMove fun _ _ => True

/-- If the station is told to keep to an SSID, it is the one in the command. -/
def Tables.FixedBy (t : Tables) (msg : Cntrl.Msg) : Prop :=
  t.ap.fixed = true → msg.ssid = some (t.ap.ssid.take t.ap.slen)

/-- A connection is tried for with the station set up anew. -/
def ConnectTables (s : Daemon) (msg : Cntrl.Msg) (ks : List Act) (o : Outcome Unit Tables) : Prop :=
  (¬ s.Ready ∧ ks = [] ∧ o = .goes () s.tables) ∨
    (s.Ready ∧ ∃ t, ReflTransGen Changes s.tables t ∧ t.FixedBy msg ∧ Closing Roams Tables.Starts t ks o)

def ForgetTables (s : Daemon) (msg : Cntrl.Msg) (ks : List Act) (o : Outcome Unit Tables) : Prop :=
  ks = [] ∧ match msg.ssid with
    | none => o = .goes () s.tables
    | some ssid =>
        match s.config.dropPsk (s.env.loadIO.headD {}) ssid with
        | none => o = .ends
        | some (ret, config) => o = .goes () (if ret < 0 then
            { s.tables with config := config, loadIO := s.env.loadIO.tail }
          else s.tables.forget ssid config)

namespace Cntrl

theorem tables_setRep (cn : ℕ) (rep : Bool) : tables.Quiet (setRep cn rep) := quiet_update fun _ => rfl

theorem tables_reply (cn : ℕ) (err : Int) : tables.Quiet (reply cn err) :=
  quiet_bind (quiet_emit rfl) fun _ => quiet_pure _

theorem tables_setFixed (ssid : Bytes) (s : Daemon) : tables.Does (setFixed ssid) s fun ks o => ks = [] ∧
    ∃ ret t, o = .goes ret t ∧ ReflTransGen Changes s.tables t ∧
      ((ret < 0 ∧ t = s.tables) ∨ (0 ≤ ret ∧ t.ap.ssid.take t.ap.slen = ssid)) := by
  unfold setFixed
  split
  · exact ⟨rfl, _, _, rfl, .refl, .inl ⟨by decide, rfl⟩⟩
  unfold clearApBssid resetScanCounters
  rw [does_update_bind, does_update_bind, does_update_bind]
  refine ⟨rfl, _, _, rfl, .tail (.single (.retunes _ trivial)) (.retries _ ⟨rfl, fun i => ?_⟩),
    .inr ⟨le_rfl, ?_⟩⟩
  · rw [ScanTable.get_map]
    split
    · dsimp only
      split
      · next h =>
          simp only [Bool.and_eq_true, decide_eq_true_eq] at h
          exact .inr ⟨h.1, false, rfl⟩
      · exact .inl rfl
    · exact .inl rfl
  · change (Bytes.memcpy s.ap.ssid ssid ssid.length).take ssid.length = ssid
    rw [Bytes.take_memcpy _ le_rfl, List.take_length]

theorem tables_configureStation (msg : Msg) (s : Daemon) : tables.Does (configureStation msg) s fun ks o =>
    ks = [] ∧ ∃ ret t, o = .goes ret t ∧ ReflTransGen Changes s.tables t ∧ t.FixedBy msg := by
  have hreset : tables.Does resetStation s fun ks o => ks = [] ∧ ∃ t, o = .goes () t ∧
      ReflTransGen Changes s.tables t ∧ t.ap.fixed = false :=
    ⟨rfl, _, rfl, .tail (.single (.retunes _ trivial)) (.rekeys _ fun _ => rfl), rfl⟩
  refine does_bind hreset ?_ ?_
  swap
  · rintro ks ⟨-, -, ⟨⟩, -⟩
  rintro ks _ c ⟨rfl, t, ⟨⟩, hpath, hfixed⟩ s₁ rfl
  have hloose (s' : Daemon) (h : ReflTransGen Changes s.tables s'.tables) (hf : s'.ap.fixed = false) :
      ReflTransGen Changes s.tables s'.tables ∧ s'.tables.FixedBy msg :=
    ⟨h, fun hfix => by rw [show s'.tables.ap.fixed = false from hf] at hfix; cases hfix⟩
  split
  · exact ⟨rfl, _, _, rfl, hloose s₁ hpath hfixed⟩
  next ssid hssid =>
  -- what follows `set_fixed` leaves the SSID alone
  have hset (s' : Daemon) (h : ReflTransGen Changes s.tables s'.tables) (hf : s'.ap.fixed = false)
      (g : Daemon → Daemon) (hg : ∀ s, ReflTransGen Changes s.tables (g s).tables)
      (hkeep : ∀ s, (g s).ap.slen = s.ap.slen ∧ (g s).ap.ssid = s.ap.ssid) :
      tables.Does (do
        let ret ← setFixed ssid
        if ret < 0 then pure ret
        else do
          update g
          pure 0 : Handler Int) s' fun ks o => ks = [] ∧ ∃ ret t, o = .goes ret t ∧
            ReflTransGen Changes s.tables t ∧ t.FixedBy msg := by
    refine does_bind (tables_setFixed ssid s') ?_ ?_
    · rintro ks ret c ⟨rfl, _, t, ⟨⟩, hpath', ⟨hneg, rfl⟩ | ⟨hpos, hap⟩⟩ s₂ h₂
      · rw [if_pos hneg]
        have h₂ : s₂.tables = s'.tables := h₂
        refine ⟨rfl, _, _, rfl, hloose s₂ (h₂ ▸ h) ?_⟩
        rw [show s₂.ap = s'.ap from congrArg Tables.ap h₂, hf]
      · rw [if_neg (not_lt.mpr hpos), does_update_bind, does_pure]
        subst h₂
        refine ⟨rfl, _, _, rfl, (h.trans hpath').trans (hg s₂), fun _ => ?_⟩
        change msg.ssid = some ((g s₂).ap.ssid.take (g s₂).ap.slen)
        rw [(hkeep s₂).1, (hkeep s₂).2, hssid]
        exact congrArg some hap.symm
    · rintro ks ⟨-, -, -, ⟨⟩, -⟩
  split
  · unfold setFixedSaved
    refine does_bind (loadPsk_tables ssid s₁) ?_ ?_
    swap
    · rintro ks ⟨-, -, -, -, ⟨⟩⟩
    rintro ks ret c ⟨rfl, _, PSK, hlen, ⟨⟩⟩ s₂ h₂
    have h₂ : s₂.tables = { s₁.tables.load with PSK := PSK } := h₂
    have hpath₂ : ReflTransGen Changes s.tables s₂.tables := by
      rw [h₂]
      exact (hpath.tail .loads).tail (.rekeys PSK hlen.trans)
    have hfixed₂ : s₂.ap.fixed = false := by
      rw [show s₂.ap = s₁.ap from congrArg Tables.ap h₂]
      exact hfixed
    split
    · exact ⟨rfl, _, _, rfl, hloose s₂ hpath₂ hfixed₂⟩
    · exact hset s₂ hpath₂ hfixed₂ _ (fun s => .single (.retunes _ trivial)) fun s => ⟨rfl, rfl⟩
  · split
    · next psk _ hlen =>
        refine hset s₁ hpath hfixed _ (fun s => ?_) fun s => ⟨rfl, rfl⟩
        refine .tail (.single (.retunes _ trivial)) (.rekeys _ fun _ => ?_)
        rw [List.length_take, hlen, min_self]
    · refine does_bind_quiet (tables_warn _) fun _ s₂ h₂ => ?_
      have h₂ : s₂.tables = s₁.tables := h₂
      refine ⟨rfl, _, _, rfl, hloose s₂ (h₂ ▸ hpath) ?_⟩
      rw [show s₂.ap = s₁.ap from congrArg Tables.ap h₂]
      exact hfixed

theorem tables_dropPsk (ssid : Bytes) (s : Daemon) : tables.Does (dropPsk ssid) s fun ks o =>
    ks = [] ∧ match s.config.dropPsk (s.env.loadIO.headD {}) ssid with
      | none => o = .ends
      | some (ret, config) => o = .goes ret
          { s.tables with config := config, loadIO := s.env.loadIO.tail } := by
  unfold dropPsk Handler.answerLoadIO Handler.answer View.Does
  simp only [wp_bind, wp_read, wp_update, wp_pure]
  cases s.config.dropPsk (s.env.loadIO.headD {}) ssid with
  | none => exact ⟨rfl, trivial⟩
  | some r => exact ⟨rfl, rfl⟩

theorem tables_cmdForget (msg : Msg) (s : Daemon) :
    tables.Does (cmdForget msg) s fun ks o => ForgetTables s msg ks o.void := by
  unfold cmdForget ForgetTables
  cases msg.ssid with
  | none => exact ⟨rfl, rfl⟩
  | some ssid =>
      dsimp only
      refine does_bind (tables_dropPsk ssid s) ?_ ?_
      · rintro ks ret c ⟨rfl, h⟩ s₁ h₁
        cases hdrop : s.config.dropPsk (s.env.loadIO.headD {}) ssid with
        | none => rw [hdrop] at h; cases h
        | some r =>
            rw [hdrop] at h
            obtain ⟨ret', config⟩ := r
            cases h
            dsimp only
            split
            · exact ⟨rfl, congrArg (Outcome.goes ()) h₁⟩
            · refine ⟨rfl, congrArg (Outcome.goes ()) ?_⟩
              exact congrArg (fun t : Tables => { t with table := (t.table.map fun sc =>
                if sc.slen = ssid.length && sc.ssid.take ssid.length = ssid then
                  { sc with flags := { sc.flags with pass := false } }
                else sc) }) h₁
      · rintro ks ⟨rfl, h⟩
        cases hdrop : s.config.dropPsk (s.env.loadIO.headD {}) ssid with
        | none => exact ⟨rfl, rfl⟩
        | some r => rw [hdrop] at h; cases h

theorem tables_cmdConnect (cn : ℕ) (msg : Msg) {s : Daemon} (hs : s.tables.table.Named) :
    tables.Does (cmdConnect cn msg) s fun ks o => ConnectTables s msg ks o.void := by
  unfold cmdConnect
  rw [does_read_bind]
  split
  · next h => exact .inl ⟨fun hr => h hr.1, rfl, rfl⟩
  next ha =>
  split
  · next h => exact .inl ⟨fun hr => h hr.2, rfl, rfl⟩
  next hscan =>
  have hready : s.Ready := ⟨not_not.mp ha, not_not.mp hscan⟩
  refine does_bind (tables_configureStation msg s) ?_ ?_
  swap
  · rintro ks ⟨-, -, -, ⟨⟩, -⟩
  rintro ks ret c ⟨rfl, _, t, ⟨⟩, hpath, hfix⟩ s₁ rfl
  refine does_mono (E := fun ks o => Closing Roams Tables.Starts s₁.tables ks o.void) ?_
    fun ks o ho => .inr ⟨hready, s₁.tables, hpath, hfix, ho⟩
  split
  · exact .inl ⟨rfl, .refl⟩
  have hmode : tables.Moves stay (update fun s => { s with opermode := .oneshot } : Handler Unit) :=
    moves_keep fun _ => rfl
  refine hmode.does_bind (.inl ⟨rfl, trivial⟩) fun _ s₂ h₂ => ?_
  refine (tables_setRep cn true).moves.does_bind (.inl ⟨rfl, trivial⟩) fun _ s₃ h₃ => ?_
  refine (tables_reply cn 0).moves.does_bind (.inl ⟨rfl, trivial⟩) fun ret s₄ h₄ => ?_
  refine tables_clrTimer.moves.does_bind (.inl ⟨rfl, trivial⟩) fun _ s₅ h₅ => ?_
  have hs₅ : s₅.tables = s₁.tables := h₅.trans (h₄.trans (h₃.trans h₂))
  have hclose : tables.ClosesFrom Roams Tables.Starts reassessWifiSituation s₅ := by
    refine reassess_closes ?_
    rw [hs₅]
    exact (moves_sameSlots hpath).named hs
  refine does_bind hclose ?_ ?_
  · intro ks _ c h s₆ h₆
    rw [does_pure, h₆, List.append_nil, ← hs₅]
    exact h
  · intro ks h
    rw [← hs₅]
    exact h

def CmdTables (s : Daemon) (msg : Msg) : List Act → Outcome Unit Tables → Prop :=
  match msg.cmd with
  | .connect => ConnectTables s msg
  | .forget => ForgetTables s msg
  | _ => fun ks o => ks = [] ∧ o.Returns (· = s.tables)

theorem tables_call (cn : ℕ) (msg : Msg) {s : Daemon} (hs : s.tables.table.Named) :
    tables.Does (call cn msg) s fun ks o => CmdTables s msg ks o.void := by
  have hstay {m : Handler Int} (hm : tables.Moves stay m) :
      tables.Does m s fun ks o => ks = [] ∧ o.void.Returns (· = s.tables) := by
    refine does_mono (hm s) fun ks o ho => ⟨ho.1, ?_⟩
    cases o with
    | ends => trivial
    | goes ret t => exact stays_eq ho.2
  unfold call CmdTables
  split
  · next h => simp only [h]; exact hstay (moves_bind (moves_emit rfl) fun _ =>
      moves_bind (tables_setRep cn false).moves fun _ => moves_pure _)
  · next h => simp only [h]; exact hstay (moves_bind (moves_emit rfl) fun _ => moves_pure _)
  · next h =>
      simp only [h]
      exact hstay (moves_bind (tables_startScan 0).moves fun _ => moves_ite (moves_pure _) <|
        moves_bind (tables_setRep cn true).moves fun _ => moves_pure _)
  · next h =>
      simp only [h]
      exact hstay (moves_bind (moves_keep fun _ => rfl) fun _ => moves_bind tables_startDisconnect fun _ =>
        moves_ite (moves_pure _) <| moves_bind (tables_setRep cn true).moves fun _ =>
          moves_bind tables_clrTimer.moves fun _ => moves_pure _)
  · next h => simp only [h]; exact tables_cmdConnect cn msg hs
  · next h => simp only [h]; exact tables_cmdForget msg s
  · next h => simp only [h]; exact hstay (moves_pure _)

theorem tables_dispatchCmd (cn : ℕ) (msg : Msg) {s : Daemon} (hs : s.tables.table.Named) :
    tables.Does (dispatchCmd cn msg) s fun ks o => CmdTables s msg ks o.void := by
  refine does_bind (tables_call cn msg hs) ?_ (fun ks h => h)
  intro ks ret c h s₁ h₁
  split
  · rw [does_pure, h₁, List.append_nil]
    exact h
  · refine does_mono ((tables_reply cn ret).does s₁) ?_
    rintro ks' o ⟨rfl, _, rfl⟩
    rw [h₁, List.append_nil]
    exact h

end Cntrl

theorem xshutdown_closes (s : Daemon) : tables.ClosesFrom Roams Tables.Starts xshutdown s := by
  unfold xshutdown
  rw [closesFrom_read_bind]
  split
  · exact ((tables_quit _).of_stay s).closes
  split
  · exact (moves_keep (fun _ => rfl) s).closes
  · have hrequest : tables.Moves stay (do
        let ret ← startDisconnect
        update fun s => { s with opermode := if ret < 0 then .exit else .exitreq } : Handler Unit) :=
      moves_bind tables_startDisconnect fun _ => moves_keep fun _ => rfl
    exact (hrequest.of_stay s).closes

section Others
variable {s : Daemon} (hs : s.tables.table.Named)
include hs

theorem timerExpired_closes : tables.ClosesFrom Roams Tables.Starts timerExpired s := by
  refine tables_clrTimer.moves.bind_closes_stay fun _ s₁ h₁ => ?_
  have hs₁ : s₁.tables.table.Named := by rwa [show s₁.tables = s.tables from h₁]
  rw [closesFrom_read_bind]
  split
  · split
    · exact (moves_keep (fun _ => rfl) s₁).closes
    · exact (moves_keep (fun _ => rfl) s₁).closes
  split
  · exact (moves_routineBgScan s₁).closes
  split
  · exact abort_closes hs₁
  · exact (moves_routineFgScan s₁).closes

theorem switchRfkill_closes (re : RfkillEvent) :
    tables.ClosesFrom Roams Tables.Starts (switchRfkill re) s := by
  unfold switchRfkill
  split
  · exact (moves_bind (moves_keep fun _ => rfl) (fun _ => tables_clrTimer.moves) s).closes
  have hon : tables.Moves stay (update fun s => { s with rfkilled := false } : Handler Unit) :=
    moves_keep fun _ => rfl
  have hup : tables.Moves stay bringIfaceUp :=
    moves_bind (Quiet.moves ⟨fun _ => ⟨rfl, _, rfl⟩⟩) fun _ => moves_ite (moves_pure _) (tables_quit _)
  refine hon.bind_closes_stay fun _ s₁ h₁ => ?_
  refine hup.bind_closes_stay fun _ s₂ h₂ => handleRfrestored_closes ?_
  rwa [show s₂.tables = s.tables from h₂.trans h₁]

theorem handleRfkill_closes (re : RfkillEvent) :
    tables.ClosesFrom Roams Tables.Starts (handleRfkill re) s := by
  unfold handleRfkill handleRfkillEvent
  split
  swap
  · exact (moves_pure _ s).closes
  rw [closesFrom_read_bind]
  split
  · have hstat : tables.Moves stay Handler.answerStatRfkill := Quiet.moves ⟨fun _ => ⟨rfl, _, rfl⟩⟩
    refine hstat.bind_closes_stay fun ok s₁ h₁ => ?_
    split
    swap
    · exact (moves_pure _ s₁).closes
    have hidx : tables.Moves stay (update fun s => { s with rfkidx := re.idx } : Handler Unit) :=
      moves_keep fun _ => rfl
    refine hidx.bind_closes_stay fun _ s₂ h₂ => switchRfkill_closes ?_ re
    rwa [show s₂.tables = s.tables from h₂.trans h₁]
  split
  · exact (moves_pure _ s).closes
  · exact switchRfkill_closes hs re

end Others

theorem tables_reapDhcp (pid : Int) (exited signaled : Bool) :
    tables.Moves stay (reapDhcp pid exited signaled) :=
  moves_read fun _ => moves_ite (moves_pure _) <| moves_bind (moves_keep fun _ => rfl) fun _ =>
    moves_bind (moves_when (tables_warn _).moves) fun _ => moves_when (tables_warn _).moves

theorem tables_acceptConn (cfd : Int) : tables.Moves stay (Cntrl.acceptConn cfd) := by
  refine moves_read fun s => ?_
  split
  · exact moves_keep fun _ => rfl
  · exact moves_pure _

def Tables.written (t : Tables) (io : SaveIO) : Tables := { t with config := t.config.saveConfig io }

theorem tables_turn (s : Daemon) : tables.Does EventKind.turn.handler s fun ks o =>
    ks = [] ∧ o.Returns (· = s.tables.written (s.env.saveIO.headD {})) := by
  have hsave : tables.Does saveConfig s fun ks o =>
      ks = [] ∧ o = .goes () (s.tables.written (s.env.saveIO.headD {})) := ⟨rfl, rfl⟩
  have hstate : tables.Moves stay saveState := moves_read fun _ => moves_ite (moves_emit rfl) (moves_pure _)
  unfold EventKind.handler
  refine does_bind hsave ?_ ?_
  · rintro ks _ c ⟨rfl, ⟨⟩⟩ s₁ h₁
    rw [does_read_bind]
    split
    · refine hstate.does_bind ⟨rfl, trivial⟩ fun _ s₂ h₂ => ?_
      exact ⟨rfl, trivial⟩
    · exact ⟨rfl, h₁⟩
  · rintro ks ⟨-, ⟨⟩⟩

def EventKind.tableEffect (s : Daemon) : EventKind → List Act → Outcome Unit Tables → Prop
  | .connMsg _ msg => Cntrl.CmdTables s msg
  | .netlink msg => MsgTables s msg
  | .frame sender data => FrameTables s sender data
  | .turn => fun ks o => ks = [] ∧ o.Returns (· = s.tables.written (s.env.saveIO.headD {}))
  | _ => Roaming s

theorem EventKind.handler_tables (k : EventKind) {s : Daemon} (hs : s.tables.table.Named) :
    tables.Does k.handler s (k.tableEffect s) := by
  have hstay {m : Handler Unit} (hm : tables.Moves stay m) : tables.Does m s (Roaming s) :=
    (hm.of_stay s).closes
  cases k with
  | connMsg cn msg =>
      refine does_bind (Cntrl.tables_dispatchCmd cn msg hs) ?_ (fun ks h => h)
      intro ks ret c h s₁ h₁
      rw [does_pure, h₁, List.append_nil]
      exact h
  | connEnd cn fault => exact hstay (moves_ite (moves_emit rfl) (moves_pure _))
  | connHup cn => exact hstay (moves_keep fun _ => rfl)
  | netlink msg => exact tables_handleMsg msg hs
  | netlinkLost => exact hstay (tables_quit _)
  | frame sender data => exact tables_handleRawsock hs sender data
  | frameError => exact hstay (tables_warn _).moves
  | rawsockLost => exact hstay (moves_keep fun _ => rfl)
  | accept cfd => exact hstay (tables_acceptConn cfd)
  | controlLost => exact hstay (tables_quit _)
  | rfkill re => exact handleRfkill_closes hs re
  | rfkillLost => exact hstay (moves_keep fun _ => rfl)
  | timer => exact timerExpired_closes hs
  | sigterm => exact xshutdown_closes s
  | pollError => exact hstay (tables_quit _)
  | reap pid exited signaled => exact hstay (tables_reapDhcp pid exited signaled)
  | turn => exact tables_turn s

/-- A command that sets the station up anew, the end of a dump or an entry of one. -/
def EventKind.rewrites (s : Daemon) : EventKind → Prop
  | .connMsg _ msg => msg.cmd = .connect ∧ s.Ready
  | .netlink .done => s.scanstate = .scandump
  | .netlink (.gen msg) => msg.ifi = some s.ifindex ∧ msg.cmd = .newScanResults ∧ msg.multi = true ∧
      msg.bss ≠ none
  | _ => False

/-- The tables after an event that comes back: they have moved, or one of the events
with a change of its own has changed them. -/
inductive TableStep (s : Daemon) (k : EventKind) : Tables → Prop where
  | roams {t} : ¬ k.rewrites s → ReflTransGen Roams s.tables t → TableStep s k t
  | configures {cn msg t₀ t} : k = .connMsg cn msg → msg.cmd = .connect → s.Ready →
      ReflTransGen Changes s.tables t₀ → t₀.FixedBy msg → ReflTransGen Roams t₀ t → TableStep s k t
  | forgets {cn msg ssid ret config} : k = .connMsg cn msg → msg.cmd = .forget →
      msg.ssid = some ssid → s.config.dropPsk (s.env.loadIO.headD {}) ssid = some (ret, config) →
      TableStep s k (if ret < 0 then { s.tables with config := config, loadIO := s.env.loadIO.tail }
        else s.tables.forget ssid config)
  | dumps {t} : k = .netlink .done → s.scanstate = .scandump →
      ReflTransGen Roams s.tables.scanned t → TableStep s k t
  | marks {msg freqs} : k = .netlink (.gen msg) → msg.ifi = some s.ifindex → msg.cmd = .triggerScan →
      s.scanstate = .scanning → msg.freqs = some freqs → TableStep s k (s.tables.mark freqs)
  | fills {msg bss} : k = .netlink (.gen msg) → msg.ifi = some s.ifindex →
      msg.cmd = .newScanResults → msg.multi = true → msg.bss = some bss →
      TableStep s k (s.tables.result bss)
  | connects {sender data t} : k = .frame sender data → s.eapolstate = .waiting34 →
      s.verdict sender data = .taken → Connects s.tables t → TableStep s k t
  | writes : k = .turn → TableStep s k (s.tables.written (s.env.saveIO.headD {}))

theorem closing_moves {M : Tables → Tables → Prop} {P : Unit → Tables → Act → Prop} {t : Tables}
    {ks : List Act} {o : Outcome Unit Tables} (h : Closing M P t ks o) : o.Returns (ReflTransGen M t) := by
  rcases h with ⟨-, h⟩ | ⟨-, -, t', -, rfl, hpath, -⟩
  · exact h
  · exact hpath

theorem returns_mono {P Q : Tables → Prop} {o : Outcome Unit Tables} (h : o.Returns P)
    (hPQ : ∀ t, P t → Q t) : o.Returns Q := by
  cases o with
  | ends => trivial
  | goes _ t => exact hPQ t h

theorem Dumped.tableStep {s : Daemon} {ks : List Act} {o : Outcome Unit Tables} (h : Dumped s ks o) :
    o.Returns (TableStep s (.netlink .done)) := by
  cases h with
  | no_dump h => exact .roams h .refl
  | reconnects _ hd _ => exact .dumps rfl hd .refl
  | declines hd _ h => exact returns_mono h fun t ht => .dumps rfl hd (ht ▸ .refl)
  | roams hd _ h => exact returns_mono (closing_moves h) fun t ht => .dumps rfl hd ht

theorem GenTables.tableStep {s : Daemon} {msg : Netlink.Gen} {ks : List Act} {o : Outcome Unit Tables}
    (hifi : msg.ifi = some s.ifindex) (h : GenTables s msg ks o) :
    o.Returns (TableStep s (.netlink (.gen msg))) := by
  have hother (hcmd : msg.cmd ≠ .newScanResults) : ¬ EventKind.rewrites s (.netlink (.gen msg)) :=
    fun h => hcmd h.2.1
  unfold GenTables at h
  cases hcmd : msg.cmd <;> simp only [hcmd] at h
  case triggerScan =>
    rw [h.2]
    change TableStep s _ (if _ then _ else _)
    split
    · next hs =>
        cases hfreqs : msg.freqs with
        | none => exact .roams (hother (by simp [hcmd])) .refl
        | some freqs => exact .marks rfl hifi hcmd hs hfreqs
    · exact .roams (hother (by simp [hcmd])) .refl
  case newScanResults =>
    rw [h.2]
    change TableStep s _ (if _ then _ else _)
    split
    · next hmulti =>
        cases hbss : msg.bss with
        | none => exact .roams (fun h => h.2.2.2 hbss) .refl
        | some bss => exact .fills rfl hifi hcmd hmulti hbss
    · next hmulti => exact .roams (fun h => hmulti h.2.2.1) .refl
  all_goals exact returns_mono (closing_moves h) fun t => .roams (hother (by simp [hcmd]))

theorem ForgetTables.tableStep {s : Daemon} {cn : ℕ} {msg : Cntrl.Msg} {ks : List Act}
    {o : Outcome Unit Tables} (hcmd : msg.cmd = .forget) (h : ForgetTables s msg ks o) :
    o.Returns (TableStep s (.connMsg cn msg)) := by
  have hk : ¬ EventKind.rewrites s (.connMsg cn msg) := by simp [EventKind.rewrites, hcmd]
  obtain ⟨-, h⟩ := h
  cases hssid : msg.ssid with
  | none =>
      rw [hssid] at h
      exact h ▸ .roams hk .refl
  | some ssid =>
      simp only [hssid] at h
      cases hdrop : s.config.dropPsk (s.env.loadIO.headD {}) ssid with
      | none =>
          rw [hdrop] at h
          exact h ▸ trivial
      | some r =>
          rw [hdrop] at h
          exact h ▸ .forgets rfl hcmd hssid hdrop

theorem EventKind.tableStep {s : Daemon} {k : EventKind} {ks : List Act} {o : Outcome Unit Tables}
    (h : k.tableEffect s ks o) : o.Returns (TableStep s k) := by
  have hroams (hk : ¬ k.rewrites s) {ks : List Act} {o : Outcome Unit Tables} (h : Roaming s ks o) :
      o.Returns (TableStep s k) := returns_mono (closing_moves h) fun t => .roams hk
  have hsame (hk : ¬ k.rewrites s) {o : Outcome Unit Tables} (h : o.Returns (· = s.tables)) :
      o.Returns (TableStep s k) := returns_mono h fun t ht => .roams hk (ht ▸ .refl)
  cases k with
  | connMsg cn msg =>
      simp only [tableEffect, Cntrl.CmdTables] at h
      cases hcmd : msg.cmd <;> simp only [hcmd] at h
      case connect =>
        rcases h with ⟨hbusy, -, rfl⟩ | ⟨hready, t, hpath, hfix, h⟩
        · exact .roams (fun h => hbusy h.2) .refl
        · exact returns_mono (closing_moves h) fun t' => .configures rfl hcmd hready hpath hfix
      case forget => exact ForgetTables.tableStep hcmd h
      all_goals exact hsame (by simp [rewrites, hcmd]) h.2
  | netlink msg =>
      cases msg with
      | done => exact Dumped.tableStep h
      | err seq err => exact hroams id h
      | gen msg =>
          simp only [tableEffect, MsgTables] at h
          split at h
          · next hifi => exact GenTables.tableStep hifi h
          · next hifi => exact hsame (fun h => hifi h.1) (h.2 ▸ rfl)
      | other => exact hsame id (h.2 ▸ rfl)
  | frame sender data =>
      rcases h with h | ⟨hstate, hverdict, -, h⟩
      · exact hroams id h
      · exact returns_mono h fun t => .connects rfl hstate hverdict
  | turn => exact returns_mono h.2 fun t ht => ht ▸ .writes rfl
  | _ => exact hroams id h

namespace System

theorem step_tableEffect {x : System} (hx : x.tables.table.Named) (e : Event) :
    e.kind.tableEffect (x.before e) (tables.outputs (x.step e).2) ((x.step e).1.seen tables) :=
  step_does (e.kind.handler_tables hx)

theorem seen_returns {κ : Type} {V : View Daemon Act κ} {P : κ → Prop} (x : System) :
    (x.seen V).Returns P ↔ (x.halted = false → P (V.state x.toDaemon)) := by
  unfold seen
  cases x.halted with
  | false => exact ⟨fun h _ => h, fun h => h rfl⟩
  | true => exact ⟨fun _ => (by simp), fun _ => trivial⟩

theorem step_tables {x : System} (hx : x.tables.table.Named) {e : Event}
    (hrun : (x.step e).1.halted = false) : TableStep (x.before e) e.kind (x.step e).1.tables :=
  (seen_returns _).mp (EventKind.tableStep (step_tableEffect hx e)) hrun

end System

theorem Cntrl.moves_setFixed (ssid : Bytes) : tables.Moves Changes (setFixed ssid) := by
  intro s
  refine does_mono (tables_setFixed ssid s) ?_
  rintro ks o ⟨rfl, ret, t, rfl, hpath, -⟩
  exact ⟨rfl, hpath⟩

theorem moves_loadState (file : Option Bytes) : tables.Moves Changes (loadState file) := by
  unfold loadState setFixedSaved
  split
  · exact moves_pure _
  refine moves_bind (moves_bind (moves_loadPsk _) fun _ => moves_ite (moves_pure _) <|
    moves_bind (Cntrl.moves_setFixed _) fun _ => moves_ite (moves_pure _) <|
      moves_bind (moves_update fun _ => .retunes _ trivial) fun _ => moves_pure _) fun _ => ?_
  exact moves_ite (moves_pure _) (moves_update fun _ => .retunes _ trivial)

/-- The loop starts with the table of no slots that the process starts with. -/
theorem System.Initial.tables {x : System} (h : x.Initial) :
    ∃ smac ifindex psks env, ReflTransGen Changes (Daemon.fresh smac ifindex psks env).tables x.tables := by
  have hrun := h.starts.1
  obtain ⟨smac, ifindex, psks, file, env, -, rfl⟩ := h
  have hrfkill : Wsupp.tables.Moves Changes retryRfkill := by
    refine moves_read fun _ => moves_ite (moves_pure _) ?_
    exact moves_bind (Quiet.moves ⟨fun _ => ⟨rfl, _, rfl⟩⟩) fun _ => moves_keep fun _ => rfl
  have hboot : Wsupp.tables.Moves Changes (boot file) :=
    moves_bind hrfkill fun _ => moves_bind (moves_keep fun _ => rfl) fun _ =>
      moves_bind (moves_loadState file) fun _ => moves_routineFgScan.mono fun _ _ => TableMove.mono fun _ _ _ => trivial
  refine ⟨smac, ifindex, psks, env, ?_⟩
  have hstarted := hboot (.fresh smac ifindex psks env)
  unfold View.MovesFrom View.Does wp at hstarted
  unfold started at hrun ⊢
  cases hb : boot file (.fresh smac ifindex psks env) with
  | ok a s out =>
      rw [hb] at hstarted
      exact hstarted.2
  | halt s out =>
      rw [hb] at hrun
      cases hrun

end Wsupp

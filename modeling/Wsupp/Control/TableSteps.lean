import Wsupp.Control.Tables
import Wsupp.Main

/-!
# The tables in one step

Scan results, the end of a dump, the commands of the clients and a connection that
has come up change the tables in ways of their own; every other event only moves
them. For each of these there is one relation on the tables with a lemma that its
handler does what the relation allows.

A scan result fills a slot from its attributes and elements and marks it seen again;
the end of a dump drops what has not been seen and decides on the flags of what is
new. A saved PSK and a forgotten one also change the flags of slots. Where the PSK
file cannot be edited the process ends, which the relations say.
-/
namespace Wsupp
open Reactive Prog View Relation

/-- Flags of a slot that may be missing. -/
def ScanTable.flag (t : ScanTable) (sc : Option ℕ) (f : ScanFlags → ScanFlags) : ScanTable :=
  match sc with
  | some i => t.modify i fun sc => { sc with flags := f sc.flags }
  | none => t

namespace Tables

def flag (t : Tables) (sc : Option ℕ) (f : ScanFlags → ScanFlags) : Tables :=
  { t with table := t.table.flag sc f }

/-- The slots a scan is going to visit. -/
def mark (t : Tables) (freqs : List (Option Int)) : Tables :=
  { t with table := (t.table.map fun sc =>
      if sc.freq ≠ 0 && freqs.contains (some sc.freq) then
        { sc with flags := { sc.flags with stale := true } }
      else sc) }

/-- One entry of a dump. -/
def result (t : Tables) (bss : Netlink.Bss) : Tables :=
  match bss.bssid.filter (·.length = 6) with
  | none => t
  | some bssid =>
      match t.table.grabScanSlot bssid with
      | none => t
      | some (i, table) => { t with table := (table.modify i (Netlink.scanOf bss bssid)) }

/-- A slot looked at for the first time. -/
def see (t : Tables) (i : ℕ) : Tables :=
  let sc := t.table.get i
  if sc.freq = 0 ∨ sc.flags.seen then t
  else if checkWpa sc then
    let got := (t.config.gotPskFor (t.loadIO.headD {}) (sc.ssid.take sc.slen)).1
    t.load.flag (some i) fun f => { f with seen := true, good := true, pass := f.pass || got }
  else t.flag (some i) fun f => { f with seen := true }

def seeAll (t : Tables) : List ℕ → Tables
  | [] => t
  | i :: is => (t.see i).seeAll is

/-- What a dump that is complete leaves: the stale slots dropped, the new ones seen. -/
def scanned (t : Tables) : Tables :=
  { t with table := t.table.dropStale }.seeAll (List.range t.table.dropStale.nscans)

/-- The PSK of a network is gone from the file. -/
def forget (t : Tables) (ssid : Bytes) (config : Config) : Tables :=
  { t with
    config := config
    loadIO := t.loadIO.tail
    table := (t.table.map fun sc =>
      if sc.slen = ssid.length && sc.ssid.take ssid.length = ssid then
        { sc with flags := { sc.flags with pass := false } }
      else sc) }

end Tables

/-- The access point record of a connection that is up. -/
def Ap.connected (ap : Ap) : Ap := { ap with success := true, fixed := true, unsaved := false }

/-- The tables after the PSK has been saved. -/
def Tables.saved (t : Tables) (config : Config) : Tables :=
  { t with config := config, loadIO := t.loadIO.tail, remapIO := t.remapIO.tail }

/-- A connection has come up; the PSK it was tried with is saved if that is due. -/
inductive Connects (t : Tables) : Tables → Prop where
  | keeps : t.ap.unsaved = false → Connects t
      { t.flag (findCurrentAp t.ap t.table) fun f => { f with tried := false } with
        ap := t.ap.connected }
  | saves {config : Config} : t.ap.unsaved = true →
      t.config.savePsk (t.loadIO.headD {}) (t.remapIO.headD {}) (t.ap.ssid.take t.ap.slen) t.PSK =
        some config →
      Connects t { (t.saved config).flag (findCurrentAp t.ap t.table) fun f =>
          { f with tried := false, pass := true } with
        ap := t.ap.connected }

namespace Netlink

theorem tables_cmdTriggerScan (msg : Gen) (s : Daemon) : tables.Does (cmdTriggerScan msg) s
    fun ks o => ks = [] ∧ o = .goes () (if s.scanstate = .scanning then
      msg.freqs.elim s.tables s.tables.mark else s.tables) := by
  unfold cmdTriggerScan markStaleScanSlots
  rw [does_read_bind]
  by_cases h : s.scanstate = .scanning
  swap
  · rw [if_pos h, if_neg h]
    exact ⟨rfl, rfl⟩
  rw [if_neg (not_not.mpr h), if_pos h]
  cases msg.freqs with
  | none =>
      rw [does_pure_bind]
      exact does_quiet (tables_sendReport _) ⟨rfl, rfl⟩
  | some freqs =>
      rw [does_update_bind]
      exact does_quiet (tables_sendReport _) ⟨rfl, rfl⟩

theorem tables_parseScanResult (msg : Gen) (s : Daemon) : tables.Does (parseScanResult msg) s
    fun ks o => ks = [] ∧ o = .goes () (msg.bss.elim s.tables s.tables.result) := by
  unfold parseScanResult Tables.result
  rw [does_read_bind]
  split
  · next h => exact ⟨rfl, by rw [h]; rfl⟩
  next bss h =>
  rw [h]
  dsimp only [Option.elim]
  change tables.Does (match bss.bssid.filter (·.length = 6) with
    | none => pure ()
    | some bssid => _) s _
  cases bss.bssid.filter (·.length = 6) with
  | none => exact ⟨rfl, rfl⟩
  | some bssid =>
      change tables.Does (match s.table.grabScanSlot bssid with
        | none => pure ()
        | some (i, t) => _) s fun ks o => ks = [] ∧ o = .goes () (match s.table.grabScanSlot bssid with
          | none => s.tables
          | some (i, table) => _)
      cases s.table.grabScanSlot bssid with
      | none => exact ⟨rfl, rfl⟩
      | some r => exact ⟨rfl, rfl⟩

end Netlink

theorem Config.gotPskFor_config (io : LoadIO) (ssid : Bytes) (c : Config) :
    (c.gotPskFor io ssid).2 = (c.loadConfig io).2 := by
  unfold gotPskFor
  rcases c.loadConfig io with ⟨ret, c'⟩
  dsimp only
  split <;> rfl

theorem tables_gotPskFor (ssid : Bytes) (s : Daemon) : tables.Does (gotPskFor ssid) s fun ks o =>
    ks = [] ∧ o = .goes (s.config.gotPskFor (s.env.loadIO.headD {}) ssid).1 s.tables.load := by
  have hconfig := Config.gotPskFor_config (s.env.loadIO.headD {}) ssid s.config
  refine ⟨rfl, ?_⟩
  exact congrArg (fun config => Outcome.goes _ (Tables.mk s.ap _ s.table config _ _)) hconfig

theorem ScanTable.flag_flag (t : ScanTable) (sc : Option ℕ) (f g : ScanFlags → ScanFlags) :
    (t.flag sc f).flag sc g = t.flag sc fun fl => g (f fl) := by
  cases sc with
  | none => rfl
  | some i =>
      simp only [flag, modify_modify]
      rfl

theorem Tables.flag_flag (t : Tables) (sc : Option ℕ) (f g : ScanFlags → ScanFlags) :
    (t.flag sc f).flag sc g = t.flag sc fun fl => g (f fl) := by
  unfold flag
  rw [ScanTable.flag_flag]

theorem tables_checkNewScanResult (i : ℕ) (s : Daemon) :
    tables.Does (checkNewScanResult i) s fun ks o => ks = [] ∧ o = .goes () (s.tables.see i) := by
  unfold checkNewScanResult modifyFlags
  rw [does_read_bind]
  dsimp only
  by_cases hskip : (s.table.get i).freq = 0 ∨ (s.table.get i).flags.seen = true
  · have hsee : s.tables.see i = s.tables := if_pos hskip
    rw [hsee]
    split
    · exact ⟨rfl, rfl⟩
    · next h =>
        rw [if_pos (hskip.resolve_left h)]
        exact ⟨rfl, rfl⟩
  have hsee : s.tables.see i = _ := if_neg hskip
  obtain ⟨hfreq, hseen⟩ := not_or.mp hskip
  rw [if_neg hfreq, if_neg hseen, does_update_bind]
  by_cases hwpa : checkWpa (s.table.get i) = true
  swap
  · have hsee := hsee.trans (if_neg hwpa)
    rw [if_neg hwpa, hsee]
    exact ⟨rfl, rfl⟩
  obtain ⟨got, hgot⟩ : ∃ got, (s.config.gotPskFor (s.env.loadIO.headD {})
    ((s.table.get i).ssid.take (s.table.get i).slen)).1 = got := ⟨_, rfl⟩
  have hsee : s.tables.see i = s.tables.load.flag (some i) fun f =>
      { f with seen := true, good := true, pass := f.pass || got } := by
    rw [← hgot]
    exact hsee.trans (if_pos hwpa)
  rw [if_pos hwpa, hsee, does_update_bind]
  refine does_bind (tables_gotPskFor _ _) ?_ ?_
  · rintro ks got' c ⟨rfl, ho⟩ s' rfl
    injection ho with hgot' hc
    obtain rfl : got' = got := hgot'.trans hgot
    have hs' : s'.tables = s.tables.load.flag (some i) fun f => { f with seen := true, good := true } :=
      hc.trans (s.tables.load.flag_flag (some i) (fun f => { f with seen := true })
        fun f => { f with good := true })
    cases got'
    · refine ⟨rfl, congrArg (Outcome.goes ()) ?_⟩
      simp only [tables_state, hs', Bool.or_false]
    · refine ⟨rfl, congrArg (Outcome.goes ()) ?_⟩
      change s'.tables.flag (some i) (fun f => { f with pass := true }) = _
      simp only [hs', Tables.flag_flag, Bool.or_true]
  · rintro ks ⟨-, ⟨⟩⟩

theorem tables_checkNewScanResults (s : Daemon) : tables.Does checkNewScanResults s fun ks o =>
    ks = [] ∧ o = .goes () (s.tables.seeAll (List.range s.table.nscans)) := by
  unfold checkNewScanResults
  rw [does_read_bind]
  generalize List.range s.table.nscans = is
  induction is generalizing s with
  | nil => exact ⟨rfl, rfl⟩
  | cons i is ih =>
      refine does_bind (tables_checkNewScanResult i s) ?_ ?_
      · rintro ks _ c ⟨rfl, ⟨⟩⟩ s' hs'
        refine does_mono (ih s') ?_
        rintro ks o ⟨rfl, rfl⟩
        rw [show s'.tables = _ from hs']
        exact ⟨rfl, rfl⟩
      · rintro ks ⟨-, ⟨⟩⟩

theorem ScanTable.slots_eq (t : ScanTable) : t.slots = (List.range t.nscans).map t.get := by
  have hsize := t.size
  have hc := t.count_le
  apply List.ext_getElem
  · simp only [slots, List.length_take, List.length_map, List.length_range]
    omega
  · intro i hi hi'
    simp only [slots, List.length_take] at hi
    simp only [slots, List.getElem_take, List.getElem_map, List.getElem_range, get]
    rw [List.getD_eq_getElem _ _ (by omega)]

theorem ScanTable.SameSlots.findCurrentAp {t t' : ScanTable} (h : t.SameSlots t') (ap : Ap) :
    findCurrentAp ap t' = findCurrentAp ap t := by
  unfold Wsupp.findCurrentAp ScanTable.find
  rw [t.slots_eq, t'.slots_eq, h.nscans, List.findIdx?_map, List.findIdx?_map]
  congr 1
  funext i
  obtain ⟨⟨f, hf⟩, -⟩ := h.get i
  simp only [Function.comp_apply, hf]
  rfl

theorem findCurrentAp_freq {ap : Ap} {t : ScanTable} {i : ℕ} (h : findCurrentAp ap t = some i) :
    i < t.nscans ∧ (t.get i).freq ≠ 0 := by
  obtain ⟨hi, hp⟩ := ScanTable.find_eq_some h
  simp only [Bool.and_eq_true, decide_eq_true_eq] at hp
  exact ⟨hi, hp.1.1⟩

theorem ScanTable.sameSlots_flag (t : ScanTable) (ap : Ap) (f : ScanFlags → ScanFlags) :
    t.SameSlots (t.flag (findCurrentAp ap t) f) := by
  cases hfind : findCurrentAp ap t with
  | none => exact .refl _
  | some i => exact t.sameSlots_modify (findCurrentAp_freq hfind).2 f

theorem Tables.sameSlots_flag (t : Tables) {i : ℕ} (hi : (t.table.get i).freq ≠ 0)
    (f : ScanFlags → ScanFlags) : t.table.SameSlots (t.flag (some i) f).table :=
  t.table.sameSlots_modify hi f

theorem Tables.sameSlots_see (t : Tables) (i : ℕ) : t.table.SameSlots (t.see i).table := by
  unfold see
  dsimp only
  split
  · exact .refl _
  next h =>
  have hfreq := (not_or.mp h).1
  split
  · exact t.load.sameSlots_flag hfreq _
  · exact t.sameSlots_flag hfreq _

theorem Tables.sameSlots_seeAll (t : Tables) (is : List ℕ) :
    t.table.SameSlots (t.seeAll is).table := by
  induction is generalizing t with
  | nil => exact .refl _
  | cons i is ih => exact (t.sameSlots_see i).trans (ih _)

theorem Tables.ap_see (t : Tables) (i : ℕ) : (t.see i).ap = t.ap := by
  unfold see
  dsimp only
  split
  · rfl
  · split <;> rfl

theorem Tables.ap_seeAll (t : Tables) (is : List ℕ) : (t.seeAll is).ap = t.ap := by
  induction is generalizing t with
  | nil => rfl
  | cons i is ih => exact (ih _).trans (t.ap_see i)

theorem Tables.sameSlots_scanned (t : Tables) : t.table.dropStale.SameSlots t.scanned.table :=
  sameSlots_seeAll { t with table := t.table.dropStale } _

@[simp] theorem Tables.ap_scanned (t : Tables) : t.scanned.ap = t.ap := ap_seeAll _ _

/-- A reconnection has been asked for, and the access point is still there. -/
def Daemon.findsAgain (s : Daemon) : Bool :=
  s.scanreq.reconnectCurrent && (findCurrentAp s.ap s.table.dropStale).isSome

/-- The end of a dump. With a reconnection asked for, the access point is only
looked up by name and address. -/
inductive Dumped (s : Daemon) : List Act → Outcome Unit Tables → Prop where
  | no_dump : s.scanstate ≠ .scandump → Dumped s [] (.goes () s.tables)
  | reconnects (sent : Bool) : s.scanstate = .scandump → s.findsAgain = true →
      Dumped s [s.tables.scanned.authenticates sent] (.goes () s.tables.scanned)
  | declines {o} : s.scanstate = .scandump → s.findsAgain = true →
      o.Returns (· = s.tables.scanned) → Dumped s [] o
  | roams {ks o} : s.scanstate = .scandump → s.findsAgain = false →
      Closing Roams Tables.Starts s.tables.scanned ks o → Dumped s ks o

theorem tables_genlDone {s : Daemon} (hs : s.table.dropStale.Named) :
    tables.Does Netlink.genlDone s (Dumped s) := by
  unfold Netlink.genlDone resetScanState Netlink.dropStaleScanSlots
  rw [does_read_bind]
  split
  · next h => exact .no_dump h
  next hdump =>
  rw [not_not] at hdump
  rw [does_update_bind, does_update_bind]
  refine does_bind (tables_checkNewScanResults _) ?_ ?_
  · rintro ks _ c ⟨rfl, ⟨⟩⟩ s₁ h₁
    have h₁ : s₁.tables = s.tables.scanned := h₁
    refine does_bind_quiet (tables_sendReport _) fun _ s₂ h₂ => ?_
    have h₂ : s₂.tables = s.tables.scanned := h₂.trans h₁
    have hnamed : s.tables.scanned.table.Named := s.tables.sameSlots_scanned.named hs
    have hroams (hno : s.findsAgain = false) (s₃ : Daemon) (h₃ : s₃.tables = s.tables.scanned)
        (m : Handler Unit) (hm : tables.ClosesFrom Roams Tables.Starts m s₃) :
        tables.Does m s₃ (Dumped s) := by
      refine does_mono hm fun ks o ho => .roams hdump hno ?_
      rwa [show View.state tables s₃ = _ from h₃] at ho
    have hreassess (hno : s.findsAgain = false) (s₃ : Daemon) (h₃ : s₃.tables = s.tables.scanned) :
        tables.Does reassessWifiSituation s₃ (Dumped s) :=
      hroams hno s₃ h₃ _ (reassess_closes (h₃ ▸ hnamed))
    split
    swap
    · next hrec =>
      have hno : s.findsAgain = false := by simp [Daemon.findsAgain, hrec]
      split
      · exact hreassess hno s₂ h₂
      · exact hroams hno s₂ h₂ _ (moves_pure _ s₂).closes
    next hrec =>
    unfold reconnectToCurrentAp
    rw [does_update_bind, does_read_bind]
    dsimp only
    have hfound : findCurrentAp s₂.ap s₂.table = findCurrentAp s.ap s.table.dropStale := by
      have hap : s₂.ap = s.ap := (congrArg Tables.ap h₂).trans (Tables.ap_scanned _)
      rw [show s₂.table = s.tables.scanned.table from congrArg Tables.table h₂, hap]
      exact s.tables.sameSlots_scanned.findCurrentAp s.ap
    rw [hfound]
    split
    swap
    · next hnone => exact hreassess (by simp [Daemon.findsAgain, hnone]) _ h₂
    next hsome =>
    have hagain : s.findsAgain = true := by simp [Daemon.findsAgain, hrec, hsome]
    refine does_bind (startConnection_tables _) ?_ ?_
    · rintro ks ret c (⟨rfl, rfl⟩ | ⟨sent, rfl, ⟨⟩⟩) s₄ h₄
      · rw [does_pure, h₄]
        exact .declines hdump hagain h₂
      · rw [does_pure, h₄]
        change Dumped s [s₂.tables.authenticates sent] (.goes () s₂.tables)
        rw [h₂]
        exact .reconnects sent hdump hagain
    · rintro ks (⟨rfl, -⟩ | ⟨-, -, ⟨⟩⟩)
      exact .declines hdump hagain trivial
  · rintro ks ⟨-, ⟨⟩⟩

theorem tables_resetEapolState : tables.Quiet resetEapolState :=
  quiet_bind (quiet_update fun _ => rfl) fun _ =>
    quiet_bind (quiet_update fun _ => rfl) fun _ => tables_call _

/-- What only moves the tables, from the daemon at hand. -/
def Roaming (s : Daemon) : List Act → Outcome Unit Tables → Prop :=
  Closing Roams Tables.Starts s.tables

section Notices
variable {s : Daemon} (hs : s.tables.table.Named)
include hs

theorem snapToDisabled_closes (why : String) :
    tables.ClosesFrom Roams Tables.Starts (Netlink.snapToDisabled why) s := by
  have hupdate : tables.Moves stay (update fun s => { s with
      opermode := .neutral, authstate := .external } : Handler Unit) := moves_keep fun _ => rfl
  refine hupdate.bind_closes_stay fun _ s₁ h₁ => ?_
  refine (tables_call _).moves.bind_closes_stay fun _ s₂ h₂ => ?_
  refine (tables_warn _).moves.bind_closes_stay fun _ s₃ h₃ => ?_
  refine tables_resetEapolState.moves.bind_closes_stay fun _ s₄ h₄ => ?_
  refine handleDisconnect_closes ?_
  have hs₄ : s₄.tables = s.tables := h₄.trans (h₃.trans (h₂.trans h₁))
  rwa [hs₄]

theorem xabort_closes (why : String) : tables.ClosesFrom Roams Tables.Starts (xabort why) s := by
  refine (tables_warn _).moves.bind_closes_stay fun _ s₁ h₁ => ?_
  refine abort_closes ?_
  rwa [show s₁.tables = s.tables from h₁]

theorem cmdAuthenticate_closes :
    tables.ClosesFrom Roams Tables.Starts Netlink.cmdAuthenticate s := by
  unfold Netlink.cmdAuthenticate
  rw [closesFrom_read_bind]
  split
  · exact (moves_pure _ s).closes
  split
  · exact snapToDisabled_closes hs _
  · have hprime : tables.Moves stay primeEapolState :=
      moves_bind (moves_keep fun _ => rfl) fun _ => (tables_call _).moves
    exact (moves_bind hprime fun _ => tables_triggerAssociation).of_stay.closes s

/-- A packet goes out whole, or the connection is given up. -/
theorem sendPacket_tables (buf : Bytes) (len : ℕ) : tables.Does (sendPacket buf len) s fun ks o =>
    (ks = [] ∧ o = .goes true s.tables) ∨
      (Roaming s ks o.void ∧ ∀ t, o ≠ .goes true t) := by
  unfold sendPacket
  rw [does_read_bind]
  have hanswer : tables.Quiet (Handler.answerRawSend len) := ⟨fun _ => ⟨rfl, _, rfl⟩⟩
  refine does_bind_quiet hanswer fun wr s₁ h₁ => ?_
  refine does_bind_quiet (quiet_emit rfl) fun _ s₂ h₂ => ?_
  split
  · exact .inl ⟨rfl, congrArg (Outcome.goes true) (h₂.trans h₁)⟩
  refine does_bind_quiet (tables_warn _) fun _ s₃ h₃ => ?_
  have hs₃ : s₃.tables = s.tables := h₃.trans (h₂.trans h₁)
  have habort : tables.ClosesFrom Roams Tables.Starts abortConnection s₃ :=
    abort_closes (by rwa [hs₃])
  refine does_bind habort ?_ ?_
  · intro ks _ c h s₄ h₄
    rw [show View.state tables s₃ = _ from hs₃] at h
    rw [does_pure, List.append_nil, h₄]
    exact .inr ⟨h, fun t => (by simp)⟩
  · intro ks h
    rw [show View.state tables s₃ = _ from hs₃] at h
    exact .inr ⟨h, fun t => (by simp)⟩

theorem sendPacket_closes {buf : Bytes} {len : ℕ} {f : Handler Unit} (hf : tables.Moves stay f) :
    tables.ClosesFrom Roams Tables.Starts (do
      let sent ← sendPacket buf len
      if sent then f else pure () : Handler Unit) s := by
  refine does_bind (sendPacket_tables hs buf len) ?_ ?_
  · rintro ks sent c (⟨rfl, ⟨⟩⟩ | ⟨h, hno⟩) s' hs'
    · rw [if_pos rfl]
      have hclose : tables.ClosesFrom Roams Tables.Starts f s' := hf.of_stay.closes s'
      refine does_mono hclose fun ks o ho => ?_
      rwa [hs'] at ho
    · cases sent
      · rw [if_neg (by decide), does_pure, hs', List.append_nil]
        exact h
      · exact absurd rfl (hno c)
  · rintro ks (⟨-, ⟨⟩⟩ | ⟨h, -⟩)
    exact h

theorem sendPacket2_closes : tables.ClosesFrom Roams Tables.Starts sendPacket2 s := by
  unfold sendPacket2
  rw [closesFrom_read_bind]
  exact sendPacket_closes hs (moves_keep fun _ => rfl)

theorem sendGroup2_closes : tables.ClosesFrom Roams Tables.Starts sendGroup2 s := by
  unfold sendGroup2
  rw [closesFrom_read_bind]
  exact sendPacket_closes hs tables_uploadGtk

theorem cmdAssociate_closes : tables.ClosesFrom Roams Tables.Starts Netlink.cmdAssociate s := by
  have hend {m : Handler Unit} (hm : tables.ClosesFrom Roams Tables.Starts m s)
      (g : Daemon → Daemon) (hg : ∀ s, (g s).tables = s.tables) :
      tables.ClosesFrom Roams Tables.Starts (do
        m
        update g : Handler Unit) s :=
    hm.bind_quiet (fun _ => quiet_update hg) fun _ _ _ _ h => h
  unfold Netlink.cmdAssociate
  rw [closesFrom_read_bind]
  split
  · exact (moves_pure _ s).closes
  split
  · exact snapToDisabled_closes hs _
  · refine hend ?_ _ fun _ => rfl
    unfold allowEapolSends
    rw [closesFrom_read_bind]
    split
    · have hallow : tables.Moves Roams (update fun s => { s with eapolsends := true } : Handler Unit) :=
        moves_keep fun _ => rfl
      exact (hallow s).closes
    · exact sendPacket2_closes hs

theorem netlinkConnect_closes : tables.ClosesFrom Roams Tables.Starts Netlink.cmdConnect s := by
  unfold Netlink.cmdConnect
  rw [closesFrom_read_bind]
  split
  · exact (moves_pure _ s).closes
  have hsnap {c : Prop} [Decidable c] :
      tables.ClosesFrom Roams Tables.Starts (when c (Netlink.snapToDisabled "out-of-order CONNECT")) s := by
    unfold when
    split
    · exact snapToDisabled_closes hs _
    · exact (moves_pure _ s).closes
  exact hsnap.bind_quiet (fun _ => quiet_update fun _ => rfl) fun _ _ _ _ h => h

theorem cmdDisconnect_closes : tables.ClosesFrom Roams Tables.Starts Netlink.cmdDisconnect s := by
  unfold Netlink.cmdDisconnect
  rw [closesFrom_read_bind]
  split
  · exact (moves_pure _ s).closes
  refine tables_resetEapolState.moves.bind_closes_stay fun _ s₁ h₁ => ?_
  have hidle : tables.Moves stay (update fun s => { s with authstate := .idle } : Handler Unit) :=
    moves_keep fun _ => rfl
  refine hidle.bind_closes_stay fun _ s₂ h₂ => ?_
  refine handleDisconnect_closes ?_
  rwa [show s₂.tables = s.tables from h₂.trans h₁]

theorem genlError_closes (seq : ℕ) (err : Int) :
    tables.ClosesFrom Roams Tables.Starts (Netlink.genlError seq err) s := by
  have hset (f : Daemon → AuthState) : tables.Moves stay
      (update fun s => { s with authstate := f s } : Handler Unit) := moves_keep fun _ => rfl
  unfold Netlink.genlError Netlink.snapToNetdown Netlink.handleScanError Netlink.handleAuthError
  rw [closesFrom_read_bind]
  split
  · have hdown : tables.Moves Roams (do
        resetScanState
        let s ← read
        update fun s => { s with authstate := if s.rfkilled then .idle else .netdown }
        when (!s.rfkilled) (setTimer 1)
        reportNetDown : Handler Unit) :=
      moves_bind tables_resetScanState.moves fun _ => moves_read fun _ =>
        moves_bind (hset _).of_stay fun _ => moves_bind (moves_when (tables_setTimer 1).moves) fun _ =>
          (tables_sendReport _).moves
    exact (hdown s).closes
  split
  · have hfail : tables.Moves Roams (do
        resetScanState
        reportScanFail : Handler Unit) :=
      moves_bind tables_resetScanState.moves fun _ => (tables_sendReport _).moves
    exact (moves_ite (moves_pure _) hfail s).closes
  split
  swap
  · exact (moves_pure _ s).closes
  rw [closesFrom_read_bind]
  split
  · refine (hset fun _ => .idle).bind_closes_stay fun _ s₁ h₁ => reassess_closes ?_
    rwa [show s₁.tables = s.tables from h₁]
  split
  · have hscan : tables.Moves Roams (do
        update fun s => { s with authstate := .idle }
        let _ ← startScan s.ap.freq
        pure () : Handler Unit) :=
      moves_bind (hset _).of_stay fun _ => moves_bind (tables_startScan _).moves fun _ => moves_pure _
    exact (hscan s).closes
  · exact abort_closes hs

end Notices

def GenTables (s : Daemon) (msg : Netlink.Gen) : List Act → Outcome Unit Tables → Prop :=
  match msg.cmd with
  | .triggerScan => fun ks o => ks = [] ∧ o = .goes () (if s.scanstate = .scanning then
      msg.freqs.elim s.tables s.tables.mark else s.tables)
  | .newScanResults => fun ks o => ks = [] ∧ o = .goes () (if msg.multi then
      msg.bss.elim s.tables s.tables.result else s.tables)
  | _ => Roaming s

theorem tables_dispatch (msg : Netlink.Gen) {s : Daemon} (hs : s.tables.table.Named) :
    tables.Does (Netlink.dispatch msg) s (GenTables s msg) := by
  unfold Netlink.dispatch GenTables
  split
  · next h => simp only [h]; exact Netlink.tables_cmdTriggerScan msg s
  · next h =>
      simp only [h]
      unfold Netlink.cmdScanResults
      rw [does_read_bind]
      split
      · exact Netlink.tables_parseScanResult msg s
      · have hquiet : tables.Quiet (if s.scanstate = .scanning then triggerScanDump else pure ()) :=
          quiet_ite tables_triggerScanDump (quiet_pure _)
        exact does_quiet hquiet ⟨rfl, rfl⟩
  · next h =>
      simp only [h]
      have habort : tables.Moves Roams Netlink.cmdScanAborted :=
        moves_read fun _ => moves_ite (moves_pure _) <| moves_bind (tables_warn _).moves fun _ =>
          moves_bind (tables_sendReport _).moves fun _ => tables_resetScanState.moves
      exact (habort s).closes
  · next h => simp only [h]; exact cmdAuthenticate_closes hs
  · next h => simp only [h]; exact cmdAssociate_closes hs
  · next h => simp only [h]; exact netlinkConnect_closes hs
  · next h => simp only [h]; exact cmdDisconnect_closes hs
  · next h => simp only [h]; exact (moves_pure _ s).closes

def MsgTables (s : Daemon) : Netlink.Msg → List Act → Outcome Unit Tables → Prop
  | .done => Dumped s
  | .err _ _ => Roaming s
  | .gen msg => if msg.ifi = some s.ifindex then GenTables s msg else
      fun ks o => ks = [] ∧ o = .goes () s.tables
  | .other => fun ks o => ks = [] ∧ o = .goes () s.tables

theorem ScanTable.Named.dropStale {t : ScanTable} (h : t.Named) : t.dropStale.Named := by
  intro i
  rw [get_dropStale]
  split
  · exact Nat.zero_le _
  · exact h i

theorem tables_handleMsg (msg : Netlink.Msg) {s : Daemon} (hs : s.tables.table.Named) :
    tables.Does (Netlink.handleMsg msg) s (MsgTables s msg) := by
  unfold Netlink.handleMsg MsgTables
  rw [does_read_bind]
  cases msg with
  | done => exact tables_genlDone hs.dropStale
  | err seq err => exact genlError_closes hs seq err
  | gen msg =>
      by_cases hifi : msg.ifi = some s.ifindex
      · simp only [if_pos hifi]
        exact tables_dispatch msg hs
      · simp only [if_neg hifi]
        exact ⟨rfl, rfl⟩
  | other => exact ⟨rfl, rfl⟩

theorem tables_savePsk (ssid : Bytes) (s : Daemon) : tables.Does (savePsk ssid) s fun ks o =>
    ks = [] ∧ o.Returns fun t => ∃ config, s.config.savePsk (s.env.loadIO.headD {})
      (s.env.remapIO.headD {}) ssid s.PSK = some config ∧ t = s.tables.saved config := by
  unfold savePsk Handler.answerLoadIO Handler.answerRemapIO Handler.answer
  unfold View.Does
  simp only [wp_bind, wp_read, wp_update, wp_pure]
  cases s.config.savePsk (s.env.loadIO.headD {}) (s.env.remapIO.headD {}) ssid s.PSK with
  | none => exact ⟨rfl, trivial⟩
  | some config => exact ⟨rfl, config, rfl, rfl⟩

theorem tables_flagSlot (sc : Option ℕ) (f : ScanFlags → ScanFlags) (s : Daemon) :
    tables.Does (flagSlot sc f) s fun ks o =>
      ks = [] ∧ o = .goes () (s.tables.flag sc f) := by
  cases sc with
  | none => exact ⟨rfl, rfl⟩
  | some i => exact ⟨rfl, rfl⟩

theorem tables_saveUnsavedPsk (sc : Option ℕ) (s : Daemon) :
    tables.Does (saveUnsavedPsk sc) s fun ks o => ks = [] ∧ o.Returns fun t =>
      (s.tables.ap.unsaved = false ∧ t = s.tables) ∨
      ∃ config, s.tables.ap.unsaved = true ∧ s.tables.config.savePsk (s.tables.loadIO.headD {})
        (s.tables.remapIO.headD {}) (s.tables.ap.ssid.take s.tables.ap.slen) s.tables.PSK = some config ∧
        t = (s.tables.saved config).flag sc fun f => { f with pass := true } := by
  unfold saveUnsavedPsk
  rw [does_read_bind]
  split
  swap
  · next h => exact ⟨rfl, .inl ⟨eq_false_of_ne_true h, rfl⟩⟩
  next hunsaved =>
  refine does_bind (tables_savePsk _ s) ?_ ?_
  · rintro ks _ c ⟨rfl, config, hsave, rfl⟩ s' hs'
    refine does_mono (tables_flagSlot sc _ s') ?_
    rintro ks o ⟨rfl, rfl⟩
    exact ⟨rfl, .inr ⟨config, hunsaved, hsave, by rw [show s'.tables = _ from hs']⟩⟩
  · rintro ks ⟨rfl, -⟩
    exact ⟨rfl, trivial⟩

/-- What is left to do once the tables are as they are to be. -/
theorem tables_afterConnect {t : Tables} (s : Daemon)
    (hs : { s.tables with ap := { s.tables.ap with unsaved := false } } = t) : tables.Does (do
      update fun s => { s with ap := { s.ap with unsaved := false } }
      triggerDhcp
      reportConnected : Handler Unit) s fun ks o => ks = [] ∧ o.Returns (· = t) := by
  rw [does_update_bind]
  have hrest : tables.Moves stay (do
      triggerDhcp
      reportConnected : Handler Unit) :=
    moves_bind tables_triggerDhcp fun _ => moves_read fun _ => (tables_sendReport _).moves
  refine does_mono (hrest _) fun ks o ho => ⟨ho.1, ?_⟩
  cases o with
  | ends => trivial
  | goes _ c => exact (stays_eq ho.2).trans hs

theorem tables_handleConnect (s : Daemon) : tables.Does handleConnect s fun ks o =>
    ks = [] ∧ o.Returns (Connects s.tables) := by
  unfold handleConnect
  rw [does_read_bind]
  refine does_bind_quiet (tables_call _) fun _ s₁ h₁ => ?_
  rw [does_update_bind]
  refine does_bind_quiet (tables_setTimer _) fun _ s₂ h₂ => ?_
  rw [does_update_bind, does_read_bind]
  dsimp only
  have hs₂ : s₂.tables = { s.tables with ap := { s.ap with success := true, fixed := true } } := by
    refine h₂.trans ?_
    change { s₁.tables with ap := { s₁.tables.ap with success := true, fixed := true } } = _
    rw [show s₁.tables = s.tables from h₁]
    rfl
  have hfound : findCurrentAp s₂.ap s₂.table = findCurrentAp s.ap s.table := by
    rw [show s₂.ap = _ from congrArg Tables.ap hs₂, show s₂.table = _ from congrArg Tables.table hs₂]
    rfl
  rw [hfound]
  refine does_bind (tables_flagSlot _ _ _) ?_ ?_
  · rintro ks _ c ⟨rfl, ⟨⟩⟩ s₃ h₃
    have hs₃ : s₃.tables = { s.tables with ap := { s.ap with success := true, fixed := true } }.flag
        (findCurrentAp s.ap s.table) fun f => { f with tried := false } :=
      Eq.trans h₃ (congrArg (fun t : Tables => t.flag (findCurrentAp s.ap s.table) fun f =>
        { f with tried := false }) hs₂)
    refine does_bind (tables_saveUnsavedPsk _ s₃) ?_ ?_
    · rintro ks _ c ⟨rfl, hc⟩ s₄ rfl
      refine does_mono (tables_afterConnect s₄ rfl) ?_
      rintro ks o ⟨rfl, ho⟩
      refine ⟨rfl, ?_⟩
      rw [hs₃] at hc
      rcases hc with ⟨hun, hc⟩ | ⟨config, hun, hsave, hc⟩
      · rw [show s₄.tables = _ from hc] at ho
        cases o with
        | ends => trivial
        | goes _ t =>
            obtain rfl : t = _ := ho
            exact .keeps hun
      · rw [show s₄.tables = _ from hc] at ho
        cases o with
        | ends => trivial
        | goes _ t =>
            obtain rfl : t = _ := ho
            have hflags := (s.tables.saved config).flag_flag (findCurrentAp s.ap s.table)
              (fun f => { f with tried := false }) fun f => { f with pass := true }
            have hk : Connects s.tables _ := .saves hun hsave
            rw [show findCurrentAp s.tables.ap s.tables.table = findCurrentAp s.ap s.table from rfl,
              ← hflags] at hk
            exact hk
    · rintro ks ⟨rfl, -⟩
      exact ⟨rfl, trivial⟩
  · rintro ks ⟨-, ⟨⟩⟩

theorem tables_fillRand : tables.Moves stay fillRand := by
  refine moves_bind (Quiet.moves ⟨fun _ => ⟨rfl, _, rfl⟩⟩) fun rand => ?_
  cases rand with
  | none => exact tables_quit _
  | some rand => exact moves_ite (tables_quit _) (moves_keep fun _ => rfl)

theorem tables_pmkToPtk : tables.Moves stay pmkToPtk :=
  moves_read fun _ => moves_bind (moves_keep fun _ => rfl) fun _ => (tables_call _).moves

/-- The packet that completes the handshake brings the connection up; any other
only moves the tables. -/
def FrameTables (s : Daemon) (sender data : Bytes) (ks : List Act) (o : Outcome Unit Tables) : Prop :=
  Roaming s ks o ∨ (s.eapolstate = .waiting34 ∧ s.verdict sender data = .taken ∧ ks = [] ∧
    o.Returns (Connects s.tables))

section Packets
variable {s : Daemon} (hs : s.tables.table.Named)
include hs

theorem sendPacket4_tables : tables.Does sendPacket4 s fun ks o =>
    Roaming s ks o ∨ (ks = [] ∧ o.Returns (Connects s.tables)) := by
  unfold sendPacket4
  rw [does_read_bind]
  refine does_bind (sendPacket_tables hs _ _) ?_ ?_
  · rintro ks sent c (⟨rfl, ⟨⟩⟩ | ⟨h, hno⟩) s₁ h₁
    · have hkeys : tables.Moves stay (update fun s => { s with eapolstate := .negotiated } : Handler Unit) :=
        moves_keep fun _ => rfl
      have hclean : tables.Moves stay cleanupKeys := moves_keep fun _ => rfl
      rw [if_pos rfl]
      refine hkeys.does_bind (.inr ⟨rfl, trivial⟩) fun _ s₂ h₂ => ?_
      refine tables_uploadPtk.does_bind (.inr ⟨rfl, trivial⟩) fun _ s₃ h₃ => ?_
      refine tables_uploadGtk.does_bind (.inr ⟨rfl, trivial⟩) fun _ s₄ h₄ => ?_
      refine hclean.does_bind (.inr ⟨rfl, trivial⟩) fun _ s₅ h₅ => ?_
      refine does_mono (tables_handleConnect s₅) ?_
      rintro ks o ⟨rfl, ho⟩
      rw [show s₅.tables = s.tables from h₅.trans (h₄.trans (h₃.trans (h₂.trans h₁)))] at ho
      exact .inr ⟨rfl, ho⟩
    · cases sent
      · rw [if_neg (by decide), does_pure, h₁, List.append_nil]
        exact .inl h
      · exact absurd rfl (hno c)
  · rintro ks (⟨-, ⟨⟩⟩ | ⟨h, -⟩)
    exact .inl h

omit hs in
theorem ignore_closes (why : String) : tables.ClosesFrom Roams Tables.Starts (ignore why) s :=
  ((tables_warn _).moves s).closes

theorem recvPacket1_closes (ek : Bytes) : tables.ClosesFrom Roams Tables.Starts (recvPacket1 ek) s := by
  unfold recvPacket1
  split
  · exact xabort_closes hs _
  split
  · exact ignore_closes _
  have htake : tables.Moves stay (update fun s => { s with
      version := EapolKey.version ek, anonce := EapolKey.nonce ek, replay := EapolKey.replay ek } :
      Handler Unit) := moves_keep fun _ => rfl
  refine htake.bind_closes_stay fun _ s₁ h₁ => ?_
  refine (tables_call _).moves.bind_closes_stay fun _ s₂ h₂ => ?_
  refine tables_fillRand.bind_closes_stay fun _ s₃ h₃ => ?_
  refine tables_pmkToPtk.bind_closes_stay fun _ s₄ h₄ => ?_
  have hs₄ : s₄.tables = s.tables := h₄.trans (h₃.trans (h₂.trans h₁))
  rw [closesFrom_read_bind]
  split
  · refine sendPacket2_closes ?_
    rwa [hs₄]
  · have hwait : tables.Moves Roams (update fun s => { s with eapolstate := .waiting24 } : Handler Unit) :=
      moves_keep fun _ => rfl
    exact (hwait s₄).closes

theorem recvGroup1_closes (ek : Bytes) : tables.ClosesFrom Roams Tables.Starts (recvGroup1 ek) s := by
  unfold recvGroup1
  rw [closesFrom_read_bind]
  split
  · exact ignore_closes _
  split
  · exact ignore_closes _
  split
  · exact ignore_closes _
  split
  · exact ignore_closes _
  split
  · exact xabort_closes hs _
  split
  · exact xabort_closes hs _
  next idx gtk _ =>
  have htake : tables.Moves stay (takeKeyData ek idx gtk) := moves_keep fun _ => rfl
  refine htake.bind_closes_stay fun _ s₁ h₁ => ?_
  refine (tables_call _).moves.bind_closes_stay fun _ s₂ h₂ => sendGroup2_closes ?_
  rwa [show s₂.tables = s.tables from h₂.trans h₁]

theorem recvPacket3_tables (ek : Bytes) : tables.Does (recvPacket3 ek) s fun ks o =>
    Roaming s ks o ∨ (packet3Verdict s ek = .taken ∧ ks = [] ∧ o.Returns (Connects s.tables)) := by
  have habort (why : String) : tables.Does (xabort why) s fun ks o =>
      Roaming s ks o ∨ (packet3Verdict s ek = .taken ∧ ks = [] ∧ o.Returns (Connects s.tables)) :=
    does_mono (xabort_closes hs why) fun ks o ho => .inl ho
  unfold recvPacket3
  rw [does_read_bind]
  split
  · exact habort _
  split
  · exact habort _
  next hbits =>
  split
  · exact habort _
  next hnonce =>
  split
  · exact habort _
  next hreplay =>
  split
  · exact habort _
  next hmic =>
  split
  · exact habort _
  next hunwrap =>
  split
  · exact habort _
  next idx gtk hfetch =>
  have hverdict : packet3Verdict s ek = .taken := by
    unfold packet3Verdict
    rw [if_pos (by simp_all [authentic, holdsGtk])]
  have htake : tables.Moves stay (takeKeyData ek idx gtk) := moves_keep fun _ => rfl
  refine htake.does_bind (.inl (.inl ⟨rfl, trivial⟩)) fun _ s₁ h₁ => ?_
  refine (tables_call _).moves.does_bind (.inl (.inl ⟨rfl, trivial⟩)) fun _ s₂ h₂ => ?_
  have hs₂ : s₂.tables = s.tables := h₂.trans h₁
  refine does_mono (sendPacket4_tables (hs₂ ▸ hs)) fun ks o ho => ?_
  unfold Roaming at ho
  rw [hs₂] at ho
  exact ho.imp_right fun h => ⟨hverdict, h⟩

theorem tables_handleRawsock (sender data : Bytes) :
    tables.Does (handleRawsock sender data) s (FrameTables s sender data) := by
  have hroams {m : Handler Unit} (hm : tables.ClosesFrom Roams Tables.Starts m s) :
      tables.Does m s (FrameTables s sender data) := does_mono hm fun ks o ho => .inl ho
  by_cases hears : s.hears sender (data.take 1024) = true
  swap
  · obtain ⟨text, hwarn⟩ := handleRawsock_unheard (eq_false_of_ne_true hears)
    exact (does_congr hwarn).mpr (hroams ((tables_warn text).moves s).closes)
  rw [does_congr (handleRawsock_heard hears)]
  unfold dispatchEapol
  rw [does_read_bind]
  split
  · exact hroams (recvPacket1_closes hs _)
  · next hstate =>
      refine does_mono (recvPacket3_tables hs _) ?_
      rintro ks o (h | ⟨hverdict, h⟩)
      · exact .inl h
      · exact .inr ⟨hstate, by rw [Daemon.verdict, if_pos hears, hstate]; exact hverdict, h⟩
  · exact hroams (recvGroup1_closes hs _)
  · exact hroams (ignore_closes _)
  · exact hroams (ignore_closes _)

end Packets
end Wsupp

import Wsupp.Control.Link
import Wsupp.Reactive.Moves

/-!
# The access point, the scan table and the PSK file

What the choice of an access point goes by, seen without the state machines: the
record of the current access point, the scan table, the PSK file and the key in use.
Most handlers change these in a few ways only, which are the moves; a handler that
starts a connection does so last, and for a slot of the table.

`TableMove` is indexed by what may become of the record, since some handlers may fix
the station to a name and others may not. Sequences of moves are closed under
everything the handlers are made of, so a lemma about one handler is put together
from those of the handlers it calls.
-/
namespace Wsupp
open Reactive Prog View Relation

/-- The access point record, the scan table, the PSK file and the key in use, with the
answers that loading and saving PSKs will get. -/
structure Tables where
  ap : Ap
  PSK : Bytes
  table : ScanTable
  config : Config
  loadIO : List LoadIO
  remapIO : List RemapIO

def Daemon.tables (s : Daemon) : Tables where
  ap := s.ap
  PSK := s.PSK
  table := s.table
  config := s.config
  loadIO := s.env.loadIO
  remapIO := s.env.remapIO

def tables : View Daemon Act Tables where
  state := Daemon.tables
  shows := Act.authenticates

@[simp] theorem tables_state (s : Daemon) : View.state tables s = s.tables := rfl

/-- As many slots in use, with each of them changed as `r` allows. No slot changes its
place in the table. -/
structure ScanTable.Pointwise (r : Scan → Scan → Prop) (t t' : ScanTable) : Prop where
  nscans : t'.nscans = t.nscans
  get : ∀ i, r (t.get i) (t'.get i)

/-- The two slots differ in `SF_TRIED` at most. -/
def Scan.Retried (sc sc' : Scan) : Prop :=
  sc' = sc ∨ sc.freq ≠ 0 ∧ ∃ b, sc' = { sc with flags := { sc.flags with tried := b } }

/-- The station is not told to keep to an SSID, or keeps to the one it was told. -/
def Ap.NeverFixes (ap ap' : Ap) : Prop :=
  ap'.fixed = true → ap.fixed = true ∧ ap'.slen = ap.slen ∧ ap'.ssid = ap.ssid

/-- The PSK file is read, unless it has been before. -/
def Tables.load (t : Tables) : Tables :=
  { t with config := (t.config.loadConfig (t.loadIO.headD {})).2, loadIO := t.loadIO.tail }

/-- A move of the tables: the record is set, a key is loaded, marks of attempts are
changed, a slot fails, or the file is read. `R` says how the access point record may
change. -/
inductive TableMove (R : Ap → Ap → Prop) (t : Tables) : Tables → Prop where
  | retunes (ap : Ap) : R t.ap ap → TableMove R t { t with ap := ap }
  | rekeys (PSK : Bytes) : (t.PSK.length = 32 → PSK.length = 32) → TableMove R t { t with PSK := PSK }
  | retries (table : ScanTable) : t.table.Pointwise Scan.Retried table →
      TableMove R t { t with table := table }
  | fails (i : ℕ) : (t.table.get i).freq ≠ 0 → TableMove R t { t with
      table := t.table.modify i fun sc => { sc with flags := { sc.flags with good := false } } }
  | loads : TableMove R t t.load

theorem TableMove.mono {R R' : Ap → Ap → Prop} (hR : ∀ ap ap', R ap ap' → R' ap ap') {t t' : Tables}
    (h : TableMove R t t') : TableMove R' t t' := by
  cases h with
  | retunes ap h => exact .retunes ap (hR _ _ h)
  | rekeys PSK h => exact .rekeys PSK h
  | retries table h => exact .retries table h
  | fails i h => exact .fails i h
  | loads => exact .loads

/-- What `set_current_ap` chooses for a slot's type. -/
def Ap.Suits (ap : Ap) (type : ScanType) : Prop :=
  type.rsnPCcmp = true ∧ ap.tkipgroup = type.rsnGTkip ∧
    ap.ies = if type.rsnGTkip then iesCcmpTkip else iesCcmpCcmp

/-- The access point record is that of a slot in the table. -/
def Tables.Tuned (t : Tables) : Prop :=
  ∃ i < t.table.nscans, (t.table.get i).freq ≠ 0 ∧ (t.table.get i).bssid = t.ap.bssid ∧
    sameSsid t.ap (t.table.get i) = true ∧ (t.table.get i).freq = t.ap.freq ∧
    t.ap.Suits (t.table.get i).type

/-- The command that starts a connection. -/
def Tables.authenticates (t : Tables) (sent : Bool) : Act :=
  .nl (.authenticate t.ap.bssid t.ap.freq (t.ap.ssid.take t.ap.slen)) sent

/-- A connection to the access point is started. -/
def Tables.Starts {α : Type} (_ : α) (t : Tables) (a : Act) : Prop :=
  t.Tuned ∧ ∃ sent, a = t.authenticates sent

/-- Slots that differ in their flags at most, and not at all if they are free. -/
def Scan.Same (sc sc' : Scan) : Prop := (∃ f, sc' = { sc with flags := f }) ∧ (sc = {} → sc' = {})

theorem Scan.Same.refl (sc : Scan) : sc.Same sc := ⟨⟨sc.flags, rfl⟩, id⟩

theorem Scan.same_flags {sc : Scan} (h : sc.freq ≠ 0) (f : ScanFlags) :
    sc.Same { sc with flags := f } :=
  ⟨⟨f, rfl⟩, fun hfree => absurd (congrArg Scan.freq hfree) h⟩

def ScanTable.SameSlots (t t' : ScanTable) : Prop := t.Pointwise Scan.Same t'

theorem ScanTable.SameSlots.trans {t t' t'' : ScanTable} (h : t.SameSlots t')
    (h' : t'.SameSlots t'') : t.SameSlots t'' where
  nscans := h'.nscans.trans h.nscans
  get i := by
    obtain ⟨⟨f, hf⟩, hfree⟩ := h.get i
    obtain ⟨⟨f', hf'⟩, hfree'⟩ := h'.get i
    exact ⟨⟨f', by rw [hf', hf]⟩, fun h => hfree' (hfree h)⟩

theorem ScanTable.SameSlots.refl (t : ScanTable) : t.SameSlots t := ⟨rfl, fun i => .refl (t.get i)⟩

theorem ScanTable.modify_modify (t : ScanTable) (i : ℕ) (f g : Scan → Scan) :
    (t.modify i f).modify i g = t.modify i (g ∘ f) := by
  simp only [modify, List.modify_modify_eq]

theorem ScanTable.sameSlots_modify (t : ScanTable) {i : ℕ} (hi : (t.get i).freq ≠ 0)
    (f : ScanFlags → ScanFlags) :
    t.SameSlots (t.modify i fun sc => { sc with flags := f sc.flags }) where
  nscans := rfl
  get j := by
    rw [get_modify]
    split
    · next h => exact Scan.same_flags (h.1 ▸ hi) _
    · exact .refl _

/-- Moves leave the slots as they are but for their flags. -/
theorem TableMove.sameSlots {R : Ap → Ap → Prop} {t t' : Tables} (h : TableMove R t t') :
    t.table.SameSlots t'.table := by
  cases h with
  | retunes _ _ => exact .refl _
  | rekeys _ _ => exact .refl _
  | retries table h =>
      refine ⟨h.nscans, fun i => ?_⟩
      rcases h.get i with heq | ⟨hfreq, b, heq⟩
      · exact heq ▸ .refl _
      · exact heq ▸ Scan.same_flags hfreq _
  | fails i hi => exact t.table.sameSlots_modify hi fun f => { f with good := false }
  | loads => exact .refl _

theorem moves_sameSlots {R : Ap → Ap → Prop} {t t' : Tables}
    (h : ReflTransGen (TableMove R) t t') : t.table.SameSlots t'.table := by
  induction h with
  | refl => exact .refl _
  | tail _ h ih => exact ih.trans h.sameSlots

section Stay

theorem tables_warn (text : String) : tables.Quiet (Handler.warn text) := quiet_emit rfl

theorem tables_call (c : Call) : tables.Quiet (Handler.call c) := quiet_emit rfl

theorem tables_nlSend {cmd : NlCommand} (h : ∀ b, Act.authenticates (.nl cmd b) = false) :
    tables.Quiet (nlSend cmd) :=
  quiet_bind (quiet_update fun _ => rfl) fun _ => quiet_bind ⟨fun _ => ⟨rfl, _, rfl⟩⟩ fun _ =>
    quiet_bind (quiet_emit (h _)) fun _ => quiet_pure _

theorem tables_quit {α : Type} (text : String) : tables.Moves stay (quit text : Handler α) := by
  refine moves_bind (tables_warn text).moves fun _ => moves_read fun s => ?_
  have hexit : tables.Moves stay (do
      emit .exit
      Prog.exit : Handler α) := moves_bind (moves_emit rfl) fun _ => moves_exit
  refine moves_ite hexit ?_
  refine moves_bind (moves_keep fun _ => rfl) fun _ => ?_
  exact moves_bind (Quiet.moves ⟨fun _ => ⟨rfl, _, rfl⟩⟩) fun _ =>
    moves_bind (moves_emit rfl) fun _ => hexit

theorem tables_sendCheck {cmd : NlCommand} (h : ∀ b, Act.authenticates (.nl cmd b) = false) :
    tables.Moves stay (sendCheck cmd) :=
  moves_bind (tables_nlSend h).moves fun _ => moves_ite (moves_pure _) (tables_quit _)

theorem tables_sendSetAuthstate {cmd : NlCommand} (as : AuthState)
    (h : ∀ b, Act.authenticates (.nl cmd b) = false) :
    tables.Moves stay (sendSetAuthstate cmd as) :=
  moves_bind (tables_sendCheck h) fun _ => moves_keep fun _ => rfl

theorem tables_resetScanState : tables.Quiet resetScanState := quiet_update fun _ => rfl

theorem tables_triggerScan (freq : Int) : tables.Quiet (triggerScan freq) := by
  refine quiet_bind (quiet_when (quiet_update fun _ => rfl)) fun _ => ?_
  refine quiet_bind (tables_nlSend fun _ => rfl) fun _ => ?_
  refine quiet_ite ?_ ?_
  · exact quiet_bind (quiet_update fun _ => rfl) fun _ => quiet_pure _
  · exact quiet_bind (quiet_update fun _ => rfl) fun _ => quiet_pure _

theorem tables_startScan (freq : Int) : tables.Quiet (startScan freq) := by
  refine quiet_read_bind fun _ => quiet_ite ?_ (quiet_ite (quiet_pure _) ?_)
  · exact quiet_bind (quiet_update fun _ => rfl) fun _ => tables_triggerScan freq
  · exact quiet_bind (quiet_update fun _ => rfl) fun _ => quiet_pure _

theorem tables_triggerScanDump : tables.Quiet triggerScanDump :=
  quiet_bind (tables_nlSend fun _ => rfl) fun _ => quiet_ite
    (quiet_bind (tables_warn _) fun _ => tables_resetScanState) (quiet_update fun _ => rfl)

theorem tables_reopenRawsock : tables.Moves stay reopenRawsock := by
  refine moves_read fun _ => moves_ite (moves_pure _) ?_
  exact moves_bind (Quiet.moves ⟨fun _ => ⟨rfl, _, rfl⟩⟩) fun _ =>
    moves_ite (moves_keep fun _ => rfl) (tables_quit _)

theorem tables_triggerAssociation : tables.Moves stay triggerAssociation :=
  moves_read fun _ => tables_sendSetAuthstate _ fun _ => rfl

theorem tables_startDisconnect : tables.Moves stay startDisconnect := by
  have hstart : tables.Moves stay (do
      triggerDisconnect
      pure 0 : Handler Int) :=
    moves_bind (tables_sendSetAuthstate _ fun _ => rfl) fun _ => moves_pure _
  refine moves_read fun s => ?_
  split
  · exact moves_pure _
  · exact moves_pure _
  · exact moves_pure _
  · exact hstart

theorem tables_uploadPtk : tables.Moves stay uploadPtk :=
  moves_read fun _ => moves_bind (tables_call _).moves fun _ => tables_sendCheck fun _ => rfl

theorem tables_uploadGtk : tables.Moves stay uploadGtk :=
  moves_read fun _ => moves_bind (tables_call _).moves fun _ => tables_sendCheck fun _ => rfl

theorem tables_clrTimer : tables.Quiet clrTimer := quiet_update fun _ => rfl

theorem tables_setTimer (seconds : ℕ) : tables.Quiet (setTimer seconds) := quiet_update fun _ => rfl

theorem tables_sendReport (r : Report) : tables.Quiet (sendReport r) :=
  quiet_read_bind fun _ => quiet_emit rfl

theorem tables_killDhcp : tables.Quiet killDhcp :=
  quiet_read_bind fun _ => quiet_ite (quiet_pure _) (quiet_emit rfl)

theorem tables_triggerDhcp : tables.Moves stay triggerDhcp := by
  refine moves_bind tables_killDhcp.moves fun _ => ?_
  refine moves_bind (Quiet.moves ⟨fun _ => ⟨rfl, _, rfl⟩⟩) fun _ => moves_ite ?_ ?_
  · refine moves_bind (tables_warn _).moves fun _ => ?_
    exact moves_bind (moves_emit rfl) fun _ => moves_exit
  · exact moves_bind (moves_emit rfl) fun _ => moves_keep fun _ => rfl

end Stay

section Choose
variable {R : Ap → Ap → Prop}

theorem ScanTable.get_le {t : ScanTable} {i : ℕ} (h : (t.get i).freq ≠ 0) : i < NSCANS := by
  by_contra hle
  rw [t.get_of_le (not_lt.mp hle)] at h
  exact h rfl

/-- Only the flag `SF_TRIED` of a slot in use is changed. -/
theorem ScanTable.retried_modify (t : ScanTable) {i : ℕ} (hi : (t.get i).freq ≠ 0) (b : Bool) :
    t.Pointwise Scan.Retried
      (t.modify i fun sc => { sc with flags := { sc.flags with tried := b } }) where
  nscans := rfl
  get j := by
    rw [ScanTable.get_modify]
    split
    · next h =>
        rw [← h.1]
        exact .inr ⟨hi, b, rfl⟩
    · exact .inl rfl

theorem Config.loadPsk_config (io : LoadIO) (ssid psk : Bytes) (c : Config) :
    (c.loadPsk io ssid psk).2.2 = (c.loadConfig io).2 := by
  unfold loadPsk
  rcases c.loadConfig io with ⟨ret, c'⟩
  dsimp only
  split
  · rfl
  · split
    · rfl
    · split <;> rfl

theorem Config.length_parseLoop (str dst : Bytes) : (parseLoop str dst).2.length = dst.length := by
  fun_induction parseLoop str dst with
  | case2 h l str d dst hh ll hhh hll r ih => exact congrArg (· + 1) ih
  | _ => rfl

/-- Whatever `load_psk` leaves in the array, it leaves its length. -/
theorem Config.length_loadPsk (io : LoadIO) (ssid psk : Bytes) (c : Config) :
    (c.loadPsk io ssid psk).2.1.length = psk.length := by
  unfold loadPsk
  rcases c.loadConfig io with ⟨ret, c'⟩
  dsimp only
  split
  · rfl
  split
  · rfl
  split
  · change (parseBytes _ psk).2.length = _
    unfold parseBytes
    split
    · rfl
    · exact length_parseLoop _ _
  · rfl

theorem loadPsk_tables (ssid : Bytes) (s : Daemon) : tables.Does (loadPsk ssid) s fun ks o =>
    ks = [] ∧ ∃ ret PSK, PSK.length = s.PSK.length ∧ o = .goes ret { s.tables.load with PSK := PSK } := by
  have hconfig := Config.loadPsk_config (s.env.loadIO.headD {}) ssid s.PSK s.config
  refine ⟨rfl, (s.config.loadPsk (s.env.loadIO.headD {}) ssid s.PSK).1,
    (s.config.loadPsk (s.env.loadIO.headD {}) ssid s.PSK).2.1, Config.length_loadPsk _ _ _ _, ?_⟩
  exact congrArg (fun config => Outcome.goes _ (Tables.mk s.ap _ s.table config _ _)) hconfig

theorem moves_loadPsk (ssid : Bytes) : tables.Moves (TableMove R) (loadPsk ssid) := by
  intro s
  refine does_mono (loadPsk_tables ssid s) ?_
  rintro ks o ⟨rfl, ret, PSK, hlen, rfl⟩
  exact ⟨rfl, .tail (.single .loads) (.rekeys PSK hlen.trans)⟩

/-- The record is changed in any way that leaves alone the SSID it may be fixed on. -/
def Ap.AllowsTuning (R : Ap → Ap → Prop) : Prop :=
  ∀ ap ap' : Ap, ap'.fixed = ap.fixed → (ap.fixed = true → ap'.slen = ap.slen ∧ ap'.ssid = ap.ssid) →
    R ap ap'

def Scan.name (sc : Scan) : Bytes := sc.ssid.take sc.slen

/-- A name that fits its array. -/
def Scan.Named (sc : Scan) : Prop := sc.slen ≤ sc.ssid.length

theorem Scan.name_eq_iff {sc : Scan} (hsc : sc.Named) (ssid : Bytes) :
    (sc.slen = ssid.length && sc.ssid.take ssid.length = ssid) = true ↔ sc.name = ssid := by
  rw [Bool.and_eq_true, decide_eq_true_eq, decide_eq_true_eq]
  constructor
  · rintro ⟨hlen, htake⟩
    rw [name, hlen, htake]
  · rintro rfl
    have hlen : sc.name.length = sc.slen := by
      rw [name, List.length_take, min_eq_left hsc]
    rw [hlen]
    exact ⟨rfl, rfl⟩

def ScanTable.Named (t : ScanTable) : Prop := ∀ i, (t.get i).Named

theorem ScanTable.SameSlots.named {t t' : ScanTable} (h : t.SameSlots t') (hn : t.Named) :
    t'.Named := by
  intro i
  obtain ⟨⟨f, hf⟩, -⟩ := h.get i
  rw [hf]
  exact hn i

theorem ScanTable.SameSlots.freq {t t' : ScanTable} (h : t.SameSlots t') {i : ℕ}
    (hi : (t.get i).freq ≠ 0) : (t'.get i).freq ≠ 0 := by
  obtain ⟨⟨f, hf⟩, -⟩ := h.get i
  rw [hf]
  exact hi

/-- The record as `set_current_ap` leaves it for a slot, but for the SSID. -/
def Ap.tunedOn (ap : Ap) (sc : Scan) : Ap :=
  { ap with
    success := false, freq := sc.freq, type := sc.type, bssid := sc.bssid
    ies := if sc.type.rsnGTkip then iesCcmpTkip else iesCcmpCcmp
    tkipgroup := sc.type.rsnGTkip }

theorem Tables.tuned_of_slot {t : Tables} {ap : Ap} {sc : Scan} {i : ℕ} (hi : i < t.table.nscans)
    (hget : ∃ f, t.table.get i = { sc with flags := f }) (hfreq : sc.freq ≠ 0)
    (hccmp : sc.type.rsnPCcmp = true) (hap : t.ap = ap.tunedOn sc)
    (hssid : sameSsid ap sc = true) : t.Tuned := by
  obtain ⟨f, hf⟩ := hget
  refine ⟨i, hi, ?_⟩
  rw [hf, hap]
  exact ⟨hfreq, rfl, hssid, rfl, hccmp, rfl, rfl⟩

/-- What `set_current_ap` returns with: 0 if the record is that of the slot. -/
theorem setCurrentAp_does (hR : Ap.AllowsTuning R) {s : Daemon} {i : ℕ} (hi : i < s.table.nscans)
    (hfreq : (s.table.get i).freq ≠ 0) (hname : (s.table.get i).Named)
    (hmatch : matchSsid s.ap (s.table.get i) = true) :
    tables.Does (setCurrentAp i) s fun ks o => ks = [] ∧ ∃ ret t, o = .goes ret t ∧
      ReflTransGen (TableMove R) s.tables t ∧ (ret = 0 → t.Tuned) := by
  have hget : ∃ f, (s.table.modify i fun sc =>
      { sc with flags := { sc.flags with tried := true } }).get i = { s.table.get i with flags := f } := by
    rw [ScanTable.get_modify, if_pos ⟨rfl, ScanTable.get_le hfreq⟩]
    exact ⟨_, rfl⟩
  have htried : ReflTransGen (TableMove R) s.tables { s.tables with table := (s.table.modify i fun sc =>
      { sc with flags := { sc.flags with tried := true } }) } :=
    .single (.retries _ (ScanTable.retried_modify _ hfreq true))
  unfold setCurrentAp modifyFlags
  rw [does_read_bind, does_update_bind, does_update_bind]
  split
  · refine ⟨rfl, _, _, rfl, htried.tail (.retunes _ (hR _ _ rfl fun _ => ⟨rfl, rfl⟩)), ?_⟩
    exact fun h => by cases h
  next hccmp =>
  rw [Bool.not_eq_true, Bool.not_eq_false'] at hccmp
  rw [does_update_bind]
  split
  · next hfixed =>
      have hssid : sameSsid s.ap (s.table.get i) = true := by
        simpa [matchSsid, hfixed] using hmatch
      exact ⟨rfl, _, _, rfl, htried.tail (.retunes (s.ap.tunedOn (s.table.get i))
          (hR _ _ rfl fun _ => ⟨rfl, rfl⟩)),
        fun _ => Tables.tuned_of_slot hi hget hfreq hccmp rfl hssid⟩
  next hfixed =>
  rw [does_update_bind, does_read_bind]
  have hssid : sameSsid { s.ap with
      slen := (s.table.get i).slen
      ssid := Bytes.memcpy s.ap.ssid (s.table.get i).ssid (s.table.get i).slen } (s.table.get i) = true := by
    rw [sameSsid, Bytes.take_memcpy _ hname]
    simp
  have htuned : ReflTransGen (TableMove R) s.tables { s.tables with
      table := (s.table.modify i fun sc => { sc with flags := { sc.flags with tried := true } })
      ap := Ap.tunedOn { s.ap with
        slen := (s.table.get i).slen
        ssid := Bytes.memcpy s.ap.ssid (s.table.get i).ssid (s.table.get i).slen } (s.table.get i) } :=
    htried.tail (.retunes _ (hR _ _ rfl fun h => absurd h hfixed))
  refine does_bind (does_mono (loadPsk_tables _ _) fun ks o h => (?_ : ks = [] ∧ ∃ ret t,
    o = .goes ret t ∧ ReflTransGen (TableMove R) s.tables t ∧ t.Tuned)) ?_ ?_
  · obtain ⟨rfl, ret, PSK, hlen, rfl⟩ := h
    exact ⟨rfl, ret, _, rfl, (htuned.tail .loads).tail (.rekeys PSK hlen.trans),
      Tables.tuned_of_slot hi hget hfreq hccmp rfl hssid⟩
  · rintro ks ret c ⟨rfl, _, t, ⟨⟩, hpath, ht⟩ s' rfl
    split
    · exact ⟨rfl, _, _, rfl, hpath, fun h => by cases h⟩
    · exact ⟨rfl, _, _, rfl, hpath, fun _ => ht⟩
  · rintro ks ⟨-, -, -, ⟨⟩, -⟩

/-- The slot that is best is one that can be connected to. -/
theorem bestOf_some {ap : Ap} {t : ScanTable} {is : List ℕ} {best : Option ℕ} {i : ℕ}
    (h : bestOf ap t is best = some i) :
    best = some i ∨ i ∈ is ∧ (t.get i).freq ≠ 0 ∧ matchSsid ap (t.get i) = true := by
  induction is generalizing best with
  | nil => exact .inl h
  | cons j is ih =>
      simp only [bestOf] at h
      rcases ih h with hbest | ⟨hi, hslot⟩
      swap
      · exact .inr ⟨List.mem_cons_of_mem _ hi, hslot⟩
      split_ifs at hbest with hfreq hconn hmatch hcmp
      · exact .inl hbest
      · exact .inl hbest
      · exact .inl hbest
      · exact .inl hbest
      · cases hbest
        exact .inr ⟨List.mem_cons_self, hfreq, by simpa using hmatch⟩

theorem getBestAp_some {ap : Ap} {t : ScanTable} {i : ℕ} (h : getBestAp ap t = some i) :
    i < t.nscans ∧ (t.get i).freq ≠ 0 ∧ matchSsid ap (t.get i) = true := by
  rcases bestOf_some h with hnone | ⟨hi, hslot⟩
  · cases hnone
  · exact ⟨List.mem_range.mp hi, hslot⟩

theorem triggerAuthentication_tables (s : Daemon) :
    tables.Does triggerAuthentication s fun ks o =>
      ∃ sent, ks = [s.tables.authenticates sent] ∧ o = .goes () s.tables := by
  have hsend (cmd : NlCommand) (hcmd : ∀ b, Act.authenticates (.nl cmd b) = true) :
      tables.Does (nlSend cmd) s fun ks o => ∃ sent ret, ks = [.nl cmd sent] ∧ 0 ≤ ret ∧
        o = .goes ret s.tables := by
    unfold nlSend
    rw [does_update_bind]
    refine does_bind_quiet (m := Handler.answerNlSend) ⟨fun _ => ⟨rfl, _, rfl⟩⟩ fun rd s' hs => ?_
    rw [does_emit_bind, does_pure, outputs_shown (hcmd _)]
    refine ⟨_, _, rfl, ?_, congrArg (Outcome.goes _) hs⟩
    split <;> decide
  unfold triggerAuthentication sendSetAuthstate sendCheck
  rw [does_read_bind]
  refine does_bind (does_bind (E := fun ks o => ∃ sent, ks = [s.tables.authenticates sent] ∧
    o = .goes () s.tables) (hsend _ fun _ => rfl) ?_ ?_) ?_ ?_
  · rintro ks ret c ⟨sent, _, rfl, hret, ⟨⟩⟩ s' hs'
    rw [if_pos hret, does_pure, List.append_nil, hs']
    exact ⟨sent, rfl, rfl⟩
  · rintro ks ⟨-, -, -, -, ⟨⟩⟩
  · rintro ks _ c ⟨sent, rfl, ⟨⟩⟩ s' hs'
    exact ⟨sent, List.append_nil _, congrArg (Outcome.goes ()) hs'⟩
  · rintro ks ⟨-, -, ⟨⟩⟩

theorem startConnection_tables (s : Daemon) : tables.Does startConnection s fun ks o =>
    (ks = [] ∧ o.Returns (· = s.tables)) ∨
      ∃ sent, ks = [s.tables.authenticates sent] ∧ o = .goes 0 s.tables := by
  unfold startConnection
  rw [does_read_bind]
  split
  · exact .inl ⟨rfl, rfl⟩
  split
  · exact .inl ⟨rfl, rfl⟩
  refine does_bind (tables_reopenRawsock s) ?_ ?_
  · rintro ks _ c ⟨rfl, hc⟩ s' hs'
    obtain rfl : c = s.tables := stays_eq hc
    refine does_bind (triggerAuthentication_tables s') ?_ ?_
    · rintro ks _ c ⟨sent, rfl, ⟨⟩⟩ s'' hs''
      rw [does_pure, hs'', ← show s'.tables = s.tables from hs']
      exact .inr ⟨sent, rfl, rfl⟩
    · rintro ks ⟨-, -, ⟨⟩⟩
  · rintro ks ⟨rfl, -⟩
    exact .inl ⟨rfl, trivial⟩

theorem connectLoop_closes (hR : Ap.AllowsTuning R) (n : ℕ) {s : Daemon} (hs : s.table.Named) :
    tables.ClosesFrom (TableMove R) (fun started t a => started = true ∧ Tables.Starts started t a)
      (connectLoop n) s := by
  induction n generalizing s with
  | zero => exact (moves_pure _ s).closes
  | succ n ih =>
      unfold connectLoop
      rw [closesFrom_read_bind]
      split
      · exact (moves_pure _ s).closes
      next i hbest =>
      obtain ⟨hi, hfreq, hmatch⟩ := getBestAp_some hbest
      -- a slot that was no use is marked, and the rest of the loop sees the same slots
      have hnext (s' : Daemon) (hs' : ReflTransGen (TableMove R) s.tables s'.tables) :
          tables.Does (do
            modifyFlags i fun f => { f with good := false }
            connectLoop n : Handler Bool) s' (Closing (TableMove R)
              (fun started t a => started = true ∧ Tables.Starts started t a) s.tables) := by
        have hfail : tables.MovesFrom (TableMove R)
            (modifyFlags i fun f => { f with good := false }) s' :=
          ⟨rfl, .single (.fails i ((moves_sameSlots hs').freq hfreq))⟩
        refine does_mono (hfail.bind_closes fun _ s'' hs'' => ih ?_) fun ks o ho => ho.after hs'
        exact (moves_sameSlots (hs'.trans hs'')).named hs
      refine does_bind (setCurrentAp_does hR hi hfreq (hs i) hmatch) ?_ ?_
      · rintro ks ret c ⟨rfl, _, t, ⟨⟩, hpath, htuned⟩ s' rfl
        split
        · exact hnext s' hpath
        next hret =>
        refine does_bind (startConnection_tables s') ?_ ?_
        · rintro ks ret c (⟨rfl, rfl⟩ | ⟨sent, rfl, ⟨⟩⟩) s'' hs''
          · have hpath : ReflTransGen (TableMove R) s.tables s''.tables := by
              rwa [show s''.tables = s'.tables from hs'']
            split
            · exact hnext s'' hpath
            · exact .inl ⟨rfl, hpath⟩
          · rw [if_neg (by decide), does_pure, hs'']
            exact .inr ⟨_, true, _, rfl, rfl, hpath, rfl, htuned (not_not.mp hret), sent, rfl⟩
        · rintro ks (⟨rfl, -⟩ | ⟨-, -, ⟨⟩⟩)
          exact .inl ⟨rfl, trivial⟩
      · rintro ks ⟨-, -, -, ⟨⟩, -⟩

end Choose

section Lose

/-- The moves of everything but the commands that tell the station an SSID. -/
abbrev Roams : Tables → Tables → Prop := TableMove Ap.NeverFixes

theorem Ap.neverFixes_tuning : Ap.AllowsTuning Ap.NeverFixes := by
  intro ap ap' hfixed hssid h
  rw [hfixed] at h
  exact ⟨h, hssid h⟩

theorem moves_clearApBssid : tables.Moves Roams clearApBssid :=
  moves_update fun _ => .retunes _ fun h => ⟨h, rfl, rfl⟩

theorem moves_clearApSsid : tables.Moves Roams clearApSsid := by
  intro s
  refine ⟨rfl, .tail (.single (.retunes _ ?_)) (.rekeys (Bytes.zeros 32) fun _ => rfl)⟩
  exact fun h => by cases h

theorem moves_snapToNeutral : tables.Moves Roams snapToNeutral :=
  moves_bind moves_clearApBssid fun _ => moves_bind moves_clearApSsid fun _ =>
    moves_keep fun _ => rfl

theorem reassess_closes {s : Daemon} (hs : s.tables.table.Named) :
    tables.ClosesFrom Roams Tables.Starts reassessWifiSituation s := by
  unfold reassessWifiSituation
  rw [closesFrom_read_bind]
  split
  · exact (moves_pure _ s).closes
  split
  · exact (moves_pure _ s).closes
  split
  · exact (moves_pure _ s).closes
  have hnone : tables.Moves Roams (do
      reportNoConnect
      let s ← read
      if s.opermode = .oneshot then snapToNeutral else idleThenRescan : Handler Unit) :=
    moves_bind (tables_sendReport _).moves fun _ => moves_read fun _ =>
      moves_ite moves_snapToNeutral (tables_setTimer _).moves
  refine (connectLoop_closes Ap.neverFixes_tuning _ hs).bind (fun started s' _ => ?_) ?_
  · exact (moves_ite (moves_pure _) hnone s').closes
  · rintro started s' x ⟨rfl, hstarts⟩
    exact ⟨rfl, (), rfl, hstarts⟩

theorem abort_closes {s : Daemon} (hs : s.tables.table.Named) :
    tables.ClosesFrom Roams Tables.Starts abortConnection s := by
  refine tables_startDisconnect.bind_closes_stay fun ret s' hs' => ?_
  split
  · exact (moves_pure _ s').closes
  · refine reassess_closes ?_
    rw [show s'.tables = s.tables from hs']
    exact hs

theorem moves_rescanCurrentAp : tables.Moves Roams rescanCurrentAp := by
  refine moves_bind (moves_update fun _ => .retunes _ fun h => ⟨h, rfl, rfl⟩) fun _ => ?_
  exact moves_read fun _ => moves_bind (tables_startScan _).moves fun _ => moves_pure _

/-- After moves, reassessing finds the names of the slots as they were. -/
theorem reassess_after {s s' : Daemon} (hs : s.tables.table.Named)
    (hpath : ReflTransGen Roams s.tables s'.tables) :
    tables.ClosesFrom Roams Tables.Starts reassessWifiSituation s' :=
  reassess_closes ((moves_sameSlots hpath).named hs)

theorem trySomeOtherAp_closes {s : Daemon} (hs : s.tables.table.Named) :
    tables.ClosesFrom Roams Tables.Starts trySomeOtherAp s := by
  refine (moves_clearApBssid s).bind_closes fun _ s₁ h₁ => ?_
  rw [closesFrom_read_bind]
  refine (moves_when moves_clearApSsid s₁).bind_closes fun _ s₂ h₂ => ?_
  exact reassess_after hs (h₁.trans h₂)

theorem handleDisconnect_closes {s : Daemon} (hs : s.tables.table.Named) :
    tables.ClosesFrom Roams Tables.Starts handleDisconnect s := by
  have hclear : tables.Moves Roams (do
      clearApBssid
      clearApSsid
      reportNoConnect : Handler Unit) :=
    moves_bind moves_clearApBssid fun _ => moves_bind moves_clearApSsid fun _ =>
      (tables_sendReport _).moves
  have hmode (f : Daemon → OperMode) : tables.Moves stay
      (update fun s => { s with opermode := f s } : Handler Unit) := moves_keep fun _ => rfl
  refine tables_clrTimer.moves.bind_closes_stay fun _ s₁ h₁ => ?_
  refine tables_killDhcp.moves.bind_closes_stay fun _ s₂ h₂ => ?_
  refine (hmode _).bind_closes_stay fun _ s₃ h₃ => ?_
  rw [closesFrom_read_bind]
  split
  · exact (moves_pure _ s₃).closes
  have hreport : tables.Moves stay reportDisconnect :=
    moves_read fun _ => (tables_sendReport _).moves
  refine hreport.bind_closes_stay fun _ s₄ h₄ => ?_
  refine (hmode _).bind_closes_stay fun _ s₅ h₅ => ?_
  have hs₅ : s₅.tables = s.tables := h₅.trans (h₄.trans (h₃.trans (h₂.trans h₁)))
  rw [closesFrom_read_bind]
  split
  · split
    · exact (moves_rescanCurrentAp s₅).closes
    · refine trySomeOtherAp_closes ?_
      rw [hs₅]
      exact hs
  · exact (hclear s₅).closes

theorem handleRfrestored_closes {s : Daemon} (hs : s.tables.table.Named) :
    tables.ClosesFrom Roams Tables.Starts handleRfrestored s := by
  unfold handleRfrestored
  rw [closesFrom_read_bind]
  split
  · exact (moves_pure _ s).closes
  have hidle : tables.Moves stay (update fun s => { s with authstate := .idle } : Handler Unit) :=
    moves_keep fun _ => rfl
  refine hidle.bind_closes_stay fun _ s₁ h₁ => ?_
  rw [closesFrom_read_bind]
  split
  · exact (moves_rescanCurrentAp s₁).closes
  · refine reassess_closes ?_
    rw [show s₁.tables = s.tables from h₁]
    exact hs

theorem moves_routineBgScan : tables.Moves Roams routineBgScan :=
  moves_bind (tables_startScan _).moves fun _ => (tables_setTimer _).moves

theorem moves_routineFgScan : tables.Moves Roams routineFgScan := by
  refine moves_read fun s => moves_ite ?_ (moves_ite ?_ ?_)
  · exact moves_bind (tables_setTimer _).moves fun _ =>
      moves_bind (tables_startScan _).moves fun _ => moves_pure _
  · refine moves_bind (tables_setTimer _).moves fun _ => ?_
    refine moves_bind (moves_update fun _ => .retunes _ fun h => ⟨h, rfl, rfl⟩) fun _ => ?_
    refine moves_read fun _ => moves_bind (tables_startScan _).moves fun _ => ?_
    exact moves_when (moves_update fun _ => .retunes _ fun h => ⟨h, rfl, rfl⟩)
  · exact moves_bind (tables_setTimer _).moves fun _ =>
      moves_bind (tables_startScan _).moves fun _ => moves_pure _

end Lose
end Wsupp

import Wsupp.Control.Tables
import Wsupp.Main
import Wsupp.Reactive.Outputs
import Wsupp.Reactive.Paths

/-!
# Everything a handler does

`Change` lists what happens to the daemon in one assignment or one call, with what
is put out and what is known at that point: a command is made of what the daemon
holds, a key comes from a packet that has passed its checks, a nonce from enough
random bytes. Every handler is a path of changes, and so are every step, every run
and the start before the loop.

An invariant or a monitor that every change keeps therefore holds of every reachable
state, without another look at the handlers. What the relation does not say is when
a change may come; results about the order of events go by the relations of the
other modules.
-/
namespace Wsupp
open Reactive Prog Handler

/-- The command is made of what the daemon holds. -/
def NlCommand.Of (s : Daemon) : NlCommand → Prop
  | .triggerScan freq => freq.all (0 < ·) = true
  | .getScan | .disconnect => True
  | .authenticate bssid freq ssid => bssid = s.ap.bssid ∧ freq = s.ap.freq ∧ ssid = s.ap.ssid.take s.ap.slen
  | .associate bssid freq ssid ies =>
      bssid = s.ap.bssid ∧ freq = s.ap.freq ∧ ssid = s.ap.ssid.take s.ap.slen ∧ ies = s.ap.ies
  | .newPairwiseKey bssid key => bssid = s.ap.bssid ∧ key = s.PTK.take 16
  | .newGroupKey index tkip key seq => index = s.gtkindex ∧ tkip = s.ap.tkipgroup ∧
      key = s.GTK.take (if s.ap.tkipgroup then 32 else 16) ∧ seq = s.RSC.take 6

/-- A report is made of what the daemon holds. -/
def Report.Of (s : Daemon) : Report → Prop
  | .disconnect bssid ssid freq | .connected bssid ssid freq =>
      bssid = s.ap.bssid ∧ ssid = s.ap.ssid.take s.ap.slen ∧ freq = s.ap.freq
  | _ => True

/-- Outputs that come with no data of the daemon. -/
def Act.bare : Act → Bool
  | .shutdownConn _ | .warn _ | .exit | .call _ => true
  | _ => false

def Act.repliedTo : Act → Option ℕ
  | .reply cn _ | .replyStatus cn | .replyDevice cn => some cn
  | _ => none

/-- The station is as it was, up to what is remembered about it: the address, the name
and the elements are the same, and the frequency is the same or cleared. -/
structure Ap.Same (ap ap' : Ap) : Prop where
  freq : ap'.freq = ap.freq ∨ ap'.freq = 0
  bssid : ap'.bssid = ap.bssid
  slen : ap'.slen = ap.slen
  ssid : ap'.ssid = ap.ssid
  ies : ap'.ies = ap.ies
  tkipgroup : ap'.tkipgroup = ap.tkipgroup

/-- The keys of the handshake that the state machine holds, and the counter of the
packet taken last, are untouched. -/
structure Control.SameKeys (c c' : Control) : Prop where
  replay : c'.replay = c.replay
  KCK : c'.KCK = c.KCK
  KEK : c'.KEK = c.KEK

/-- One change of the daemon, with what it puts out, in the course of an event during
which the replies of `may` are possible. Hypotheses record what the source has checked
or made sure of at that place. -/
inductive Change (may : Act → Prop) : Daemon → List Act → Daemon → Prop where
  | env {s : Daemon} (env : Env) : Change may s [] { s with env := env }
  | steer {s : Daemon} (c : Control) (pollts : ℕ) (h : s.SameKeys c) :
      Change may s [] { s with toControl := c, pollts := pollts }
  | sockets {s : Daemon} (rawsock rfkill : Bool) (rfkidx : Int) :
      Change may s [] { s with rawsock := rawsock, rfkill := rfkill, rfkidx := rfkidx }
  | conns {s : Daemon} (conns : List Conn) (nconns : ℕ) : Change may s [] { s with conns := conns, nconns := nconns }
  | store {s : Daemon} (PSK : Bytes) (config : Config) (h : s.PSK.length = 32 → PSK.length = 32) :
      Change may s [] { s with PSK := PSK, config := config }
  | plain {s : Daemon} (a : Act) (h : a.bare = true) : Change may s [a] s
  | replies {s : Daemon} (a : Act) (h : a.repliedTo.isSome = true) (hmay : may a) : Change may s [a] s
  | reports {s : Daemon} (r : Report) (conns : List ℕ) (h : r.Of s) : Change may s [.report r conns] s
  | saves {s : Daemon} : Change may s [.saveState (s.ap.ssid.take s.ap.slen)] s
  | command {s : Daemon} (c : NlCommand) (sent : Bool) (env : Env) (h : c.Of s) :
      Change may s [.nl c sent] { s with seq := (s.seq + 1) % 2 ^ 32, env := env }
  | disconnects {s : Daemon} (sent : Bool) (env : Env) :
      Change may s [.nlAck .disconnect sent] { s with seq := (s.seq + 1) % 2 ^ 32, env := env }
  | packet {s : Daemon} (frame : Bytes) (sent : Bool) (h : frame ∈ [packet2 s, packet4 s, group2 s]) :
      Change may s [.eapol s.amac frame sent] s
  | killDhcp {s : Daemon} (h : 0 < s.dhcpid) : Change may s [.killDhcp s.dhcpid] s
  | startDhcp {s : Daemon} (pid : Int) (h : 0 ≤ pid) : Change may s [.startDhcp pid] { s with dhcpid := pid }
  | reapDhcp {s : Daemon} (h : 0 < s.dhcpid) : Change may s [] { s with dhcpid := 0 }
  | flags {s : Daemon} (table : ScanTable) (hnscans : table.nscans = s.table.nscans)
      (h : ∀ i, ∃ f, table.get i = { s.table.get i with flags := f }) : Change may s [] { s with table := table }
  | dropStale {s : Daemon} : Change may s [] { s with table := s.table.dropStale }
  | result {s : Daemon} (bss : Netlink.Bss) (bssid : Bytes) (i : ℕ) (table : ScanTable) (hlen : bssid.length = 6)
      (hgrab : s.table.grabScanSlot bssid = some (i, table)) :
      Change may s [] { s with table := table.modify i (Netlink.scanOf bss bssid) }
  | remark {s : Daemon} (ap : Ap) (h : s.ap.Same ap) : Change may s [] { s with ap := ap }
  | clearBssid {s : Daemon} : Change may s []
      { s with ap := { s.ap with type := {}, success := false, rescans := 0, bssid := Bytes.zeros 6 } }
  | clearSsid {s : Daemon} : Change may s [] { s with
      ap := { s.ap with slen := 0, freq := 0, fixed := false, ssid := Bytes.zeros SSIDLEN, unsaved := false }
      PSK := Bytes.zeros 32 }
  | tune {s : Daemon} (i : ℕ) : Change may s [] { s with ap := { s.ap with
      success := false, freq := (s.table.get i).freq, type := (s.table.get i).type, bssid := (s.table.get i).bssid } }
  | elements {s : Daemon} (tkip : Bool) : Change may s [] { s with ap := { s.ap with
      ies := if tkip then iesCcmpTkip else iesCcmpCcmp, tkipgroup := tkip } }
  | name {s : Daemon} (i : ℕ) : Change may s [] { s with ap := { s.ap with
      slen := (s.table.get i).slen
      ssid := Bytes.memcpy s.ap.ssid (s.table.get i).ssid (s.table.get i).slen } }
  | fix {s : Daemon} (ssid : Bytes) (h : ssid.length ≤ SSIDLEN) : Change may s [] { s with ap := { s.ap with
      ssid := Bytes.memcpy s.ap.ssid ssid ssid.length, slen := ssid.length, fixed := true } }
  | wipe {s : Daemon} : Change may s [] { s with
      anonce := Bytes.zeros 32, snonce := Bytes.zeros 32, PTK := Bytes.zeros 16, GTK := Bytes.zeros 32 }
  | reset {s : Daemon} : Change may s [] { s with
      KCK := Bytes.zeros 16, GTK := Bytes.zeros 32, KEK := Bytes.zeros 16
      snonce := Bytes.zeros 32, anonce := Bytes.zeros 32, amac := Bytes.zeros 6, version := 0 }
  | derive {s : Daemon} : Change may s [] { s with
      amac := Bytes.memcpy s.amac s.ap.bssid 6
      KCK := (ptkOf s).slice 0 16, KEK := (ptkOf s).slice 16 16, PTK := (ptkOf s).slice 32 16 }
  | nonce {s : Daemon} (rand : Bytes) (h : 32 ≤ rand.length) : Change may s [] { s with snonce := rand.take 32 }
  | packet1 {s : Daemon} (ek : Bytes) (h : EapolKey.size ≤ ek.length) : Change may s [] { s with
      version := EapolKey.version ek, anonce := EapolKey.nonce ek, replay := EapolKey.replay ek }
  | keyData {s : Daemon} (ek : Bytes) (idx : UInt8) (gtk : Bytes) (h : EapolKey.size ≤ ek.length)
      (hreplay : Bytes.memcmp s.replay (EapolKey.replay ek) < 0) (hmic : checkMic EapolKey.micOffset s.KCK ek = 0)
      (hfetch : fetchGtk s.ap.tkipgroup s.GTK ((unwrapKey s.KEK (EapolKey.payload ek)).2.drop 8) = some (idx, gtk)) :
      Change may s [] { s with
        gtkindex := idx, GTK := gtk, RSC := (EapolKey.rsc ek).take 6, replay := EapolKey.replay ek }

/-- A handler that is a path of changes wherever it starts. -/
def Changing (may : Act → Prop) {α : Type} (m : Handler α) : Prop := ∀ s, Treads (Change may) m s

variable {may : Act → Prop}

section Rules
variable {α β : Type} {m n : Handler α} {f : α → Handler β} {s : Daemon}

theorem changing_pure (a : α) : Changing may (pure a) := fun _ => treads_pure a

theorem changing_exit : Changing may (exit : Handler α) := fun _ => treads_exit

theorem changing_bind (hm : Changing may m) (hf : ∀ a, Changing may (f a)) : Changing may (m >>= f) :=
  fun s => treads_bind (hm s) hf

theorem changing_read {g : Daemon → Handler α} (h : ∀ s, Changing may (g s)) : Changing may (read >>= g) :=
  fun s => treads_read_bind (h s s)

theorem changing_update {g : Daemon → Daemon} (h : ∀ s, Change may s [] (g s)) : Changing may (update g) :=
  fun s => treads_update (h s)

theorem changing_emit {a : Act} (h : a.bare = true) : Changing may (emit a) := fun _ => treads_emit (.plain a h)

theorem changing_ite {c : Prop} [Decidable c] (hm : Changing may m) (hn : Changing may n) : Changing may (if c then m else n) :=
  fun s => treads_ite (fun _ => hm s) fun _ => hn s

theorem changing_when {c : Prop} [Decidable c] {m : Handler Unit} (hm : Changing may m) : Changing may (when c m) :=
  changing_ite hm (changing_pure ())

theorem changing_answer (get : Env → List α) (set : Env → List α → Env) (dflt : α) : Changing may (answer get set dflt) :=
  fun _ => treads_read_bind (treads_update_bind (.env _) (treads_pure _))

/-- What is answered, does not matter; only the answers left change. -/
theorem treads_answer_bind {get : Env → List α} {set : Env → List α → Env} {dflt : α} {g : α → Handler β}
    (h : ∀ a env, Treads (Change may) (g a) { s with env := env }) : Treads (Change may) (answer get set dflt >>= g) s := by
  have hanswer : (answer get set dflt) s = .ok ((get s.env).headD dflt) { s with env := set s.env (get s.env).tail } [] := rfl
  unfold Treads wp
  rw [bind_of_silent hanswer]
  obtain hpath := h ((get s.env).headD dflt) (set s.env (get s.env).tail)
  exact wp_mono hpath (fun _ _ _ h => .step (.env _) h) fun _ _ h => .step (.env _) h

theorem changing_steer {g : Daemon → Daemon} (h : ∀ s : Daemon, s.SameKeys (g s).toControl ∧
    g s = { s with toControl := (g s).toControl, pollts := (g s).pollts }) : Changing may (update g) :=
  changing_update fun s => by
    rw [(h s).2]
    exact .steer _ _ (h s).1

theorem changing_remark {g : Ap → Ap} (h : ∀ ap : Ap, ap.Same (g ap)) : Changing may (update fun s => { s with ap := g s.ap }) :=
  changing_update fun s => .remark _ (h s.ap)

end Rules

section Commands
variable {s : Daemon} {c : NlCommand}

theorem treads_nlSend (h : c.Of s) : Treads (Change may) (nlSend c) s :=
  Path.single (Change.command c (0 < s.env.nlSend.headD 1) _ h)

theorem changing_ends {α : Type} : Changing may (do
    emit .exit
    Prog.exit : Handler α) :=
  changing_bind (changing_emit rfl) fun _ => changing_exit

theorem changing_quit {α : Type} (text : String) : Changing may (quit text : Handler α) := by
  refine changing_bind (changing_emit rfl) fun _ => ?_
  refine changing_read fun _ => changing_ite changing_ends ?_
  intro s
  have hsends := @Change.disconnects may s (0 < s.env.nlSend.headD 1) { s.env with nlSend := s.env.nlSend.tail }
  have hpath := Path.step hsends (.single (.plain .exit rfl))
  exact hpath

theorem changing_fail {α : Type} (text : String) : Changing may (fail text : Handler α) :=
  changing_bind (changing_emit rfl) fun _ => changing_ends

theorem treads_sendCheck (h : c.Of s) : Treads (Change may) (sendCheck c) s :=
  treads_bind (treads_nlSend h) fun _ t => treads_ite (fun _ => treads_pure ()) fun _ => changing_quit _ t

theorem treads_sendSetAuthstate (h : c.Of s) (as : AuthState) : Treads (Change may) (sendSetAuthstate c as) s :=
  treads_bind (treads_sendCheck h) fun _ => changing_steer fun _ => ⟨⟨rfl, rfl, rfl⟩, rfl⟩

theorem changing_resetScanState : Changing may resetScanState :=
  changing_steer fun _ => ⟨⟨rfl, rfl, rfl⟩, rfl⟩

theorem changing_triggerScan (freq : Int) : Changing may (triggerScan freq) := by
  refine changing_bind (changing_when (changing_steer fun _ => ⟨⟨rfl, rfl, rfl⟩, rfl⟩)) fun _ => ?_
  have hof (s : Daemon) : (NlCommand.triggerScan (if 0 < freq then some freq else none)).Of s := by
    by_cases h : 0 < freq
    · rw [if_pos h]
      exact decide_eq_true h
    · rw [if_neg h]
      rfl
  refine changing_bind (fun s => treads_nlSend (hof s)) fun ret => ?_
  apply changing_ite
  · exact changing_bind (changing_steer fun _ => ⟨⟨rfl, rfl, rfl⟩, rfl⟩) fun _ => changing_pure _
  · exact changing_bind (changing_steer fun _ => ⟨⟨rfl, rfl, rfl⟩, rfl⟩) fun _ => changing_pure _

theorem changing_startScan (freq : Int) : Changing may (startScan freq) := by
  have hadd : Changing may (update fun s => { s with scanreq := s.scanreq.add freq }) :=
    changing_steer fun _ => ⟨⟨rfl, rfl, rfl⟩, rfl⟩
  refine changing_read fun s => ?_
  apply changing_ite
  · exact changing_bind hadd fun _ => changing_triggerScan freq
  · exact changing_ite (changing_pure _) (changing_bind hadd fun _ => changing_pure _)

theorem changing_triggerScanDump : Changing may triggerScanDump := by
  refine changing_bind (fun _ => treads_nlSend (c := .getScan) trivial) fun ret => ?_
  apply changing_ite
  · exact changing_bind (changing_emit rfl) fun _ => changing_resetScanState
  · exact changing_steer fun _ => ⟨⟨rfl, rfl, rfl⟩, rfl⟩

theorem changing_reopenRawsock : Changing may reopenRawsock := by
  refine changing_read fun _ => changing_ite (changing_pure _) ?_
  refine changing_bind (changing_answer _ _ _) fun ok => changing_ite ?_ (changing_quit _)
  exact changing_update fun s => .sockets true s.rfkill s.rfkidx

theorem changing_startConnection : Changing may startConnection := by
  refine changing_read fun s => ?_
  refine changing_ite (changing_pure _) (changing_ite (changing_pure _) ?_)
  refine changing_bind changing_reopenRawsock fun _ => ?_
  refine changing_bind (fun s => treads_read_bind ?_) fun _ => changing_pure _
  apply treads_sendSetAuthstate
  exact ⟨rfl, rfl, rfl⟩

theorem changing_triggerAssociation : Changing may triggerAssociation := by
  intro s
  refine treads_read_bind ?_
  apply treads_sendSetAuthstate
  exact ⟨rfl, rfl, rfl, rfl⟩

theorem changing_startDisconnect : Changing may startDisconnect := by
  refine changing_read fun s => ?_
  split
  · exact changing_pure _
  · exact changing_pure _
  · exact changing_pure _
  · exact changing_bind (fun _ => treads_sendSetAuthstate (c := .disconnect) trivial _) fun _ => changing_pure _

theorem changing_uploadPtk : Changing may uploadPtk := by
  intro s
  refine treads_read_bind (treads_emit_bind (.plain _ rfl) ?_)
  apply treads_sendCheck
  exact ⟨rfl, rfl⟩

theorem changing_uploadGtk : Changing may uploadGtk := by
  intro s
  refine treads_read_bind (treads_emit_bind (.plain _ rfl) ?_)
  apply treads_sendCheck
  exact ⟨rfl, rfl, rfl, rfl⟩

end Commands

theorem changing_clrTimer : Changing may clrTimer := changing_steer fun _ => ⟨⟨rfl, rfl, rfl⟩, rfl⟩

theorem changing_setTimer (seconds : ℕ) : Changing may (setTimer seconds) :=
  changing_steer fun _ => ⟨⟨rfl, rfl, rfl⟩, rfl⟩

theorem changing_killDhcp : Changing may killDhcp := fun _ =>
  treads_read_bind (treads_ite (fun _ => treads_pure ()) fun h => treads_emit (.killDhcp (not_le.mp h)))

theorem changing_triggerDhcp : Changing may triggerDhcp := by
  refine changing_bind changing_killDhcp fun _ => ?_
  refine changing_bind (changing_answer _ _ _) fun pid s => ?_
  refine treads_ite (fun _ => changing_fail _ s) fun h => ?_
  exact Path.single (.startDhcp pid (not_lt.mp h))

theorem changing_gotPskFor (ssid : Bytes) : Changing may (gotPskFor ssid) := by
  refine changing_bind (changing_answer _ _ _) fun io => changing_read fun s => ?_
  exact changing_bind (changing_update fun t => .store t.PSK _ id) fun _ => changing_pure _

theorem changing_loadPsk (ssid : Bytes) : Changing may (loadPsk ssid) := by
  refine changing_bind (changing_answer _ _ _) fun io s => treads_read_bind ?_
  have hlen := Config.length_loadPsk io ssid s.PSK s.config
  exact treads_update_bind (.store _ _ hlen.trans) (treads_pure _)

theorem changing_savePsk (ssid : Bytes) : Changing may (savePsk ssid) := by
  refine changing_bind (changing_answer _ _ _) fun io => ?_
  refine changing_bind (changing_answer _ _ _) fun rio => changing_read fun s => ?_
  split
  · exact changing_update fun t => .store t.PSK _ id
  · exact changing_ends

theorem treads_sendReport {r : Report} {s : Daemon} (h : r.Of s) : Treads (Change may) (sendReport r) s :=
  treads_read_bind (treads_emit (.reports r _ h))

theorem changing_reportDisconnect : Changing may reportDisconnect := fun _ =>
  treads_read_bind (treads_sendReport ⟨rfl, rfl, rfl⟩)

theorem changing_reportConnected : Changing may reportConnected := fun _ =>
  treads_read_bind (treads_sendReport ⟨rfl, rfl, rfl⟩)

theorem ScanTable.get_modifyFlags (t : ScanTable) (i j : ℕ) (f : ScanFlags → ScanFlags) :
    ∃ fl, (t.modify i fun sc => { sc with flags := f sc.flags }).get j = { t.get j with flags := fl } := by
  rw [get_modify]
  split
  · exact ⟨_, rfl⟩
  · exact ⟨_, rfl⟩

theorem changing_modifyFlags (i : ℕ) (f : ScanFlags → ScanFlags) : Changing may (modifyFlags i f) :=
  changing_update fun s => .flags _ rfl fun j => s.table.get_modifyFlags i j f

theorem changing_flagAll {g : Daemon → Scan → Scan} (h : ∀ s sc, ∃ f, g s sc = { sc with flags := f }) :
    Changing may (update fun s => { s with table := s.table.map (g s) }) :=
  changing_update fun s => .flags _ rfl fun j => by
    rw [ScanTable.get_map]
    split
    · exact h s _
    · exact ⟨_, rfl⟩

theorem changing_clearApBssid : Changing may clearApBssid := changing_update fun _ => .clearBssid

theorem changing_clearApSsid : Changing may clearApSsid := changing_update fun _ => .clearSsid

theorem changing_resetStation : Changing may resetStation :=
  changing_bind changing_clearApBssid fun _ => changing_clearApSsid

/-- The slot is read before it is flagged, and what is read of it stays. -/
theorem changing_setCurrentAp (i : ℕ) : Changing may (setCurrentAp i) := by
  intro s
  obtain ⟨f, hslot⟩ := s.table.get_modifyFlags i i fun f => { f with tried := true }
  refine treads_read_bind (treads_update_bind (.flags _ rfl fun j => s.table.get_modifyFlags i j fun f => { f with tried := true }) ?_)
  refine treads_update_bind ?_ (treads_ite (fun _ => treads_pure _) fun _ => ?_)
  · have htune := @Change.tune may { s with table := s.table.modify i fun sc =>
      { sc with flags := { sc.flags with tried := true } } } i
    rw [hslot] at htune
    exact htune
  refine treads_update_bind (.elements _) (treads_ite (fun _ => treads_pure _) fun _ => ?_)
  refine treads_update_bind ?_ (treads_read_bind ?_)
  · have hname := @Change.name may { s with
      table := s.table.modify i fun sc => { sc with flags := { sc.flags with tried := true } }
      ap := { s.ap with
        success := false, freq := (s.table.get i).freq, type := (s.table.get i).type, bssid := (s.table.get i).bssid
        ies := if (s.table.get i).type.rsnGTkip then iesCcmpTkip else iesCcmpCcmp
        tkipgroup := (s.table.get i).type.rsnGTkip } } i
    rw [hslot] at hname
    exact hname
  · exact treads_bind (changing_loadPsk _ _) fun ret t => treads_ite (fun _ => treads_pure _) fun _ => treads_pure _

theorem changing_resetScanCounters : Changing may resetScanCounters :=
  changing_flagAll fun s sc => by
    split
    · exact ⟨_, rfl⟩
    · exact ⟨_, rfl⟩

theorem changing_setFixed (ssid : Bytes) : Changing may (setFixed ssid) := by
  intro s
  refine treads_ite (fun _ => treads_pure _) fun h => ?_
  refine treads_update_bind (.fix ssid (not_lt.mp h)) ?_
  refine changing_bind changing_clearApBssid (fun _ => ?_) _
  exact changing_bind changing_resetScanCounters fun _ => changing_pure _

theorem changing_setFixedGiven (ssid : Bytes) {psk : Bytes} (hpsk : psk.length = 32) :
    Changing may (setFixedGiven ssid psk) := by
  refine changing_bind (changing_setFixed ssid) fun ret => changing_ite (changing_pure _) ?_
  refine changing_bind (fun s => ?_) fun _ => changing_pure _
  have hmark := @Change.remark may { s with PSK := psk.take 32 } { s.ap with unsaved := true } ⟨.inl rfl, rfl, rfl, rfl, rfl, rfl⟩
  exact Path.step (.store (psk.take 32) s.config fun _ => List.length_take_of_le hpsk.ge) (.single hmark)

theorem changing_setFixedSaved (ssid : Bytes) : Changing may (setFixedSaved ssid) := by
  refine changing_bind (changing_loadPsk ssid) fun ret => changing_ite (changing_pure _) ?_
  refine changing_bind (changing_setFixed ssid) fun ret => changing_ite (changing_pure _) ?_
  refine changing_bind ?_ fun _ => changing_pure _
  exact changing_remark (g := fun ap => { ap with unsaved := false }) fun _ => ⟨.inl rfl, rfl, rfl, rfl, rfl, rfl⟩

theorem changing_connectLoop (n : ℕ) : Changing may (connectLoop n) := by
  induction n with
  | zero => exact changing_pure _
  | succ n ih =>
      refine changing_read fun s => ?_
      split
      · exact changing_pure _
      · next i _ =>
          have hnext : Changing may (do
              modifyFlags i fun f => { f with good := false }
              connectLoop n : Handler Bool) := changing_bind (changing_modifyFlags _ _) fun _ => ih
          refine changing_bind (changing_setCurrentAp i) fun ret => changing_ite hnext ?_
          exact changing_bind changing_startConnection fun ret => changing_ite hnext (changing_pure _)

theorem changing_snapToNeutral : Changing may snapToNeutral := by
  refine changing_bind changing_clearApBssid fun _ => changing_bind changing_clearApSsid fun _ => ?_
  exact changing_steer fun _ => ⟨⟨rfl, rfl, rfl⟩, rfl⟩

theorem changing_reassess : Changing may reassessWifiSituation := by
  refine changing_read fun s => ?_
  refine changing_ite (changing_pure _) (changing_ite (changing_pure _) (changing_ite (changing_pure _) ?_))
  refine changing_bind (changing_connectLoop _) fun started => changing_ite (changing_pure _) ?_
  refine changing_bind (fun _ => treads_sendReport (r := .noConnect) trivial) fun _ => ?_
  exact changing_read fun s => changing_ite changing_snapToNeutral (changing_setTimer _)

theorem changing_abortConnection : Changing may abortConnection :=
  changing_bind changing_startDisconnect fun _ => changing_ite (changing_pure _) changing_reassess

theorem changing_flagSlot (sc : Option ℕ) (f : ScanFlags → ScanFlags) : Changing may (flagSlot sc f) := by
  cases sc with
  | none => exact changing_pure _
  | some i => exact changing_modifyFlags i f

theorem changing_handleConnect : Changing may handleConnect := by
  refine changing_read fun s => changing_bind (changing_emit rfl) fun _ => ?_
  refine changing_bind ?_ fun _ => ?_
  · exact changing_remark (g := fun ap => { ap with success := true, fixed := true }) fun _ => ⟨.inl rfl, rfl, rfl, rfl, rfl, rfl⟩
  refine changing_bind (changing_setTimer _) fun _ => ?_
  refine changing_bind (changing_steer fun _ => ⟨⟨rfl, rfl, rfl⟩, rfl⟩) fun _ => changing_read fun s => ?_
  refine changing_bind (changing_flagSlot _ _) fun _ => ?_
  refine changing_bind ?_ fun _ => changing_bind ?_ fun _ => ?_
  · refine changing_read fun t => changing_ite ?_ (changing_pure _)
    exact changing_bind (changing_savePsk _) fun _ => changing_flagSlot _ _
  · exact changing_remark (g := fun ap => { ap with unsaved := false }) fun _ => ⟨.inl rfl, rfl, rfl, rfl, rfl, rfl⟩
  · exact changing_bind changing_triggerDhcp fun _ => changing_reportConnected

theorem changing_rescanCurrentAp : Changing may rescanCurrentAp := by
  refine changing_bind (fun s => ?_) fun _ => changing_read fun s => changing_bind (changing_startScan _) fun _ => changing_pure _
  have hsteer := @Change.steer may { s with ap := { s.ap with success := false } } { s.toControl with opermode := .rescan }
    s.pollts ⟨rfl, rfl, rfl⟩
  exact Path.step (.remark { s.ap with success := false } ⟨.inl rfl, rfl, rfl, rfl, rfl, rfl⟩) (.single hsteer)

theorem changing_reconnect : Changing may reconnectToCurrentAp := by
  refine changing_bind (changing_steer fun _ => ⟨⟨rfl, rfl, rfl⟩, rfl⟩) fun _ => changing_read fun s => ?_
  split
  · exact changing_bind changing_startConnection fun _ => changing_pure _
  · exact changing_reassess

theorem changing_trySomeOtherAp : Changing may trySomeOtherAp := by
  refine changing_bind changing_clearApBssid fun _ => changing_read fun s => ?_
  exact changing_bind (changing_when changing_clearApSsid) fun _ => changing_reassess

theorem changing_checkNewScanResults : Changing may checkNewScanResults := by
  refine changing_read fun s => ?_
  induction List.range s.table.nscans with
  | nil => exact changing_pure _
  | cons i is ih =>
      refine changing_bind ?_ fun _ => ih
      refine changing_read fun s => changing_ite (changing_pure _) (changing_ite (changing_pure _) ?_)
      refine changing_bind (changing_modifyFlags _ _) fun _ => changing_ite ?_ (changing_pure _)
      refine changing_bind (changing_modifyFlags _ _) fun _ => ?_
      exact changing_bind (changing_gotPskFor _) fun _ => changing_ite (changing_modifyFlags _ _) (changing_pure _)

theorem changing_handleDisconnect : Changing may handleDisconnect := by
  refine changing_bind changing_clrTimer fun _ => changing_bind changing_killDhcp fun _ => ?_
  refine changing_bind (changing_steer fun _ => ⟨⟨rfl, rfl, rfl⟩, rfl⟩) fun _ => changing_read fun s => ?_
  refine changing_ite (changing_pure _) ?_
  refine changing_bind changing_reportDisconnect fun _ => ?_
  refine changing_bind (changing_steer fun _ => ⟨⟨rfl, rfl, rfl⟩, rfl⟩) fun _ => changing_read fun s => ?_
  apply changing_ite
  · exact changing_ite changing_rescanCurrentAp changing_trySomeOtherAp
  · refine changing_bind changing_clearApBssid fun _ => changing_bind changing_clearApSsid fun _ => ?_
    exact fun _ => treads_sendReport (r := .noConnect) trivial

theorem changing_handleRfrestored : Changing may handleRfrestored := by
  refine changing_read fun s => changing_ite (changing_pure _) ?_
  refine changing_bind (changing_steer fun _ => ⟨⟨rfl, rfl, rfl⟩, rfl⟩) fun _ => changing_read fun s => ?_
  exact changing_ite changing_rescanCurrentAp changing_reassess

theorem changing_routineBgScan : Changing may routineBgScan :=
  changing_bind (changing_startScan _) fun _ => changing_setTimer _

theorem changing_routineFgScan : Changing may routineFgScan := by
  refine changing_read fun s => ?_
  apply changing_ite
  · exact changing_bind (changing_setTimer _) fun _ => changing_bind (changing_startScan _) fun _ => changing_pure _
  apply changing_ite
  · refine changing_bind (changing_setTimer _) fun _ => changing_bind ?_ fun _ => changing_read fun s => ?_
    · exact changing_remark (g := fun ap => { ap with rescans := ap.rescans + 1 }) fun _ => ⟨.inl rfl, rfl, rfl, rfl, rfl, rfl⟩
    refine changing_bind (changing_startScan _) fun _ => changing_when ?_
    exact changing_remark (g := fun ap => { ap with freq := 0, rescans := 0 }) fun _ => ⟨.inr rfl, rfl, rfl, rfl, rfl, rfl⟩
  · exact changing_bind (changing_setTimer _) fun _ => changing_bind (changing_startScan _) fun _ => changing_pure _

theorem changing_xabort (why : String) : Changing may (xabort why) :=
  changing_bind (changing_emit rfl) fun _ => changing_abortConnection

theorem changing_ignore (why : String) : Changing may (ignore why) := changing_emit rfl

theorem changing_resetEapolState : Changing may resetEapolState := by
  refine changing_bind (changing_update fun _ => .wipe) fun _ => ?_
  exact changing_bind (changing_update fun _ => .reset) fun _ => changing_emit rfl

theorem changing_primeEapolState : Changing may primeEapolState :=
  changing_bind (changing_steer fun _ => ⟨⟨rfl, rfl, rfl⟩, rfl⟩) fun _ => changing_emit rfl

theorem treads_sendPacket {buf : Bytes} {len : ℕ} {s : Daemon} (h : buf ∈ [packet2 s, packet4 s, group2 s]) :
    Treads (Change may) (sendPacket buf len) s := by
  refine treads_read_bind (treads_answer_bind fun wr env => ?_)
  refine treads_emit_bind (.packet (s := { s with env := env }) buf _ h) (treads_ite (fun _ => treads_pure _) fun _ => ?_)
  refine treads_emit_bind (.plain _ rfl) ?_
  exact treads_bind (changing_abortConnection _) fun _ => changing_pure _

theorem changing_sendPacket2 : Changing may sendPacket2 := by
  refine fun s => treads_read_bind (treads_bind (treads_sendPacket ?_) fun sent => changing_ite ?_ (changing_pure _))
  · exact List.mem_cons_self
  · exact changing_steer fun _ => ⟨⟨rfl, rfl, rfl⟩, rfl⟩

theorem changing_sendPacket4 : Changing may sendPacket4 := by
  refine fun s => treads_read_bind (treads_bind (treads_sendPacket ?_) fun sent => changing_ite ?_ (changing_pure _))
  · exact List.mem_cons_of_mem _ List.mem_cons_self
  · refine changing_bind (changing_steer fun _ => ⟨⟨rfl, rfl, rfl⟩, rfl⟩) fun _ => ?_
    refine changing_bind changing_uploadPtk fun _ => changing_bind changing_uploadGtk fun _ => ?_
    exact changing_bind (changing_update fun _ => .wipe) fun _ => changing_handleConnect

theorem changing_sendGroup2 : Changing may sendGroup2 := by
  refine fun s => treads_read_bind (treads_bind (treads_sendPacket ?_) fun sent => changing_ite changing_uploadGtk (changing_pure _))
  exact List.mem_cons_of_mem _ (List.mem_cons_of_mem _ List.mem_cons_self)

theorem changing_allowEapolSends : Changing may allowEapolSends :=
  changing_read fun _ => changing_ite (changing_steer fun _ => ⟨⟨rfl, rfl, rfl⟩, rfl⟩) changing_sendPacket2

theorem changing_fillRand : Changing may fillRand := by
  refine changing_bind (changing_answer _ _ _) fun rand => ?_
  split
  · exact changing_quit _
  · next rand =>
      intro s
      exact treads_ite (fun _ => changing_quit _ s) fun h => treads_update (.nonce rand (not_lt.mp h))

theorem changing_pmkToPtk : Changing may pmkToPtk := fun _ =>
  treads_read_bind (treads_update_bind .derive (changing_emit rfl _))

theorem changing_recvPacket1 {ek : Bytes} (h : EapolKey.size ≤ ek.length) : Changing may (recvPacket1 ek) := by
  refine changing_ite (changing_xabort _) (changing_ite (changing_ignore _) ?_)
  refine changing_bind (changing_update fun _ => .packet1 ek h) fun _ => changing_bind (changing_emit rfl) fun _ => ?_
  refine changing_bind changing_fillRand fun _ => changing_bind changing_pmkToPtk fun _ => ?_
  exact changing_read fun _ => changing_ite changing_sendPacket2 (changing_steer fun _ => ⟨⟨rfl, rfl, rfl⟩, rfl⟩)

theorem changing_recvPacket3 {ek : Bytes} (h : EapolKey.size ≤ ek.length) : Changing may (recvPacket3 ek) := by
  intro s
  refine treads_read_bind ?_
  refine treads_ite (fun _ => changing_xabort _ s) fun _ => treads_ite (fun _ => changing_xabort _ s) fun _ => ?_
  refine treads_ite (fun _ => changing_xabort _ s) fun _ => treads_ite (fun _ => changing_xabort _ s) fun hreplay => ?_
  refine treads_ite (fun _ => changing_xabort _ s) fun hmic => treads_ite (fun _ => changing_xabort _ s) fun _ => ?_
  split
  · exact changing_xabort _ s
  · next idx gtk hfetch =>
      refine treads_update_bind (.keyData ek idx gtk h (not_le.mp hreplay) (not_not.mp hmic) hfetch) ?_
      exact treads_emit_bind (.plain _ rfl) (changing_sendPacket4 _)

theorem changing_recvGroup1 {ek : Bytes} (h : EapolKey.size ≤ ek.length) : Changing may (recvGroup1 ek) := by
  intro s
  refine treads_read_bind ?_
  refine treads_ite (fun _ => changing_ignore _ s) fun _ => treads_ite (fun _ => changing_ignore _ s) fun _ => ?_
  refine treads_ite (fun _ => changing_ignore _ s) fun hreplay => treads_ite (fun _ => changing_ignore _ s) fun hmic => ?_
  refine treads_ite (fun _ => changing_xabort _ s) fun _ => ?_
  split
  · exact changing_xabort _ s
  · next idx gtk hfetch =>
      refine treads_update_bind (.keyData ek idx gtk h (not_le.mp hreplay) (not_not.mp hmic) hfetch) ?_
      exact treads_emit_bind (.plain _ rfl) (changing_sendGroup2 _)

theorem changing_handleRawsock (sender data : Bytes) : Changing may (handleRawsock sender data) := by
  intro s
  refine treads_read_bind ?_
  refine treads_ite (fun _ => changing_emit rfl s) fun _ => treads_ite (fun _ => changing_ignore _ s) fun h => ?_
  refine treads_ite (fun _ => changing_ignore _ s) fun _ => treads_ite (fun _ => changing_ignore _ s) fun _ => ?_
  refine treads_ite (fun _ => changing_ignore _ s) fun _ => treads_read_bind ?_
  split
  · exact changing_recvPacket1 (not_lt.mp h) s
  · exact changing_recvPacket3 (not_lt.mp h) s
  · exact changing_recvGroup1 (not_lt.mp h) s
  · exact changing_ignore _ s
  · exact changing_ignore _ s

namespace Netlink

theorem changing_parseScanResult (msg : Gen) : Changing may (parseScanResult msg) := by
  intro s
  refine treads_read_bind ?_
  split
  · exact treads_pure _
  next bss _ =>
  split
  · exact treads_pure _
  next bssid hbssid =>
  split
  · exact treads_pure _
  next i t hgrab =>
  have hlen := Option.mem_filter_iff.mp hbssid
  exact treads_update (.result bss bssid i t (of_decide_eq_true hlen.2) hgrab)

theorem changing_snapToDisabled (why : String) : Changing may (snapToDisabled why) := by
  refine changing_bind (changing_steer fun _ => ⟨⟨rfl, rfl, rfl⟩, rfl⟩) fun _ => changing_bind (changing_emit rfl) fun _ => ?_
  refine changing_bind (changing_emit rfl) fun _ => ?_
  exact changing_bind changing_resetEapolState fun _ => changing_handleDisconnect

theorem changing_cmdTriggerScan (msg : Gen) : Changing may (cmdTriggerScan msg) := by
  refine changing_read fun s => changing_ite (changing_pure _) (changing_bind ?_ fun _ => ?_)
  · unfold markStaleScanSlots
    split
    · exact changing_pure _
    · exact changing_flagAll fun s sc => by
        split
        · exact ⟨_, rfl⟩
        · exact ⟨_, rfl⟩
  · exact fun _ => treads_sendReport (r := .scanning) trivial

theorem changing_cmdScanResults (msg : Gen) : Changing may (cmdScanResults msg) :=
  changing_read fun _ => changing_ite (changing_parseScanResult msg) (changing_ite changing_triggerScanDump (changing_pure _))

theorem changing_cmdScanAborted : Changing may cmdScanAborted := by
  refine changing_read fun s => changing_ite (changing_pure _) (changing_bind (changing_emit rfl) fun _ => ?_)
  exact changing_bind (fun _ => treads_sendReport (r := .scanFail) trivial) fun _ => changing_resetScanState

theorem changing_cmdAuthenticate : Changing may cmdAuthenticate := by
  refine changing_read fun s => changing_ite (changing_pure _) (changing_ite (changing_snapToDisabled _) ?_)
  exact changing_bind changing_primeEapolState fun _ => changing_triggerAssociation

theorem changing_cmdAssociate : Changing may cmdAssociate := by
  refine changing_read fun s => changing_ite (changing_pure _) (changing_ite (changing_snapToDisabled _) ?_)
  exact changing_bind changing_allowEapolSends fun _ => changing_steer fun _ => ⟨⟨rfl, rfl, rfl⟩, rfl⟩

theorem changing_cmdConnect : Changing may Netlink.cmdConnect := by
  refine changing_read fun s => changing_ite (changing_pure _) ?_
  refine changing_bind (changing_when (changing_snapToDisabled _)) fun _ => ?_
  exact changing_steer fun _ => ⟨⟨rfl, rfl, rfl⟩, rfl⟩

theorem changing_cmdDisconnect : Changing may cmdDisconnect := by
  refine changing_read fun s => changing_ite (changing_pure _) (changing_bind changing_resetEapolState fun _ => ?_)
  refine changing_bind (changing_steer fun _ => ⟨⟨rfl, rfl, rfl⟩, rfl⟩) fun _ => changing_handleDisconnect

theorem changing_genlDone : Changing may genlDone := by
  refine changing_read fun s => changing_ite (changing_pure _) (changing_bind changing_resetScanState fun _ => ?_)
  refine changing_bind (changing_update fun _ => .dropStale) fun _ => ?_
  refine changing_bind changing_checkNewScanResults fun _ => ?_
  refine changing_bind (fun _ => treads_sendReport (r := .scanDone) trivial) fun _ => ?_
  exact changing_ite changing_reconnect (changing_ite changing_reassess (changing_pure _))

theorem changing_genlError (seq : ℕ) (err : Int) : Changing may (genlError seq err) := by
  refine changing_read fun s => changing_ite ?_ (changing_ite ?_ (changing_ite ?_ (changing_pure _)))
  · refine changing_bind changing_resetScanState fun _ => changing_read fun s => ?_
    refine changing_bind (changing_steer fun _ => ⟨⟨rfl, rfl, rfl⟩, rfl⟩) fun _ => ?_
    refine changing_bind (changing_when (changing_setTimer _)) fun _ => ?_
    exact fun _ => treads_sendReport (r := .netDown) trivial
  · refine changing_ite (changing_pure _) (changing_bind changing_resetScanState fun _ => ?_)
    exact fun _ => treads_sendReport (r := .scanFail) trivial
  · refine changing_read fun s => ?_
    apply changing_ite
    · exact changing_bind (changing_steer fun _ => ⟨⟨rfl, rfl, rfl⟩, rfl⟩) fun _ => changing_reassess
    refine changing_ite ?_ changing_abortConnection
    refine changing_bind (changing_steer fun _ => ⟨⟨rfl, rfl, rfl⟩, rfl⟩) fun _ => ?_
    exact changing_bind (changing_startScan _) fun _ => changing_pure _

theorem changing_dispatch (msg : Gen) : Changing may (dispatch msg) := by
  unfold dispatch
  cases msg.cmd with
  | triggerScan => exact changing_cmdTriggerScan msg
  | newScanResults => exact changing_cmdScanResults msg
  | scanAborted => exact changing_cmdScanAborted
  | authenticate => exact changing_cmdAuthenticate
  | associate => exact changing_cmdAssociate
  | connect => exact changing_cmdConnect
  | disconnect => exact changing_cmdDisconnect
  | other => exact changing_pure _

theorem changing_handleMsg (msg : Msg) : Changing may (handleMsg msg) := by
  refine changing_read fun s => ?_
  cases msg with
  | done => exact changing_genlDone
  | err seq err => exact changing_genlError seq err
  | gen msg => exact changing_ite (changing_dispatch msg) (changing_pure _)
  | other => exact changing_pure _

end Netlink

namespace Cntrl

theorem changing_setRep (cn : ℕ) (rep : Bool) : Changing may (setRep cn rep) := changing_update fun s => .conns _ s.nconns

def Cmd.replies (cn : ℕ) : Cmd → Act → Prop
  | .status, a => a = .replyStatus cn
  | .device, a => a = .replyDevice cn
  | _, a => ∃ err, a = .reply cn err

theorem changing_reply {cn : ℕ} {err : Int} (h : may (.reply cn err)) : Changing may (reply cn err) :=
  changing_bind (fun _ => treads_emit (.replies _ rfl h)) fun _ => changing_pure _

theorem changing_configureStation (msg : Msg) : Changing may (configureStation msg) := by
  refine changing_bind changing_resetStation fun _ => ?_
  split
  · exact changing_pure _
  split
  · exact changing_setFixedSaved _
  · refine fun s => treads_ite (fun hpsk => changing_setFixedGiven _ hpsk s) fun _ => ?_
    exact changing_bind (changing_emit rfl) (fun _ => changing_pure _) s

theorem changing_cmdConnect {cn : ℕ} (h : may (.reply cn 0)) (msg : Msg) : Changing may (cmdConnect cn msg) := by
  refine changing_read fun s => changing_ite (changing_pure _) (changing_ite (changing_pure _) ?_)
  refine changing_bind (changing_configureStation msg) fun ret => changing_ite (changing_pure _) ?_
  refine changing_bind (changing_steer fun _ => ⟨⟨rfl, rfl, rfl⟩, rfl⟩) fun _ => ?_
  refine changing_bind (changing_setRep cn true) fun _ => changing_bind (changing_reply h) fun ret => ?_
  exact changing_bind changing_clrTimer fun _ => changing_bind changing_reassess fun _ => changing_pure _

theorem changing_dropPsk (ssid : Bytes) : Changing may (dropPsk ssid) := by
  refine changing_bind (changing_answer _ _ _) fun io => changing_read fun s => ?_
  split
  · exact changing_bind (changing_update fun t => .store t.PSK _ id) fun _ => changing_pure _
  · exact changing_ends

theorem changing_cmdForget (msg : Msg) : Changing may (cmdForget msg) := by
  unfold cmdForget
  split
  · exact changing_pure _
  · refine changing_bind (changing_dropPsk _) fun ret => changing_ite (changing_pure _) ?_
    refine changing_bind (changing_flagAll fun s sc => ?_) fun _ => changing_pure _
    split
    · exact ⟨_, rfl⟩
    · exact ⟨_, rfl⟩

theorem changing_cmdScan (cn : ℕ) : Changing may (cmdScan cn) := by
  refine changing_bind (changing_startScan _) fun ret => changing_ite (changing_pure _) ?_
  exact changing_bind (changing_setRep cn true) fun _ => changing_pure _

theorem changing_cmdNeutral (cn : ℕ) : Changing may (cmdNeutral cn) := by
  refine changing_bind (changing_steer fun _ => ⟨⟨rfl, rfl, rfl⟩, rfl⟩) fun _ => ?_
  refine changing_bind changing_startDisconnect fun ret => changing_ite (changing_pure _) ?_
  exact changing_bind (changing_setRep cn true) fun _ => changing_bind changing_clrTimer fun _ => changing_pure _

theorem dispatchCmd_status (cn : ℕ) (ssid psk : Option Bytes) (s : Daemon) : dispatchCmd cn ⟨.status, ssid, psk⟩ s =
    .ok REPLIED { s with conns := s.conns.modify cn fun c => { c with rep := false } } [.replyStatus cn] :=
  rfl

theorem dispatchCmd_device (cn : ℕ) (ssid psk : Option Bytes) (s : Daemon) :
    dispatchCmd cn ⟨.device, ssid, psk⟩ s = .ok REPLIED s [.replyDevice cn] :=
  rfl

/-- A handler that has not replied yet leaves that to its caller. -/
theorem changing_dispatchCmd (cn : ℕ) (msg : Msg) : Changing (msg.cmd.replies cn) (dispatchCmd cn msg) := by
  have hleft {may : Act → Prop} {m : Handler Int} (hmay : ∀ err, may (.reply cn err)) (hm : Changing may m) :
      Changing may (do
        let ret ← m
        if 0 < ret then pure ret else reply cn ret) :=
    changing_bind hm fun ret => changing_ite (changing_pure _) (changing_reply (hmay ret))
  obtain ⟨cmd, ssid, psk⟩ := msg
  cases cmd with
  | status =>
      intro s
      unfold Treads
      rw [wp_of_ok (dispatchCmd_status cn ssid psk s)]
      have hsays : Change (Cmd.replies cn .status) s [.replyStatus cn] s := .replies _ rfl rfl
      exact .step hsays (.single (.conns _ s.nconns))
  | device =>
      intro s
      unfold Treads
      rw [wp_of_ok (dispatchCmd_device cn ssid psk s)]
      exact .single (.replies _ rfl rfl)
  | scan => exact hleft (fun err => ⟨err, rfl⟩) (changing_cmdScan cn)
  | neutral => exact hleft (fun err => ⟨err, rfl⟩) (changing_cmdNeutral cn)
  | connect => exact hleft (fun err => ⟨err, rfl⟩) (changing_cmdConnect ⟨0, rfl⟩ _)
  | forget => exact hleft (fun err => ⟨err, rfl⟩) (changing_cmdForget _)
  | other => exact hleft (fun err => ⟨err, rfl⟩) (changing_pure _)

theorem changing_acceptConn (cfd : Int) : Changing may (acceptConn cfd) := by
  refine changing_read fun s => ?_
  split
  · exact changing_update fun s => .conns _ _
  · exact changing_pure _

end Cntrl

theorem changing_switchRfkill (re : RfkillEvent) : Changing may (switchRfkill re) := by
  apply changing_ite
  · exact changing_bind (changing_steer fun _ => ⟨⟨rfl, rfl, rfl⟩, rfl⟩) fun _ => changing_clrTimer
  · refine changing_bind (changing_steer fun _ => ⟨⟨rfl, rfl, rfl⟩, rfl⟩) fun _ => ?_
    refine changing_bind ?_ fun _ => changing_handleRfrestored
    exact changing_bind (changing_answer _ _ _) fun ok => changing_ite (changing_pure _) (changing_quit _)

theorem changing_handleRfkill (re : RfkillEvent) : Changing may (handleRfkill re) := by
  refine changing_ite (changing_read fun s => ?_) (changing_pure _)
  apply changing_ite
  · refine changing_bind (changing_answer _ _ _) fun ok => changing_ite ?_ (changing_pure _)
    exact changing_bind (changing_update fun s => .sockets s.rawsock s.rfkill _) fun _ => changing_switchRfkill re
  · exact changing_ite (changing_pure _) (changing_switchRfkill re)

theorem changing_timerExpired : Changing may timerExpired := by
  refine changing_bind changing_clrTimer fun _ => changing_read fun s => ?_
  apply changing_ite
  · exact changing_ite (changing_steer fun _ => ⟨⟨rfl, rfl, rfl⟩, rfl⟩) (changing_steer fun _ => ⟨⟨rfl, rfl, rfl⟩, rfl⟩)
  · exact changing_ite changing_routineBgScan (changing_ite changing_abortConnection changing_routineFgScan)

theorem changing_xshutdown : Changing may xshutdown := by
  refine changing_read fun s => changing_ite (changing_quit _) (changing_ite ?_ ?_)
  · exact changing_steer fun _ => ⟨⟨rfl, rfl, rfl⟩, rfl⟩
  · exact changing_bind changing_startDisconnect fun ret => changing_steer fun _ => ⟨⟨rfl, rfl, rfl⟩, rfl⟩

theorem changing_reapDhcp (pid : Int) (exited signaled : Bool) : Changing may (reapDhcp pid exited signaled) := by
  intro s
  refine treads_read_bind (treads_ite (fun _ => treads_pure _) fun h => ?_)
  have hpid : 0 < s.dhcpid := by omega
  refine treads_update_bind (.reapDhcp hpid) ?_
  exact changing_bind (changing_when (changing_emit rfl)) (fun _ => changing_when (changing_emit rfl)) _

theorem changing_turn : Changing may EventKind.turn.handler := by
  refine changing_bind ?_ fun _ => changing_read fun s => changing_ite ?_ (changing_pure _)
  · exact changing_bind (changing_answer _ _ _) fun io => changing_update fun s => .store s.PSK _ id
  · refine changing_bind (fun s => treads_read_bind ?_) fun _ => changing_ends
    exact treads_ite (fun _ => treads_emit .saves) fun _ => treads_pure ()

/-- The replies that are possible when an event is handled. -/
def EventKind.replies : EventKind → Act → Prop
  | .connMsg cn msg => msg.cmd.replies cn
  | _ => fun _ => False

theorem EventKind.changing (k : EventKind) : Changing k.replies k.handler := by
  cases k with
  | connMsg cn msg => exact changing_bind (Cntrl.changing_dispatchCmd cn msg) fun _ => changing_pure _
  | connEnd cn fault => exact changing_ite (changing_emit rfl) (changing_pure _)
  | connHup cn => exact changing_update fun s => .conns _ s.nconns
  | netlink msg => exact Netlink.changing_handleMsg msg
  | netlinkLost => exact changing_quit _
  | frame sender data => exact changing_handleRawsock sender data
  | frameError => exact changing_emit rfl
  | rawsockLost => exact changing_update fun s => .sockets false s.rfkill s.rfkidx
  | accept cfd => exact Cntrl.changing_acceptConn cfd
  | controlLost => exact changing_quit _
  | rfkill re => exact changing_handleRfkill re
  | rfkillLost => exact changing_update fun s => .sockets s.rawsock false s.rfkidx
  | timer => exact changing_timerExpired
  | sigterm => exact changing_xshutdown
  | pollError => exact changing_quit _
  | reap pid exited signaled => exact changing_reapDhcp pid exited signaled
  | turn => exact changing_turn

theorem changing_boot (file : Option Bytes) : Changing may (boot file) := by
  refine changing_bind ?_ fun _ => ?_
  · refine changing_read fun s => changing_ite (changing_pure _) (changing_bind (changing_answer _ _ _) fun ok => ?_)
    exact changing_update fun s => .sockets s.rawsock ok (-1)
  refine changing_bind (changing_steer fun _ => ⟨⟨rfl, rfl, rfl⟩, rfl⟩) fun _ => ?_
  refine changing_bind ?_ fun _ => changing_routineFgScan
  cases file with
  | none => exact changing_pure _
  | some ssid =>
      refine changing_bind (changing_setFixedSaved _) fun ret => changing_ite (changing_pure _) fun s => ?_
      have hsteer := @Change.steer may { s with ap := { s.ap with fixed := true } }
        { s.toControl with opermode := .active } s.pollts ⟨rfl, rfl, rfl⟩
      exact Path.step (.remark { s.ap with fixed := true } ⟨.inl rfl, rfl, rfl, rfl, rfl, rfl⟩) (.single hsteer)

namespace System

theorem step_path (x : System) (e : Event) :
    Path (Change e.kind.replies) x.toDaemon (x.step e).2 (x.step e).1.toDaemon := by
  have hpath := e.kind.changing (x.before e)
  apply step_wp (P := fun y l => Path (Change e.kind.replies) x.toDaemon l y.toDaemon)
  apply wp_mono hpath
  · intro _ s l h turn
    exact .step (.env e.env) h
  · intro s l h turn
    exact .step (.env e.env) h

theorem boot_path (file : Option Bytes) (s : Daemon) :
    Path (Change fun _ => False) s (boot file s).out (started file s).toDaemon := by
  have hpath : Treads (Change fun _ => False) (boot file) s := changing_boot file s
  unfold Treads wp at hpath
  unfold started
  cases hm : boot file s with
  | ok a t out =>
      rw [hm] at hpath
      exact hpath
  | halt t out =>
      rw [hm] at hpath
      exact hpath

theorem Initial.path {x : System} (h : x.Initial) : ∃ smac ifindex psks env out, smac.length = 6 ∧
    Path (Change fun _ => False) (.fresh smac ifindex psks env) out x.toDaemon := by
  obtain ⟨smac, ifindex, psks, file, env, hsmac, rfl⟩ := h
  exact ⟨smac, ifindex, psks, env, _, hsmac, boot_path file _⟩

variable {I : Daemon → Prop}

theorem Initial.invariant (hI : ∀ may s k t, I s → Change may s k t → I t)
    (hfresh : ∀ smac ifindex psks env, smac.length = 6 → I (.fresh smac ifindex psks env)) {x : System}
    (h : x.Initial) : I x.toDaemon := by
  obtain ⟨smac, ifindex, psks, env, out, hsmac, hpath⟩ := h.path
  exact hpath.invariant (hI _) (hfresh _ _ _ _ hsmac)

theorem Reachable.invariant (hI : ∀ may s k t, I s → Change may s k t → I t)
    (hfresh : ∀ smac ifindex psks env, smac.length = 6 → I (.fresh smac ifindex psks env)) {x : System}
    (h : x.Reachable) : I x.toDaemon :=
  Machine.Reachable.invariant (I := fun y : System => I y.toDaemon) (fun _ hy => hy.invariant hI hfresh)
    (fun y e hy _ => (y.step_path e).invariant (hI _) hy) h

/-- A monitor that keeps up with every change, keeps up with runs. -/
theorem run_monitored {μ : Type} {D : Monitor Act μ} {J : μ → Daemon → Prop}
    (hM : ∀ may m s k t, J m s → Change may s k t → D.Accepts m k ∧ J (D.run m k) t) {x : System} {m : μ} (hx : J m x.toDaemon)
    {es : List Event} (hv : supplicant.Valid x es) : D.Accepts m (supplicant.outputs x es) ∧
      J (D.run m (supplicant.outputs x es)) (supplicant.after x es).toDaemon :=
  Machine.monitored (J := fun m (y : System) => J m y.toDaemon) (fun _ y e hy _ => (y.step_path e).monitored (hM _) hy) hv hx

end System

end Wsupp

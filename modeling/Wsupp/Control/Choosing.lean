import Wsupp.Choice.First
import Wsupp.Control.Tables

/-!
# The access point chosen

`get_best_ap` scans for the first of the best slots, by band and then by signal.
Each turn of `connect_to_something` tries it and, if that fails, leaves one eligible
slot fewer; whether another slot can be started does not change, only how often the
PSK file has been read before.

The loop of the source has no counter of its own. That the number of eligible slots
falls in each turn is what makes it end, and the bound of the model is never
reached. What an attempt needs (the type of the access point, a PSK, the socket) is
computed beforehand in `works`, on the state the command finds.
-/
namespace Wsupp
open Reactive Prog

def rank (sc : Scan) : Int ×ₗ Int := toLex (bandScore sc, sc.signal)

theorem compare_le_iff {sc best : Scan} : compare sc (some best) ≤ 0 ↔ rank sc ≤ rank best := by
  simp only [compare, cmp, rank, Prod.Lex.toLex_le_toLex]
  split_ifs <;> omega

/-- What `get_best_ap` looks for. -/
def eligible (ap : Ap) (sc : Scan) : Bool := sc.freq ≠ 0 && connectable ap sc && matchSsid ap sc

namespace ScanTable

/-- One of the slots in use that pass a test. -/
def Among (t : ScanTable) (ok : Scan → Bool) (i : ℕ) : Prop := i < t.nscans ∧ ok (t.get i) = true

def Prefers (t : ScanTable) (i j : ℕ) : Prop := Choice.Before (fun i => rank (t.get i)) i j

/-- The most preferred of these. -/
def FirstAmong (t : ScanTable) (ok : Scan → Bool) (i : ℕ) : Prop :=
  t.Among ok i ∧ ∀ j, t.Among ok j → j = i ∨ t.Prefers i j

instance instDecidableAmong (t : ScanTable) (ok : Scan → Bool) (i : ℕ) : Decidable (t.Among ok i) :=
  inferInstanceAs (Decidable (_ ∧ _))

instance instDecidablePrefers (t : ScanTable) (i j : ℕ) : Decidable (t.Prefers i j) :=
  inferInstanceAs (Decidable (Choice.Before _ i j))

theorem FirstAmong.unique {t : ScanTable} {ok : Scan → Bool} {i j : ℕ} (hi : t.FirstAmong ok i)
    (hj : t.FirstAmong ok j) : i = j := by
  obtain rfl | hij := hj.2 i hi.1
  · rfl
  obtain rfl | hji := hi.2 j hj.1
  · rfl
  exact absurd hij hji.asymm

/-- The test for a better slot, in terms of the order. -/
theorem compare_best (t : ScanTable) (i : ℕ) (best : Option ℕ) :
    (Wsupp.compare (t.get i) (best.map t.get) ≤ 0) ↔
      (best.all fun b => rank (t.get b) < rank (t.get i)) = false := by
  cases best with
  | none => simp [Wsupp.compare]
  | some b => simp [compare_le_iff]

theorem bestOf_eq_scan (ap : Ap) (t : ScanTable) (is : List ℕ) (best : Option ℕ) :
    bestOf ap t is best =
      Choice.scan (fun i => rank (t.get i)) (fun i => eligible ap (t.get i)) is best := by
  induction is generalizing best with
  | nil => rfl
  | cons i is ih =>
      unfold bestOf Choice.scan
      dsimp only
      rw [ih]
      congr 1
      simp only [eligible, compare_best]
      by_cases hfreq : (t.get i).freq = 0
      · simp [hfreq]
      by_cases hconn : connectable ap (t.get i) = true
      swap
      · simp [hconn]
      by_cases hmatch : matchSsid ap (t.get i) = true
      swap
      · simp [hmatch]
      cases (best.all fun b => rank (t.get b) < rank (t.get i)) <;> simp [hfreq, hconn, hmatch]

theorem getBestAp_eq_scan (ap : Ap) (t : ScanTable) : getBestAp ap t =
    Choice.scan (fun i => rank (t.get i)) (fun i => eligible ap (t.get i)) (List.range t.nscans) none :=
  bestOf_eq_scan ap t _ none

theorem getBestAp_none {ap : Ap} {t : ScanTable} (h : getBestAp ap t = none) (i : ℕ) :
    ¬ t.Among (eligible ap) i := by
  intro hi
  rw [getBestAp_eq_scan] at h
  have hnot := (Choice.scan_none h).2 i (List.mem_range.mpr hi.1)
  rw [hi.2] at hnot
  cases hnot

theorem getBestAp_first {ap : Ap} {t : ScanTable} {i : ℕ} (h : getBestAp ap t = some i) :
    t.FirstAmong (eligible ap) i := by
  rw [getBestAp_eq_scan] at h
  obtain ⟨hfound, -, hrest⟩ := Choice.scan_some List.pairwise_lt_range (fun b hb => by cases hb) h
  obtain hnone | ⟨hi, hok⟩ := hfound
  · cases hnone
  · exact ⟨⟨List.mem_range.mp hi, hok⟩, fun j hj => hrest j (List.mem_range.mpr hj.1) hj.2⟩

theorem getBestAp_some_iff {ap : Ap} {t : ScanTable} {i : ℕ} :
    getBestAp ap t = some i ↔ t.FirstAmong (eligible ap) i := by
  constructor
  · exact getBestAp_first
  · intro hi
    cases hbest : getBestAp ap t with
    | none => exact absurd hi.1 (getBestAp_none hbest i)
    | some j => rw [hi.unique (getBestAp_first hbest)]

/-- Where there is any, there is a most preferred one. -/
theorem exists_first {t : ScanTable} {ok : Scan → Bool} {i : ℕ} (h : t.Among ok i) :
    ∃ j, t.FirstAmong ok j := by
  cases hscan : Choice.scan (fun i => rank (t.get i)) (fun i => ok (t.get i)) (List.range t.nscans) none with
  | none =>
      have hnot := (Choice.scan_none hscan).2 i (List.mem_range.mpr h.1)
      rw [h.2] at hnot
      cases hnot
  | some j =>
      obtain ⟨hfound, -, hrest⟩ := Choice.scan_some List.pairwise_lt_range (fun b hb => by cases hb) hscan
      obtain hnone | ⟨hj, hok⟩ := hfound
      · cases hnone
      · exact ⟨j, ⟨List.mem_range.mp hj, hok⟩, fun k hk => hrest k (List.mem_range.mpr hk.1) hk.2⟩

/-- Slots that rank alike and of which the same ones pass. -/
theorem firstAmong_congr {t t' : ScanTable} {ok ok' : Scan → Bool}
    (hrank : ∀ i, rank (t'.get i) = rank (t.get i)) (hok : ∀ i, t'.Among ok' i ↔ t.Among ok i) (i : ℕ) :
    t'.FirstAmong ok' i ↔ t.FirstAmong ok i := by
  unfold FirstAmong Prefers
  rw [show (fun i => rank (t'.get i)) = fun i => rank (t.get i) from funext hrank]
  simp only [hok]

end ScanTable

/-- The PSK file as far as it has been read, with the answers later reads will get. -/
def Daemon.store (s : Daemon) : Config × List LoadIO := (s.config, s.env.loadIO)

def loadStep (c : Config × List LoadIO) : Config × List LoadIO :=
  ((c.1.loadConfig (c.2.headD {})).2, c.2.tail)

/-- `load_psk` finds a PSK. -/
def loadable (c : Config × List LoadIO) (ssid psk : Bytes) : Bool :=
  (c.1.loadPsk (c.2.headD {}) ssid psk).1 = 0

def Scan.setTried (sc : Scan) : Scan := { sc with flags := { sc.flags with tried := true } }

def Scan.setUntried (sc : Scan) : Scan := { sc with flags := { sc.flags with tried := false } }

def Scan.setFailed (sc : Scan) : Scan := { sc with flags := { sc.flags with tried := true, good := false } }

theorem parseLoop_congr (str : Bytes) {dst dst' : Bytes} (h : dst.length = dst'.length) :
    (Config.parseLoop str dst).1 = (Config.parseLoop str dst').1 := by
  induction dst generalizing str dst' with
  | nil =>
      obtain rfl := List.length_eq_zero_iff.mp h.symm
      rfl
  | cons d dst ih =>
      obtain ⟨d', dst', rfl⟩ := List.exists_cons_of_length_eq_add_one h.symm
      match str with
      | [] | [_] => rfl
      | hc :: lc :: str =>
          simp only [Config.parseLoop]
          split
          · exact ih str (by simpa using h)
          · rfl

/-- Of the PSK only the length decides whether there is room for what is in the file. -/
theorem loadable_congr (c : Config × List LoadIO) (ssid : Bytes) {psk psk' : Bytes}
    (h : psk.length = psk'.length) : loadable c ssid psk = loadable c ssid psk' := by
  have hret : (c.1.loadPsk (c.2.headD {}) ssid psk).1 = (c.1.loadPsk (c.2.headD {}) ssid psk').1 := by
    unfold Config.loadPsk
    rcases c.1.loadConfig (c.2.headD {}) with ⟨ret, c'⟩
    dsimp only
    split
    · rfl
    split
    · rfl
    split
    · dsimp only
      unfold Config.parseBytes
      rw [h]
      split
      · rfl
      · exact parseLoop_congr _ h
    · rfl
  unfold loadable
  rw [hret]

/-- `set_current_ap` succeeds. -/
def Daemon.works (s : Daemon) (i : ℕ) : Bool :=
  (s.table.get i).type.rsnPCcmp &&
    (s.ap.fixed || loadable s.store (s.table.get i).name s.PSK)

/-- The station is fixed on the same SSID as before, or as little as before. -/
structure Ap.Keeps (ap ap' : Ap) : Prop where
  fixed : ap'.fixed = ap.fixed
  ssid : ap.fixed = true → ap'.slen = ap.slen ∧ ap'.ssid = ap.ssid

theorem Ap.Keeps.refl (ap : Ap) : ap.Keeps ap := ⟨rfl, fun _ => ⟨rfl, rfl⟩⟩

theorem Ap.Keeps.trans {ap ap' ap'' : Ap} (h : ap.Keeps ap') (h' : ap'.Keeps ap'') : ap.Keeps ap'' := by
  refine ⟨h'.fixed.trans h.fixed, fun hfixed => ?_⟩
  obtain ⟨hslen, hssid⟩ := h.ssid hfixed
  obtain ⟨hslen', hssid'⟩ := h'.ssid (h.fixed.trans hfixed)
  exact ⟨hslen'.trans hslen, hssid'.trans hssid⟩

/-- Records that keep to the same SSID make the same slots eligible. -/
theorem Ap.Keeps.eligible_eq {ap ap' : Ap} (h : ap.Keeps ap') (sc : Scan) :
    eligible ap' sc = eligible ap sc := by
  have hfixed := h.fixed
  cases hap : ap.fixed with
  | false => simp [eligible, connectable, matchSsid, hfixed, hap]
  | true =>
      obtain ⟨hslen, hssid⟩ := h.ssid hap
      simp [eligible, connectable, matchSsid, sameSsid, hfixed, hap, hslen, hssid]

/-- What the choice of another slot goes by is left alone: the state machines, the
socket, what the kernel answers, the record of the station and the key. -/
structure Daemon.Steady (s s' : Daemon) : Prop where
  control : s'.toControl = s.toControl
  socket : s'.socket = s.socket
  nlSend : s'.env.nlSend = s.env.nlSend
  ap : s.ap.Keeps s'.ap
  psk : s'.PSK.length = s.PSK.length

structure Daemon.Attempted (s : Daemon) (i : ℕ) (s' : Daemon) : Prop extends s.Steady s' where
  table : s'.table = s.table.modify i Scan.setTried
  store : s.ap.fixed = false →
    s'.store = if (s.table.get i).type.rsnPCcmp then loadStep s.store else s.store

def Daemon.loaded (s : Daemon) (ssid : Bytes) : Daemon :=
  { s with
    env := { s.env with loadIO := s.env.loadIO.tail }
    PSK := (s.config.loadPsk (s.env.loadIO.headD {}) ssid s.PSK).2.1
    config := (s.config.loadPsk (s.env.loadIO.headD {}) ssid s.PSK).2.2 }

theorem loadPsk_apply (ssid : Bytes) (s : Daemon) : loadPsk ssid s =
    .ok (s.config.loadPsk (s.env.loadIO.headD {}) ssid s.PSK).1 (s.loaded ssid) [] := rfl

theorem setCurrentAp_returns {s : Daemon} {i : ℕ} (hname : (s.table.get i).Named)
    (hmatch : matchSsid s.ap (s.table.get i) = true) :
    ∃ ret s' l, setCurrentAp i s = .ok ret s' l ∧ l = [] ∧ (ret = 0 ↔ s.works i = true) ∧
      s.Attempted i s' ∧ (s.works i = true → s'.ap.bssid = (s.table.get i).bssid ∧
        s'.ap.freq = (s.table.get i).freq ∧ s'.ap.ssid.take s'.ap.slen = (s.table.get i).name) := by
  apply wp_returns
  unfold setCurrentAp modifyFlags
  rw [wp_bind, wp_read, wp_bind, wp_update, wp_bind, wp_update]
  split
  · next hccmp =>
      rw [Bool.not_eq_true'] at hccmp
      have hworks : s.works i = false := by rw [Daemon.works, hccmp, Bool.false_and]
      rw [hworks]
      refine ⟨rfl, by simp, ⟨⟨rfl, rfl, rfl, ⟨rfl, fun _ => ⟨rfl, rfl⟩⟩, rfl⟩, rfl, fun _ => ?_⟩, nofun⟩
      rw [hccmp]
      rfl
  next hccmp =>
  rw [Bool.not_eq_true', Bool.not_eq_false] at hccmp
  rw [wp_bind, wp_update]
  split
  · next hfixed =>
      have hworks : s.works i = true := by rw [Daemon.works, hccmp, hfixed, Bool.true_or, Bool.and_true]
      refine ⟨rfl, by simp [hworks], ⟨⟨rfl, rfl, rfl, ⟨rfl, fun _ => ⟨rfl, rfl⟩⟩, rfl⟩, rfl, ?_⟩, fun _ => ?_⟩
      · exact fun h => absurd hfixed (by simp [h])
      · -- the SSID it keeps to is that of the slot
        rw [matchSsid, hfixed, Bool.not_true, Bool.false_or, sameSsid, Bool.and_eq_true,
          decide_eq_true_eq, decide_eq_true_eq] at hmatch
        refine ⟨rfl, rfl, ?_⟩
        rw [Scan.name, hmatch.1]
        exact hmatch.2.symm
  next hfixed =>
  rw [Bool.not_eq_true] at hfixed
  rw [wp_bind, wp_update, wp_bind, wp_read, wp_bind, wp_of_ok (loadPsk_apply _ _)]
  dsimp only
  rw [Bytes.take_memcpy _ hname]
  have hworks : s.works i = loadable s.store (s.table.get i).name s.PSK := by
    rw [Daemon.works, hccmp, hfixed, Bool.false_or, Bool.true_and]
  have hkept (ssid : Bytes) : (s.config.loadPsk (s.env.loadIO.headD {}) ssid s.PSK).2.1.length =
      s.PSK.length := Config.length_loadPsk _ _ _ _
  have hstore (ssid : Bytes) : ((s.config.loadPsk (s.env.loadIO.headD {}) ssid s.PSK).2.2,
      s.env.loadIO.tail) = loadStep s.store := by
    rw [Config.loadPsk_config]
    rfl
  split
  · next hret =>
      have hno : s.works i = false := by
        rw [hworks]
        exact decide_eq_false hret
      rw [hno]
      refine ⟨rfl, by simp, ⟨⟨rfl, rfl, rfl, ⟨rfl, ?_⟩, hkept _⟩, rfl, fun _ => ?_⟩, nofun⟩
      · exact fun h => absurd h (by simp [hfixed])
      · rw [hccmp]
        exact hstore _
  · next hret =>
      have hyes : s.works i = true := by
        rw [hworks]
        exact decide_eq_true (not_not.mp hret)
      refine ⟨rfl, by simp [hyes], ⟨⟨rfl, rfl, rfl, ⟨rfl, ?_⟩, hkept _⟩, rfl, fun _ => ?_⟩, fun _ => ?_⟩
      · exact fun h => absurd h (by simp [hfixed])
      · rw [hccmp]
        exact hstore _
      · exact ⟨rfl, rfl, Bytes.take_memcpy _ hname⟩

/-- `REP_WI_NO_CONNECT`. -/
def Act.noConnect : Act → Bool
  | .report .noConnect _ => true
  | _ => false

/-- Nothing about connections, asked for or failed. -/
def Dull (l : List Act) : Prop := ∀ a ∈ l, a.noConnect = false ∧ a.authenticates = false

theorem Dull.append {l l' : List Act} (h : Dull l) (h' : Dull l') : Dull (l ++ l') :=
  List.forall_mem_append.mpr ⟨h, h'⟩

theorem quit_dull {α : Type} (text : String) (s : Daemon) :
    wp (quit text : Handler α) (fun _ _ _ => False) (fun _ l => Dull l) s := by
  unfold quit Handler.warn Handler.answerNlSend Handler.answer
  rw [wp_bind, wp_emit, wp_bind, wp_read]
  split
  · rw [wp_bind, wp_emit, wp_exit]
    simp [Dull, Act.noConnect, Act.authenticates]
  · simp only [wp_bind, wp_update, wp_read, wp_pure, wp_emit, wp_exit]
    simp [Dull, Act.noConnect, Act.authenticates]

theorem nlSend_apply (c : NlCommand) (s : Daemon) : nlSend c s =
    .ok (if s.env.nlSend.headD 1 ≤ 0 then 1 else 0)
      { s with seq := (s.seq + 1) % 2 ^ 32, env := { s.env with nlSend := s.env.nlSend.tail } }
      [.nl c (0 < s.env.nlSend.headD 1)] := rfl

theorem sendCheck_apply (c : NlCommand) (s : Daemon) : sendCheck c s =
    .ok () { s with seq := (s.seq + 1) % 2 ^ 32, env := { s.env with nlSend := s.env.nlSend.tail } }
      [.nl c (0 < s.env.nlSend.headD 1)] := by
  have hret : (0 : Int) ≤ if s.env.nlSend.headD 1 ≤ 0 then 1 else 0 := by
    split
    · exact Int.one_nonneg
    · exact le_rfl
  unfold sendCheck
  rw [bind_of_ok (nlSend_apply c s), if_pos hret]
  rfl

theorem reopenRawsock_outcome (s : Daemon) : wp reopenRawsock (fun _ s' l => l = [] ∧
    s'.toControl = s.toControl ∧ s'.ap = s.ap ∧ s'.table = s.table ∧ s'.env.nlSend = s.env.nlSend)
    (fun _ l => s.socket = false ∧ Dull l) s := by
  unfold reopenRawsock openRawsock Handler.answerOpenRawsock Handler.answer
  rw [wp_bind, wp_read]
  split
  · exact ⟨rfl, rfl, rfl, rfl, rfl⟩
  next hclosed =>
  rw [wp_bind, wp_bind, wp_read, wp_bind, wp_update, wp_pure]
  split
  · exact ⟨rfl, rfl, rfl, rfl, rfl⟩
  · next hno =>
      refine wp_mono (quit_dull _ _) (fun _ _ _ h => h.elim) fun _ l hl => ⟨?_, hl⟩
      rw [Daemon.socket, eq_false_of_ne_true hclosed, eq_false_of_ne_true hno]
      rfl

/-- A connection that can be started is started, unless there is no EAPOL socket. -/
theorem startConnection_outcome {s : Daemon} (hauth : s.authstate = .idle) (hscan : s.scanstate = .idle) :
    wp startConnection (fun ret s' l => ret = 0 ∧
      l = [.nl (.authenticate s.ap.bssid s.ap.freq (s.ap.ssid.take s.ap.slen)) (0 < s.env.nlSend.headD 1)] ∧
      s'.toControl = { s.toControl with authstate := .authenticating } ∧ s'.ap = s.ap ∧
      s'.table = s.table) (fun _ l => s.socket = false ∧ Dull l) s := by
  unfold startConnection
  rw [wp_bind, wp_read, if_neg (not_not.mpr hauth), if_neg (not_not.mpr hscan), wp_bind]
  refine wp_mono (reopenRawsock_outcome s) (fun _ s₁ l₁ h₁ => ?_) (fun _ _ h => h)
  obtain ⟨rfl, hc, hap, htable, hnl⟩ := h₁
  unfold triggerAuthentication sendSetAuthstate
  rw [wp_bind, wp_bind, wp_read, wp_bind, wp_of_ok (sendCheck_apply _ _), hap, hnl]
  refine ⟨rfl, rfl, ?_, rfl, htable⟩
  change { s₁.toControl with authstate := .authenticating } = _
  rw [hc]

end Wsupp

import Wsupp.Control.Choosing
import Wsupp.Control.TableShape

/-!
# Requests after earlier ones

Attempts leave a mark on the slots they were made on. A request for an SSID takes
the marks off the slots with that SSID; a request for any known access point leaves
them, and an access point tried for an earlier request is passed over.

What is tried first is computed on the state the command leaves behind, and is shown
to be what the handler goes on with after its answer. In every reachable state in
which a request is accepted, this is the most preferred access point of those asked
for if and only if the request names an SSID or that access point has no mark.
-/
namespace Wsupp
open Reactive Prog

/-- What a request asks for: the access points with its SSID, or all that are known. -/
def requested (msg : Cntrl.Msg) (sc : Scan) : Bool :=
  sc.freq ≠ 0 && sc.flags.good && msg.ssid.elim sc.flags.pass fun ssid => sc.name = ssid

namespace Cntrl

/-- The state in which the daemon starts to look for access points, if the message is a
request to connect and is accepted. -/
def accepted (cn : ℕ) (msg : Msg) (s : Daemon) : Option Daemon :=
  if msg.cmd = .connect ∧ s.authstate = .idle ∧ s.scanstate = .idle then
    match configureStation msg s with
    | .ok ret s _ =>
        if ret < 0 then none
        else some { s with
          opermode := .oneshot, pollts := 0, timerset := false
          conns := s.conns.modify cn fun c => { c with rep := true } }
    | .halt .. => none
  else none

def triesFirst (cn : ℕ) (msg : Msg) (s : Daemon) : Option ℕ :=
  (accepted cn msg s).bind fun s => getBestAp s.ap s.table

structure FixedOn (ap : Ap) (ssid : Bytes) : Prop where
  fixed : ap.fixed = true
  slen : ap.slen = ssid.length
  ssid : ap.ssid.take ssid.length = ssid

theorem FixedOn.matchSsid_iff {ap : Ap} {ssid : Bytes} (h : FixedOn ap ssid) {sc : Scan} (hsc : sc.Named) :
    matchSsid ap sc = true ↔ sc.name = ssid := by
  rw [← Scan.name_eq_iff hsc, matchSsid, h.fixed, Bool.not_true, Bool.false_or, sameSsid, h.slen, h.ssid]

/-- What `configure_station` leaves if it succeeds: the station keeps to the SSID, and
the marks are off its slots; or, without an SSID, the slots are as they were. -/
structure SetUp (msg : Msg) (s s' : Daemon) : Prop where
  control : s'.toControl = s.toControl
  known : msg.ssid = none → s'.ap.fixed = false ∧ s'.table = s.table
  told : ∀ ssid ∈ msg.ssid, FixedOn s'.ap ssid ∧ s'.table = s.table.map fun sc =>
    if sc.freq ≠ 0 && matchSsid s'.ap sc then sc.setUntried else sc

theorem setFixed_sets (ssid : Bytes) (s : Daemon) : wp (setFixed ssid) (fun ret s' l => l = [] ∧
    (0 ≤ ret → s'.toControl = s.toControl ∧ FixedOn s'.ap ssid ∧ s'.table = s.table.map fun sc =>
      if sc.freq ≠ 0 && matchSsid s'.ap sc then sc.setUntried else sc)) (fun _ _ => False) s := by
  unfold setFixed
  split
  · exact ⟨rfl, fun h => absurd h (by decide)⟩
  · unfold clearApBssid resetScanCounters
    rw [wp_bind, wp_update, wp_bind, wp_update, wp_bind, wp_update]
    exact ⟨rfl, fun _ => ⟨rfl, ⟨rfl, rfl, by simp [Bytes.take_memcpy]⟩, rfl⟩⟩

theorem setFixed_then {msg : Msg} {ssid : Bytes} (hssid : msg.ssid = some ssid) {s r : Daemon}
    (hcontrol : s.toControl = r.toControl) (ht : s.table = r.table) (g : Daemon → Daemon)
    (hg : ∀ s, (g s).toControl = s.toControl ∧ (g s).table = s.table ∧
      (g s).ap = { s.ap with unsaved := (g s).ap.unsaved }) :
    wp (do
      let ret ← setFixed ssid
      if ret < 0 then pure ret
      else do
        update g
        pure 0 : Handler Int)
      (fun ret s' l => 0 ≤ ret → l = [] ∧ SetUp msg r s') (fun _ _ => False) s := by
  rw [wp_bind]
  refine wp_mono (setFixed_sets ssid s) (fun ret s₁ _ h => ?_) (fun _ _ h => h.elim)
  obtain ⟨rfl, hset⟩ := h
  split
  · next hneg => exact fun hpos => absurd hpos (not_le.mpr hneg)
  · next hpos =>
      obtain ⟨hc, hfixed, hmap⟩ := hset (not_lt.mp hpos)
      obtain ⟨hgc, hgt, hgap⟩ := hg s₁
      have hmatch (sc : Scan) : matchSsid (g s₁).ap sc = matchSsid s₁.ap sc := by
        rw [hgap]
        rfl
      rw [wp_bind, wp_update]
      refine fun _ => ⟨rfl, hgc.trans (hc.trans hcontrol), fun hnone => ?_, fun ssid' h' => ?_⟩
      · rw [hssid] at hnone
        cases hnone
      · obtain rfl : ssid = ssid' := Option.some.inj (hssid.symm.trans h')
        rw [hgt, hmap, ht]
        refine ⟨?_, by simp only [hmatch]⟩
        rw [hgap]
        exact ⟨hfixed.fixed, hfixed.slen, hfixed.ssid⟩

theorem configureStation_setsUp (msg : Msg) (s : Daemon) : wp (configureStation msg)
    (fun ret s' l => 0 ≤ ret → l = [] ∧ SetUp msg s s') (fun _ _ => False) s := by
  unfold configureStation resetStation clearApBssid clearApSsid
  rw [wp_bind, wp_bind, wp_update, wp_update]
  split
  · next hnone =>
      exact fun _ => ⟨rfl, rfl, fun _ => ⟨rfl, rfl⟩, fun ssid h => by rw [hnone] at h; cases h⟩
  next ssid hssid =>
  split
  · unfold setFixedSaved
    rw [wp_bind, wp_of_ok (loadPsk_apply _ _)]
    split
    · next hneg => exact fun hpos => absurd hpos (not_le.mpr hneg)
    · exact wp_mono (setFixed_then (r := s) hssid (by rfl) (by rfl)
        (fun s => { s with ap := { s.ap with unsaved := false } }) fun _ => ⟨rfl, rfl, rfl⟩)
        (fun _ _ _ h => h) (fun _ _ h => h)
  next psk _ =>
  split
  · exact wp_mono (setFixed_then (r := s) hssid (by rfl) (by rfl) (fun s =>
        { s with PSK := psk.take 32, ap := { s.ap with unsaved := true } }) fun _ => ⟨rfl, rfl, rfl⟩)
      (fun _ _ _ h => h) (fun _ _ h => h)
  · unfold Handler.warn
    rw [wp_bind, wp_emit]
    exact fun h => absurd h (by decide)

/-- An accepted request is answered first; then the station looks for an access point. -/
theorem accepted_some {cn : ℕ} {msg : Msg} {s s' : Daemon} (h : accepted cn msg s = some s') :
    (∃ s₁, SetUp msg s s₁ ∧ s'.ap = s₁.ap ∧ s'.table = s₁.table) ∧ s'.authstate = .idle ∧
      s'.scanstate = .idle ∧ s'.opermode = .oneshot ∧
      call cn msg s = ((do
        reassessWifiSituation
        pure REPLIED : Handler Int) s').after [.reply cn 0] := by
  unfold accepted at h
  split at h
  swap
  · cases h
  next hready =>
  obtain ⟨hcmd, hauth, hscan⟩ := hready
  have hsets := configureStation_setsUp msg s
  split at h
  swap
  · cases h
  next ret s₁ l hconf =>
  split at h
  · cases h
  next hpos =>
  obtain ⟨rfl, hset⟩ := wp_ok hsets hconf (not_lt.mp hpos)
  cases h
  refine ⟨⟨s₁, hset, rfl, rfl⟩, ?_, ?_, rfl, ?_⟩
  · exact (congrArg Control.authstate hset.control).trans hauth
  · exact (congrArg Control.scanstate hset.control).trans hscan
  · unfold call cmdConnect
    rw [hcmd]
    dsimp only
    rw [read_bind, if_neg (not_not.mpr hauth), if_neg (not_not.mpr hscan), bind_of_silent hconf,
      if_neg hpos, update_bind]
    unfold setRep clrTimer
    rw [update_bind, bind_of_ok (show reply cn 0 _ = .ok REPLIED _ [.reply cn 0] from rfl), update_bind]

section First
variable {msg : Msg} {s s' : Daemon} (h : SetUp msg s s') (hname : s.table.Named)
include h

theorem SetUp.get (i : ℕ) : s'.table.get i = s.table.get i ∨ s'.table.get i = (s.table.get i).setUntried := by
  cases hssid : msg.ssid with
  | none =>
      rw [(h.known hssid).2]
      exact .inl rfl
  | some ssid =>
      rw [(h.told ssid hssid).2, ScanTable.get_map]
      split
      · split
        · exact .inr rfl
        · exact .inl rfl
      · exact .inl rfl

theorem SetUp.rank_get (i : ℕ) : rank (s'.table.get i) = rank (s.table.get i) := by
  obtain heq | heq := h.get i
  · rw [heq]
  · rw [heq]
    rfl

include hname

/-- Marks of earlier attempts count where no SSID is asked for. -/
theorem SetUp.among_iff (i : ℕ) : s'.table.Among (eligible s'.ap) i ↔
    s.table.Among (fun sc => requested msg sc && (msg.ssid.isSome || !sc.flags.tried)) i := by
  cases hssid : msg.ssid with
  | none =>
      obtain ⟨hfixed, htable⟩ := h.known hssid
      rw [htable]
      unfold ScanTable.Among
      simp [eligible, connectable, matchSsid, requested, hfixed, hssid, and_assoc, and_comm, and_left_comm]
  | some ssid =>
      obtain ⟨hfixed, htable⟩ := h.told ssid hssid
      have hmatch := hfixed.matchSsid_iff (hname i)
      rw [htable]
      unfold ScanTable.Among
      rw [ScanTable.get_map]
      cases hm : matchSsid s'.ap (s.table.get i) with
      | false =>
          have hne : (s.table.get i).name ≠ ssid := fun heq => by
            rw [hmatch.mpr heq] at hm
            cases hm
          simp [eligible, requested, hssid, hm, hne]
      | true =>
          have heq := hmatch.mp hm
          have hsame : matchSsid s'.ap (s.table.get i).setUntried = true := hm
          refine and_congr_right fun hi => ?_
          change i < s.table.nscans at hi
          rw [if_pos hi]
          by_cases hfreq : (s.table.get i).freq = 0
          · simp [eligible, requested, hfreq]
          · simp only [hfreq, ne_eq, not_false_eq_true, decide_true, Bool.true_and, if_true, eligible,
              hsame, connectable, requested, hssid, heq, hfixed.fixed]
            simp [Scan.setUntried, hfreq]

end First

/-- After the answer, the attempt on that slot is the next thing that happens. -/
theorem connMsg_tries {cn : ℕ} {msg : Msg} {s s' : Daemon} {i : ℕ} (h : accepted cn msg s = some s')
    (hi : triesFirst cn msg s = some i) : ∃ f : Int → Handler Unit,
      (EventKind.connMsg cn msg).handler s = ((setCurrentAp i >>= f) s').after [.reply cn 0] := by
  obtain ⟨-, hauth, hscan, hmode, hcall⟩ := accepted_some h
  have hbest : getBestAp s'.ap s'.table = some i := by
    unfold triesFirst at hi
    rw [h] at hi
    exact hi
  have hloop : ∃ f : Int → Handler Bool, connectToSomething s' = (setCurrentAp i >>= f) s' := by
    unfold connectToSomething connectLoop
    rw [read_bind, hbest]
    exact ⟨_, rfl⟩
  -- what follows the attempt does not matter here
  have hthen {α : Type} {m : Handler α} (hm : ∃ f : Int → Handler α, m s' = (setCurrentAp i >>= f) s')
      (g : α → Handler Unit) : ∃ f : Int → Handler Unit, (m >>= g) s' = (setCurrentAp i >>= f) s' := by
    obtain ⟨f, hf⟩ := hm
    refine ⟨fun ret => f ret >>= g, ?_⟩
    rw [bind_congr_at hf, bind_assoc_at]
  have hlook : ∃ f : Int → Handler Unit, reassessWifiSituation s' = (setCurrentAp i >>= f) s' := by
    unfold reassessWifiSituation
    rw [read_bind, if_neg (by simp [hmode]), if_neg (not_not.mpr hauth), if_neg (not_not.mpr hscan)]
    exact hthen hloop _
  have hanswer : ∃ f : Int → Handler Unit, ((do
      reassessWifiSituation
      pure REPLIED : Handler Int) >>= fun ret => (if 0 < ret then pure ret else reply cn ret) >>=
        fun _ => pure ()) s' = (setCurrentAp i >>= f) s' := by
    rw [bind_assoc_at]
    exact hthen hlook _
  obtain ⟨f, hf⟩ := hanswer
  refine ⟨f, ?_⟩
  rw [← hf, ← bind_of_after hcall, ← bind_assoc_at]
  rfl

end Cntrl

section Requests
variable {x : System} {cn : ℕ} {msg : Cntrl.Msg} {env : Env}

/-- A request is served by the most preferred of the access points it asks for, whatever
has been tried before, if and only if it names an SSID or that access point has not been
tried; and the attempt on the one chosen is what follows the answer to the request. -/
theorem connect_tries_first_iff (hx : x.Reachable) (he : x.Enabled ⟨.connMsg cn msg, env⟩)
    (haccept : (Cntrl.accepted cn msg (x.before ⟨.connMsg cn msg, env⟩)).isSome = true) :
    ((∀ i, Cntrl.triesFirst cn msg (x.before ⟨.connMsg cn msg, env⟩) = some i ↔
        x.table.FirstAmong (requested msg) i) ↔
      (msg.ssid = none → ∀ i, x.table.FirstAmong (requested msg) i →
        (x.table.get i).flags.tried = false)) ∧
    ∀ {i s'}, Cntrl.accepted cn msg (x.before ⟨.connMsg cn msg, env⟩) = some s' →
      Cntrl.triesFirst cn msg (x.before ⟨.connMsg cn msg, env⟩) = some i →
      ∃ f : Int → Handler Unit, (EventKind.connMsg cn msg).handler (x.before ⟨.connMsg cn msg, env⟩) =
        ((setCurrentAp i >>= f) s').after [.reply cn 0] := by
  refine ⟨?_, Cntrl.connMsg_tries⟩
  obtain ⟨s', hs'⟩ := Option.isSome_iff_exists.mp haccept
  obtain ⟨⟨s₁, hset, hap, htable⟩, -⟩ := Cntrl.accepted_some hs'
  have hname : x.table.Named := (hx.shaped he.1).named
  have htries (i : ℕ) : Cntrl.triesFirst cn msg (x.before ⟨.connMsg cn msg, env⟩) = some i ↔
      x.table.FirstAmong (fun sc => requested msg sc && (msg.ssid.isSome || !sc.flags.tried)) i := by
    unfold Cntrl.triesFirst
    rw [hs', Option.bind_some, hap, htable, ScanTable.getBestAp_some_iff]
    exact ScanTable.firstAmong_congr hset.rank_get (hset.among_iff hname) i
  simp only [htries]
  cases hssid : msg.ssid with
  | some ssid => simp
  | none =>
      simp only [Option.isSome_none, Bool.false_or, true_implies]
      constructor
      · intro h i hi
        have hok := ((h i).mpr hi).1.2
        rw [Bool.and_eq_true, Bool.not_eq_true'] at hok
        exact hok.2
      · intro h i
        have huntried {j : ℕ} (hj : x.table.FirstAmong (requested msg) j) :
            x.table.FirstAmong (fun sc => requested msg sc && !sc.flags.tried) j := by
          refine ⟨⟨hj.1.1, ?_⟩, fun k hk => hj.2 k ⟨hk.1, ?_⟩⟩
          · exact Bool.and_eq_true_iff.mpr ⟨hj.1.2, by rw [h j hj]; rfl⟩
          · exact (Bool.and_eq_true_iff.mp hk.2).1
        constructor
        · intro hi
          have hi' : x.table.Among (requested msg) i := ⟨hi.1.1, (Bool.and_eq_true_iff.mp hi.1.2).1⟩
          obtain ⟨j, hj⟩ := ScanTable.exists_first hi'
          rwa [hi.unique (huntried hj)]
        · exact huntried

end Requests

namespace Sample

def looking : List Event :=
  [event (.accept 5), event .turn, notice .newScanResults, found, event (.netlink .done), event .turn]

/-- A client asks for any access point, and the attempt on this one fails. -/
def turnedAway : List Event := looking ++ [asks .connect, notice .disconnect, event .turn]

end Sample

theorem looking_tries_first :
    ((∀ i, Cntrl.triesFirst 0 { cmd := .connect }
        ((supplicant.after Sample.knows Sample.looking).before (Sample.asks .connect)) = some i ↔
      (supplicant.after Sample.knows Sample.looking).table.FirstAmong (requested { cmd := .connect }) i) ↔
      ((none : Option Bytes) = none → ∀ i,
        (supplicant.after Sample.knows Sample.looking).table.FirstAmong (requested { cmd := .connect }) i →
          ((supplicant.after Sample.knows Sample.looking).table.get i).flags.tried = false)) ∧
    ∃ s', ∃ f : Int → Handler Unit, (EventKind.connMsg 0 { cmd := .connect }).handler
        ((supplicant.after Sample.knows Sample.looking).before (Sample.asks .connect)) =
      ((setCurrentAp 0 >>= f) s').after [.reply 0 0] := by
  have hreached : (supplicant.after Sample.knows Sample.looking).Reachable :=
    ⟨Sample.knows, Sample.looking, Sample.knows_initial, by decide +kernel, rfl⟩
  have henabled : (supplicant.after Sample.knows Sample.looking).Enabled ⟨.connMsg 0 { cmd := .connect }, {}⟩ := by
    decide +kernel
  have haccept : (Cntrl.accepted 0 { cmd := .connect }
      ((supplicant.after Sample.knows Sample.looking).before (Sample.asks .connect))).isSome = true := by
    decide +kernel
  have htries := connect_tries_first_iff hreached henabled haccept
  obtain ⟨s', hs'⟩ := Option.isSome_iff_exists.mp haccept
  exact ⟨htries.1, s', htries.2 hs' (by decide +kernel)⟩

/-- The access point has turned the station away once. The next client that asks is told
that there is nothing to connect to, and no attempt is made. -/
theorem turnedAway_not_tried : Sample.knows.Initial ∧
    supplicant.Valid Sample.knows (Sample.turnedAway ++ [Sample.asks .connect]) ∧
    (Cntrl.accepted 0 { cmd := .connect }
      ((supplicant.after Sample.knows Sample.turnedAway).before (Sample.asks .connect))).isSome = true ∧
    ¬ ∀ i, Cntrl.triesFirst 0 { cmd := .connect }
        ((supplicant.after Sample.knows Sample.turnedAway).before (Sample.asks .connect)) = some i ↔
      (supplicant.after Sample.knows Sample.turnedAway).table.FirstAmong (requested { cmd := .connect }) i := by
  refine ⟨Sample.knows_initial, by decide +kernel, by decide +kernel, fun h => ?_⟩
  have hcount : (supplicant.after Sample.knows Sample.turnedAway).table.nscans = 1 := by decide +kernel
  have hnone : Cntrl.triesFirst 0 { cmd := .connect }
      ((supplicant.after Sample.knows Sample.turnedAway).before (Sample.asks .connect)) = none := by
    decide +kernel
  have hfirst := (h 0).mpr ⟨by decide +kernel, fun j hj => .inl ?_⟩
  · rw [hnone] at hfirst
    cases hfirst
  · have hlt := hj.1
    omega

end Wsupp

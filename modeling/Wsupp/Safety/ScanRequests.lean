import Wsupp.Control.Link

/-!
# Requests for scans

One scan runs at a time. A request made while it runs joins it, unless it is one of
a single frequency, and what follows the scan depends on everything that was asked
for meanwhile. The requests of a scan are a list here, which the bits of `scanreq`
stand for.

The machine has the calls of `start_scan`, the messages about scans and changes of
all other variables as its events, with sends that may fail. Each event is accounted
for against the list. That nothing is left of a scan once it is over is also shown
of the daemon itself, by what each of its handlers does to the variables of the
scan.
-/
namespace Wsupp
open Reactive Prog Handler View

/-- The bits for the requests of one scan, the first of which has started it. -/
def ScanReq.of (reqs : List Int) : ScanReq where
  scanningOneFreq := 0 < reqs.headD 0
  reconnectCurrent := reqs.any (0 < ·)
  connectSomething := reqs.any (· < 0)

theorem ScanReq.of_start (freq : Int) : ScanReq.of [freq] =
    if 0 < freq then
      { (ScanReq.add {} freq) with scanningOneFreq := true, reconnectCurrent := true }
    else ScanReq.add {} freq := by
  by_cases h : 0 < freq
  · simp [ScanReq.of, ScanReq.add, h]
  · simp [ScanReq.of, ScanReq.add, h]

theorem ScanReq.of_join {reqs : List Int} (h : reqs ≠ []) (freq : Int) :
    (ScanReq.of reqs).add freq = ScanReq.of (reqs ++ [freq]) := by
  cases reqs with
  | nil => exact absurd rfl h
  | cons r reqs => simp [ScanReq.of, ScanReq.add, Bool.or_assoc]

/-- Nothing is left of the scans before. -/
def Control.Cleared (c : Control) : Prop := c.scanstate = .idle → c.scanreq = {} ∧ c.scanseq = 0

/-- The scan variables while a scan runs for these requests, or none runs: the bits are
those of the requests, and an idle scan has neither bits nor a number. -/
structure Control.Serves (c : Control) (reqs : List Int) : Prop where
  idle : c.Cleared
  running : c.scanstate ≠ .idle → reqs ≠ [] ∧ c.scanreq = .of reqs

/-- What is to follow a scan, by its requests. -/
def finishScan (reqs : List Int) : Handler Unit := do
  resetScanState
  Netlink.dropStaleScanSlots
  checkNewScanResults
  reportScanDone
  if ∃ freq ∈ reqs, 0 < freq then reconnectToCurrentAp
  else if ∃ freq ∈ reqs, freq < 0 then reassessWifiSituation
  else pure ()

/-- A request, a message from the kernel, or anything done to other variables. -/
inductive ScanEvent where
  | call (freq : Int)
  | netlink (msg : Netlink.Msg)
  | other (f : Daemon → Daemon)

/-- The messages that scans are about. -/
def Netlink.Msg.scans (c : Control) : Netlink.Msg → Bool
  | .done | .other => true
  | .err seq ret => ret = -ENETDOWN || seq = c.scanseq
  | .gen msg => match msg.cmd with
      | .triggerScan | .newScanResults | .scanAborted | .other => true
      | _ => false

def Control.scan (c : Control) : ScanState × ScanReq × ℕ := (c.scanstate, c.scanreq, c.scanseq)

structure Scanner extends Daemon where
  halted : Bool := false

namespace Scanner

def Enabled (x : Scanner) : ScanEvent → Prop
  | .call _ => x.halted = false
  | .netlink msg => x.halted = false ∧ msg.scans x.toControl = true
  | .other f => x.halted = false ∧ (f x.toDaemon).scan = x.scan

instance (x : Scanner) (e : ScanEvent) : Decidable (x.Enabled e) :=
  match e with
  | .call _ => inferInstanceAs (Decidable (_ = _))
  | .netlink _ => inferInstanceAs (Decidable (_ ∧ _))
  | .other _ => inferInstanceAs (Decidable (_ ∧ _))

def handler : ScanEvent → Handler Int
  | .call freq => startScan freq
  | .netlink msg => do
      Netlink.handleMsg msg
      pure 0
  | .other f => do
      update f
      pure 0

def step (x : Scanner) (e : ScanEvent) : Scanner × List (Option Int × List Act) :=
  match handler e x.toDaemon with
  | .ok ret s out => ({ toDaemon := s }, [(some ret, out)])
  | .halt s out => ({ toDaemon := s, halted := true }, [(none, out)])

def Initial (x : Scanner) : Prop := x.scanstate = .idle ∧ x.scanreq = {} ∧ x.scanseq = 0

end Scanner

/-- Each step puts out what the call returned, if it did, and what was done. -/
def scanner : Machine Scanner ScanEvent (Option Int × List Act) where
  enabled := Scanner.Enabled
  step := Scanner.step

/-- The requests accepted for one scan, as their callers see it: one that is
accepted and has a command sent is the first of a new list. -/
def accept (e : ScanEvent) (out : List (Option Int × List Act)) (reqs : List Int) : List Int :=
  match e, out with
  | .call freq, [(some 0, [])] => reqs ++ [freq]
  | .call freq, [(some 0, _)] => [freq]
  | _, _ => reqs

/-- The scanner and the requests that were accepted since a scan was started. The list
is emptied when the scan is over. -/
def accounts : Machine (Scanner × List Int) ScanEvent (Option Int × List Act) :=
  scanner.record fun _ => accept

instance (y : Scanner × List Int) (e : ScanEvent) : Decidable (accounts.enabled y e) :=
  inferInstanceAs (Decidable (y.1.Enabled e))

/-- How the requests are dealt with in one step: what a call returns and sends, and what
follows the end of a dump, by the list of requests. -/
structure Accounted (x : Scanner) (reqs : List Int) (e : ScanEvent) : Prop where
  idle : x.Cleared
  accepted : ∀ freq out, e = .call freq → (x.step e).2 = [(some 0, out)] →
    (x.scanstate = .idle ∧ (x.step e).1.scanstate = .scanning ∧
      ∃ sent, out = [.nl (.triggerScan (if 0 < freq then some freq else none)) sent]) ∨
    (x.scanstate ≠ .idle ∧ (x.step e).1.scanstate = x.scanstate ∧ out = [])
  busy : ∀ freq, e = .call freq → x.scanstate ≠ .idle → 0 < reqs.headD 0 →
    x.step e = (x, [(some (-EBUSY), [])])
  done : e = .netlink .done → x.scanstate = .scandump →
    Netlink.handleMsg .done x.toDaemon = finishScan reqs x.toDaemon

/-- A command is sent: what is reported is not negative. -/
theorem nlSend_wp {cmd : NlCommand} {s : Daemon} {Q : Int → Daemon → List Act → Prop}
    {R : Daemon → List Act → Prop}
    (h : ∀ ret seq env sent, 0 ≤ ret → Q ret { s with seq := seq, env := env } [.nl cmd sent]) :
    wp (nlSend cmd) Q R s := by
  unfold nlSend answerNlSend answer
  simp only [wp_bind, wp_read, wp_update, wp_emit, wp_pure, List.nil_append, List.append_nil]
  refine h _ _ _ _ ?_
  split <;> decide

section Step
variable {s : Daemon} {c c' : Control} {reqs : List Int}

theorem Control.Serves.of_running (hs : c.scanstate ≠ .idle) (hne : reqs ≠ [])
    (hr : c.scanreq = .of reqs) : c.Serves reqs where
  idle h := absurd h hs
  running _ := ⟨hne, hr⟩

theorem Control.Serves.of_idle (hs : c.scanstate = .idle) (hr : c.scanreq = {})
    (hseq : c.scanseq = 0) : c.Serves reqs where
  idle _ := ⟨hr, hseq⟩
  running h := absurd hs h

theorem startScan_starts (hs : s.Serves reqs) (hidle : s.scanstate = .idle) (freq : Int) :
    wp (startScan freq) (fun ret s' out => ret = 0 ∧ s'.scanstate = .scanning ∧
      s'.toControl.Serves [freq] ∧
      ∃ sent, out = [.nl (.triggerScan (if 0 < freq then some freq else none)) sent])
      (fun _ _ => False) s := by
  have hreq := (hs.idle hidle).1
  have hserves (c : Control) (hc : c.scanstate = .scanning) (hr : c.scanreq = .of [freq]) :
      c.Serves [freq] := .of_running (by simp [hc]) (by simp) hr
  have hof := ScanReq.of_start freq
  unfold startScan triggerScan when
  simp only [wp_bind, wp_read, if_pos hidle, wp_update, List.nil_append]
  split
  · next h =>
      rw [if_pos h] at hof
      simp only [wp_update, List.nil_append, hreq]
      refine nlSend_wp fun ret seq env sent hret => ?_
      rw [if_neg (by omega)]
      simp only [wp_bind, wp_update, wp_pure, List.append_nil]
      exact ⟨trivial, trivial, hserves _ rfl hof.symm, sent, rfl⟩
  · next h =>
      rw [if_neg h] at hof
      simp only [wp_pure, List.nil_append, hreq]
      refine nlSend_wp fun ret seq env sent hret => ?_
      rw [if_neg (by omega)]
      simp only [wp_bind, wp_update, wp_pure, List.append_nil]
      exact ⟨trivial, trivial, hserves _ rfl hof.symm, sent, rfl⟩

/-- A request while a scan of one frequency runs is refused. -/
theorem startScan_busy (hs : s.Serves reqs) (hrun : s.scanstate ≠ .idle) (hone : 0 < reqs.headD 0)
    (freq : Int) : startScan freq s = .ok (-EBUSY) s [] := by
  have hreq := (hs.running hrun).2
  have hbit : s.scanreq.scanningOneFreq = true := by
    rw [hreq]
    exact decide_eq_true hone
  unfold startScan
  rw [read_bind, if_neg hrun, if_pos hbit]
  rfl

theorem startScan_joins (hs : s.Serves reqs) (hrun : s.scanstate ≠ .idle)
    (hone : ¬ 0 < reqs.headD 0) (freq : Int) :
    wp (startScan freq) (fun ret s' out => ret = 0 ∧ s'.scanstate = s.scanstate ∧
      s'.toControl.Serves (reqs ++ [freq]) ∧ out = []) (fun _ _ => False) s := by
  obtain ⟨hne, hreq⟩ := hs.running hrun
  have hbit : ¬ s.scanreq.scanningOneFreq = true := by
    rw [hreq]
    exact fun h => hone (of_decide_eq_true h)
  unfold startScan
  simp only [wp_bind, wp_read, if_neg hrun, if_neg hbit, wp_update, wp_pure, List.nil_append]
  refine ⟨trivial, trivial, .of_running hrun (by simp) ?_, trivial⟩
  change s.scanreq.add freq = _
  rw [hreq]
  exact ScanReq.of_join hne freq

/-- The bits read at the end of a dump are those of the requests. -/
theorem genlDone_eq (hs : s.Serves reqs) (hdump : s.scanstate = .scandump) :
    Netlink.genlDone s = finishScan reqs s := by
  have hreq := (hs.running (by simp [hdump])).2
  have hrec : s.scanreq.reconnectCurrent = true ↔ ∃ freq ∈ reqs, 0 < freq := by
    simp [hreq, ScanReq.of]
  have hcon : s.scanreq.connectSomething = true ↔ ∃ freq ∈ reqs, freq < 0 := by
    simp [hreq, ScanReq.of]
  unfold Netlink.genlDone finishScan
  rw [read_bind, if_neg (not_not.mpr hdump)]
  simp only [← hrec, ← hcon]

/-- A scan goes on to its dump, or nothing happens to it; with `asks`, a scan may
be asked for, and with `ends`, the one that runs may come to its end. -/
inductive ScanMove (asks ends : Bool) (c c' : Control) : Prop where
  | rests : c'.scan = c.scan → ScanMove asks ends c c'
  | dumps (seq : ℕ) : c.scanstate = .scanning → c'.scan = (.scandump, c.scanreq, seq) →
      ScanMove asks ends c c'
  | ends : ends = true → c'.scan = (.idle, {}, 0) → ScanMove asks ends c c'
  | asks : asks = true → c'.scanstate ≠ .idle → ScanMove asks ends c c'

def Netlink.Msg.endsScan (s : Daemon) : Netlink.Msg → Bool
  | .done => s.scanstate = .scandump
  | .err seq ret => ret = -ENETDOWN || (seq = s.scanseq && ret ≠ 0)
  | .gen msg => msg.ifi = some s.ifindex && msg.cmd = .scanAborted && s.scanstate = .scanning
  | .other => false

theorem Control.Serves.move {ends : Bool} (h : c.Serves reqs) (hm : ScanMove false ends c c') :
    c'.Serves reqs := by
  cases hm with
  | rests heq =>
      simp only [Control.scan, Prod.mk.injEq] at heq
      obtain ⟨h₁, h₂, h₃⟩ := heq
      constructor
      · unfold Control.Cleared
        rw [h₁, h₂, h₃]
        exact h.idle
      · rw [h₁, h₂]
        exact h.running
  | dumps seq hs heq =>
      simp only [Control.scan, Prod.mk.injEq] at heq
      obtain ⟨hne, hreq⟩ := h.running (by simp [hs])
      exact .of_running (by simp [heq.1]) hne (heq.2.1.trans hreq)
  | ends _ heq =>
      simp only [Control.scan, Prod.mk.injEq] at heq
      exact .of_idle heq.1 heq.2.1 heq.2.2
  | asks h _ => cases h

end Step

section Moves
variable {c c' : Control} {s : Daemon} {ks : List Act} {o : Outcome Unit Control}

theorem Control.Cleared.move {asks ends : Bool} (h : c.Cleared) (hm : ScanMove asks ends c c') :
    c'.Cleared := by
  cases hm with
  | rests heq =>
      simp only [Control.scan, Prod.mk.injEq] at heq
      obtain ⟨h₁, h₂, h₃⟩ := heq
      unfold Control.Cleared
      rwa [h₁, h₂, h₃]
  | dumps seq _ heq =>
      simp only [Control.scan, Prod.mk.injEq] at heq
      exact fun hs => by rw [heq.1] at hs; cases hs
  | ends _ heq =>
      simp only [Control.scan, Prod.mk.injEq] at heq
      exact fun _ => heq.2
  | asks _ hne => exact fun hs => absurd hs hne

theorem ScanMove.starts {ends : Bool} (freq : Int) (seq : ℕ) :
    ScanMove true ends c (c'.startScan freq seq) :=
  .asks rfl (Control.startScan_scanstate c' freq seq)

theorem Reassess.scan (h : Reassess c ks o) : o.Returns fun c' => c'.scan = c.scan := by
  cases h with
  | ends _ _ => trivial
  | _ => rfl

/-- Choosing an access point after what has been done to the scan variables. -/
theorem Reassess.scanMove {asks ends : Bool} (h : Reassess c' ks o) (hm : ScanMove asks ends c c') :
    o.Returns (ScanMove asks ends c) := by
  have hscan := h.scan
  cases o with
  | ends => trivial
  | goes _ c₁ =>
      have hscan : c₁.scan = c'.scan := hscan
      cases hm with
      | rests h => exact .rests (hscan.trans h)
      | dumps seq hs h => exact .dumps seq hs (hscan.trans h)
      | ends he h => exact .ends he (hscan.trans h)
      | asks ha hne => exact .asks ha (by rw [show c₁.scanstate = _ from congrArg (·.1) hscan]; exact hne)

theorem Abort.scanMove {asks ends : Bool} (h : Abort c' ks o) (hm : c'.scan = c.scan) :
    o.Returns (ScanMove asks ends c) := by
  cases h with
  | disconnects _ _ _ _ => exact .rests hm
  | stays _ => exact .rests hm
  | reassesses _ h => exact h.scanMove (.rests hm)

theorem HandleDisconnect.scanMove {ends : Bool} (h : HandleDisconnect c' ks o)
    (hm : c'.scan = c.scan) : o.Returns (ScanMove true ends c) := by
  cases h with
  | exits _ => exact .rests hm
  | rescans freq seq _ => exact .starts freq seq
  | tries_other _ h => exact h.scanMove (.rests hm)
  | gives_up _ => exact .rests hm

theorem StartConnection.scan {socket : Bool} {o : Outcome Int Control}
    (h : StartConnection c socket ks o) : o.void.Returns fun c' => c'.scan = c.scan := by
  cases h with
  | ends _ _ _ => trivial
  | _ => rfl

namespace Netlink

theorem GenlDone.scanMove (h : GenlDone s ks o) :
    o.Returns (ScanMove false (Msg.done.endsScan s) s.toControl) := by
  cases h with
  | no_dump _ => exact .rests rfl
  | reconnects hs _ _ h =>
      have hscan := h.scan
      cases h with
      | ends _ _ _ => trivial
      | _ => exact .ends (decide_eq_true hs) hscan
  | misses hs _ _ h => exact h.scanMove (.ends (decide_eq_true hs) rfl)
  | reassesses hs _ _ h => exact h.scanMove (.ends (decide_eq_true hs) rfl)
  | rests hs _ _ => exact .ends (decide_eq_true hs) rfl

theorem GenlError.scanMove {seq : ℕ} {err : Int} (h : GenlError s.toControl seq err ks o) :
    o.Returns (ScanMove (!(Msg.err seq err).scans s.toControl) ((Msg.err seq err).endsScan s)
      s.toControl) := by
  cases h with
  | killed herr _ => exact .ends (by simp [Msg.endsScan, herr]) rfl
  | netdown herr _ => exact .ends (by simp [Msg.endsScan, herr]) rfl
  | scan_ack _ _ => exact .rests rfl
  | scan_fails _ hs herr => exact .ends (by simp [Msg.endsScan, hs, herr]) rfl
  | idle _ _ _ => exact .rests rfl
  | disconnect_fails _ _ _ h => exact h.scanMove (.rests rfl)
  | rescans freq seq' hs _ herr =>
      refine .asks ?_ (Control.startScan_scanstate _ freq seq')
      simp [Msg.scans, hs, herr, ENOENT, ENETDOWN]
  | aborts _ _ _ _ _ h => exact h.scanMove rfl

theorem GenEffect.scanMove {msg : Gen} (hifi : msg.ifi = some s.ifindex) (h : GenEffect s msg ks o) :
    o.Returns (ScanMove (!(Msg.gen msg).scans s.toControl) ((Msg.gen msg).endsScan s)
      s.toControl) := by
  unfold GenEffect at h
  cases hcmd : msg.cmd <;> simp only [hcmd, Msg.scans] at h ⊢
  case triggerScan => obtain ⟨-, rfl⟩ := h; exact .rests rfl
  case other => obtain ⟨-, rfl⟩ := h; exact .rests rfl
  case newScanResults =>
    cases h with
    | stays => exact .rests rfl
    | dumps seq hs => exact .dumps seq hs rfl
  case scanAborted =>
    cases h with
    | stays _ => exact .rests rfl
    | aborts hs => exact .ends (by simp [Msg.endsScan, hifi, hcmd, hs]) rfl
  case authenticate => cases h <;> exact .rests rfl
  case associate => cases h <;> exact .rests rfl
  case connect => cases h <;> exact .rests rfl
  case disconnect =>
    cases h with
    | idle _ => exact .rests rfl
    | disconnects _ h => exact h.scanMove rfl

theorem MsgEffect.scanMove {msg : Msg} (h : MsgEffect s msg ks o) :
    o.Returns (ScanMove (!msg.scans s.toControl) (msg.endsScan s) s.toControl) := by
  cases msg with
  | done => exact GenlDone.scanMove h
  | err seq err => exact GenlError.scanMove h
  | gen msg =>
      simp only [MsgEffect] at h
      split at h
      · next hifi => exact GenEffect.scanMove hifi h
      · obtain ⟨-, rfl⟩ := h
        exact .rests rfl
  | other =>
      obtain ⟨-, rfl⟩ := h
      exact .rests rfl

end Netlink
end Moves

namespace Scanner
variable {x : Scanner} {e : ScanEvent} {reqs : List Int}

theorem Enabled.running (h : x.Enabled e) : x.halted = false := by
  cases e with
  | call _ => exact h
  | netlink _ => exact h.1
  | other _ => exact h.1

/-- What is known of the handler is known of the step. -/
theorem step_of {Q : Int → Daemon → List Act → Prop} {R : Daemon → List Act → Prop}
    (h : wp (handler e) Q R x.toDaemon) :
    (∃ ret s out, x.step e = ({ toDaemon := s }, [(some ret, out)]) ∧ Q ret s out) ∨
      ∃ s out, x.step e = ({ toDaemon := s, halted := true }, [(none, out)]) ∧ R s out := by
  unfold wp at h
  unfold step
  cases hm : handler e x.toDaemon with
  | ok ret s out =>
      rw [hm] at h
      exact .inl ⟨ret, s, out, rfl, h⟩
  | halt s out =>
      rw [hm] at h
      exact .inr ⟨s, out, rfl, h⟩

theorem netlink_serves {msg : Netlink.Msg} (hx : x.Serves reqs)
    (hm : msg.scans x.toControl = true) : wp (handler (.netlink msg))
      (fun _ s _ => s.toControl.Serves reqs) (fun _ _ => True) x.toDaemon := by
  unfold handler
  rw [wp_bind]
  refine wp_mono (Netlink.handleMsg_does msg x.toDaemon) ?_ fun _ _ _ => trivial
  intro _ s out h
  have hmove := h.scanMove
  rw [hm] at hmove
  exact hx.move hmove

theorem step_busy (hx : x.Serves reqs) (hrun : x.scanstate ≠ .idle) (hone : 0 < reqs.headD 0)
    (freq : Int) : x.step (.call freq) = ({ toDaemon := x.toDaemon }, [(some (-EBUSY), [])]) := by
  unfold step
  rw [show handler (.call freq) x.toDaemon = _ from startScan_busy hx hrun hone freq]

theorem step_serves (hx : x.Serves reqs) (he : x.Enabled e) :
    (x.step e).1.halted = false → (x.step e).1.Serves (accept e (x.step e).2 reqs) := by
  cases e with
  | call freq =>
      by_cases hidle : x.scanstate = .idle
      · obtain ⟨ret, s, out, heq, rfl, -, hs, sent, rfl⟩ | ⟨-, -, -, ⟨⟩⟩ :=
          step_of (e := .call freq) (startScan_starts hx hidle freq)
        rw [heq]
        exact fun _ => hs
      by_cases hone : 0 < reqs.headD 0
      · rw [step_busy hx hidle hone]
        exact fun _ => hx
      · obtain ⟨ret, s, out, heq, rfl, -, hs, rfl⟩ | ⟨-, -, -, ⟨⟩⟩ :=
          step_of (e := .call freq) (startScan_joins hx hidle hone freq)
        rw [heq]
        exact fun _ => hs
  | netlink msg =>
      obtain ⟨ret, s, out, heq, hs⟩ | ⟨s, out, heq, -⟩ := step_of (netlink_serves hx he.2)
      · rw [heq]
        exact fun _ => hs
      · rw [heq]
        exact fun h => by cases h
  | other f =>
      have hrests : ScanMove false false x.toControl (f x.toDaemon).toControl := .rests he.2
      exact fun _ => hx.move hrests

theorem step_accounted (hx : x.Serves reqs) (he : x.Enabled e) : Accounted x reqs e where
  idle := hx.idle
  accepted := by
    rintro freq out rfl hout
    by_cases hidle : x.scanstate = .idle
    · obtain ⟨ret, s, out', heq, rfl, hs, -, sent, rfl⟩ | ⟨-, -, -, ⟨⟩⟩ :=
        step_of (e := .call freq) (startScan_starts hx hidle freq)
      rw [heq] at hout ⊢
      cases hout
      exact .inl ⟨hidle, hs, sent, rfl⟩
    by_cases hone : 0 < reqs.headD 0
    · rw [step_busy hx hidle hone] at hout
      cases hout
    · obtain ⟨ret, s, out', heq, rfl, hs, -, rfl⟩ | ⟨-, -, -, ⟨⟩⟩ :=
        step_of (e := .call freq) (startScan_joins hx hidle hone freq)
      rw [heq] at hout ⊢
      cases hout
      exact .inr ⟨hidle, hs, rfl⟩
  busy := by
    rintro freq rfl hrun hone
    rw [step_busy hx hrun hone]
    cases x
    cases he
    rfl
  done := by
    rintro rfl hdump
    unfold Netlink.handleMsg
    rw [read_bind]
    exact genlDone_eq hx hdump

end Scanner

section Daemon
variable {c c' : Control} {s : Daemon} {ks : List Act} {o : Outcome Unit Control}

theorem Frame.scanMove {sender data : Bytes} (h : Frame s sender data ks o) :
    o.Returns (ScanMove true false s.toControl) := by
  cases h with
  | ignored _ => exact .rests rfl
  | aborts _ h => exact h.scanMove rfl
  | packet1_ends _ _ _ _ _ => trivial
  | packet1_early _ _ _ _ _ _ _ _ => exact .rests rfl
  | packet1 _ _ _ _ _ _ _ _ h =>
      cases h with
      | sent _ _ _ h =>
          obtain ⟨-, rfl⟩ := h
          exact .rests rfl
      | fails _ _ _ h => exact h.scanMove rfl
  | packet3 _ _ _ _ _ h =>
      cases h with
      | sent _ _ _ h =>
          cases h with
          | connects h =>
              cases h with
              | connects _ _ _ _ _ => exact .rests rfl
              | ends => trivial
      | fails _ _ _ h => exact h.scanMove rfl
  | group1 _ _ _ _ _ h =>
      cases h with
      | sent _ _ _ h =>
          obtain ⟨-, rfl⟩ := h
          exact .rests rfl
      | fails _ _ _ h => exact h.scanMove rfl

theorem Cntrl.CmdEffect.scanMove {msg : Cntrl.Msg} (h : Cntrl.CmdEffect c msg ks o) :
    o.Returns (ScanMove true false c) := by
  unfold Cntrl.CmdEffect at h
  cases hcmd : msg.cmd <;> simp only [hcmd] at h
  case status => obtain ⟨-, rfl⟩ := h; exact .rests rfl
  case device => obtain ⟨-, rfl⟩ := h; exact .rests rfl
  case other => obtain ⟨-, rfl⟩ := h; exact .rests rfl
  case scan =>
    obtain ⟨-, seq, rfl⟩ := h
    exact .starts 0 seq
  case neutral => cases h <;> exact .rests rfl
  case connect =>
    cases h with
    | refuses => exact .rests rfl
    | accepts _ h => exact h.scanMove (.rests rfl)
  case forget =>
    cases h with
    | goes => exact .rests rfl
    | ends => trivial

theorem TimerExpired.scanMove (h : TimerExpired c ks o) : o.Returns (ScanMove true false c) := by
  cases h with
  | exits _ _ => exact .rests rfl
  | idles _ _ => exact .rests rfl
  | bg_scans seq _ => exact .asks rfl (Control.startScan_scanstate _ 0 seq)
  | aborts _ _ _ h => exact h.scanMove rfl
  | fg_scans freq seq _ => exact .starts freq seq

theorem RfkillEffect.scanMove {re : RfkillEvent} (h : RfkillEffect s re ks o) :
    o.Returns (ScanMove true false s.toControl) := by
  cases h with
  | other _ => exact .rests rfl
  | kills _ _ => exact .rests rfl
  | quits _ _ _ _ => trivial
  | revives _ _ _ _ => exact .rests rfl
  | rescans freq seq _ _ _ _ _ => exact .starts freq seq
  | reassesses _ _ _ _ _ h => exact h.scanMove (.rests rfl)

/-- Whether an event may have a scan asked for. -/
def EventKind.asksScan (c : Control) : EventKind → Bool
  | .netlink msg => !msg.scans c
  | _ => true

def EventKind.endsScan (s : Daemon) : EventKind → Bool
  | .netlink msg => msg.endsScan s
  | _ => false

theorem EventKind.scanMove {k : EventKind} (h : k.effect s ks o) :
    o.Returns (ScanMove (k.asksScan s.toControl) (k.endsScan s) s.toControl) := by
  cases k with
  | netlink msg => exact Netlink.MsgEffect.scanMove h
  | frame sender data => exact Frame.scanMove h
  | connMsg cn msg => exact Cntrl.CmdEffect.scanMove h
  | timer => exact TimerExpired.scanMove h
  | rfkill re => exact RfkillEffect.scanMove h
  | sigterm =>
      cases h with
      | second _ _ => trivial
      | exits _ _ _ => exact .rests rfl
      | requests _ _ _ _ _ _ => exact .rests rfl
  | netlinkLost | controlLost | pollError =>
      obtain ⟨rfl, -⟩ := h
      trivial
  | turn =>
      obtain ⟨-, rfl⟩ := h
      split
      · trivial
      · exact .rests rfl
  | connEnd | connHup | frameError | rawsockLost | accept | rfkillLost | reap =>
      obtain ⟨-, rfl⟩ := h
      exact .rests rfl

end Daemon

/-- Whatever asks the daemon for scans, nothing is left of those that are over. -/
theorem scans_cleared {x : System} (hx : x.Initial) {es : List Event}
    (hv : supplicant.Valid x es) :
    supplicant.Always (fun y => y.halted = false → y.toControl.Cleared) x es := by
  refine Machine.always_of_step (fun y e hy he hrun => ?_) ?_ hv
  · have hmove := (System.outcome_returns _).mp (EventKind.scanMove (y.step_effect e)) hrun
    exact (hy he.1).move hmove
  · intro _
    obtain ⟨-, mode, freq, seq, -, hc⟩ := hx.starts
    rw [hc]
    exact fun hs => absurd hs (Control.startScan_scanstate _ freq seq)

/-- Over any run of requests and scan events, nothing is left of a scan once it is over,
each request starts a scan, joins one or is refused, and what follows a scan is what the
requests it took were for. Nor is anything left in a run of the daemon, with whatever
else happens there. -/
theorem scan_requests_accounted {x : Scanner} (hx : x.Initial) {es : List ScanEvent}
    (hv : accounts.Valid (x, []) es) :
    accounts.Every (fun y e => Accounted y.1 y.2 e) (x, []) es ∧
      accounts.Always (fun y => y.1.halted = false → y.1.Cleared) (x, []) es ∧
      ∀ {y : System} {fs : List Event}, y.Initial → supplicant.Valid y fs →
        supplicant.Always (fun z => z.halted = false → z.toControl.Cleared) y fs := by
  have hstart : x.halted = false → x.Serves [] := fun _ => .of_idle hx.1 hx.2.1 hx.2.2
  have hstep (y : Scanner × List Int) (e : ScanEvent) (hy : y.1.halted = false → y.1.Serves y.2)
      (he : accounts.enabled y e) : (accounts.step y e).1.1.halted = false →
        (accounts.step y e).1.1.Serves (accounts.step y e).1.2 :=
    Scanner.step_serves (hy he.running) he
  have hevery : accounts.Every (fun y e => Accounted y.1 y.2 e) (x, []) es :=
    Machine.every_of_step hstep (fun y e hy he => Scanner.step_accounted (hy he.running) he) hstart hv
  have hserves : accounts.Always (fun y => y.1.halted = false → y.1.Serves y.2) (x, []) es :=
    Machine.always_of_every (fun y e hy he _ => hstep y e hy he) hstart hv hevery
  exact ⟨hevery, hserves.mono fun y hy hrun => (hy hrun).idle, fun hy hfs => scans_cleared hy hfs⟩

namespace Sample

/-- A full scan that a reconnection joins, one of a single frequency that nothing
joins, and a background scan between them. -/
def scanning : List ScanEvent :=
  [.call (-1), .call 2412, .netlink (.gen { ifi := some 0, cmd := .newScanResults }),
    .other fun s => { s with opermode := .active }, .netlink .done, .call 0, .netlink (.err 3 (-5)),
    .call 2412, .call (-1), .netlink (.gen { ifi := some 0, cmd := .scanAborted })]

end Sample

theorem scanning_accounted :
    accounts.Every (fun y e => Accounted y.1 y.2 e) ({}, []) Sample.scanning ∧
      accounts.Always (fun y => y.1.halted = false → y.1.Cleared) ({}, []) Sample.scanning ∧
      supplicant.Always (fun z => z.halted = false → z.toControl.Cleared) Sample.start Sample.joining := by
  have haccounted := scan_requests_accounted ⟨rfl, rfl, rfl⟩
    (show accounts.Valid ({}, []) Sample.scanning by decide +kernel)
  exact ⟨haccounted.1, haccounted.2.1, haccounted.2.2 Sample.start_initial (by decide +kernel)⟩

end Wsupp

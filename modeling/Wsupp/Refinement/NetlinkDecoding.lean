import Wsupp.NetlinkInput

/-!
# Messages handled as bytes and decoded

Each handler reads its attributes when it needs them, and the frequencies of a scan
once for every slot. What it does is what the handler of the decoded message does.

The proofs go through the handlers side by side, in the same state, and meet in the
functions that get the values; what a message lacks is a missing value on both
sides. The message has to be there as a whole, which is so for every message that is
handed over from a buffer in order. Of its attributes nothing is asked, since both
sides use the same functions of the library to find them.
-/
namespace Wire.Reader

/-- A search comes to something if there is a hit among all attributes. -/
theorem search_isSome (r : Reader) (hit : ℕ → Bool) (n : ℕ) (o : Option ℕ) :
    (r.search hit n o).isSome = (r.collect (fun _ => true) n o).any hit := by
  induction n generalizing o with
  | zero => cases o <;> rfl
  | succ n ih =>
      cases o with
      | none => rfl
      | some p =>
          rw [search, collect, if_pos rfl, List.any_cons]
          cases hp : hit p with
          | true => rfl
          | false =>
              rw [if_neg Bool.false_ne_true, Bool.false_or]
              exact ih _

end Wire.Reader

namespace Wsupp.Netlink
open Reactive Prog Handler Nl Wire

section Decoding
variable (msg : Bytes)

theorem listsFreq_eq (nest : ℕ) (freq : Int) : listsFreq msg nest freq = (freqsOf msg nest).contains (some freq) := by
  unfold listsFreq freqsOf
  rw [Reader.search_isSome, List.contains_eq_any_beq, List.any_map]
  congr 1
  funext sb
  rw [Function.comp_apply, beq_eq_decide]
  exact decide_eq_decide.mpr eq_comm

theorem markStale_decode : Raw.markStaleScanSlots msg = markStaleScanSlots (genOf msg) := by
  unfold Raw.markStaleScanSlots markStaleScanSlots genOf
  dsimp only
  cases nlGetNest msg ATTR_SCAN_FREQUENCIES with
  | none => rfl
  | some nest =>
      have hslot (sc : Scan) : (if sc.freq = 0 then sc
            else if listsFreq msg nest sc.freq then { sc with flags := { sc.flags with stale := true } } else sc) =
          if sc.freq ≠ 0 && (freqsOf msg nest).contains (some sc.freq) then
            { sc with flags := { sc.flags with stale := true } } else sc := by
        rw [listsFreq_eq]
        by_cases h : sc.freq = 0
        · simp [h]
        · simp [h]
      simp only [hslot]
      rfl

theorem getI32OrZero_eq (bss key : ℕ) : getI32OrZero msg bss key = (nlSubI32 msg bss key).getD 0 := by
  unfold getI32OrZero
  cases nlSubI32 msg bss key <;> rfl

theorem fillSlot_eq (bss bssid : ℕ) (sc : Scan) :
    Raw.fillSlot msg bss bssid sc = scanOf (bssOf msg bss) (msg.slice bssid 6) sc := by
  unfold Raw.fillSlot scanOf bssOf
  dsimp only
  rw [getI32OrZero_eq, getI32OrZero_eq]
  cases nlSub msg bss BSS_INFORMATION_ELEMENTS <;> rfl

/-- A value asked for by its length is all there. -/
theorem nlSubOfLen_inside {type p key len q : ℕ} (hgen : nlGen msg = true) (hwhole : Nlmsg.len msg ≤ msg.length)
    (hp : nlGetNest msg type = some p) (hq : nlSubOfLen msg p key len = some q) :
    (msg.slice q len).length = len := by
  obtain ⟨hfirst, -, hnest⟩ := (nlGetNest_iff hgen type).mp hp
  obtain ⟨at', hfound, hq⟩ := Option.bind_eq_some_iff.mp hq
  have hfits := hnest.2.fits ((subs_visits_iff hnest).mp (nlSub_visits hfound)).1
  have hin := hfirst.fits hgen
  split at hq
  · next hlen =>
      cases hq
      rw [Nlattr.size] at hlen ⊢
      exact Bytes.length_slice (by omega)
  · cases hq

theorem parseScanResult_decode (hgen : nlGen msg = true) (hwhole : Nlmsg.len msg ≤ msg.length) (s : Daemon) :
    Raw.parseScanResult msg s = parseScanResult (genOf msg) s := by
  unfold Raw.parseScanResult parseScanResult genOf
  rw [read_bind, read_bind]
  dsimp only
  cases hbss : nlGetNest msg ATTR_BSS with
  | none => rfl
  | some bss =>
      rw [Option.map_some]
      cases hbssid : nlSubOfLen msg bss BSS_BSSID 6 with
      | none =>
          simp only [bssOf, hbssid]
          rfl
      | some bssid =>
          have hlen := nlSubOfLen_inside msg hgen hwhole hbss hbssid
          have hsome : (bssOf msg bss).bssid.filter (·.length = 6) = some (msg.slice bssid 6) := by
            rw [bssOf, hbssid, Option.map_some, Option.filter_some, if_pos (decide_eq_true hlen)]
          have hfill : Raw.fillSlot msg bss bssid = scanOf (bssOf msg bss) (msg.slice bssid 6) :=
            funext (fillSlot_eq msg bss bssid)
          dsimp only
          rw [hbssid, hsome]
          dsimp only
          exact hfill ▸ rfl

theorem dispatch_decode (hgen : nlGen msg = true) (hwhole : Nlmsg.len msg ≤ msg.length) (s : Daemon) :
    Raw.dispatch msg s = dispatch (genOf msg) s := by
  have htrigger : Raw.cmdTriggerScan msg s = cmdTriggerScan (genOf msg) s := by
    unfold Raw.cmdTriggerScan cmdTriggerScan
    rw [markStale_decode]
  have hresults : Raw.cmdScanResults msg s = cmdScanResults (genOf msg) s := by
    have hmulti : (genOf msg).multi = decide (msgFlags msg &&& NLM_F_MULTI ≠ 0) := rfl
    unfold Raw.cmdScanResults cmdScanResults
    rw [read_bind, read_bind, hmulti]
    by_cases h : msgFlags msg &&& NLM_F_MULTI ≠ 0
    · rw [if_pos h, if_pos (decide_eq_true h)]
      exact parseScanResult_decode msg hgen hwhole s
    · rw [if_neg h, decide_eq_false h, if_neg Bool.false_ne_true]
  unfold Raw.dispatch dispatch
  have hcmd : (genOf msg).cmd = codeOf (genCmd msg) := rfl
  rw [hcmd]
  unfold codeOf
  split_ifs with h₁ h₂ h₃ h₄ h₅ h₆ h₇
  · rw [h₁]
    exact htrigger
  · rw [h₂]
    exact hresults
  · rw [h₃]
    rfl
  · rw [h₄]
    rfl
  · rw [h₅]
    rfl
  · rw [h₆]
    rfl
  · rw [h₇]
    rfl
  · have hnone : (Raw.cmds.find? fun p => p.1 = genCmd msg) = none := by
      simp [Raw.cmds, Ne.symm h₁, Ne.symm h₂, Ne.symm h₃, Ne.symm h₄, Ne.symm h₅, Ne.symm h₆, Ne.symm h₇]
    rw [hnone]

/-- A message does to the service what the message decoded does. -/
theorem handleMsg_decode (hwhole : Nlmsg.len msg ≤ msg.length) (s : Daemon) :
    Raw.handleMsg msg s = handleMsg (decode msg) s := by
  unfold Raw.handleMsg handleMsg decode
  rw [read_bind, read_bind]
  by_cases hdone : msgType msg = NLMSG_DONE
  · rw [if_pos hdone, if_pos hdone]
  rw [if_neg hdone, if_neg hdone]
  by_cases herr : nlErr msg = true
  · rw [if_pos herr, if_pos herr]
  rw [if_neg herr, if_neg herr]
  by_cases hgen : nlGen msg = true
  · have hours : Raw.matchIfi msg s.ifindex = decide ((genOf msg).ifi = some s.ifindex) := by
      unfold Raw.matchIfi genOf
      dsimp only
      cases nlGetI32 msg ATTR_IFINDEX with
      | none => rfl
      | some ifi =>
          by_cases h : ifi = s.ifindex
          · simp [h]
          · simp [h]
    rw [if_pos hgen, if_neg (by simp [hgen]), hours]
    dsimp only
    by_cases h : (genOf msg).ifi = some s.ifindex
    · rw [if_neg (by simp [h]), if_pos h]
      exact dispatch_decode msg hgen hwhole s
    · rw [if_pos (by simp [h]), if_neg h]
  · rw [if_neg hgen, if_pos (by simpa using hgen)]

end Decoding

end Wsupp.Netlink

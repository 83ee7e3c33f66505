import Mathlib.Data.Int.Order.Basic
import Mathlib.Order.WithBot
import Wsupp.Choice.Sorted
import Wsupp.Safety.ClientMessages

/-!
# What is printed of a message

The texts `wifi` prints, from what the daemon has said rather than from the bytes of
the message. Access points are listed by their signals, each one once.

A message is read attribute by attribute, and what it lacks is not printed. `Shown`
connects the attributes of a message with what it says, so each function that prints
is computed on any message whose attributes are these. As the sort is any correct
one, access points that compare equal may come in any order, and the result says
that the list is sorted and has every slot in use exactly once.
-/
namespace Wsupp
open Nlusctl Wire Cntrl

/-- What a message tells about the station: its name, its address and its frequency, as
far as they are in it. -/
structure Station where
  ssid : Option Bytes := none
  bssid : Option Bytes := none
  freq : Int := 0

namespace Said

def station : Said → Station
  | status s => {
      ssid := if s.authstate ≠ .idle ∨ s.ap.fixed then some (s.ap.ssid.take s.ap.slen) else none
      bssid := if s.authstate ≠ .idle then some s.ap.bssid else none
      freq := if s.authstate ≠ .idle then s.ap.freq else 0 }
  | report (.disconnect bssid ssid freq) | report (.connected bssid ssid freq) =>
      { ssid := some ssid, bssid := some bssid, freq := freq }
  | _ => {}

def state : Said → Int
  | status s => commonWifiState s
  | _ => 0

def scans : Said → List Scan
  | status s => occupied s
  | _ => []

end Said

namespace Client

def stationText (showbss : Bool) (st : Station) : Bytes :=
  st.ssid.elim [] ssidText ++ (if showbss then text " " ++ st.bssid.elim [] macText else []) ++ channelText st.freq

def scanText (showbss : Bool) (sc : Scan) : Bytes :=
  signalText sc.signal sc.freq ++ (if showbss then text "  " ++ macText sc.bssid else []) ++ text "  " ++
    ssidText (sc.ssid.take sc.slen) ++ (if sc.flags.pass && sc.flags.good then text " *" else []) ++ text "\n"

def listText (showbss : Bool) (l : List Scan) : Bytes := l.flatMap (scanText showbss)

def statusText (showbss : Bool) (m : Said) : Bytes :=
  stateText m.state ++ text " AP " ++ stationText showbss m.station ++ text "\n"

/-- All of the slots, the strongest signals first, among equals by frequency. -/
def Listed (scs l : List Scan) : Prop :=
  l.Perm scs ∧ l.Pairwise fun sc sc' => sc'.signal < sc.signal ∨ sc.signal = sc'.signal ∧ sc.freq ≤ sc'.freq

section Read
variable {b : Bytes} {cmd : Int} {F : Attrs} {key : ℕ}

theorem holds_get (h : Holds b cmd F) (key : ℕ) :
    match F.get key with
    | none => ucGet b key = none
    | some v => ∃ p, ucGet b key = some p ∧ attrKey b p = key ∧ Carries b (subs b) p v := by
  have hwide := F.width_le
  have hsize := h.size
  exact h.attrs.search key (by omega)

theorem get_none (h : Holds b cmd F) (hget : F.get key = none) : ucGet b key = none := by
  have hfound := holds_get h key
  rw [hget] at hfound
  exact hfound

theorem get_bytes (h : Holds b cmd F) {v : Bytes} (hget : F.get key = some (.bytes v)) :
    ∃ p, ucGet b key = some p ∧ ucPaylen b p = v.length ∧ ucPayload b p = v := by
  have hfound := holds_get h key
  rw [hget] at hfound
  obtain ⟨p, hp, -, hcarries⟩ := hfound
  exact ⟨p, hp, Carries.payload hcarries⟩

theorem getInt_none (h : Holds b cmd F) (hget : F.get key = none) : getInt b key = 0 := by
  rw [getInt, ucGetInt, ucGetBin, get_none h hget]
  rfl

theorem getInt_some (h : Holds b cmd F) {v : Int} (hget : F.get key = some (.bytes (intBytes v)))
    (hlo : -2 ^ 31 ≤ v) (hhi : v < 2 ^ 31) : getInt b key = v := by
  have hfound := holds_get h key
  rw [hget] at hfound
  obtain ⟨p, hp, hkey, hcarries⟩ := hfound
  have hbin := ucIsBin_carries hkey hcarries
  rw [length_intBytes] at hbin
  rw [getInt, ucGetInt, ucGetBin, hp, show (4 : Int) = (4 : ℕ) by rfl, hbin, Option.map_some, Option.getD_some]
  exact bmod_intBytes hlo hhi

theorem printSsid_eq (h : Holds b cmd F) {ssid : Option Bytes} (hget : F.get key = ssid.map .bytes) :
    printSsid b (ucGet b key) = ssid.elim [] ssidText := by
  cases ssid with
  | none =>
      rw [get_none h hget]
      rfl
  | some ssid =>
      obtain ⟨p, hp, -, hpay⟩ := get_bytes h hget
      rw [hp, printSsid, hpay]
      rfl

theorem printMac_eq (h : Holds b cmd F) {bssid : Option Bytes} (hget : F.get key = bssid.map .bytes)
    (hlen : ∀ v ∈ bssid, v.length = 6) : printMac b (ucGet b key) = bssid.elim [] macText := by
  cases bssid with
  | none =>
      rw [get_none h hget]
      rfl
  | some bssid =>
      obtain ⟨p, hp, hpaylen, hpay⟩ := get_bytes h hget
      rw [hlen bssid rfl] at hpaylen
      have hpaylen : ucPaylen b p = 6 := hpaylen
      rw [hp, printMac, if_neg (not_not.mpr hpaylen), hpay]
      rfl

end Read

section Station
variable {m : Said} {ifname b : Bytes}

theorem get_scans {key : ℕ} (hkey : key ≠ ATTR_SCAN) (scs : List Scan) : (scansPuts scs).attrs.get key = none := by
  induction scs with
  | nil => rfl
  | cons sc scs ih =>
      rw [scansPuts]
      by_cases hfreq : sc.freq = 0
      · rw [if_pos hfreq]
        exact ih
      · rw [if_neg hfreq]
        exact (if_neg hkey.symm).trans ih

/-- What is put is what the message tells, attribute by attribute, for the keys the tool
asks for. -/
structure Shown (F : Attrs) (m : Said) : Prop where
  ssid : F.get ATTR_SSID = m.station.ssid.map .bytes
  bssid : F.get ATTR_BSSID = m.station.bssid.map .bytes
  freq : F.get ATTR_FREQ = none ∧ m.station.freq = 0 ∨ F.get ATTR_FREQ = some (.bytes (intBytes m.station.freq))
  state : F.get ATTR_STATE = none ∧ m.state = 0 ∨ F.get ATTR_STATE = some (.bytes (intBytes m.state))

theorem shown_status (s : Daemon) (ifname : Bytes) : Shown (statusPuts s ifname).attrs (.status s) := by
  have hssid := get_scans (show ATTR_SSID ≠ ATTR_SCAN by decide) s.table.slots
  have hbssid := get_scans (show ATTR_BSSID ≠ ATTR_SCAN by decide) s.table.slots
  have hfreq := get_scans (show ATTR_FREQ ≠ ATTR_SCAN by decide) s.table.slots
  rw [statusPuts, wifiPuts_attrs]
  by_cases hidle : s.authstate = .idle
  · by_cases hfixed : s.ap.fixed = true
    · simp only [hidle, hfixed, ne_eq, not_true_eq_false, or_true, if_true, if_false]
      constructor
      · simp only [Said.station, hidle, hfixed, ne_eq, not_true_eq_false, or_true, if_true, Option.map_some]
        rfl
      · simp only [Said.station, hidle, ne_eq, not_true_eq_false, if_false, Option.map_none]
        exact hbssid
      · simp only [Said.station, hidle, ne_eq, not_true_eq_false, if_false]
        exact .inl ⟨hfreq, trivial⟩
      · exact .inr rfl
    · simp only [hidle, hfixed, ne_eq, not_true_eq_false, or_false, if_false, Bool.false_eq_true]
      constructor
      · simp only [Said.station, hidle, hfixed, ne_eq, not_true_eq_false, or_false, if_false, Bool.false_eq_true,
          Option.map_none]
        exact hssid
      · simp only [Said.station, hidle, ne_eq, not_true_eq_false, if_false, Option.map_none]
        exact hbssid
      · simp only [Said.station, hidle, ne_eq, not_true_eq_false, if_false]
        exact .inl ⟨hfreq, trivial⟩
      · exact .inr rfl
  · simp only [hidle, ne_eq, not_false_eq_true, true_or, if_true]
    constructor
    · simp only [Said.station, hidle, ne_eq, not_false_eq_true, true_or, if_true, Option.map_some]
      rfl
    · simp only [Said.station, hidle, ne_eq, not_false_eq_true, if_true, Option.map_some]
      rfl
    · simp only [Said.station, hidle, ne_eq, not_false_eq_true, if_true]
      exact .inr rfl
    · exact .inr rfl

theorem shown (m : Said) (ifname : Bytes) : Shown (m.puts ifname).attrs m := by
  cases m with
  | status s => exact shown_status s ifname
  | reply err => exact ⟨rfl, rfl, .inl ⟨rfl, rfl⟩, .inl ⟨rfl, rfl⟩⟩
  | device ifindex => exact ⟨rfl, rfl, .inl ⟨rfl, rfl⟩, .inl ⟨rfl, rfl⟩⟩
  | report r =>
      cases r with
      | disconnect bssid ssid freq => exact ⟨rfl, rfl, .inr rfl, .inl ⟨rfl, rfl⟩⟩
      | connected bssid ssid freq => exact ⟨rfl, rfl, .inr rfl, .inl ⟨rfl, rfl⟩⟩
      | _ => exact ⟨rfl, rfl, .inl ⟨rfl, rfl⟩, .inl ⟨rfl, rfl⟩⟩

theorem station_sized (h : m.Sized) : (∀ v ∈ m.station.bssid, v.length = 6) ∧ IsShort m.station.freq := by
  cases m with
  | status s =>
      have hap := Daemon.Sized.ap h
      constructor
      · intro v hv
        rw [Said.station] at hv
        dsimp only at hv
        split at hv
        · exact (Option.mem_some_iff.mp hv) ▸ hap.bssid
        · cases hv
      · rw [Said.station]
        dsimp only
        split
        · exact hap.freq
        · exact isShort_zero
  | report r =>
      cases r with
      | disconnect bssid ssid freq => exact ⟨fun v hv => (Option.mem_some_iff.mp hv) ▸ h.1, h.2.2⟩
      | connected bssid ssid freq => exact ⟨fun v hv => (Option.mem_some_iff.mp hv) ▸ h.1, h.2.2⟩
      | _ => exact ⟨fun v hv => absurd hv (Option.not_mem_none v), isShort_zero⟩
  | _ => exact ⟨fun v hv => absurd hv (Option.not_mem_none v), isShort_zero⟩

theorem state_range (m : Said) : 0 ≤ m.state ∧ m.state < 7 := by
  cases m with
  | status s =>
      rw [Said.state]
      unfold commonWifiState
      repeat' split
      all_goals exact ⟨by decide, by decide⟩
  | _ => exact ⟨le_rfl, show (0 : Int) < 7 by omega⟩

variable (hm : m.Sized) (hname : NameFits ifname) (hb : m.Written ifname b)
include hm hname hb

theorem printStation_eq (showbss : Bool) : printStation showbss b = stationText showbss m.station := by
  have hholds := hb.holds hm hname
  obtain ⟨hbssid, hlow, hhigh⟩ := station_sized hm
  have hshown := shown m ifname
  have hfreq : getInt b ATTR_FREQ = m.station.freq := by
    obtain ⟨hnone, hzero⟩ | hsome := hshown.freq
    · rw [hzero]
      exact getInt_none hholds hnone
    · exact getInt_some hholds hsome (by omega) (by omega)
  rw [printStation, printSsid_eq hholds hshown.ssid, printMac_eq hholds hshown.bssid hbssid, hfreq]
  rfl

theorem printStatus_eq (showbss : Bool) : printStatus showbss b = statusText showbss m := by
  have hholds := hb.holds hm hname
  obtain ⟨hlow, hhigh⟩ := state_range m
  have hstate : getInt b ATTR_STATE = m.state := by
    obtain ⟨hnone, hzero⟩ | hsome := (shown m ifname).state
    · rw [hzero]
      exact getInt_none hholds hnone
    · exact getInt_some hholds hsome (by omega) (by omega)
  rw [printStatus, hstate, printStation_eq hm hname hb]
  rfl

end Station

section List
variable {m : Said} {ifname b : Bytes}

theorem values_said (m : Said) (ifname : Bytes) :
    (m.puts ifname).attrs.values ATTR_SCAN = m.scans.map fun sc => .nest (scanPuts sc).attrs := by
  cases m with
  | status s => exact values_status s ifname
  | report r => cases r <;> rfl
  | _ => rfl

theorem scans_sized (h : m.Sized) : ∀ sc ∈ m.scans, sc.Sized := by
  cases m with
  | status s => exact fun sc hsc => Daemon.Sized.scans h sc (List.mem_filter.mp hsc).1
  | _ => exact List.forall_mem_nil _

theorem shows_scans (hm : m.Sized) (hname : NameFits ifname) (hb : m.Written ifname b) :
    List.Forall₂ (ShowsScan b) ((attrs b).collect (fun p => attrKey b p = ATTR_SCAN) (b.length + 1) (ucGet0 b)) m.scans := by
  have hholds := hb.holds hm hname
  have hwide := (m.puts ifname).attrs.width_le
  have hsize := hholds.size
  have hlong {sc : Scan} (hsc : sc ∈ m.scans) : 18 ≤ b.length := by
    cases m with
    | status s =>
        have hlength := (statusPuts_size hm hname).1
        have hname5 := le_align4 (5 + (ifname.takeWhile (· ≠ 0)).length)
        rw [statusLength, wifiLength] at hlength
        rw [Said.puts] at hsize
        omega
    | _ => exact absurd hsc List.not_mem_nil
  have hcollect := hholds.attrs.collect ATTR_SCAN (n := b.length + 1) (by omega)
  rw [values_said, List.forall₂_map_right_iff] at hcollect
  have hboth := (List.forall₂_and_left _ _).mpr ⟨fun sc hsc => (⟨scans_sized hm sc hsc, hsc⟩ : sc.Sized ∧ sc ∈ m.scans),
    hcollect.flip⟩
  refine hboth.flip.imp fun p sc h => ?_
  obtain ⟨hsc, hcarries⟩ := h
  exact shows_scan hsc.1 hcarries.2 (hlong hsc.2)

/-- A number in a nest; a missing one comes before all others. -/
def intKey (msg : Bytes) (key p : ℕ) : WithBot Int := ucSubInt msg p key

theorem cmpInt_ranks (msg : Bytes) (key : ℕ) : Choice.Ranks (fun p q => cmpInt msg p q key) (intKey msg key) := by
  constructor
  · intro p q
    unfold cmpInt intKey
    cases hp : ucSubInt msg p key with
    | none =>
        cases hq : ucSubInt msg q key with
        | none => exact iff_of_false (lt_irrefl _) (lt_irrefl _)
        | some nb => exact iff_of_true (show (-1 : Int) < 0 by omega) (WithBot.bot_lt_coe nb)
    | some na =>
        cases hq : ucSubInt msg q key with
        | none => exact iff_of_false (show ¬ (1 : Int) < 0 by omega) (WithBot.not_lt_bot _)
        | some nb =>
            have hcoe := WithBot.coe_lt_coe (a := na) (b := nb)
            dsimp only
            split_ifs
            · exact iff_of_true (by decide) (hcoe.mpr (by omega))
            · exact iff_of_false (by decide) fun h => absurd (hcoe.mp h) (by omega)
            · exact iff_of_false (by decide) fun h => absurd (hcoe.mp h) (by omega)
  · intro p q
    unfold cmpInt intKey
    cases hp : ucSubInt msg p key with
    | none =>
        cases hq : ucSubInt msg q key with
        | none => exact iff_of_false (lt_irrefl _) (lt_irrefl _)
        | some nb => exact iff_of_false (show ¬ (0 : Int) < -1 by omega) (WithBot.not_lt_bot _)
    | some na =>
        cases hq : ucSubInt msg q key with
        | none => exact iff_of_true (show (0 : Int) < 1 by omega) (WithBot.bot_lt_coe na)
        | some nb =>
            have hcoe := WithBot.coe_lt_coe (a := nb) (b := na)
            dsimp only
            split_ifs
            · exact iff_of_false (by decide) fun h => absurd (hcoe.mp h) (by omega)
            · exact iff_of_true (by decide) (hcoe.mpr (by omega))
            · exact iff_of_false (by decide) fun h => absurd (hcoe.mp h) (by omega)

theorem scanOrd_ranks (msg : Bytes) : Choice.Ranks (scanOrd msg) fun p =>
    toLex (OrderDual.toDual (intKey msg ATTR_SIGNAL p), intKey msg ATTR_FREQ p) := by
  have heq : scanOrd msg = fun p q => if -cmpInt msg p q ATTR_SIGNAL ≠ 0 then -cmpInt msg p q ATTR_SIGNAL
      else cmpInt msg p q ATTR_FREQ := by
    funext p q
    rw [scanOrd]
    split_ifs
    all_goals omega
  rw [heq]
  exact (cmpInt_ranks msg ATTR_SIGNAL).neg.lex (cmpInt_ranks msg ATTR_FREQ)

theorem printScanline_eq {p : ℕ} {sc : Scan} (h : ShowsScan b p sc) (showbss : Bool) :
    printScanline showbss b p = scanText showbss sc := by
  have hmac := h.bssid
  have hname := h.ssid
  rw [ucSubBin] at hmac
  cases hq : ucSub b p ATTR_BSSID with
  | none =>
      rw [hq] at hmac
      cases hmac
  | some q =>
      rw [hq, ucIsBin] at hmac
      split_ifs at hmac with hkey hpaylen
      cases hr : ucSub b p ATTR_SSID with
      | none =>
          rw [hr] at hname
          cases hname
      | some r =>
          rw [hr, Option.map_some] at hname
          rw [printScanline, hq, hr]
          dsimp only
          rw [subInt, h.signal, subInt, h.freq, printMac, if_neg hpaylen, Option.some.inj hmac, printSsid,
            Option.some.inj hname, h.prio]
          rfl

theorem printScanResults_eq {qsort : (ℕ → ℕ → Int) → List ℕ → List ℕ} (hsort : Choice.Sorts qsort) (hm : m.Sized)
    (hname : NameFits ifname) (hb : m.Written ifname b) : ∃ l, Listed m.scans l ∧
      ∀ showbss nl, printScanResults qsort showbss b nl = listText showbss l ++ if nl ∧ l ≠ [] then text "\n" else [] := by
  obtain ⟨l, hl, hperm⟩ := hsort.along (scanOrd b) (shows_scans hm hname hb)
  have hsorted := hsort.ranked (scanOrd_ranks b)
    ((attrs b).collect (fun p => attrKey b p = ATTR_SCAN) (b.length + 1) (ucGet0 b))
  refine ⟨l, ⟨hperm, ?_⟩, ?_⟩
  · apply Choice.pairwise_along hl hsorted
    intro p q sc sc' hp hq hle
    rw [Prod.Lex.toLex_le_toLex, intKey, intKey, intKey, intKey, hp.signal, hq.signal, hp.freq, hq.freq] at hle
    obtain hlt | ⟨heq, hfreq⟩ := hle
    · exact .inl (WithBot.coe_lt_coe.mp (OrderDual.toDual_lt_toDual.mp hlt))
    · exact .inr ⟨WithBot.coe_inj.mp (OrderDual.toDual_inj.mp heq), WithBot.coe_le_coe.mp hfreq⟩
  · intro showbss nl
    have hempty : prepList qsort b ATTR_SCAN (scanOrd b) = [] ↔ l = [] := by
      rw [← List.length_eq_zero_iff, ← List.length_eq_zero_iff]
      exact (congrArg (· = 0) hl.length_eq).to_iff
    have hlines : (prepList qsort b ATTR_SCAN (scanOrd b)).flatMap (printScanline showbss b) = listText showbss l :=
      Choice.flatMap_along hl fun p sc h => printScanline_eq h showbss
    exact congrArg₂ (· ++ ·) hlines (if_congr (and_congr_right fun _ => not_congr hempty) rfl rfl)

end List

end Client
end Wsupp

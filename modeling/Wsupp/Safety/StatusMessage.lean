import Mathlib.Data.List.Forall2
import Wsupp.Status

/-!
# The status message is complete

A slot takes 80 bytes at most where the estimate has 88, and everything else takes
112 where it has 128. So nothing that is put is ever left out, and a client reads
one nest for each slot in use.

The state has arrays of the sizes of their C types, the name of the interface is one
that is accepted at the start, and the block may hold anything before. The message
is the list of calls of the source run on it; its attributes are read with the
functions the client uses, and each nest shows what its slot holds, with a flag
exactly for what is both known and usable.
-/
namespace Wsupp
open Nlusctl Wire

def IsShort (x : Int) : Prop := -2 ^ 15 ≤ x ∧ x < 2 ^ 15

/-- A value of `struct scan`, with a name that fits. -/
structure Scan.Sized (sc : Scan) : Prop where
  freq : IsShort sc.freq
  signal : IsShort sc.signal
  bssid : sc.bssid.length = 6
  ssid : sc.ssid.length = SSIDLEN
  slen : sc.slen ≤ SSIDLEN

/-- A value of `struct ap`, as far as it is reported. -/
structure Ap.Sized (ap : Ap) : Prop where
  freq : IsShort ap.freq
  bssid : ap.bssid.length = 6
  ssid : ap.ssid.length = SSIDLEN
  slen : ap.slen ≤ SSIDLEN

structure Daemon.Sized (s : Daemon) : Prop where
  ifindex : -2 ^ 31 ≤ s.ifindex ∧ s.ifindex < 2 ^ 31
  ap : s.ap.Sized
  scans : ∀ sc ∈ s.table.slots, sc.Sized

/-- The names `setup_iface` takes are no longer than `ifr_name`. -/
def NameFits (ifname : Bytes) : Prop := (ifname.takeWhile (· ≠ 0)).length ≤ 16

namespace Cntrl

/-- The attributes with a key, as the client lists them. -/
def prepList (msg : Bytes) (key : ℕ) : List ℕ :=
  (attrs msg).collect (fun p => attrKey msg p = key) (msg.length + 1) (ucGet0 msg)

/-- The nest at `p` shows a slot: frequency, type, signal, address and name are its own,
and the flag is there exactly for what is both known and usable. -/
structure ShowsScan (msg : Bytes) (p : ℕ) (sc : Scan) : Prop where
  freq : ucSubInt msg p ATTR_FREQ = some sc.freq
  type : ucSubInt msg p ATTR_TYPE = some (typeBits sc.type : Int)
  signal : ucSubInt msg p ATTR_SIGNAL = some sc.signal
  bssid : ucSubBin msg p ATTR_BSSID 6 = some sc.bssid
  ssid : (ucSub msg p ATTR_SSID).map (ucPayload msg) = some (sc.ssid.take sc.slen)
  prio : (ucSub msg p ATTR_PRIO).isSome = (sc.flags.pass && sc.flags.good)

def scanLength (sc : Scan) : ℕ :=
  40 + align4 (4 + sc.slen) + if sc.flags.pass ∧ sc.flags.good then 4 else 0

def wifiLength (s : Daemon) (ifname : Bytes) : ℕ :=
  16 + align4 (5 + (ifname.takeWhile (· ≠ 0)).length) +
    (if s.authstate ≠ .idle ∨ s.ap.fixed then align4 (4 + s.ap.slen) else 0) +
    if s.authstate ≠ .idle then 20 else 0

def occupied (s : Daemon) : List Scan := s.table.slots.filter fun sc => sc.freq ≠ 0

def statusLength (s : Daemon) (ifname : Bytes) : ℕ :=
  8 + wifiLength s ifname + ((occupied s).map scanLength).sum

@[simp] theorem length_intBytes (v : Int) : (intBytes v).length = 4 := Bytes.length_ofLe 4 _

theorem align4_four : align4 4 = 4 := rfl

theorem align4_eight : align4 (4 + 4) = 8 := rfl

theorem align4_ten : align4 (4 + 6) = 12 := rfl

theorem scanPuts_attrs (sc : Scan) : (scanPuts sc).attrs =
    .attr ATTR_FREQ (intBytes sc.freq) (.attr ATTR_TYPE (intBytes (typeBits sc.type))
      (.attr ATTR_SIGNAL (intBytes sc.signal) (.attr ATTR_BSSID sc.bssid
        (.attr ATTR_SSID (sc.ssid.take sc.slen)
          (if sc.flags.pass ∧ sc.flags.good then .attr ATTR_PRIO [] .nil else .nil))))) := by
  by_cases hprio : sc.flags.pass = true ∧ sc.flags.good = true
  · simp only [scanPuts, if_pos hprio]
    rfl
  · simp only [scanPuts, if_neg hprio]
    rfl

theorem wifiPuts_attrs (s : Daemon) (ifname : Bytes) (rest : Puts) :
    (wifiPuts s ifname rest).attrs =
      .attr ATTR_IFI (intBytes s.ifindex) (.attr ATTR_NAME (cstr ifname)
        (.attr ATTR_STATE (intBytes (commonWifiState s))
          (if s.authstate ≠ .idle ∨ s.ap.fixed then
            .attr ATTR_SSID (s.ap.ssid.take s.ap.slen)
              (if s.authstate ≠ .idle then
                .attr ATTR_BSSID s.ap.bssid (.attr ATTR_FREQ (intBytes s.ap.freq) rest.attrs)
              else rest.attrs)
          else rest.attrs))) := by
  by_cases hidle : s.authstate = .idle
  · by_cases hfixed : s.ap.fixed = true
    · simp only [wifiPuts, hidle, hfixed, ne_eq, not_true_eq_false, or_true, if_true, if_false]
      rfl
    · simp only [wifiPuts, hidle, hfixed, ne_eq, not_true_eq_false, or_false, if_false,
        Bool.false_eq_true]
      rfl
  · simp only [wifiPuts, hidle, ne_eq, not_false_eq_true, true_or, if_true]
    rfl

theorem length_ssid {ssid : Bytes} {slen : ℕ} (hssid : ssid.length = SSIDLEN)
    (hslen : slen ≤ SSIDLEN) : (ssid.take slen).length = slen := by
  rw [List.length_take, hssid, min_eq_left hslen]

theorem scanPuts_size {sc : Scan} (h : sc.Sized) :
    4 + (scanPuts sc).attrs.size = scanLength sc ∧ (scanPuts sc).attrs.Small := by
  have hslen : sc.slen ≤ 32 := h.slen
  rw [scanPuts_attrs, scanLength]
  constructor
  · simp only [Attrs.size, length_intBytes, h.bssid, length_ssid h.ssid h.slen, align4_eight,
      align4_ten]
    split
    · simp only [Attrs.size, List.length_nil, Nat.add_zero, align4_four]
      omega
    · simp only [Attrs.size]
      omega
  · simp only [Attrs.Small, length_intBytes, h.bssid, length_ssid h.ssid h.slen]
    refine ⟨by omega, by omega, by omega, by omega, by omega, ?_⟩
    split
    · exact ⟨by decide, trivial⟩
    · trivial

theorem scanLength_le {sc : Scan} (h : sc.Sized) : scanLength sc ≤ 80 := by
  have hslen : sc.slen ≤ 32 := h.slen
  rw [scanLength, align4]
  split
  · omega
  · omega

theorem scansPuts_size {scs : List Scan} (h : ∀ sc ∈ scs, sc.Sized) :
    (scansPuts scs).attrs.size = ((scs.filter fun sc => sc.freq ≠ 0).map scanLength).sum ∧
      (scansPuts scs).attrs.Small := by
  induction scs with
  | nil => exact ⟨rfl, trivial⟩
  | cons sc scs ih =>
      obtain ⟨hsc, hscs⟩ := List.forall_mem_cons.mp h
      obtain ⟨hsize, hsmall⟩ := ih hscs
      obtain ⟨hsize', hsmall'⟩ := scanPuts_size hsc
      have hle := scanLength_le hsc
      rw [scansPuts]
      by_cases hfreq : sc.freq = 0
      · rw [if_pos hfreq, List.filter_cons_of_neg (by simp [hfreq])]
        exact ⟨hsize, hsmall⟩
      · rw [if_neg hfreq, List.filter_cons_of_pos (by simp [hfreq]), List.map_cons, List.sum_cons,
          ← hsize, ← hsize']
        exact ⟨rfl, show 4 + (scanPuts sc).attrs.size < 65536 by omega, hsmall', hsmall⟩

theorem sum_scanLength_le {scs : List Scan} (h : ∀ sc ∈ scs, sc.Sized) :
    ((scs.filter fun sc => sc.freq ≠ 0).map scanLength).sum ≤ 80 * scs.length := by
  induction scs with
  | nil => exact le_rfl
  | cons sc scs ih =>
      obtain ⟨hsc, hscs⟩ := List.forall_mem_cons.mp h
      have hle := scanLength_le hsc
      have hrest := ih hscs
      rw [List.length_cons]
      by_cases hfreq : sc.freq = 0
      · rw [List.filter_cons_of_neg (by simp [hfreq])]
        omega
      · rw [List.filter_cons_of_pos (by simp [hfreq]), List.map_cons, List.sum_cons]
        omega

theorem length_cstr (ifname : Bytes) : (cstr ifname).length = (ifname.takeWhile (· ≠ 0)).length + 1 := by
  rw [cstr, List.length_append, List.length_singleton]

theorem wifiPuts_size {s : Daemon} (hs : s.ap.Sized) {ifname : Bytes} (hname : NameFits ifname)
    {rest : Puts} (hrest : rest.attrs.Small) :
    (wifiPuts s ifname rest).attrs.size = wifiLength s ifname + rest.attrs.size ∧
      (wifiPuts s ifname rest).attrs.Small := by
  have hslen : s.ap.slen ≤ 32 := hs.slen
  have hssid := length_ssid hs.ssid hs.slen
  have hname' : (ifname.takeWhile (· ≠ 0)).length ≤ 16 := hname
  have hfive : 4 + ((ifname.takeWhile (· ≠ 0)).length + 1) = 5 + (ifname.takeWhile (· ≠ 0)).length := by
    omega
  rw [wifiPuts_attrs, wifiLength]
  constructor
  · simp only [Attrs.size, length_intBytes, align4_eight, length_cstr, hfive]
    split
    · split
      · simp only [Attrs.size, length_intBytes, align4_eight, align4_ten, hssid, hs.bssid]
        omega
      · simp only [Attrs.size, hssid]
        omega
    · next hshown =>
        rw [if_neg fun h => hshown (.inl h)]
        omega
  · simp only [Attrs.Small, length_intBytes, length_cstr]
    refine ⟨by omega, by omega, by omega, ?_⟩
    split
    · refine ⟨by rw [hssid]; omega, ?_⟩
      split
      · exact ⟨by rw [hs.bssid]; omega, by rw [length_intBytes]; omega, hrest⟩
      · exact hrest
    · exact hrest

theorem wifiLength_le {s : Daemon} (hs : s.ap.Sized) {ifname : Bytes} (hname : NameFits ifname) :
    wifiLength s ifname ≤ 96 := by
  have hslen : s.ap.slen ≤ 32 := hs.slen
  have hname' : (ifname.takeWhile (· ≠ 0)).length ≤ 16 := hname
  have hnamed : align4 (5 + (ifname.takeWhile (· ≠ 0)).length) ≤ 24 := align4_le (by omega) (by decide)
  have hssid : align4 (4 + s.ap.slen) ≤ 36 := align4_le (by omega) (by decide)
  rw [wifiLength]
  split
  · split
    · omega
    · omega
  · next hshown =>
      rw [if_neg fun h => hshown (.inl h)]
      omega

theorem statusPuts_size {s : Daemon} (hs : s.Sized) {ifname : Bytes} (hname : NameFits ifname) :
    8 + (statusPuts s ifname).attrs.size = statusLength s ifname ∧
      (statusPuts s ifname).attrs.Small := by
  obtain ⟨hscans, hsmall⟩ := scansPuts_size hs.scans
  obtain ⟨hwifi, hsmall'⟩ := wifiPuts_size hs.ap hname hsmall
  refine ⟨?_, hsmall'⟩
  rw [statusPuts, hwifi, hscans, statusLength, occupied]
  omega

theorem statusLength_le {s : Daemon} (hs : s.Sized) {ifname : Bytes} (hname : NameFits ifname) :
    statusLength s ifname ≤ prepHeap (estimateStatus s.table.nscans) := by
  have hwifi := wifiLength_le hs.ap hname
  have hscans := sum_scanLength_le hs.scans
  have hlen : s.table.slots.length ≤ s.table.nscans := List.length_take_le _ _
  rw [statusLength, occupied, prepHeap, estimateStatus, scanSize, Ucattr.size]
  omega

theorem typeBits_lt (type : ScanType) : typeBits type < 2 ^ 9 := by
  unfold typeBits
  have hbit (b : Bool) {k : ℕ} (hk : k < 9) : (if b then 1 <<< k else 0) < 2 ^ 9 := by
    rw [Nat.one_shiftLeft]
    split
    · exact Nat.pow_lt_pow_right (by decide) hk
    · decide
  have hor {a b : ℕ} (ha : a < 2 ^ 9) (hb : b < 2 ^ 9) : a ||| b < 2 ^ 9 := Nat.or_lt_two_pow ha hb
  exact hor (hor (hor (hor (hor (hor (hbit _ (by decide)) (hbit _ (by decide))) (hbit _ (by decide)))
    (hbit _ (by decide))) (hbit _ (by decide))) (hbit _ (by decide))) (hbit _ (by decide))

theorem values_scans (scs : List Scan) : (scansPuts scs).attrs.values ATTR_SCAN =
    (scs.filter fun sc => sc.freq ≠ 0).map fun sc => .nest (scanPuts sc).attrs := by
  induction scs with
  | nil => rfl
  | cons sc scs ih =>
      rw [scansPuts]
      by_cases hfreq : sc.freq = 0
      · rw [if_pos hfreq, List.filter_cons_of_neg (by simp [hfreq]), ih]
      · rw [if_neg hfreq, List.filter_cons_of_pos (by simp [hfreq]), List.map_cons, ← ih]
        rfl

theorem values_status (s : Daemon) (ifname : Bytes) : (statusPuts s ifname).attrs.values ATTR_SCAN =
    (occupied s).map fun sc => .nest (scanPuts sc).attrs := by
  rw [statusPuts, wifiPuts_attrs, occupied, ← values_scans]
  by_cases hidle : s.authstate = .idle
  · by_cases hfixed : s.ap.fixed = true
    · simp only [hidle, hfixed, ne_eq, not_true_eq_false, or_true, if_true, if_false]
      rfl
    · simp only [hidle, hfixed, ne_eq, not_true_eq_false, or_false, if_false, Bool.false_eq_true]
      rfl
  · simp only [hidle, ne_eq, not_false_eq_true, true_or, if_true]
    rfl

section Shows
variable {msg : Bytes} {p key : ℕ} {F : Attrs}

theorem subInt_eq (h : Decodes msg (subs msg) (subs msg p) (ucSub0 msg p) F)
    (hwidth : F.width ≤ msg.length + 1) {v : Int} (hget : F.get key = some (.bytes (intBytes v)))
    (hlo : -2 ^ 31 ≤ v) (hhi : v < 2 ^ 31) : ucSubInt msg p key = some v := by
  have hbin := ucSubBin_eq key h hwidth hget
  rw [length_intBytes] at hbin
  rw [ucSubInt, show (4 : Int) = (4 : ℕ) by rfl, hbin, Option.map_some]
  exact congrArg some (bmod_intBytes hlo hhi)

theorem shows_scan {sc : Scan} (hsc : sc.Sized)
    (h : Decodes msg (subs msg) (subs msg p) (ucSub0 msg p) (scanPuts sc).attrs)
    (hlen : 18 ≤ msg.length) : ShowsScan msg p sc := by
  have hget := scanPuts_attrs sc
  have htype := typeBits_lt sc.type
  have hsize := (scanPuts_size hsc).1
  have hle := scanLength_le hsc
  have hwidth : (scanPuts sc).attrs.width ≤ msg.length + 1 := by
    have hwide := (scanPuts sc).attrs.width_le
    omega
  obtain ⟨hflo, hfhi⟩ := hsc.freq
  obtain ⟨hslo, hshi⟩ := hsc.signal
  constructor
  · exact subInt_eq h hwidth (by rw [hget]; rfl) (by omega) (by omega)
  · exact subInt_eq h hwidth (by rw [hget]; rfl) (by omega) (by omega)
  · exact subInt_eq h hwidth (by rw [hget]; rfl) (by omega) (by omega)
  · have hbin := ucSubBin_eq ATTR_BSSID (b := sc.bssid) h hwidth (by rw [hget]; rfl)
    rw [hsc.bssid] at hbin
    exact hbin
  · obtain ⟨q, hsub, -, hcarries⟩ := ucSub_some ATTR_SSID
      (v := .bytes (sc.ssid.take sc.slen)) h hwidth (by rw [hget]; rfl)
    rw [hsub, Option.map_some, (Carries.payload hcarries).2]
  · by_cases hprio : sc.flags.pass = true ∧ sc.flags.good = true
    · obtain ⟨q, hsub, -, -⟩ := ucSub_some ATTR_PRIO (v := .bytes []) h hwidth
        (by rw [hget, if_pos hprio]; rfl)
      rw [hsub, hprio.1, hprio.2]
      rfl
    · have hsub := ucSub_none ATTR_PRIO h hwidth (by rw [hget, if_neg hprio]; rfl)
      rw [hsub]
      cases hpass : sc.flags.pass <;> cases hgood : sc.flags.good <;>
        first | rfl | exact absurd ⟨hpass, hgood⟩ hprio

end Shows

theorem status_holds {s : Daemon} (hs : s.Sized) {ifname : Bytes} (hname : NameFits ifname)
    {heap : Bytes} (hheap : heap.length = prepHeap (estimateStatus s.table.nscans)) :
    (buildStatus s ifname heap).isOver = false ∧
      Holds (statusReply s ifname heap) 0 (statusPuts s ifname).attrs := by
  obtain ⟨hsize, hsmall⟩ := statusPuts_size hs hname
  have hle := statusLength_le hs hname
  have hscans : s.table.nscans ≤ 30 := s.table.count_le
  have hest : prepHeap (estimateStatus s.table.nscans) ≤ 8192 := by
    rw [prepHeap, estimateStatus, scanSize, Ucattr.size, PAGE]
    omega
  have hroom : 8 + (statusPuts s ifname).attrs.size ≤ heap.length := by omega
  have hwhole := (statusPuts s ifname).sent_whole (show -2 ^ 31 ≤ (0 : Int) by decide) (by decide) hsmall
    hroom (by omega)
  rw [statusPuts_run, statusPuts_sent] at hwhole
  exact hwhole

/-- Nothing overflows, and the message shows every slot in use, in the order of the
table: the attributes are those put, and the nests a client collects are those of the
slots, one by one. -/
theorem status_complete {s : Daemon} (hs : s.Sized) {ifname : Bytes} (hname : NameFits ifname)
    {heap : Bytes} (hheap : heap.length = prepHeap (estimateStatus s.table.nscans)) :
    (buildStatus s ifname heap).isOver = false ∧
      Holds (statusReply s ifname heap) 0 (statusPuts s ifname).attrs ∧
      List.Forall₂ (ShowsScan (statusReply s ifname heap))
        (prepList (statusReply s ifname heap) ATTR_SCAN) (occupied s) := by
  obtain ⟨hover, hholds⟩ := status_holds hs hname hheap
  refine ⟨hover, hholds, ?_⟩
  have hsize := (statusPuts_size hs hname).1
  have hwidth := (statusPuts s ifname).attrs.width_le
  have hlen := hholds.size
  have hcollect := hholds.attrs.collect ATTR_SCAN (n := (statusReply s ifname heap).length + 1) (by omega)
  rw [values_status, List.forall₂_map_right_iff] at hcollect
  have hlong : 18 ≤ (statusReply s ifname heap).length := by
    have hname5 := le_align4 (5 + (ifname.takeWhile (· ≠ 0)).length)
    rw [hlen, hsize, statusLength, wifiLength]
    omega
  have hsized : ∀ sc ∈ occupied s, sc.Sized := fun sc hsc => hs.scans sc (List.mem_filter.mp hsc).1
  have hboth := (List.forall₂_and_left _ _).mpr ⟨hsized, hcollect.flip⟩
  refine hboth.flip.imp fun p sc h => ?_
  obtain ⟨hsc, hcarries⟩ := h
  exact shows_scan hsc hcarries.2 hlong

namespace Sample

/-- A slot with a name of 32 bytes. -/
def longNamed (i : ℕ) : Scan where
  freq := 2412
  signal := -5000
  flags := { pass := true, good := true }
  bssid := [2, 0, 0, 0, 0, UInt8.ofNat i]
  slen := 32
  ssid := List.replicate 32 97

theorem longNamed_sized (i : ℕ) : (longNamed i).Sized where
  freq := show IsShort 2412 from ⟨by decide, by decide⟩
  signal := show IsShort (-5000) from ⟨by decide, by decide⟩
  bssid := rfl
  ssid := rfl
  slen := le_rfl

def seesOne : Daemon where
  table := { scans := longNamed 0 :: List.replicate 29 {}, nscans := 1, size := rfl }

def seesMany : Daemon where
  table := { scans := (List.range 30).map longNamed, nscans := 30, size := rfl }

theorem seesOne_sized : seesOne.Sized where
  ifindex := ⟨by decide, by decide⟩
  ap := ⟨⟨by decide, by decide⟩, rfl, by decide, by decide⟩
  scans := by
    intro sc hsc
    have hslots : seesOne.table.slots = [longNamed 0] := rfl
    rw [hslots, List.mem_singleton] at hsc
    rw [hsc]
    exact longNamed_sized 0

theorem seesMany_sized : seesMany.Sized where
  ifindex := ⟨by decide, by decide⟩
  ap := ⟨⟨by decide, by decide⟩, rfl, by decide, by decide⟩
  scans := by
    intro sc hsc
    obtain ⟨i, -, rfl⟩ := List.mem_map.mp (List.mem_of_mem_take hsc)
    exact longNamed_sized i

def ifname : Bytes := [119, 108, 97, 110, 48]

theorem ifname_fits : NameFits ifname := by
  rw [NameFits]
  decide

end Sample

theorem many_complete :
    (buildStatus Sample.seesMany Sample.ifname (Bytes.zeros 4096)).isOver = false ∧
      Holds (statusReply Sample.seesMany Sample.ifname (Bytes.zeros 4096)) 0
        (statusPuts Sample.seesMany Sample.ifname).attrs ∧
      List.Forall₂ (ShowsScan (statusReply Sample.seesMany Sample.ifname (Bytes.zeros 4096)))
        (prepList (statusReply Sample.seesMany Sample.ifname (Bytes.zeros 4096)) ATTR_SCAN)
        ((List.range 30).map Sample.longNamed) :=
  status_complete Sample.seesMany_sized Sample.ifname_fits List.length_replicate

end Cntrl
end Wsupp

import Wsupp.Memory
import Wsupp.Safety.StationElements

/-!
# What is read of the elements of a station

The functions of `StationIes` once more, with each access to the buffer and to the
array of the name. They read nothing beyond the buffer, except where a type is the
last byte of it: its length is looked for behind the end.

The bytes an element has come with the offset at which they begin, so that an access
can be told inside the buffer from one behind it. The program with its accesses
computes what the plain one does. Which bytes are left behind the whole elements
decides about the bad read, and the result says so for every buffer.
-/
namespace Wsupp
open Memory

inductive IeRegion where
  | buf | ssid
deriving DecidableEq, Repr

abbrev Reading := Traced IeRegion

def readByte (base : ℕ) (b : Bytes) (p : ℕ) : Reading UInt8 := do
  Traced.touch .buf (base + p) 1
  pure (b.at' p)

namespace Reading

def get2le (base : ℕ) (b : Bytes) (p : ℕ) : Reading ℕ :=
  if b.length < p + 3 then pure 0
  else do
    let x ← readByte base b p
    let y ← readByte base b (p + 1)
    pure (x.toNat + 256 * y.toNat)

def get4be (base : ℕ) (b : Bytes) (p : ℕ) : Reading ℕ :=
  if b.length < p + 4 then pure 0
  else do
    let x ← readByte base b p
    let y ← readByte base b (p + 1)
    let z ← readByte base b (p + 2)
    let t ← readByte base b (p + 3)
    pure (0x1000000 * x.toNat + 0x10000 * y.toNat + 0x100 * z.toNat + t.toNat)

/-- The loop over the pairwise suites, with as many turns left. -/
def pairwise (base : ℕ) (b : Bytes) : ℕ → ℕ → ScanType → Reading ScanType
  | 0, _, type => pure type
  | n + 1, p, type => do
      let suite ← get4be base b p
      pairwise base b n (p + 4)
        (if suite = 0x000FAC02 then { type with rsnPTkip := true }
        else if suite = 0x000FAC04 then { type with rsnPCcmp := true }
        else type)

def management (base : ℕ) (b : Bytes) : ℕ → ℕ → ScanType → Reading ScanType
  | 0, _, type => pure type
  | n + 1, p, type => do
      let suite ← get4be base b p
      management base b n (p + 4) (if suite = 0x000FAC02 then { type with rsnPsk := true } else type)

def parseRsnIe (base : ℕ) (type : ScanType) (b : Bytes) : Reading ScanType := do
  let ver ← get2le base b 0
  if ver ≠ 1 then pure type
  else do
    let group ← get4be base b 2
    let pcnt ← get2le base b 6
    let pair := 8
    let acnt ← get2le base b (pair + 4 * pcnt)
    let akm := pair + 4 * pcnt + 2
    let type ← pairwise base b pcnt pair type
    let type ← management base b acnt akm type
    pure (if group = 0x000FAC02 then { type with rsnGTkip := true }
      else if group = 0x000FAC04 then { type with rsnGCcmp := true }
      else type)

def parseVendor (base : ℕ) (type : ScanType) (b : Bytes) : Reading ScanType :=
  if b.length < 4 then pure type
  else do
    Traced.touch .buf base 3
    if b.take 3 ≠ msOui then pure type
    else do
      let x ← readByte base b 3
      if x = 1 then pure { type with wpa := true }
      else if x = 4 then pure { type with wps := true }
      else pure type

/-- The loop over trailing zeros, from the `i`th byte down. -/
def trim (base : ℕ) (b : Bytes) : ℕ → Reading ℕ
  | 0 => pure 0
  | i + 1 => do
      let x ← readByte base b i
      if x ≠ 0 then pure (i + 1) else trim base b i

def setStationSsid (base : ℕ) (sc : Scan) (b : Bytes) : Reading Scan := do
  let len := min b.length SSIDLEN
  Traced.touch .buf base len
  Traced.touch .ssid 0 len
  let i ← trim base b len
  pure { sc with ssid := Bytes.memcpy sc.ssid b len, slen := i }

/-- One element, of which the type and the length are read. -/
def parseElement (base : ℕ) (type : UInt8) (sc : Scan) (payload : Bytes) : Reading Scan :=
  if type = 0 then setStationSsid base sc payload
  else if type = 48 then do
    let type ← parseRsnIe base sc.type payload
    pure { sc with type := type }
  else if type = 221 then do
    let type ← parseVendor base sc.type payload
    pure { sc with type := type }
  else pure sc

/-- The loop, with `b` from `ptr` to `end`. -/
def parseIes : ℕ → ℕ → Scan → Bytes → Reading Scan
  | 0, _, sc, b => if b = [] then pure sc else Traced.cutOff
  | n + 1, ptr, sc, b =>
      if b = [] then pure sc
      else do
        let len ← readByte ptr b 1
        let ielen := 2 + len.toNat
        if b.length < ielen then pure sc
        else do
          let type ← readByte ptr b 0
          let sc ← parseElement (ptr + 2) type sc (b.slice 2 len.toNat)
          parseIes n (ptr + ielen) sc (b.drop ielen)

def parseStationIes (sc : Scan) (b : Bytes) : Reading Scan := parseIes b.length 0 sc b

end Reading

/-- In the buffer, of so many bytes, or in the array of the name. -/
def Inside (total : ℕ) (x : Access IeRegion) : Prop :=
  match x.region with
  | .buf => x.off + x.len ≤ total
  | .ssid => x.off + x.len ≤ SSIDLEN

section Inside
variable {total base p n : ℕ} {b : Bytes} {type : ScanType} {sc : Scan}

theorem readByte_runs (h : base + p < total) : Runs (Inside total) (readByte base b p) (· = b.at' p) := by
  unfold readByte
  simp only [runs_bind, runs_touch, runs_pure, and_true]
  exact h

theorem get2le_runs (h : base + b.length ≤ total) :
    Runs (Inside total) (Reading.get2le base b p) (· = get2le b p) := by
  rw [Reading.get2le, get2le]
  split_ifs with hp
  · exact runs_pure.mpr rfl
  · apply (readByte_runs (by omega)).bind
    apply (readByte_runs (by omega)).bind
    exact runs_pure.mpr rfl

theorem get4be_runs (h : base + b.length ≤ total) :
    Runs (Inside total) (Reading.get4be base b p) (· = get4be b p) := by
  rw [Reading.get4be, get4be]
  split_ifs with hp
  · exact runs_pure.mpr rfl
  · apply (readByte_runs (by omega)).bind
    apply (readByte_runs (by omega)).bind
    apply (readByte_runs (by omega)).bind
    apply (readByte_runs (by omega)).bind
    exact runs_pure.mpr rfl

theorem pairwise_runs (h : base + b.length ≤ total) (n p : ℕ) (type : ScanType) :
    Runs (Inside total) (Reading.pairwise base b n p type)
      (· = { type with
        rsnPTkip := type.rsnPTkip || hasSuite b p n 0x000FAC02
        rsnPCcmp := type.rsnPCcmp || hasSuite b p n 0x000FAC04 }) := by
  induction n generalizing p type with
  | zero =>
      have hnone (v : ℕ) : hasSuite b p 0 v = false := rfl
      rw [Reading.pairwise, hnone, hnone, Bool.or_false, Bool.or_false]
      exact runs_pure.mpr rfl
  | succ n ih =>
      rw [Reading.pairwise, hasSuite_succ, hasSuite_succ]
      apply (get4be_runs h).bind
      apply (ih (p + 4) _).mono
      intro type' htype'
      rw [htype']
      by_cases h2 : get4be b p = 0x000FAC02
      · simp [h2]
      · by_cases h4 : get4be b p = 0x000FAC04
        · simp [h4]
        · simp [h2, h4]

theorem management_runs (h : base + b.length ≤ total) (n p : ℕ) (type : ScanType) :
    Runs (Inside total) (Reading.management base b n p type)
      (· = { type with rsnPsk := type.rsnPsk || hasSuite b p n 0x000FAC02 }) := by
  induction n generalizing p type with
  | zero =>
      have hnone (v : ℕ) : hasSuite b p 0 v = false := rfl
      rw [Reading.management, hnone, Bool.or_false]
      exact runs_pure.mpr rfl
  | succ n ih =>
      rw [Reading.management, hasSuite_succ]
      apply (get4be_runs h).bind
      apply (ih (p + 4) _).mono
      intro type' htype'
      rw [htype']
      by_cases h2 : get4be b p = 0x000FAC02
      · simp [h2]
      · simp [h2]

theorem parseRsnIe_runs (h : base + b.length ≤ total) (type : ScanType) :
    Runs (Inside total) (Reading.parseRsnIe base type b) (· = parseRsnIe type b) := by
  rw [Reading.parseRsnIe, parseRsnIe]
  apply (get2le_runs h).bind
  split_ifs with hversion
  · exact runs_pure.mpr rfl
  · apply (get4be_runs h).bind
    apply (get2le_runs h).bind
    apply (get2le_runs h).bind
    apply (pairwise_runs h _ _ _).bind
    apply (management_runs h _ _ _).bind
    rw [runs_pure]
    by_cases h2 : get4be b 2 = 0x000FAC02
    · simp [h2]
    · by_cases h4 : get4be b 2 = 0x000FAC04
      · simp [h4]
      · simp [h2, h4]

theorem parseVendor_runs (h : base + b.length ≤ total) (type : ScanType) :
    Runs (Inside total) (Reading.parseVendor base type b) (· = parseVendor type b) := by
  rw [Reading.parseVendor, parseVendor]
  by_cases hlen : b.length < 4
  · rw [if_pos hlen, if_pos hlen]
    exact runs_pure.mpr rfl
  · rw [if_neg hlen, if_neg hlen]
    have htouch : Inside total ⟨.buf, base, 3⟩ := by
      change base + 3 ≤ total
      omega
    simp only [runs_bind, runs_touch]
    constructor
    · exact htouch
    · by_cases houi : b.take 3 = msOui
      · rw [if_neg (not_not.mpr houi), if_neg (not_not.mpr houi)]
        apply (readByte_runs (by omega)).bind
        split_ifs
        · exact runs_pure.mpr rfl
        · exact runs_pure.mpr rfl
        · exact runs_pure.mpr rfl
      · rw [if_pos houi, if_pos houi]
        exact runs_pure.mpr rfl

theorem trim_runs (h : base + b.length ≤ total) {i : ℕ} (hi : i ≤ b.length) :
    Runs (Inside total) (Reading.trim base b i) (· = ((b.take i).reverse.dropWhile (· = 0)).length) := by
  induction i with
  | zero => exact runs_pure.mpr rfl
  | succ i ih =>
      have hget : b[i]? = some (b.at' i) := by
        rw [Bytes.at', List.getD_eq_getElem?_getD, List.getElem?_eq_getElem (by omega)]
        rfl
      have htake : (b.take (i + 1)).reverse = b.at' i :: (b.take i).reverse := by
        rw [List.take_add_one, hget, Option.toList_some, List.reverse_append, List.reverse_singleton,
          List.singleton_append]
      have hlen : (b.take i).length = i := List.length_take_of_le (by omega)
      rw [Reading.trim, htake]
      apply (readByte_runs (by omega)).bind
      by_cases hzero : b.at' i = 0
      · rw [if_neg (not_not.mpr hzero), List.dropWhile_cons_of_pos (by simpa using hzero)]
        exact ih (by omega)
      · rw [if_pos hzero, List.dropWhile_cons_of_neg (by simpa using hzero), List.length_cons, List.length_reverse, hlen]
        exact runs_pure.mpr rfl

theorem setStationSsid_runs (h : base + b.length ≤ total) (sc : Scan) :
    Runs (Inside total) (Reading.setStationSsid base sc b) (· = setStationSsid sc b) := by
  have hle : min b.length SSIDLEN ≤ b.length := Nat.min_le_left ..
  have hread : Inside total ⟨.buf, base, min b.length SSIDLEN⟩ := by
    change base + min b.length SSIDLEN ≤ total
    omega
  have hwrite : Inside total ⟨.ssid, 0, min b.length SSIDLEN⟩ := by
    change 0 + min b.length SSIDLEN ≤ SSIDLEN
    omega
  rw [Reading.setStationSsid, setStationSsid]
  simp only [runs_bind, runs_touch]
  constructor
  · exact hread
  constructor
  · exact hwrite
  · apply (trim_runs h hle).mono
    intro i hi
    rw [runs_pure, hi]

/-- What the loop of the model does with one element. -/
def parseElement (type : UInt8) (sc : Scan) (payload : Bytes) : Scan :=
  if type = 0 then setStationSsid sc payload
  else if type = 48 then { sc with type := parseRsnIe sc.type payload }
  else if type = 221 then { sc with type := parseVendor sc.type payload }
  else sc

theorem parseElement_runs (h : base + b.length ≤ total) (type : UInt8) (sc : Scan) :
    Runs (Inside total) (Reading.parseElement base type sc b) (· = parseElement type sc b) := by
  rw [Reading.parseElement, parseElement]
  split_ifs
  · exact setStationSsid_runs h sc
  · apply (parseRsnIe_runs h sc.type).bind
    exact runs_pure.mpr rfl
  · apply (parseVendor_runs h sc.type).bind
    exact runs_pure.mpr rfl
  · exact runs_pure.mpr rfl

end Inside

section Walk
variable {total ptr n : ℕ} {sc : Scan} {b : Bytes}

theorem parseIes_succ (hb : b ≠ []) : parseIes (n + 1) sc b =
    if b.length < 2 + (b.at' 1).toNat then sc
    else parseIes n (parseElement (b.at' 0) sc (b.slice 2 (b.at' 1).toNat)) (b.drop (2 + (b.at' 1).toNat)) := by
  rw [parseIes, if_neg hb]
  rfl

/-- The walk stays inside, and does what the model does, unless it comes to a last byte
that is left over. -/
theorem parseIes_runs (hptr : ptr + b.length = total) (hn : b.length ≤ n) :
    Runs (Inside total) (Reading.parseIes n ptr sc b) (· = parseIes n sc b) ↔ (Wire.restFrom n b).length ≠ 1 := by
  induction n generalizing ptr sc b with
  | zero =>
      obtain rfl := List.length_eq_zero_iff.mp (Nat.le_zero.mp hn)
      exact iff_of_true (runs_pure.mpr rfl) (by decide)
  | succ n ih =>
      match b with
      | [] => exact iff_of_true (runs_pure.mpr rfl) Nat.zero_ne_one
      | [x] =>
          have hbeyond : ¬ Inside total ⟨.buf, ptr + 1, 1⟩ := by
            change ¬ ptr + 1 + 1 ≤ total
            rw [List.length_singleton] at hptr
            omega
          apply iff_of_false
          · intro h
            rw [Reading.parseIes, if_neg (List.cons_ne_nil _ _), readByte, runs_bind, runs_bind, runs_touch] at h
            exact hbeyond h.1
          · exact not_not.mpr rfl
      | x :: len :: t =>
          have hne : x :: len :: t ≠ [] := List.cons_ne_nil _ _
          have hlen : (x :: len :: t).length = t.length + 2 := rfl
          have hat : Bytes.at' (x :: len :: t) 1 = len := rfl
          rw [Reading.parseIes, if_neg hne, parseIes_succ hne, hat, Wire.restFrom]
          rw [runs_bind_iff (readByte_runs (by omega)), hat]
          by_cases hwhole : len.toNat ≤ t.length
          · have hfits : ¬ (x :: len :: t).length < 2 + len.toNat := by omega
            have hdrop : (x :: len :: t).drop (2 + len.toNat) = t.drop len.toNat := by
              rw [Nat.add_comm]
              rfl
            have hrest : (t.drop len.toNat).length = t.length - len.toNat := List.length_drop
            have hslice : (Bytes.slice (x :: len :: t) 2 len.toNat).length = len.toNat := Bytes.length_slice (by omega)
            dsimp only
            rw [if_neg hfits, if_neg hfits, if_pos hwhole, hdrop, runs_bind_iff (readByte_runs (by omega)),
              runs_bind_iff (parseElement_runs (by omega) _ _)]
            exact ih (by omega) (by omega)
          · have hcut : (x :: len :: t).length < 2 + len.toNat := by omega
            dsimp only
            rw [if_pos hcut, if_pos hcut, if_neg hwhole]
            exact iff_of_true (runs_pure.mpr rfl) (by omega)

theorem slen_parseElement (type : UInt8) (sc : Scan) (payload : Bytes) (hsc : sc.slen ≤ SSIDLEN) :
    (parseElement type sc payload).slen ≤ SSIDLEN := by
  rw [parseElement]
  split_ifs
  · exact (slen_setStationSsid sc payload).trans (min_le_right _ _)
  · exact hsc
  · exact hsc
  · exact hsc

theorem slen_parseIes (n : ℕ) {sc : Scan} (b : Bytes) (hsc : sc.slen ≤ SSIDLEN) :
    (parseIes n sc b).slen ≤ SSIDLEN := by
  induction n generalizing sc b with
  | zero => exact hsc
  | succ n ih =>
      by_cases hb : b = []
      · rw [parseIes, if_pos hb]
        exact hsc
      · rw [parseIes_succ hb]
        split_ifs
        · exact hsc
        · exact ih _ (slen_parseElement _ _ _ hsc)

end Walk

/-- Only bytes of the buffer are read, only the array of the name is written, the walk ends,
and the name is no longer than the array. -/
def ReadsElements (sc : Scan) (b : Bytes) : Prop :=
  Runs (Inside b.length) (Reading.parseStationIes sc b) fun sc' =>
    sc' = parseStationIes sc b ∧ sc'.slen ≤ SSIDLEN

/-- The reads stay in the buffer exactly if not a single byte is left behind the whole
elements. An element that claims more than there is does no harm, as its length is
compared before it is used. -/
theorem readsElements_iff {sc : Scan} (hsc : sc.slen ≤ SSIDLEN) (b : Bytes) :
    ReadsElements sc b ↔ (Wire.rest b).length ≠ 1 := by
  have hwalk : Runs (Inside b.length) (Reading.parseStationIes sc b) (· = parseStationIes sc b) ↔
      (Wire.rest b).length ≠ 1 := parseIes_runs (Nat.zero_add _) (Nat.le_refl _)
  rw [← hwalk]
  constructor
  · intro h
    exact h.mono fun sc' h => h.1
  · intro h
    apply h.mono
    intro sc' hsc'
    rw [hsc']
    exact ⟨rfl, slen_parseIes _ _ hsc⟩

theorem whole_readsElements : ({} : Scan).slen ≤ SSIDLEN ∧ (Wire.rest [0, 1, 0x61, 48, 9, 1]).length ≠ 1 ∧
    ReadsElements {} [0, 1, 0x61, 48, 9, 1] :=
  have hrest : (Wire.rest [0, 1, 0x61, 48, 9, 1]).length ≠ 1 := by decide
  ⟨Nat.zero_le _, hrest, (readsElements_iff (Nat.zero_le _) [0, 1, 0x61, 48, 9, 1]).mpr hrest⟩

/-- One byte stands behind the name. It is taken for the type of an element, whose
length is looked for behind the end of the buffer. -/
theorem lastByte_overread : ¬ ReadsElements {} [0, 1, 0x61, 48] := by
  intro h
  have hwalk : Runs (Inside 4) (Reading.parseStationIes {} [0, 1, 0x61, 48])
      (· = parseStationIes {} [0, 1, 0x61, 48]) := h.mono fun sc' h => h.1
  have hrest : (Wire.restFrom 4 [0, 1, 0x61, 48]).length ≠ 1 := (parseIes_runs (Nat.zero_add 4) (Nat.le_refl 4)).mp hwalk
  exact absurd hrest (by decide)

end Wsupp

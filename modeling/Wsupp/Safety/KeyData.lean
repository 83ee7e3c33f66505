import Wsupp.Eapol
import Wsupp.Wire.Elements

/-!
# Key data

`fetch_gtk` on elements one behind the other: the first that can be a GTK decides,
what comes before it is stepped over, and the padding behind has none.

An element can be a GTK by its type, the selector in front and a length that leaves
room for a key; its index and the length of the key for the cipher are looked at
only then, and if they are wrong nothing is stored. For every list of elements and
every padding the result gives the key and its index as a function of the list, for
both ciphers.
-/
namespace Wsupp
open Wire (elements elements_append)

/-- A `struct kde`, up to its length. -/
abbrev Kde := Wire.Element

/-- Magic, type, and room for the flags, the padding and a key of 16 bytes. -/
def Kde.isGtk (e : Kde) : Prop := e.type = 0xDD ∧ e.data.take 4 = kdeTypeGtk ∧ 4 + 18 ≤ e.data.length

instance decidableIsGtk (e : Kde) : Decidable e.isGtk := inferInstanceAs (Decidable (_ ∧ _ ∧ _))

def Kde.index (e : Kde) : UInt8 := e.data.at' 4 &&& 3

def Kde.key (e : Kde) : Bytes := e.data.drop 6

/-- How a key is kept: of 32 bytes the last eight and those before them change places, one
of 16 leaves the second half of the array as it is. -/
def stored (tkipgroup : Bool) (gtk key : Bytes) : Bytes :=
  if tkipgroup then key.take 16 ++ key.slice 24 8 ++ key.slice 16 8 else key ++ gtk.drop 16

/-- What is fetched of an element. -/
def Kde.fetch (tkipgroup : Bool) (gtk : Bytes) (e : Kde) : Option (UInt8 × Bytes) :=
  if e.index ≠ 0 ∧ e.key.length = (if tkipgroup then 32 else 16) then some (e.index, stored tkipgroup gtk e.key)
  else none

section Fetch
variable {tkipgroup : Bool} {gtk before : Bytes} {e : Kde}

theorem storeGtk_eq (tkipgroup : Bool) (gtk key : Bytes) : storeGtk tkipgroup gtk key =
    if key.length = (if tkipgroup then 32 else 16) then some (stored tkipgroup gtk key) else none := by
  rw [storeGtk, stored]
  by_cases hlen : key.length = if tkipgroup then 32 else 16
  · rw [if_neg (not_not.mpr hlen), if_pos hlen]
    cases tkipgroup with
    | true => rfl
    | false =>
        have h16 : key.length = 16 := hlen
        rw [if_neg Bool.false_ne_true, if_neg Bool.false_ne_true, Bytes.memcpy, List.take_of_length_le h16.le]
  · rw [if_pos hlen, if_neg hlen]

/-- The type is compared with what lies there, which may be beyond a short element. -/
theorem isGtk_iff (e : Kde) (b : Bytes) : e.isGtk ↔
    (e.bytes ++ b).at' 0 = 0xDD ∧ (e.bytes ++ b).slice 2 4 = kdeTypeGtk ∧ 24 ≤ 2 + e.data.length := by
  have htype : (e.bytes ++ b).slice 2 4 = (e.data ++ b).take 4 := rfl
  rw [e.front_type, htype]
  constructor
  · intro h
    obtain ⟨hmagic, hgtk, hlen⟩ := h
    rw [List.take_append_of_le_length (by omega)]
    exact ⟨hmagic, hgtk, by omega⟩
  · intro h
    obtain ⟨hmagic, hgtk, hlen⟩ := h
    rw [List.take_append_of_le_length (by omega)] at hgtk
    exact ⟨hmagic, hgtk, by omega⟩

/-- One turn: the element decides, or it is stepped over. -/
theorem fetchGtkFrom_cons (n : ℕ) (b : Bytes) (hroom : 6 < (e.bytes ++ b).length) :
    fetchGtkFrom tkipgroup gtk (before ++ (e.bytes ++ b)) (n + 1) before.length =
      if e.isGtk then e.fetch tkipgroup gtk
      else fetchGtkFrom tkipgroup gtk (before ++ (e.bytes ++ b)) n (before.length + e.bytes.length) := by
  have hat (k : ℕ) : (before ++ (e.bytes ++ b)).at' (before.length + k) = (e.bytes ++ b).at' k := by
    rw [Bytes.at', Bytes.at', List.getD_append_right _ _ _ _ (by omega), Nat.add_sub_cancel_left]
  have hslice (k m : ℕ) : (before ++ (e.bytes ++ b)).slice (before.length + k) m = (e.bytes ++ b).slice k m :=
    Bytes.slice_append_right rfl
  have hlen : (before ++ (e.bytes ++ b)).length = before.length + (e.bytes ++ b).length := List.length_append
  have hwhole : (e.bytes ++ b).length = e.data.length + 2 + b.length := by
    rw [List.length_append, e.length_bytes]
  have hnext : before.length + (2 + e.data.length) = before.length + e.bytes.length := by
    rw [e.length_bytes, Nat.add_comm 2]
  have h0 : (before ++ (e.bytes ++ b)).at' before.length = e.type := hat 0
  have hindex (h : e.isGtk) : (e.bytes ++ b).at' 6 &&& 3 = e.index := by
    have hsix : (e.bytes ++ b).at' 6 = (e.data ++ b).at' 4 := rfl
    have hfour := h.2.2
    rw [hsix, Kde.index, Bytes.at', Bytes.at', List.getD_append _ _ _ _ (by omega)]
  have hkey (h : e.isGtk) : (e.bytes ++ b).slice 8 (2 + e.data.length - 8) = e.key := by
    have hlong := h.2.2
    have hcount : 2 + e.data.length - 8 = (e.data.drop 6).length := by
      rw [List.length_drop]
      omega
    have hsix : (e.bytes ++ b).slice 8 (2 + e.data.length - 8) = (e.data ++ b).slice 6 (2 + e.data.length - 8) := rfl
    rw [hsix, Kde.key, hcount, Bytes.slice, List.drop_append_of_le_length (by omega), List.take_left]
  rw [fetchGtkFrom, if_neg (by omega)]
  dsimp only
  rw [hat 1, e.front_len, if_neg (by omega), hslice 2, h0, hnext]
  by_cases hgtk : e.isGtk
  · obtain ⟨hmagic, htype, hlong⟩ := (isGtk_iff e b).mp hgtk
    rw [e.front_type] at hmagic
    rw [if_pos hgtk, if_neg (not_not.mpr hmagic), if_neg (not_not.mpr htype), if_neg (by omega), hat 6, hslice 8,
      hindex hgtk, hkey hgtk, Kde.fetch, storeGtk_eq]
    by_cases hzero : e.index = 0
    · rw [if_pos hzero, if_neg fun h => h.1 hzero]
    · rw [if_neg hzero]
      by_cases hlen : e.key.length = if tkipgroup then 32 else 16
      · rw [if_pos hlen, if_pos ⟨hzero, hlen⟩]
        rfl
      · rw [if_neg hlen, if_neg fun h => hlen h.2]
        rfl
  · rw [if_neg hgtk]
    by_cases hmagic : e.type = 0xDD
    · rw [if_neg (not_not.mpr hmagic)]
      by_cases htype : (e.bytes ++ b).slice 2 4 = kdeTypeGtk
      · have hshort : 2 + e.data.length < 6 + 2 + 16 := by
          by_contra hlong
          exact hgtk ((isGtk_iff e b).mpr ⟨hmagic, htype, by omega⟩)
        rw [if_neg (not_not.mpr htype), if_pos hshort]
      · rw [if_pos htype]
    · rw [if_pos hmagic]

theorem fetchGtkFrom_elements (tkipgroup : Bool) (gtk before : Bytes) (es : List Kde) {b : Bytes} {n : ℕ}
    (hb : b.length ≤ 6) (hn : (elements es ++ b).length ≤ n) :
    fetchGtkFrom tkipgroup gtk (before ++ (elements es ++ b)) n before.length =
      (es.find? (decide ·.isGtk)).bind (Kde.fetch tkipgroup gtk) := by
  induction es generalizing before n with
  | nil =>
      have hlen : (before ++ (elements [] ++ b)).length = before.length + b.length := List.length_append
      cases n with
      | zero => rfl
      | succ n =>
          rw [fetchGtkFrom, if_pos (by omega)]
          rfl
  | cons e es ih =>
      rw [Wire.elements_cons, List.append_assoc] at hn ⊢
      have hwhole : (e.bytes ++ (elements es ++ b)).length = e.bytes.length + (elements es ++ b).length :=
        List.length_append
      have htwo : e.bytes.length = e.data.length + 2 := e.length_bytes
      obtain ⟨n, rfl⟩ := Nat.exists_eq_add_of_lt (show 0 < n by omega)
      rw [Nat.zero_add]
      by_cases hroom : 6 < (e.bytes ++ (elements es ++ b)).length
      · rw [fetchGtkFrom_cons n _ hroom, List.find?_cons]
        by_cases hgtk : e.isGtk
        · rw [if_pos hgtk, decide_eq_true hgtk]
          rfl
        · have hsplit : before ++ (e.bytes ++ (elements es ++ b)) = before ++ e.bytes ++ (elements es ++ b) :=
            (List.append_assoc ..).symm
          have hlen : before.length + e.bytes.length = (before ++ e.bytes).length := List.length_append.symm
          rw [if_neg hgtk, decide_eq_false hgtk, hsplit, hlen]
          exact ih (before ++ e.bytes) (by omega)
      · -- no element that is left is long enough
        have hnone : (e :: es).find? (decide ·.isGtk) = none := by
          apply List.find?_eq_none.mpr
          intro e' he' hgtk
          have hlong := (of_decide_eq_true hgtk).2.2
          have hle := Wire.length_le_elements he'
          have hrest : (elements es ++ b).length = (elements es).length + b.length := List.length_append
          rw [Wire.elements_cons, List.length_append, Wire.Element.length_bytes] at hle
          omega
        have hlen : (before ++ (e.bytes ++ (elements es ++ b))).length =
            before.length + (e.bytes ++ (elements es ++ b)).length := List.length_append
        rw [hnone, fetchGtkFrom, if_pos (by omega)]
        rfl

end Fetch

/-- Nothing, or 0xDD and some zeros. -/
def padding : Option ℕ → Bytes
  | none => []
  | some n => 0xDD :: Bytes.zeros n

/-- Padding reads as elements without data and a byte at most behind them. -/
theorem padding_elements (pad : Option ℕ) :
    ∃ (es : List Kde) (b : Bytes), padding pad = elements es ++ b ∧ b.length ≤ 6 ∧ ∀ e ∈ es, ¬ e.isGtk := by
  have hempty {e : Kde} (he : e.data = []) : ¬ e.isGtk := by
    intro h
    have hlong := h.2.2
    rw [he] at hlong
    exact absurd hlong (by decide)
  cases pad with
  | none => exact ⟨[], [], rfl, Nat.zero_le _, fun e he => absurd he List.not_mem_nil⟩
  | some n =>
      cases n with
      | zero => exact ⟨[], [0xDD], rfl, by decide, fun e he => absurd he List.not_mem_nil⟩
      | succ n =>
          refine ⟨⟨0xDD, [], by decide⟩ :: List.replicate (n / 2) ⟨0, [], by decide⟩, Bytes.zeros (n % 2), ?_, ?_, ?_⟩
          · have hhalves : Bytes.zeros n = Bytes.zeros (2 * (n / 2)) ++ Bytes.zeros (n % 2) := by
              have hsum : 2 * (n / 2) + n % 2 = n := Nat.div_add_mod n 2
              rw [Bytes.zeros, Bytes.zeros, Bytes.zeros, ← List.replicate_add, hsum]
            rw [Wire.elements_cons, Wire.elements_replicate, List.append_assoc, ← hhalves]
            rfl
          · rw [Bytes.zeros, List.length_replicate]
            omega
          · intro e he
            cases List.mem_cons.mp he with
            | inl h =>
                rw [h]
                exact hempty rfl
            | inr h =>
                rw [List.eq_of_mem_replicate h]
                exact hempty rfl

/-- Of key data the first element that is a GTK with a key is looked at: its index and
key are stored if the index is not zero and the key as long as the cipher's, otherwise,
or if there is none, nothing is. Elements after it are not looked at, whatever they are.
-/
theorem fetchGtk_elements (tkipgroup : Bool) (gtk : Bytes) (es : List Kde) (pad : Option ℕ) :
    fetchGtk tkipgroup gtk (elements es ++ padding pad) =
      match es.find? (decide ·.isGtk) with
      | none => none
      | some e =>
          if e.index ≠ 0 ∧ e.key.length = (if tkipgroup then 32 else 16) then
            some (e.index, if tkipgroup then e.key.take 16 ++ e.key.slice 24 8 ++ e.key.slice 16 8
              else e.key ++ gtk.drop 16)
          else none := by
  obtain ⟨pads, b, hpad, hb, hnone⟩ := padding_elements pad
  have hfind : (es ++ pads).find? (decide ·.isGtk) = es.find? (decide ·.isGtk) := by
    have hpads : pads.find? (decide ·.isGtk) = none :=
      List.find?_eq_none.mpr fun e he hgtk => hnone e he (of_decide_eq_true hgtk)
    rw [List.find?_append, hpads, Option.or_none]
  have hfetch : fetchGtk tkipgroup gtk (elements (es ++ pads) ++ b) =
      ((es ++ pads).find? (decide ·.isGtk)).bind (Kde.fetch tkipgroup gtk) :=
    fetchGtkFrom_elements tkipgroup gtk [] (es ++ pads) hb (Nat.le_refl _)
  rw [hpad, ← List.append_assoc, ← elements_append, hfetch, hfind]
  cases es.find? (decide ·.isGtk) with
  | none => rfl
  | some e => rfl

end Wsupp

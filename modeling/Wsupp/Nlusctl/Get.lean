import Wsupp.Nlusctl.Message
import Wsupp.Wire.Attrs

/-!
# Attributes of control messages

`get.c` on the bytes from the start of a message: attributes are offsets. The bounds
are `size_t` values, so a negative difference turns into a large one, and an end
pointer that wraps lies in front of its buffer. The typed functions look at the
length of an attribute and then at its contents.

The loops over the attributes of a message and over those of a nest differ in their
bounds only. What they yield is in bounds by its header; that an attribute is no
shorter than its header is not checked by the source, and the results about reads
say what follows from that.
-/
namespace Wsupp.Nlusctl
open Wire

def sizeT (x : Int) : ℕ := (x % 2 ^ 64).toNat

/-- `buf + len`. -/
def endOf (buf len : ℕ) : Int := buf + (len : Int).bmod (2 ^ 64)

def Ucattr.size : ℕ := 4

def ucGet0In (mem : Bytes) (buf len : ℕ) : Option ℕ :=
  if len < Ucattr.size then none
  else if len < attrLen mem buf then none
  else some buf

def ucGetNIn (mem : Bytes) (buf len p : ℕ) : Option ℕ :=
  let stop := endOf buf len
  if p < buf then none
  else if stop < p then none
  else if attrLen mem p = 0 then none
  else
    let ptr := p + align4 (attrLen mem p)
    if stop < (ptr + Ucattr.size : ℕ) then none
    else if stop < (ptr + attrLen mem ptr : ℕ) then none
    else some ptr

def ucGet0 (msg : Bytes) : Option ℕ :=
  ucGet0In msg Ucmsg.size (sizeT ((Ucmsg.len msg : Int) - Ucmsg.size))

def ucGetN (msg : Bytes) (ab : ℕ) : Option ℕ :=
  ucGetNIn msg Ucmsg.size (sizeT ((Ucmsg.len msg : Int) - Ucmsg.size)) ab

def ucSub0 (msg : Bytes) (ab : ℕ) : Option ℕ :=
  ucGet0In msg (ab + Ucattr.size) (sizeT ((attrLen msg ab : Int) - Ucattr.size))

def ucSubN (msg : Bytes) (ab p : ℕ) : Option ℕ :=
  ucGetNIn msg (ab + Ucattr.size) (sizeT ((attrLen msg ab : Int) - Ucattr.size)) p

/-- The loop over the attributes of a message. -/
def attrs (msg : Bytes) : Reader := { first := ucGet0 msg, next := ucGetN msg }

/-- The loop over the attributes of a nest. -/
def subs (msg : Bytes) (ab : ℕ) : Reader := { first := ucSub0 msg ab, next := ucSubN msg ab }

def ucGet (msg : Bytes) (key : ℕ) : Option ℕ :=
  (attrs msg).search (fun p => attrKey msg p = key) (msg.length + 1) (ucGet0 msg)

def ucSub (msg : Bytes) (bt key : ℕ) : Option ℕ :=
  (subs msg bt).search (fun p => attrKey msg p = key) (msg.length + 1) (ucSub0 msg bt)

def ucPaylen (msg : Bytes) (p : ℕ) : Int := (attrLen msg p : Int) - Ucattr.size

/-- The bytes `uc_payload` and `uc_paylen` give. -/
def ucPayload (msg : Bytes) (p : ℕ) : Bytes := msg.slice (p + Ucattr.size) (ucPaylen msg p).toNat

def ucIsBin (msg : Bytes) (key : ℕ) (len : Int) : Option ℕ → Option Bytes
  | none => none
  | some p =>
      if attrKey msg p ≠ key then none
      else if ucPaylen msg p ≠ len then none
      else some (ucPayload msg p)

/-- An `int` in memory. -/
def intOf (b : Bytes) : Int := (Bytes.leNat b : Int).bmod (2 ^ 32)

def ucGetBin (msg : Bytes) (key : ℕ) (len : Int) : Option Bytes := ucIsBin msg key len (ucGet msg key)

def ucGetInt (msg : Bytes) (key : ℕ) : Option Int := (ucGetBin msg key 4).map intOf

def ucSubBin (msg : Bytes) (bt key : ℕ) (len : Int) : Option Bytes :=
  ucIsBin msg key len (ucSub msg bt key)

def ucSubInt (msg : Bytes) (bt key : ℕ) : Option Int := (ucSubBin msg bt key 4).map intOf

theorem sizeT_sub {a b : ℕ} (h : b ≤ a) (ha : a < 2 ^ 64) : sizeT ((a : Int) - b) = a - b := by
  unfold sizeT
  omega

theorem endOf_eq {len : ℕ} (buf : ℕ) (h : len < 2 ^ 63) : endOf buf len = (buf + len : ℕ) := by
  have hb : (len : Int).bmod (2 ^ 64) = len := Int.bmod_eq_of_le (by omega) (by omega)
  unfold endOf
  rw [hb, Nat.cast_add]

/-- A loop with a bound and a step that suit a range is a reader of the range. -/
theorem reader_over (msg : Bytes) (lo : ℕ) {len : ℕ} (hlen : len < 2 ^ 63) :
    Reader.Over { first := ucGet0In msg lo len, next := ucGetNIn msg lo len } msg lo (lo + len) where
  first_none := by
    intro h
    exact if_pos (by rw [Ucattr.size]; omega)
  first_some := by
    intro hhead hfits
    dsimp only
    rw [ucGet0In, if_neg (by rw [Ucattr.size]; omega), if_neg (by omega)]
  next_none := by
    intro p hp h4 hend
    have hle := le_align4 (attrLen msg p)
    dsimp only
    rw [ucGetNIn, endOf_eq lo hlen]
    dsimp only
    rw [if_neg (by omega), if_neg (by omega), if_neg (by omega), if_pos (by rw [Ucattr.size]; omega)]
  next_some := by
    intro p q hp h4 hq hhead hfits
    subst hq
    have hle := le_align4 (attrLen msg p)
    dsimp only
    rw [ucGetNIn, endOf_eq lo hlen]
    dsimp only
    rw [if_neg (by omega), if_neg (by omega), if_neg (by omega),
      if_neg (by rw [Ucattr.size]; omega), if_neg (by omega)]

theorem subs_over {msg : Bytes} {ab : ℕ} (h : 4 ≤ attrLen msg ab) :
    (subs msg ab).Over msg (ab + 4) (ab + attrLen msg ab) := by
  have hlt := attrLen_lt msg ab
  have hlen : sizeT ((attrLen msg ab : Int) - Ucattr.size) = attrLen msg ab - 4 :=
    sizeT_sub h (by omega)
  have hover := reader_over msg (ab + 4) (show attrLen msg ab - 4 < 2 ^ 63 by omega)
  rw [show ab + 4 + (attrLen msg ab - 4) = ab + attrLen msg ab by omega] at hover
  rw [← hlen] at hover
  exact hover

theorem Ucmsg.len_lt (msg : Bytes) : Ucmsg.len msg < 2 ^ 32 := by
  have h : Ucmsg.len msg < 256 ^ (msg.slice 0 4).length := Bytes.leNat_lt _
  have hle : (msg.slice 0 4).length ≤ 4 := Bytes.length_slice_le
  calc
    Ucmsg.len msg < 256 ^ (msg.slice 0 4).length := h
    _ ≤ 256 ^ 4 := Nat.pow_le_pow_right (by norm_num) hle

theorem attrs_over {msg : Bytes} (h : Ucmsg.size ≤ Ucmsg.len msg) :
    (attrs msg).Over msg 8 (Ucmsg.len msg) := by
  have hlt := Ucmsg.len_lt msg
  rw [Ucmsg.size] at h
  have hlen : sizeT ((Ucmsg.len msg : Int) - Ucmsg.size) = Ucmsg.len msg - 8 :=
    sizeT_sub h (by omega)
  have hover := reader_over msg 8 (show Ucmsg.len msg - 8 < 2 ^ 63 by omega)
  rw [show 8 + (Ucmsg.len msg - 8) = Ucmsg.len msg by omega] at hover
  rw [← hlen] at hover
  exact hover

/-- Attributes that fill a message to its end are read back. -/
theorem decodes_laid {msg : Bytes} {F : Attrs} (hlen : Ucmsg.len msg = 8 + F.size) (h : Laid msg 8 F) :
    Decodes msg (subs msg) (attrs msg) (ucGet0 msg) F := by
  have hover := attrs_over (show Ucmsg.size ≤ Ucmsg.len msg by rw [Ucmsg.size]; omega)
  rw [hlen] at hover
  have hfirst : ucGet0 msg = F.start 8 := hover.first_eq h rfl
  rw [hfirst]
  exact h.decodes (fun _ => True) (fun p G _ _ hp => subs_over (by omega)) F.nests_any hover le_rfl rfl

section Keys
variable {msg : Bytes} {p q key : ℕ} {F : Attrs} {b : Bytes}

theorem Carries.payload (h : Carries msg (subs msg) q (.bytes b)) :
    ucPaylen msg q = b.length ∧ ucPayload msg q = b := by
  obtain ⟨hlen, hpay⟩ := h
  have hpaylen : ucPaylen msg q = b.length := by
    rw [ucPaylen, hlen, Ucattr.size]
    omega
  refine ⟨hpaylen, ?_⟩
  rw [ucPayload, hpaylen, Int.toNat_natCast]
  exact hpay

theorem ucIsBin_carries (hkey : attrKey msg q = key) (h : Carries msg (subs msg) q (.bytes b)) :
    ucIsBin msg key b.length (some q) = some b := by
  obtain ⟨hlen, hpay⟩ := Carries.payload h
  rw [ucIsBin, if_neg (not_not.mpr hkey), if_neg (not_not.mpr hlen), hpay]

theorem ucSub_some (key : ℕ) (h : Decodes msg (subs msg) (subs msg p) (ucSub0 msg p) F)
    (hwidth : F.width ≤ msg.length + 1) {v : Value} (hget : F.get key = some v) :
    ∃ q, ucSub msg p key = some q ∧ attrKey msg q = key ∧ Carries msg (subs msg) q v := by
  have hsearch := h.search key hwidth
  rw [hget] at hsearch
  exact hsearch

theorem ucSub_none (key : ℕ) (h : Decodes msg (subs msg) (subs msg p) (ucSub0 msg p) F)
    (hwidth : F.width ≤ msg.length + 1) (hget : F.get key = none) : ucSub msg p key = none := by
  have hsearch := h.search key hwidth
  rw [hget] at hsearch
  exact hsearch

theorem ucSubBin_eq (key : ℕ) (h : Decodes msg (subs msg) (subs msg p) (ucSub0 msg p) F)
    (hwidth : F.width ≤ msg.length + 1) (hget : F.get key = some (.bytes b)) :
    ucSubBin msg p key b.length = some b := by
  obtain ⟨q, hsub, hkey, hcarries⟩ := ucSub_some key h hwidth hget
  rw [ucSubBin, hsub]
  exact ucIsBin_carries hkey hcarries

end Keys

end Wsupp.Nlusctl

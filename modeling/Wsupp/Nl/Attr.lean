import Wsupp.Nl.Pack
import Wsupp.Nlusctl.Get

/-!
# Attributes of netlink messages

`attr_*.c` and `base_gen.c` on the bytes from the start of a message: attributes are
offsets, and what lies behind the message may be there as well. Sizes are `size_t`
values, but the steps of `nl_check_nest` are cut to 16 bits. The loops over
attributes are the functions that give the first and the next offset.

What the checks of a nest accept is a chain of attributes, each of which starts
where the one before it ends, rounded up. A chain can still hold an attribute
shorter than its header, since only the remainder is compared; `Sound` excludes
that, and for sound chains every attribute the loops yield lies inside the message.
-/
namespace Wsupp.Nl
open Wire
open Nlusctl (sizeT endOf sizeT_sub endOf_eq)

def Nlmsg.len (msg : Bytes) : ℕ := msg.le32 0

/-- `extend_to_4bytes`, as a `uint16_t`. -/
def skipOf (len : ℕ) : ℕ := align4 len % 65536

/-- The loop of `nl_check_nest`; every turn but the last takes four bytes at least. -/
def checkNestFrom (mem : Bytes) (stop : Int) : ℕ → ℕ → Bool
  | 0, _ => false
  | n + 1, p =>
      if p < stop then
        if skipOf (attrLen mem p) = 0 then p = stop
        else checkNestFrom mem stop n (p + skipOf (attrLen mem p))
      else p = stop

def nlCheckNest (mem : Bytes) (buf len : ℕ) : Bool :=
  if len ≤ Nlattr.size then false else checkNestFrom mem (endOf buf len) len buf

def nlGen (msg : Bytes) : Bool :=
  if Nlmsg.len msg < Nlgen.size then false
  else nlCheckNest msg Nlgen.size (Nlmsg.len msg - Nlgen.size)

/-- `ATPAYLOAD`, the length. -/
def atPayloadLen (msg : Bytes) (p : ℕ) : ℕ := sizeT ((attrLen msg p : Int) - Nlattr.size)

def nlNest (msg : Bytes) (p : ℕ) : Option ℕ :=
  if nlCheckNest msg (p + Nlattr.size) (atPayloadLen msg p) then some p else none

def nlAttr0In (mem : Bytes) (buf len : ℕ) : Option ℕ :=
  if len < Nlattr.size then none
  else if len < attrLen mem buf then none
  else some buf

def ptrInBuf (buf len p : ℕ) : Bool := !(p < buf) && !(endOf buf len ≤ p)

def nlAttrNIn (mem : Bytes) (buf len p : ℕ) : Option ℕ :=
  if !ptrInBuf buf len p then none
  else if attrLen mem p < Nlattr.size then none
  else
    let pnext := p + align4 (attrLen mem p)
    if !ptrInBuf buf len pnext then none else some pnext

/-- The loop over a stretch of attributes. -/
def attrsIn (mem : Bytes) (buf len : ℕ) : Reader where
  first := nlAttr0In mem buf len
  next := nlAttrNIn mem buf len

def nlAttrKIn (mem : Bytes) (buf len type : ℕ) : Option ℕ :=
  (attrsIn mem buf len).search (fun p => attrKey mem p = type) (mem.length + 1) (nlAttr0In mem buf len)

/-- `NLPAYLOAD`, the length. -/
def nlPayloadLen (msg : Bytes) : ℕ := sizeT ((Nlmsg.len msg : Int) - Nlgen.size)

def attrs (msg : Bytes) : Reader := attrsIn msg Nlgen.size (nlPayloadLen msg)

def subs (msg : Bytes) (p : ℕ) : Reader := attrsIn msg (p + Nlattr.size) (atPayloadLen msg p)

def nlGet (msg : Bytes) (type : ℕ) : Option ℕ := nlAttrKIn msg Nlgen.size (nlPayloadLen msg) type

def nlGetNest (msg : Bytes) (type : ℕ) : Option ℕ := (nlGet msg type).bind (nlNest msg)

def nlSub (msg : Bytes) (p type : ℕ) : Option ℕ :=
  nlAttrKIn msg (p + Nlattr.size) (atPayloadLen msg p) type

def nlSub0 (msg : Bytes) (p : ℕ) : Option ℕ := nlAttr0In msg (p + Nlattr.size) (atPayloadLen msg p)

def nlSubN (msg : Bytes) (p cur : ℕ) : Option ℕ := nlAttrNIn msg (p + Nlattr.size) (atPayloadLen msg p) cur

/-- Negative for a length below that of the header. -/
def nlAttrLen (msg : Bytes) (p : ℕ) : Int := (attrLen msg p : Int) - Nlattr.size

/-- Steps of padded lengths lead from here to the end. A step is at least the four bytes
of a header long, though the length in the header may be less. -/
inductive Chain (mem : Bytes) (stop : ℕ) : ℕ → Prop where
  | done : Chain mem stop stop
  | step {p : ℕ} (hp : p < stop) (h0 : attrLen mem p ≠ 0) (hlen : attrLen mem p ≤ 65532)
      (rest : Chain mem stop (p + align4 (attrLen mem p))) : Chain mem stop p

section Chains
variable {mem : Bytes} {stop p buf len : ℕ}

theorem skipOf_zero (h : len < 65536) : skipOf len = 0 ↔ len = 0 ∨ 65532 < len := by
  unfold skipOf align4
  omega

theorem skipOf_eq (h : len ≤ 65532) : skipOf len = align4 len := by
  unfold skipOf align4
  omega

theorem four_le_align4 (h : len ≠ 0) : 4 ≤ align4 len := by
  unfold align4
  omega

theorem Chain.le (h : Chain mem stop p) : p ≤ stop := by
  induction h with
  | done => exact le_rfl
  | step hp _ _ _ _ => exact hp.le

theorem checkNestFrom_iff {n : ℕ} (hn : stop < p + 4 * n) :
    checkNestFrom mem stop n p = true ↔ Chain mem stop p := by
  induction n generalizing p with
  | zero =>
      constructor
      · intro h
        cases h
      · intro h
        have hle := h.le
        omega
  | succ n ih =>
      have hlt := attrLen_lt mem p
      rw [checkNestFrom]
      by_cases hp : p < stop
      · rw [if_pos (by exact_mod_cast hp)]
        by_cases hskip : skipOf (attrLen mem p) = 0
        · rw [if_pos hskip]
          rw [skipOf_zero hlt] at hskip
          constructor
          · intro h
            have heq := of_decide_eq_true h
            omega
          · intro h
            cases h with
            | done => omega
            | step _ h0 hlen _ => omega
        · rw [if_neg hskip]
          rw [skipOf_zero hlt, not_or, not_lt] at hskip
          have h4 := four_le_align4 hskip.1
          rw [skipOf_eq hskip.2, ih (by omega)]
          constructor
          · exact .step hp hskip.1 hskip.2
          · intro h
            cases h with
            | done => omega
            | step _ _ _ rest => exact rest
      · rw [if_neg (by exact_mod_cast hp)]
        constructor
        · intro h
          have heq : (p : Int) = stop := of_decide_eq_true h
          obtain rfl : p = stop := by exact_mod_cast heq
          exact .done
        · intro h
          cases h with
          | done => exact decide_eq_true rfl
          | step hp' _ _ _ => exact absurd hp' hp

theorem checkNestFrom_past {stop : Int} (n : ℕ) (h : stop < p) : checkNestFrom mem stop n p = false := by
  cases n with
  | zero => rfl
  | succ n =>
      rw [checkNestFrom, if_neg (by omega)]
      exact decide_eq_false (by omega)

theorem nlCheckNest_iff (hlen : len < 2 ^ 63) :
    nlCheckNest mem buf len = true ↔ 4 < len ∧ Chain mem (buf + len) buf := by
  unfold nlCheckNest
  rw [Nlattr.size, endOf_eq buf hlen]
  by_cases h : len ≤ 4
  · rw [if_pos h]
    simp [h]
  · rw [if_neg h, checkNestFrom_iff (by omega)]
    exact ⟨fun hchain => ⟨by omega, hchain⟩, And.right⟩

end Chains

section Bounds
variable {msg mem : Bytes} {buf len p : ℕ}

theorem Nlmsg.len_lt (msg : Bytes) : Nlmsg.len msg < 2 ^ 32 := by
  have h : Nlmsg.len msg < 256 ^ (msg.slice 0 4).length := Bytes.leNat_lt _
  have hle : (msg.slice 0 4).length ≤ 4 := Bytes.length_slice_le
  calc
    Nlmsg.len msg < 256 ^ (msg.slice 0 4).length := h
    _ ≤ 256 ^ 4 := Nat.pow_le_pow_right (by norm_num) hle

theorem nlPayloadLen_eq (h : 20 ≤ Nlmsg.len msg) : nlPayloadLen msg = Nlmsg.len msg - 20 := by
  have hlt := Nlmsg.len_lt msg
  exact sizeT_sub h (by omega)

theorem atPayloadLen_eq (h : 4 ≤ attrLen msg p) : atPayloadLen msg p = attrLen msg p - 4 := by
  have hlt := attrLen_lt msg p
  exact sizeT_sub h (by omega)

theorem ptrInBuf_iff (hlen : len < 2 ^ 63) : ptrInBuf buf len p = true ↔ buf ≤ p ∧ p < buf + len := by
  unfold ptrInBuf
  rw [endOf_eq buf hlen]
  simp only [Bool.and_eq_true, Bool.not_eq_true', decide_eq_false_iff_not, not_lt, not_le]
  norm_cast

theorem nlAttr0In_some {q : ℕ} (h : nlAttr0In mem buf len = some q) :
    q = buf ∧ 4 ≤ len ∧ attrLen mem buf ≤ len := by
  unfold nlAttr0In at h
  rw [Nlattr.size] at h
  split at h
  · cases h
  split at h
  · cases h
  · cases h
    exact ⟨rfl, by omega, by omega⟩

theorem nlAttrNIn_iff (hlen : len < 2 ^ 63) {q : ℕ} : nlAttrNIn mem buf len p = some q ↔
    q = p + align4 (attrLen mem p) ∧ 4 ≤ attrLen mem p ∧ buf ≤ p ∧ q < buf + len := by
  have hpad := le_align4 (attrLen mem p)
  unfold nlAttrNIn
  rw [Nlattr.size]
  by_cases hp : ptrInBuf buf len p = true
  · have hbounds := (ptrInBuf_iff hlen).mp hp
    rw [hp, if_neg (by simp)]
    by_cases h4 : attrLen mem p < 4
    · rw [if_pos h4]
      constructor
      · intro h
        cases h
      · intro h
        omega
    · rw [if_neg h4]
      dsimp only
      by_cases hq : ptrInBuf buf len (p + align4 (attrLen mem p)) = true
      · have hnext := (ptrInBuf_iff hlen).mp hq
        rw [hq, if_neg (by simp), Option.some.injEq]
        constructor
        · exact fun h => ⟨h.symm, by omega, hbounds.1, by omega⟩
        · exact fun h => h.1.symm
      · rw [if_pos (by simpa using hq)]
        rw [ptrInBuf_iff hlen] at hq
        constructor
        · intro h
          cases h
        · intro h
          omega
  · rw [if_pos (by simpa using hp)]
    rw [ptrInBuf_iff hlen] at hp
    constructor
    · intro h
      cases h
    · intro h
      omega

theorem nlAttrNIn_some (hlen : len < 2 ^ 63) {q : ℕ} (h : nlAttrNIn mem buf len p = some q) :
    q = p + align4 (attrLen mem p) ∧ 4 ≤ attrLen mem p ∧ buf ≤ p ∧ q < buf + len :=
  (nlAttrNIn_iff hlen).mp h

theorem attrsIn_over (mem : Bytes) (buf : ℕ) (hlen : len < 2 ^ 63) : (attrsIn mem buf len).Over mem buf (buf + len) where
  first_none := by
    intro h
    exact if_pos (by rw [Nlattr.size]; omega)
  first_some := by
    intro hhead hfits
    unfold attrsIn nlAttr0In
    dsimp only
    rw [if_neg (by rw [Nlattr.size]; omega), if_neg (by omega)]
  next_none := by
    intro p hp h4 hend
    cases hnext : (attrsIn mem buf len).next p with
    | none => rfl
    | some q =>
        have hq := nlAttrNIn_some hlen hnext
        omega
  next_some := by
    intro p q hp h4 hq hhead hfits
    exact (nlAttrNIn_iff hlen).mpr ⟨hq, h4, hp, by omega⟩

theorem attrs_over (h : 20 ≤ Nlmsg.len msg) : (attrs msg).Over msg 20 (Nlmsg.len msg) := by
  have hlt := Nlmsg.len_lt msg
  have hover := attrsIn_over msg 20 (show Nlmsg.len msg - 20 < 2 ^ 63 by omega)
  rw [show 20 + (Nlmsg.len msg - 20) = Nlmsg.len msg by omega, ← nlPayloadLen_eq h] at hover
  exact hover

theorem subs_over (h : 4 ≤ attrLen msg p) : (subs msg p).Over msg (p + 4) (p + attrLen msg p) := by
  have hlt := attrLen_lt msg p
  have hover := attrsIn_over msg (p + 4) (show attrLen msg p - 4 < 2 ^ 63 by omega)
  rw [show p + 4 + (attrLen msg p - 4) = p + attrLen msg p by omega, ← atPayloadLen_eq h] at hover
  exact hover

end Bounds

section Accepted
variable {msg : Bytes} {p : ℕ}

theorem nlGen_iff : nlGen msg = true ↔ 24 < Nlmsg.len msg ∧ Chain msg (Nlmsg.len msg) 20 := by
  have hlt := Nlmsg.len_lt msg
  unfold nlGen
  rw [Nlgen.size]
  by_cases h : Nlmsg.len msg < 20
  · rw [if_pos h]
    constructor
    · intro h'
      cases h'
    · intro h'
      omega
  · rw [if_neg h, nlCheckNest_iff (by omega), show 20 + (Nlmsg.len msg - 20) = Nlmsg.len msg by omega]
    constructor
    · exact fun h' => ⟨by omega, h'.2⟩
    · exact fun h' => ⟨by omega, h'.2⟩

/-- An attribute shorter than its header is no nest: the end wraps and lies in front
of the start. -/
theorem nlCheckNest_short (h : attrLen msg p < 4) :
    nlCheckNest msg (p + 4) (atPayloadLen msg p) = false := by
  have hlen : atPayloadLen msg p = attrLen msg p + (2 ^ 64 - 4) := by
    unfold atPayloadLen sizeT
    rw [Nlattr.size]
    omega
  have hend : endOf (p + 4) (attrLen msg p + (2 ^ 64 - 4)) < (p + 4 : ℕ) := by
    have hb : ((attrLen msg p + (2 ^ 64 - 4) : ℕ) : Int).bmod (2 ^ 64) = (attrLen msg p : Int) - 4 := by
      have hcast : ((attrLen msg p + (2 ^ 64 - 4) : ℕ) : Int) = (attrLen msg p : Int) - 4 + (2 ^ 64 : ℕ) := by
        push_cast
        ring
      rw [hcast, Int.add_bmod_right]
      exact Int.bmod_eq_of_le (by omega) (by omega)
    unfold endOf
    rw [hb]
    omega
  unfold nlCheckNest
  rw [hlen, if_neg (by rw [Nlattr.size]; omega)]
  exact checkNestFrom_past _ hend

theorem nlNest_iff : nlNest msg p = some p ↔ 8 < attrLen msg p ∧ Chain msg (p + attrLen msg p) (p + 4) := by
  have hlt := attrLen_lt msg p
  have hsome : nlNest msg p = some p ↔ nlCheckNest msg (p + 4) (atPayloadLen msg p) = true := by
    unfold nlNest
    rw [Nlattr.size]
    split
    · next h => simp [h]
    · next h => simp [h]
  rw [hsome]
  by_cases h : attrLen msg p < 4
  · rw [nlCheckNest_short h]
    constructor
    · intro h'
      cases h'
    · intro h'
      omega
  · rw [atPayloadLen_eq (by omega), nlCheckNest_iff (by omega),
      show p + 4 + (attrLen msg p - 4) = p + attrLen msg p by omega]
    constructor
    · exact fun h' => ⟨by omega, h'.2⟩
    · exact fun h' => ⟨by omega, h'.2⟩

end Accepted

end Wsupp.Nl

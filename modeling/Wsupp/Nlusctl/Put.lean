import Wsupp.Nlusctl.Get

/-!
# Building control messages

`put.c` on a buffer. Once something did not fit, nothing more is put: what a run
leaves is the attributes up to that one, `Attrs.take n` of those asked for. A
sequence of calls is a tree, `Puts`, with the nests as its branches, and `Holds`
says of a message that these are its attributes.

The length field of an attribute has 16 bits and that of a message 32, and both are
written modulo their size, so a long value may read back as a shorter one. The
results name the attributes for which it does not, `Small`; whatever was in the
buffer before has no part in what is read.
-/
namespace Wsupp.Nlusctl
open Wire

/-- The memory is the one from `brk` to `end`; `ptr` counts from `brk`. `isOver` is
the field `over`. -/
structure Ucbuf where
  mem : Bytes
  ptr : ℕ := 0
  isOver : Bool := false

def intBytes (v : Int) : Bytes := Bytes.ofLe 4 (v % 2 ^ 32).toNat

def ucAlloc (uc : Ucbuf) (len : ℕ) : Option ℕ × Ucbuf :=
  let pad := (4 - len % 4) % 4
  let ret := uc.ptr
  let ptr := ret + len + pad
  let isOver := uc.isOver || decide (uc.mem.length < ptr)
  if isOver then (none, { uc with isOver := true })
  else (some ret, { uc with mem := uc.mem.poke (ret + len) (Bytes.zeros pad), ptr := ptr })

def ucBufSet (buf : Bytes) : Ucbuf := { mem := buf }

def ucPutHdr (uc : Ucbuf) (cmd : Int) : Ucbuf :=
  match ucAlloc { uc with ptr := 0 } Ucmsg.size with
  | (none, uc) => uc
  | (some msg, uc) =>
      { uc with mem := (uc.mem.poke (msg + 4) (intBytes cmd)).poke msg (Bytes.ofLe 4 0) }

def ucPutEnd (uc : Ucbuf) : Ucbuf :=
  if uc.ptr < Ucmsg.size then uc else { uc with mem := uc.mem.poke 0 (Bytes.ofLe 4 uc.ptr) }

/-- The length and the key are stored in 16 bits each. -/
def ucPutAttr (uc : Ucbuf) (key : Int) (len : ℕ) : Option ℕ × Ucbuf :=
  let total := Ucattr.size + len
  match ucAlloc uc total with
  | (none, uc) => (none, uc)
  | (some ab, uc) => (some ab, { uc with
      mem := uc.mem.poke ab (attrHead total (key % 65536).toNat) })

def ucPutBin (uc : Ucbuf) (key : Int) (buf : Bytes) : Ucbuf :=
  match ucPutAttr uc key buf.length with
  | (none, uc) => uc
  | (some ab, uc) => { uc with mem := uc.mem.poke (ab + Ucattr.size) buf }

def ucPutInt (uc : Ucbuf) (key v : Int) : Ucbuf :=
  match ucPutAttr uc key 4 with
  | (none, uc) => uc
  | (some ab, uc) => { uc with mem := uc.mem.poke (ab + Ucattr.size) (intBytes v) }

/-- A string up to its terminating zero, which is sent along. -/
def cstr (str : Bytes) : Bytes := str.takeWhile (· ≠ 0) ++ [0]

def ucPutStr (uc : Ucbuf) (key : Int) (str : Bytes) : Ucbuf := ucPutBin uc key (cstr str)

def ucPutFlag (uc : Ucbuf) (key : Int) : Ucbuf := (ucPutAttr uc key 0).2

def ucPutNest (uc : Ucbuf) (key : Int) : Option ℕ × Ucbuf := ucPutAttr uc key 0

def ucEndNest (uc : Ucbuf) : Option ℕ → Ucbuf
  | none => uc
  | some ab => { uc with mem := uc.mem.poke ab (Bytes.ofLe 2 (uc.ptr - ab)) }

/-- Attribute puts in order; a nest is closed before what follows it. -/
inductive Puts where
  | done
  | bin (key : Int) (buf : Bytes) (rest : Puts)
  | int (key v : Int) (rest : Puts)
  | str (key : Int) (str : Bytes) (rest : Puts)
  | flag (key : Int) (rest : Puts)
  | nest (key : Int) (subs rest : Puts)

namespace Puts

def run : Puts → Ucbuf → Ucbuf
  | done, uc => uc
  | bin key buf rest, uc => rest.run (ucPutBin uc key buf)
  | int key v rest, uc => rest.run (ucPutInt uc key v)
  | str key s rest, uc => rest.run (ucPutStr uc key s)
  | flag key rest, uc => rest.run (ucPutFlag uc key)
  | nest key subs rest, uc =>
      let (nn, uc) := ucPutNest uc key
      rest.run (ucEndNest (subs.run uc) nn)

/-- What the calls ask for, with a given reading of the keys. -/
def attrsBy (keyOf : Int → ℕ) : Puts → Attrs
  | done => .nil
  | bin key buf rest => .attr (keyOf key) buf (rest.attrsBy keyOf)
  | int key v rest => .attr (keyOf key) (intBytes v) (rest.attrsBy keyOf)
  | str key s rest => .attr (keyOf key) (cstr s) (rest.attrsBy keyOf)
  | flag key rest => .attr (keyOf key) [] (rest.attrsBy keyOf)
  | nest key subs rest => .nest (keyOf key) (subs.attrsBy keyOf) (rest.attrsBy keyOf)

/-- Keys as the 16-bit field holds them. -/
def attrs : Puts → Attrs := attrsBy fun key => (key % 65536).toNat

/-- One message: `uc_put_hdr`, the attributes, `uc_put_end`. -/
def message (F : Puts) (uc : Ucbuf) (cmd : Int) : Ucbuf := ucPutEnd (F.run (ucPutHdr uc cmd))

end Puts

section Calls
variable {uc : Ucbuf} {key : Int} {len : ℕ}

theorem ucAlloc_over (h : uc.isOver = true) : ucAlloc uc len = (none, uc) := by
  obtain ⟨mem, ptr, isOver⟩ := uc
  cases h
  rfl

theorem ucAlloc_full (h : uc.mem.length < uc.ptr + align4 len) :
    ucAlloc uc len = (none, { uc with isOver := true }) := by
  have hptr : uc.mem.length < uc.ptr + len + (4 - len % 4) % 4 := by
    rw [align4] at h
    omega
  simp only [ucAlloc, decide_eq_true hptr, Bool.or_true, if_true]

theorem ucAlloc_fits (hover : uc.isOver = false) (h : uc.ptr + align4 len ≤ uc.mem.length) :
    ucAlloc uc len = (some uc.ptr, { uc with
      mem := uc.mem.poke (uc.ptr + len) (Bytes.zeros ((4 - len % 4) % 4)),
      ptr := uc.ptr + align4 len }) := by
  have hptr : ¬ uc.mem.length < uc.ptr + len + (4 - len % 4) % 4 := by
    rw [align4] at h
    omega
  simp only [ucAlloc, hover, decide_eq_false hptr, Bool.or_false, Bool.false_eq_true, if_false]
  rw [align4, Nat.add_assoc]

/-- The allocation is made at the end and only its padding is written. -/
theorem ucAlloc_spec (len : ℕ) (hover : uc.isOver = false) (h : uc.ptr + align4 len ≤ uc.mem.length) :
    ∃ mem, ucAlloc uc len = (some uc.ptr, { uc with mem := mem, ptr := uc.ptr + align4 len }) ∧
      mem.length = uc.mem.length ∧
      ∀ o k, o + k ≤ uc.ptr → mem.slice o k = uc.mem.slice o k := by
  have hpad : (Bytes.zeros ((4 - len % 4) % 4)).length = (4 - len % 4) % 4 := List.length_replicate
  have halign : align4 len = len + (4 - len % 4) % 4 := rfl
  refine ⟨_, ucAlloc_fits hover h, Bytes.length_poke (by rw [hpad]; omega), ?_⟩
  intro o k hok
  exact Bytes.slice_poke_before (by omega) (by omega)

/-- An attribute put at the end of what was there. What stands in front of it is
untouched, and the end is behind its padding. -/
structure PutAt (uc : Ucbuf) (key : Int) (payload : Bytes) (uc' : Ucbuf) : Prop where
  length : uc'.mem.length = uc.mem.length
  ptr : uc'.ptr = uc.ptr + align4 (4 + payload.length)
  isOver : uc'.isOver = false
  len : attrLen uc'.mem uc.ptr = (4 + payload.length) % 65536
  key : attrKey uc'.mem uc.ptr = (key % 65536).toNat
  payload : uc'.mem.slice (uc.ptr + 4) payload.length = payload
  before : ∀ o k, o + k ≤ uc.ptr → uc'.mem.slice o k = uc.mem.slice o k

/-- The header and the room after it; whatever fills the room completes an attribute. -/
theorem ucPutAttr_fits (key : Int) (len : ℕ) (hover : uc.isOver = false)
    (h : uc.ptr + align4 (4 + len) ≤ uc.mem.length) :
    ∃ uc1, ucPutAttr uc key len = (some uc.ptr, uc1) ∧ ∀ payload : Bytes, payload.length = len →
      PutAt uc key payload { uc1 with mem := uc1.mem.poke (uc.ptr + Ucattr.size) payload } := by
  have hle := le_align4 (4 + len)
  obtain ⟨mem, halloc, hmem, hbefore⟩ := ucAlloc_spec (4 + len) hover h
  refine ⟨_, by rw [ucPutAttr, Ucattr.size, halloc], ?_⟩
  intro payload hlen
  have hput : (mem.poke uc.ptr (attrHead (4 + len) (key % 65536).toNat)).length = mem.length :=
    Bytes.length_poke (by rw [length_attrHead]; omega)
  have hroom : uc.ptr + 4 ≤ (mem.poke uc.ptr (attrHead (4 + len) (key % 65536).toNat)).length := by
    rw [hput]
    omega
  rw [Ucattr.size]
  constructor
  · dsimp only
    rw [Bytes.length_poke (by rw [hput]; omega), hput, hmem]
  · rw [hlen]
  · exact hover
  · rw [attrLen_poke (by omega) hroom, attrLen_poke_head (by omega), hlen]
  · rw [attrKey_poke (by omega) hroom, attrKey_poke_head (by omega)]
    exact Nat.mod_eq_of_lt (by omega)
  · exact Bytes.slice_poke hroom
  · intro o k hok
    dsimp only
    rw [Bytes.slice_poke_before hroom (by omega), Bytes.slice_poke_before (by omega) hok, hbefore o k hok]

theorem ucPutAttr_full (key : Int) (len : ℕ) (h : uc.mem.length < uc.ptr + align4 (4 + len)) :
    ucPutAttr uc key len = (none, { uc with isOver := true }) := by
  rw [ucPutAttr, Ucattr.size, ucAlloc_full h]

theorem ucPutAttr_over (key : Int) (h : uc.isOver = true) : ucPutAttr uc key len = (none, uc) := by
  rw [ucPutAttr, ucAlloc_over h]

theorem ucPutBin_fits {payload : Bytes} (key : Int) (hover : uc.isOver = false)
    (h : uc.ptr + align4 (4 + payload.length) ≤ uc.mem.length) :
    PutAt uc key payload (ucPutBin uc key payload) := by
  obtain ⟨uc1, hput, hspec⟩ := ucPutAttr_fits key payload.length hover h
  rw [ucPutBin, hput]
  exact hspec payload rfl

theorem ucPutBin_full {payload : Bytes} (key : Int)
    (h : uc.mem.length < uc.ptr + align4 (4 + payload.length)) :
    ucPutBin uc key payload = { uc with isOver := true } := by
  rw [ucPutBin, ucPutAttr_full key payload.length h]

theorem ucPutBin_over (key : Int) (payload : Bytes) (h : uc.isOver = true) :
    ucPutBin uc key payload = uc := by
  rw [ucPutBin, ucPutAttr_over key h]

theorem ucPutInt_eq (uc : Ucbuf) (key v : Int) : ucPutInt uc key v = ucPutBin uc key (intBytes v) := by
  rw [ucPutInt, ucPutBin, intBytes, Bytes.length_ofLe]

theorem poke_nil (mem : Bytes) (p : ℕ) : mem.poke p [] = mem := by
  rw [Bytes.poke, List.append_nil, List.length_nil, Nat.add_zero, List.take_append_drop]

theorem ucPutFlag_eq (uc : Ucbuf) (key : Int) : ucPutFlag uc key = ucPutBin uc key [] := by
  rw [ucPutFlag, ucPutBin, List.length_nil]
  obtain ⟨ab, uc1⟩ := ucPutAttr uc key 0
  cases ab with
  | none => rfl
  | some ab =>
      dsimp only
      rw [poke_nil]

theorem ucPutNest_fits (key : Int) (hover : uc.isOver = false) (h : uc.ptr + 4 ≤ uc.mem.length) :
    ∃ uc1, ucPutNest uc key = (some uc.ptr, uc1) ∧ PutAt uc key [] uc1 := by
  obtain ⟨uc1, hput, hspec⟩ := ucPutAttr_fits key 0 hover (by rw [align4]; omega)
  have hnil := hspec [] rfl
  rw [poke_nil] at hnil
  exact ⟨uc1, hput, hnil⟩

end Calls

/-- The first `n` attributes asked for are put; either these are all, or the next
one did not fit. -/
structure Wrote (uc : Ucbuf) (F : Attrs) (n : ℕ) (uc' : Ucbuf) : Prop where
  length : uc'.mem.length = uc.mem.length
  ptr : uc'.ptr = uc.ptr + (F.take n).size
  fits : uc'.ptr ≤ uc.mem.length
  before : ∀ o k, o + k ≤ uc.ptr → uc'.mem.slice o k = uc.mem.slice o k
  laid : Laid uc'.mem uc.ptr (F.take n)
  ended : uc'.isOver = false ∧ n = F.count ∨
    uc'.isOver = true ∧ n < F.count ∧ uc.mem.length < uc.ptr + (F.take (n + 1)).size

section Runs
variable {uc uc1 uc2 uc3 uc4 : Ucbuf} {key : Int} {payload : Bytes} {subs rest F : Attrs} {n m : ℕ}

theorem Wrote.nil (hover : uc.isOver = false) (h : uc.ptr ≤ uc.mem.length) : Wrote uc .nil 0 uc where
  length := rfl
  ptr := rfl
  fits := h
  before := fun _ _ _ => rfl
  laid := trivial
  ended := .inl ⟨hover, rfl⟩

theorem Wrote.none (h : uc.ptr ≤ uc.mem.length) (hF : 0 < F.count)
    (hfull : uc.mem.length < uc.ptr + (F.take 1).size) : Wrote uc F 0 { uc with isOver := true } where
  length := rfl
  ptr := by
    rw [Attrs.take_zero]
    rfl
  fits := h
  before := fun _ _ _ => rfl
  laid := by
    rw [Attrs.take_zero]
    trivial
  ended := .inr ⟨rfl, hF, hfull⟩

theorem Wrote.attr (hsmall : 4 + payload.length < 65536) (hput : PutAt uc key payload uc1)
    (hrest : Wrote uc1 rest n uc2) :
    Wrote uc (.attr (key % 65536).toNat payload rest) (n + 1) uc2 := by
  have hle := le_align4 (4 + payload.length)
  have hptr := hput.ptr
  have hsize : (Attrs.take (n + 1) (.attr (key % 65536).toNat payload rest)).size =
      align4 (4 + payload.length) + (rest.take n).size := rfl
  constructor
  · rw [hrest.length, hput.length]
  · rw [hrest.ptr, hptr, hsize, Nat.add_assoc]
  · rw [← hput.length]
    exact hrest.fits
  · intro o k hok
    rw [hrest.before o k (by omega), hput.before o k hok]
  · have hlen := hput.len
    have hkey := hput.key
    have hpay := hput.payload
    have hlaid := hrest.laid
    rw [hptr] at hlaid
    rw [attrLen, Bytes.le16] at hlen
    rw [attrKey, Bytes.le16] at hkey
    constructor
    · rw [attrLen, Bytes.le16, hrest.before _ _ (by omega), hlen, Nat.mod_eq_of_lt hsmall]
    constructor
    · rw [attrKey, Bytes.le16, hrest.before _ _ (by omega), hkey]
    constructor
    · rw [hrest.before _ _ (by omega), hpay]
    · exact hlaid
  · obtain ⟨hover, hn⟩ | ⟨hover, hn, hfull⟩ := hrest.ended
    · exact .inl ⟨hover, by rw [Attrs.count, hn]; omega⟩
    · rw [hput.length, hptr] at hfull
      refine .inr ⟨hover, by rw [Attrs.count]; omega, ?_⟩
      rw [Attrs.take, Attrs.size]
      omega

/-- A nest closed over the attributes put since it was opened. Its length counts them
all, and its contents are theirs. -/
structure Closed (uc : Ucbuf) (key : Int) (subs : Attrs) (uc' : Ucbuf) : Prop where
  length : uc'.mem.length = uc.mem.length
  ptr : uc'.ptr = uc.ptr + (4 + subs.size)
  fits : uc'.ptr ≤ uc.mem.length
  before : ∀ o k, o + k ≤ uc.ptr → uc'.mem.slice o k = uc.mem.slice o k
  len : attrLen uc'.mem uc.ptr = 4 + subs.size
  key : attrKey uc'.mem uc.ptr = (key % 65536).toNat
  laid : Laid uc'.mem (uc.ptr + 4) subs

theorem ucEndNest_closed (hsmall : 4 + subs.size < 65536) (hput : PutAt uc key [] uc1)
    (hsubs : Wrote uc1 subs n uc2) :
    Closed uc key (subs.take n) (ucEndNest uc2 (some uc.ptr)) := by
  have hle := Attrs.size_take_le n subs
  have hptr1 : uc1.ptr = uc.ptr + 4 := by
    rw [hput.ptr, List.length_nil]
    rfl
  have hptr := hsubs.ptr
  have hfits := hsubs.fits
  have hlen2 := hsubs.length
  rw [hptr1] at hptr
  have hroom : uc.ptr + (Bytes.ofLe 2 (uc2.ptr - uc.ptr)).length ≤ uc2.mem.length := by
    rw [Bytes.length_ofLe]
    omega
  constructor
  · exact (Bytes.length_poke hroom).trans (hlen2.trans hput.length)
  · rw [← Nat.add_assoc]
    exact hptr
  · rw [← hput.length]
    exact hfits
  · intro o k hok
    have hbefore := hsubs.before o k (by omega)
    rw [hput.before o k hok] at hbefore
    rw [← hbefore]
    exact Bytes.slice_poke_before (by omega) hok
  · have hdiff : uc2.ptr - uc.ptr = 4 + (subs.take n).size := by omega
    rw [ucEndNest]
    dsimp only
    rw [attrLen_poke_len (by omega), hdiff, Nat.mod_eq_of_lt (by omega)]
  · have hkey := hput.key
    rw [attrKey, Bytes.le16] at hkey
    rw [ucEndNest]
    dsimp only
    rw [attrKey_poke_len (by omega), attrKey, Bytes.le16, hsubs.before _ _ (by omega), hkey]
  · have hlaid := hsubs.laid
    rw [hptr1] at hlaid
    apply hlaid.copy
    intro o k hok
    exact (Bytes.slice_poke_after (by omega) (by rw [Bytes.length_ofLe]; omega)).symm

/-- A nest that was cut is closed over what fitted; what follows it is not put. -/
theorem Wrote.nest_cut (hclosed : Closed uc key (subs.take n) uc2) (hover : uc2.isOver = true)
    (hn : n < subs.count) (hfull : uc.mem.length < uc.ptr + (4 + (subs.take (n + 1)).size)) :
    Wrote uc (.nest (key % 65536).toNat subs rest) (n + 1) uc2 := by
  have htake : Attrs.take (n + 1) (.nest (key % 65536).toNat subs rest) =
      .nest (key % 65536).toNat (subs.take n) .nil := by
    rw [Attrs.take, Nat.sub_eq_zero_of_le (by omega), Attrs.take_zero]
  constructor
  · exact hclosed.length
  · rw [htake]
    exact hclosed.ptr
  · exact hclosed.fits
  · exact hclosed.before
  · rw [htake]
    exact ⟨hclosed.len, hclosed.key, hclosed.laid, trivial⟩
  · refine .inr ⟨hover, by rw [Attrs.count]; omega, ?_⟩
    rw [Attrs.take, Attrs.size]
    omega

theorem Wrote.nest (hclosed : Closed uc key subs uc2) (hrest : Wrote uc2 rest m uc3) :
    Wrote uc (.nest (key % 65536).toNat subs rest) (subs.count + m + 1) uc3 := by
  have htake : ∀ i, Attrs.take (subs.count + i + 1) (.nest (key % 65536).toNat subs rest) =
      .nest (key % 65536).toNat subs (rest.take i) := by
    intro i
    rw [Attrs.take, Attrs.take_of_count_le (by omega), Nat.add_sub_cancel_left]
  have hptr := hclosed.ptr
  constructor
  · rw [hrest.length, hclosed.length]
  · rw [htake, hrest.ptr, hptr, Attrs.size, Nat.add_assoc]
  · rw [← hclosed.length]
    exact hrest.fits
  · intro o k hok
    rw [hrest.before o k (by omega), hclosed.before o k hok]
  · rw [htake]
    have hlen := hclosed.len
    have hkey := hclosed.key
    have hlaid := hrest.laid
    rw [hptr] at hlaid
    rw [attrLen, Bytes.le16] at hlen
    rw [attrKey, Bytes.le16] at hkey
    constructor
    · rw [attrLen, Bytes.le16, hrest.before _ _ (by omega), hlen]
    constructor
    · rw [attrKey, Bytes.le16, hrest.before _ _ (by omega), hkey]
    constructor
    · exact hclosed.laid.keep (by omega) hrest.before
    · exact hlaid
  · obtain ⟨hover, hm⟩ | ⟨hover, hm, hfull⟩ := hrest.ended
    · exact .inl ⟨hover, by rw [Attrs.count, hm]; omega⟩
    · rw [hclosed.length, hptr] at hfull
      refine .inr ⟨hover, by rw [Attrs.count]; omega, ?_⟩
      rw [Nat.add_assoc subs.count, htake, Attrs.size]
      omega

end Runs

namespace Puts

/-- After an overflow a run changes nothing: nests fail to open and are not closed. -/
theorem run_over {uc : Ucbuf} (F : Puts) (h : uc.isOver = true) : F.run uc = uc := by
  induction F with
  | done => rfl
  | bin key buf rest ih => rw [run, ucPutBin_over key buf h, ih]
  | int key v rest ih => rw [run, ucPutInt_eq, ucPutBin_over key _ h, ih]
  | str key s rest ih => rw [run, ucPutStr, ucPutBin_over key _ h, ih]
  | flag key rest ih => rw [run, ucPutFlag_eq, ucPutBin_over key _ h, ih]
  | nest key subs rest ihsubs ih =>
      rw [run, ucPutNest, ucPutAttr_over key h]
      dsimp only
      rw [ihsubs, ucEndNest, ih]

theorem wrote_bin {uc : Ucbuf} {key : Int} {payload : Bytes} {rest : Puts}
    (hover : uc.isOver = false) (hfits : uc.ptr ≤ uc.mem.length) (hlen : 4 + payload.length < 65536)
    (ih : ∀ uc1 : Ucbuf, uc1.isOver = false → uc1.ptr ≤ uc1.mem.length →
      ∃ n, Wrote uc1 rest.attrs n (rest.run uc1)) :
    ∃ n, Wrote uc (.attr (key % 65536).toNat payload rest.attrs) n (rest.run (ucPutBin uc key payload)) := by
  by_cases hroom : uc.ptr + align4 (4 + payload.length) ≤ uc.mem.length
  · have hput := ucPutBin_fits key hover hroom
    obtain ⟨n, hn⟩ := ih _ hput.isOver (by rw [hput.ptr, hput.length]; exact hroom)
    exact ⟨n + 1, .attr hlen hput hn⟩
  · rw [ucPutBin_full key (by omega), run_over rest rfl]
    refine ⟨0, .none hfits (by rw [Attrs.count]; omega) ?_⟩
    rw [Attrs.take, Attrs.take_zero, Attrs.size, Attrs.size]
    omega

/-- The induction is on the calls. A run that fits leaves room for what follows;
one that does not leaves the flag set, and `run_over` takes over. -/
theorem wrote {uc : Ucbuf} (F : Puts) (hover : uc.isOver = false) (hfits : uc.ptr ≤ uc.mem.length)
    (hsmall : F.attrs.Small) : ∃ n, Wrote uc F.attrs n (F.run uc) := by
  induction F generalizing uc with
  | done => exact ⟨0, .nil hover hfits⟩
  | bin key buf rest ih =>
      exact wrote_bin hover hfits hsmall.1 fun uc1 ho hf => ih ho hf hsmall.2
  | int key v rest ih =>
      rw [run, ucPutInt_eq]
      exact wrote_bin hover hfits hsmall.1 fun uc1 ho hf => ih ho hf hsmall.2
  | str key s rest ih =>
      exact wrote_bin hover hfits hsmall.1 fun uc1 ho hf => ih ho hf hsmall.2
  | flag key rest ih =>
      rw [run, ucPutFlag_eq]
      exact wrote_bin hover hfits hsmall.1 fun uc1 ho hf => ih ho hf hsmall.2
  | nest key subs rest ihsubs ih =>
      obtain ⟨hlen, hsubs, hrest⟩ := hsmall
      rw [run]
      by_cases hroom : uc.ptr + 4 ≤ uc.mem.length
      · obtain ⟨uc1, hopen, hput⟩ := ucPutNest_fits key hover hroom
        have hptr : uc1.ptr = uc.ptr + 4 := hput.ptr
        rw [hopen]
        dsimp only
        obtain ⟨n, hn⟩ := ihsubs hput.isOver (by rw [hptr, hput.length]; exact hroom) hsubs
        have hclosed : Closed uc key (subs.attrs.take n) (ucEndNest (subs.run uc1) (some uc.ptr)) :=
          ucEndNest_closed hlen hput hn
        obtain ⟨ho, hcount⟩ | ⟨ho, hcount, hfull⟩ := hn.ended
        · rw [Attrs.take_of_count_le hcount.ge] at hclosed
          obtain ⟨m, hm⟩ := ih (show (ucEndNest (subs.run uc1) (some uc.ptr)).isOver = false from ho)
            (by rw [hclosed.length]; exact hclosed.fits) hrest
          exact ⟨_, .nest hclosed hm⟩
        · rw [hput.length, hptr, Nat.add_assoc] at hfull
          have ho' : (ucEndNest (subs.run uc1) (some uc.ptr)).isOver = true := ho
          rw [run_over rest ho']
          exact ⟨n + 1, .nest_cut hclosed ho' hcount hfull⟩
      · have hfull := ucPutAttr_full key 0 (show uc.mem.length < uc.ptr + align4 (4 + 0) by rw [align4]; omega)
        rw [ucPutNest, hfull]
        dsimp only
        rw [run_over subs rfl, ucEndNest, run_over rest rfl]
        refine ⟨0, .none hfits (by rw [attrs, attrsBy, Attrs.count]; omega) ?_⟩
        rw [attrs, attrsBy, Attrs.take, Attrs.take_zero, Nat.zero_sub, Attrs.take_zero]
        simp only [Attrs.size]
        omega

end Puts

theorem leNat_intBytes (v : Int) : Bytes.leNat (intBytes v) = (v % 2 ^ 32).toNat := by
  have h0 := Int.emod_nonneg v (b := 2 ^ 32) (by decide)
  have h1 := Int.emod_lt_of_pos v (b := 2 ^ 32) (by decide)
  rw [intBytes, Bytes.leNat_ofLe]
  exact Nat.mod_eq_of_lt (by omega)

theorem bmod_intBytes {v : Int} (hlo : -2 ^ 31 ≤ v) (hhi : v < 2 ^ 31) :
    (Bytes.leNat (intBytes v) : Int).bmod (2 ^ 32) = v := by
  have h0 := Int.emod_nonneg v (b := 2 ^ 32) (by decide)
  have hv : v.bmod (2 ^ 32) = v := Int.bmod_eq_of_le (by omega) (by omega)
  have hmod : (v % ((2 ^ 32 : ℕ) : Int)).bmod (2 ^ 32) = v.bmod (2 ^ 32) := Int.emod_bmod v _
  rw [leNat_intBytes, Int.toNat_of_nonneg h0]
  exact hmod.trans hv

theorem ucPutHdr_spec {buf : Bytes} (cmd : Int) (h : 8 ≤ buf.length) :
    ∃ uc, ucPutHdr (ucBufSet buf) cmd = uc ∧ uc.isOver = false ∧ uc.ptr = 8 ∧
      uc.mem.length = buf.length ∧ uc.mem.slice 4 4 = intBytes cmd := by
  obtain ⟨mem, halloc, hmem, -⟩ := ucAlloc_spec 8 (show (ucBufSet buf).isOver = false from rfl) h
  have hcmd : (intBytes cmd).length = 4 := Bytes.length_ofLe 4 _
  have hzero : (Bytes.ofLe 4 0).length = 4 := Bytes.length_ofLe 4 0
  have hput : (mem.poke 4 (intBytes cmd)).length = mem.length :=
    Bytes.length_poke (by rw [hcmd, hmem]; exact h)
  have hbuf : (ucBufSet buf).mem.length = buf.length := rfl
  have hrun : ucPutHdr (ucBufSet buf) cmd =
      { mem := (mem.poke 4 (intBytes cmd)).poke 0 (Bytes.ofLe 4 0), ptr := 8 } := by
    have halloc' : ucAlloc { ucBufSet buf with ptr := 0 } Ucmsg.size = (some 0, { mem := mem, ptr := 8 }) :=
      halloc
    rw [ucPutHdr, halloc']
  refine ⟨_, hrun, rfl, rfl, ?_, ?_⟩
  · rw [Bytes.length_poke (by rw [hzero, hput]; omega), hput, hmem, hbuf]
  · have hin : (mem.poke 4 (intBytes cmd)).slice 4 (intBytes cmd).length = intBytes cmd :=
      Bytes.slice_poke (by omega)
    rw [hcmd] at hin
    rw [Bytes.slice_poke_after (by omega) (by rw [hzero]), hin]

namespace Puts

/-- The bytes from `brk` to `ptr` when a message is finished. -/
def sent (F : Puts) (buf : Bytes) (cmd : Int) : Bytes :=
  (F.message (ucBufSet buf) cmd).mem.take (F.message (ucBufSet buf) cmd).ptr

/-- A message put into a buffer: as many attributes as fit, with a header in front of
them whose length field has 32 bits. -/
theorem sent_spec {buf : Bytes} (F : Puts) (cmd : Int) (h : 8 ≤ buf.length) (hsmall : F.attrs.Small) :
    ∃ n, ((F.message (ucBufSet buf) cmd).isOver = false ∧ n = F.attrs.count ∨
        n < F.attrs.count ∧ buf.length < 8 + (F.attrs.take (n + 1)).size) ∧
      8 + (F.attrs.take n).size ≤ buf.length ∧
      (F.sent buf cmd).length = 8 + (F.attrs.take n).size ∧
      Ucmsg.len (F.sent buf cmd) = (8 + (F.attrs.take n).size) % 2 ^ 32 ∧
      (F.sent buf cmd).slice 4 4 = intBytes cmd ∧
      Laid (F.sent buf cmd) 8 (F.attrs.take n) := by
  obtain ⟨uc, hhdr, hover, hptr, hlen, hcmd⟩ := ucPutHdr_spec cmd h
  obtain ⟨n, hn⟩ := F.wrote hover (by omega) hsmall
  have hptr' := hn.ptr
  have hfits := hn.fits
  have hlen' := hn.length
  rw [hptr] at hptr'
  rw [hlen] at hfits hlen'
  have hend : F.message (ucBufSet buf) cmd =
      { F.run uc with mem := (F.run uc).mem.poke 0 (Bytes.ofLe 4 (F.run uc).ptr) } := by
    rw [message, hhdr, ucPutEnd, if_neg (by rw [Ucmsg.size]; omega)]
  have hfour : (Bytes.ofLe 4 (F.run uc).ptr).length = 4 := Bytes.length_ofLe 4 _
  have hmem : ((F.run uc).mem.poke 0 (Bytes.ofLe 4 (F.run uc).ptr)).length = buf.length := by
    rw [Bytes.length_poke (by omega), hlen']
  have hslice : ∀ o k, o + k ≤ (F.run uc).ptr → (F.sent buf cmd).slice o k =
      ((F.run uc).mem.poke 0 (Bytes.ofLe 4 (F.run uc).ptr)).slice o k := by
    intro o k hok
    have htake := Bytes.slice_slice ((F.run uc).mem.poke 0 (Bytes.ofLe 4 (F.run uc).ptr)) hok 0
    rw [Nat.zero_add] at htake
    rw [sent, hend, ← htake]
    rfl
  refine ⟨n, ?_, by omega, ?_, ?_, ?_, ?_⟩
  · obtain ⟨hkept, hcount⟩ | ⟨-, hcount, hfull⟩ := hn.ended
    · rw [hend]
      exact .inl ⟨hkept, hcount⟩
    · rw [hlen, hptr] at hfull
      exact .inr ⟨hcount, hfull⟩
  · rw [sent, hend, List.length_take_of_le (by rw [hmem]; exact hfits), hptr']
  · have hin := Bytes.slice_poke (b := Bytes.ofLe 4 (F.run uc).ptr)
      (show 0 ≤ (F.run uc).mem.length by omega)
    rw [hfour] at hin
    rw [Ucmsg.len, Bytes.le32, hslice 0 4 (by omega), hin, Bytes.leNat_ofLe, hptr']
    norm_num
  · rw [hslice 4 4 (by omega), Bytes.slice_poke_after (by omega) (by omega),
      hn.before 4 4 (by omega), hcmd]
  · have hlaid := hn.laid
    rw [hptr] at hlaid
    apply hlaid.copy
    intro o k hok
    rw [hslice (8 + o) k (by omega), Bytes.slice_poke_after (by omega) (by omega)]

end Puts

/-- A message with a command and attributes, as a receiver sees it: the length is that
of the whole, and a walk over the attributes finds these and no others. -/
structure Holds (msg : Bytes) (cmd : Int) (G : Attrs) : Prop where
  accepted : ucMsg msg = some msg
  whole : Ucmsg.len msg = msg.length
  size : msg.length = 8 + G.size
  cmd : Ucmsg.cmd msg = cmd
  attrs : Decodes msg (subs msg) (attrs msg) (ucGet0 msg) G

theorem Puts.sent_holds {buf : Bytes} (F : Puts) {cmd : Int} (h : 8 ≤ buf.length)
    (hlo : -2 ^ 31 ≤ cmd) (hhi : cmd < 2 ^ 31) (hsmall : F.attrs.Small)
    (hlen : buf.length < 2 ^ 32 ∨ 8 + F.attrs.size < 2 ^ 32) :
    ∃ n, ((F.message (ucBufSet buf) cmd).isOver = false ∧ n = F.attrs.count ∨
        n < F.attrs.count ∧ buf.length < 8 + (F.attrs.take (n + 1)).size) ∧
      8 + (F.attrs.take n).size ≤ buf.length ∧ Holds (F.sent buf cmd) cmd (F.attrs.take n) := by
  obtain ⟨n, hn, hfits, hsize, hfield, hcmd, hlaid⟩ := F.sent_spec cmd h hsmall
  have hle := Attrs.size_take_le n F.attrs
  have hsmall32 : 8 + (F.attrs.take n).size < 2 ^ 32 := by omega
  have hwhole := hfield.trans (Nat.mod_eq_of_lt hsmall32)
  refine ⟨n, hn, hfits, ?_⟩
  constructor
  · exact ucMsg_some.mpr ⟨rfl, by rw [Ucmsg.size]; omega, by omega⟩
  · exact hwhole.trans hsize.symm
  · exact hsize
  · have hback := bmod_intBytes hlo hhi
    rw [← hcmd] at hback
    exact hback
  · exact decodes_laid hwhole hlaid

theorem Puts.sent_whole {buf : Bytes} (F : Puts) {cmd : Int} (hlo : -2 ^ 31 ≤ cmd) (hhi : cmd < 2 ^ 31)
    (hsmall : F.attrs.Small) (hroom : 8 + F.attrs.size ≤ buf.length) (hlen : 8 + F.attrs.size < 2 ^ 32) :
    (F.message (ucBufSet buf) cmd).isOver = false ∧ Holds (F.sent buf cmd) cmd F.attrs := by
  have h8 : 8 ≤ buf.length := by omega
  obtain ⟨n, hn, -, hholds⟩ := F.sent_holds h8 hlo hhi hsmall (.inr hlen)
  obtain ⟨hover, hcount⟩ | ⟨-, hfull⟩ := hn
  · rw [Attrs.take_of_count_le hcount.ge] at hholds
    exact ⟨hover, hholds⟩
  · have hle := Attrs.size_take_le (n + 1) F.attrs
    omega

end Wsupp.Nlusctl

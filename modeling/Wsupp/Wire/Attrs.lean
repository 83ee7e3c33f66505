import Wsupp.Bytes

/-!
# Attributes in memory

An attribute is a 16-bit length, a 16-bit key and a payload. The length counts the
header but not the padding that brings the next attribute to a multiple of four
bytes. A nest is an attribute with more attributes for its payload.

`Attrs` lists what was written, `Laid` says that memory holds it, and `Decodes` that
a reader going from attribute to attribute finds it again. Padding may have any
content. A reader is any pair of functions for the first and the next offset that
steps over attributes as their lengths say, so formats with the same headers and
different bounds share the lemmas.
-/
namespace Wire

def align4 (n : ℕ) : ℕ := n + (4 - n % 4) % 4

def attrLen (mem : Bytes) (p : ℕ) : ℕ := mem.le16 p

def attrKey (mem : Bytes) (p : ℕ) : ℕ := mem.le16 (p + 2)

theorem align4_mod (n : ℕ) : align4 n % 4 = 0 := by
  unfold align4
  omega

theorem le_align4 (n : ℕ) : n ≤ align4 n := by
  unfold align4
  omega

theorem align4_lt (n : ℕ) : align4 n < n + 4 := by
  unfold align4
  omega

theorem align4_le {n m : ℕ} (h : n ≤ m) (hm : m % 4 = 0) : align4 n ≤ m := by
  unfold align4
  omega

theorem align4_eq {n : ℕ} (h : n % 4 = 0) : align4 n = n := by
  unfold align4
  omega

theorem attrLen_lt (mem : Bytes) (p : ℕ) : attrLen mem p < 65536 := by
  have h : attrLen mem p < 256 ^ (mem.slice p 2).length := Bytes.leNat_lt _
  have hle : (mem.slice p 2).length ≤ 2 := Bytes.length_slice_le
  calc
    attrLen mem p < 256 ^ (mem.slice p 2).length := h
    _ ≤ 256 ^ 2 := Nat.pow_le_pow_right (by norm_num) hle

def attrHead (len key : ℕ) : Bytes := Bytes.ofLe 2 len ++ Bytes.ofLe 2 key

section Headers
variable {mem b : Bytes} {p q len key : ℕ}

@[simp] theorem length_attrHead (len key : ℕ) : (attrHead len key).length = 4 := by
  rw [attrHead, List.length_append, Bytes.length_ofLe, Bytes.length_ofLe]

theorem leNat_ofLe_two (n : ℕ) : Bytes.leNat (Bytes.ofLe 2 n) = n % 65536 := by
  rw [Bytes.leNat_ofLe]
  norm_num

theorem attrLen_poke_head (h : p ≤ mem.length) :
    attrLen (mem.poke p (attrHead len key)) p = len % 65536 := by
  have hin := Bytes.slice_poke_in (b := attrHead len key) (o := 0) (n := 2) h
    (by rw [length_attrHead]; omega)
  have hleft : (attrHead len key).slice 0 2 = Bytes.ofLe 2 len := List.take_left' (Bytes.length_ofLe 2 _)
  rw [Nat.add_zero, hleft] at hin
  rw [attrLen, Bytes.le16, hin, leNat_ofLe_two]

theorem attrKey_poke_head (h : p ≤ mem.length) :
    attrKey (mem.poke p (attrHead len key)) p = key % 65536 := by
  have hin := Bytes.slice_poke_in (b := attrHead len key) (o := 2) (n := 2) h
    (by rw [length_attrHead])
  have hright : (attrHead len key).slice (2 + 0) 2 = (Bytes.ofLe 2 key).slice 0 2 :=
    Bytes.slice_append_right (Bytes.length_ofLe 2 len)
  rw [attrKey, Bytes.le16, hin, hright, Bytes.slice, List.drop_zero,
    List.take_of_length_le (Bytes.length_ofLe 2 key).le, leNat_ofLe_two]

theorem attrLen_poke_len (h : p ≤ mem.length) : attrLen (mem.poke p (Bytes.ofLe 2 len)) p = len % 65536 := by
  have hin := Bytes.slice_poke (b := Bytes.ofLe 2 len) h
  rw [Bytes.length_ofLe] at hin
  rw [attrLen, Bytes.le16, hin, leNat_ofLe_two]

theorem attrKey_poke_len (h : p ≤ mem.length) :
    attrKey (mem.poke p (Bytes.ofLe 2 len)) p = attrKey mem p := by
  rw [attrKey, attrKey, Bytes.le16, Bytes.le16, Bytes.slice_poke_after h (by rw [Bytes.length_ofLe])]

theorem attrLen_poke (hq : p + 2 ≤ q) (h : q ≤ mem.length) : attrLen (mem.poke q b) p = attrLen mem p := by
  rw [attrLen, attrLen, Bytes.le16, Bytes.le16, Bytes.slice_poke_before h hq]

theorem attrKey_poke (hq : p + 4 ≤ q) (h : q ≤ mem.length) : attrKey (mem.poke q b) p = attrKey mem p := by
  rw [attrKey, attrKey, Bytes.le16, Bytes.le16, Bytes.slice_poke_before h (by omega)]

end Headers

/-- Attributes in the order they are written, each with its key and its value. Payloads
are of any length, nests of any depth. -/
inductive Attrs where
  | nil
  | attr (key : ℕ) (payload : Bytes) (rest : Attrs)
  | nest (key : ℕ) (subs rest : Attrs)
deriving DecidableEq, Repr

inductive Value where
  | bytes (b : Bytes)
  | nest (subs : Attrs)

namespace Attrs

def size : Attrs → ℕ
  | nil => 0
  | attr _ payload rest => align4 (4 + payload.length) + rest.size
  | nest _ subs rest => 4 + subs.size + rest.size

/-- The number of attributes, those inside nests included. -/
def count : Attrs → ℕ
  | nil => 0
  | attr _ _ rest => 1 + rest.count
  | nest _ subs rest => 1 + subs.count + rest.count

/-- The first `n` attributes in the order they are written; a nest may be cut inside. -/
def take : ℕ → Attrs → Attrs
  | 0, _ => nil
  | _, nil => nil
  | n + 1, attr key payload rest => attr key payload (rest.take n)
  | n + 1, nest key subs rest => nest key (subs.take n) (rest.take (n - subs.count))

def start (p : ℕ) : Attrs → Option ℕ
  | nil => none
  | _ => some p

/-- The first value under a key, outside of nests. -/
def get (key : ℕ) : Attrs → Option Value
  | nil => none
  | attr k payload rest => if k = key then some (.bytes payload) else rest.get key
  | nest k subs rest => if k = key then some (.nest subs) else rest.get key

/-- All values under a key, outside of nests. -/
def values (key : ℕ) : Attrs → List Value
  | nil => []
  | attr k payload rest => if k = key then .bytes payload :: rest.values key else rest.values key
  | nest k subs rest => if k = key then .nest subs :: rest.values key else rest.values key

def width : Attrs → ℕ
  | nil => 0
  | attr _ _ rest => rest.width + 1
  | nest _ _ rest => rest.width + 1

/-- An attribute in front of others, whatever it carries. -/
def cons (key : ℕ) : Value → Attrs → Attrs
  | .bytes payload, rest => attr key payload rest
  | .nest subs, rest => nest key subs rest

@[elab_as_elim] theorem list_induction {P : Attrs → Prop} (nil : P nil)
    (cons : ∀ key v rest, P rest → P (cons key v rest)) (F : Attrs) : P F := by
  induction F with
  | nil => exact nil
  | attr key payload rest ih => exact cons key (.bytes payload) rest ih
  | nest key subs rest _ ih => exact cons key (.nest subs) rest ih

theorem get_cons (key k : ℕ) (v : Value) (rest : Attrs) :
    (cons k v rest).get key = if k = key then some v else rest.get key := by
  cases v <;> rfl

theorem values_cons (key k : ℕ) (v : Value) (rest : Attrs) :
    (cons k v rest).values key = if k = key then v :: rest.values key else rest.values key := by
  cases v <;> rfl

theorem width_cons (k : ℕ) (v : Value) (rest : Attrs) : (cons k v rest).width = rest.width + 1 := by
  cases v <;> rfl

/-- Every length fits its field. -/
def Small : Attrs → Prop
  | nil => True
  | attr _ payload rest => 4 + payload.length < 65536 ∧ rest.Small
  | nest _ subs rest => 4 + subs.size < 65536 ∧ subs.Small ∧ rest.Small

/-- Every nest holds attributes of this kind. -/
def Nests (ok : Attrs → Prop) : Attrs → Prop
  | nil => True
  | attr _ _ rest => rest.Nests ok
  | nest _ subs rest => ok subs ∧ subs.Nests ok ∧ rest.Nests ok

theorem nests_any (F : Attrs) : F.Nests fun _ => True := by
  induction F with
  | nil => trivial
  | attr key payload rest ih => exact ih
  | nest key subs rest ihsubs ih => exact ⟨trivial, ihsubs, ih⟩

theorem Nests.get {ok : Attrs → Prop} {F G : Attrs} {key : ℕ} (h : F.Nests ok)
    (hget : F.get key = some (.nest G)) : ok G ∧ G.Nests ok := by
  induction F with
  | nil => cases hget
  | attr k payload rest ih =>
      rw [Attrs.get] at hget
      split at hget
      · cases hget
      · exact ih h hget
  | nest k subs rest ihsubs ih =>
      rw [Attrs.get] at hget
      split at hget
      · cases hget
        exact ⟨h.1, h.2.1⟩
      · exact ih h.2.2 hget

theorem size_mod (F : Attrs) : F.size % 4 = 0 := by
  induction F with
  | nil => rfl
  | attr key payload rest ih =>
      have h := align4_mod (4 + payload.length)
      rw [size]
      omega
  | nest key subs rest ihsubs ih =>
      rw [size]
      omega

theorem width_le (F : Attrs) : 4 * F.width ≤ F.size := by
  induction F with
  | nil => exact le_rfl
  | attr key payload rest ih =>
      have h := le_align4 (4 + payload.length)
      rw [size, width]
      omega
  | nest key subs rest ihsubs ih =>
      rw [size, width]
      omega

theorem take_nil (n : ℕ) : nil.take n = nil := by
  cases n <;> rfl

theorem take_zero (F : Attrs) : F.take 0 = nil := by
  cases F <;> rfl

theorem take_of_count_le {n : ℕ} {F : Attrs} (h : F.count ≤ n) : F.take n = F := by
  induction F generalizing n with
  | nil => exact take_nil n
  | attr key payload rest ih =>
      rw [count] at h
      obtain ⟨m, rfl⟩ := Nat.exists_eq_add_of_le h
      rw [show 1 + rest.count + m = (rest.count + m) + 1 by omega, take, ih (by omega)]
  | nest key subs rest ihsubs ih =>
      rw [count] at h
      obtain ⟨m, rfl⟩ := Nat.exists_eq_add_of_le h
      rw [show 1 + subs.count + rest.count + m = (subs.count + rest.count + m) + 1 by omega, take,
        ihsubs (by omega), ih (by omega)]

theorem size_take_le (n : ℕ) (F : Attrs) : (F.take n).size ≤ F.size := by
  induction F generalizing n with
  | nil => rw [take_nil]
  | attr key payload rest ih =>
      cases n with
      | zero => exact Nat.zero_le _
      | succ n =>
          rw [take, size, size]
          exact Nat.add_le_add_left (ih n) _
  | nest key subs rest ihsubs ih =>
      cases n with
      | zero => exact Nat.zero_le _
      | succ n =>
          have hsubs := ihsubs n
          have hrest := ih (n - subs.count)
          rw [take, size, size]
          omega

end Attrs

/-- Memory from `p` on holds these attributes. -/
def Laid (mem : Bytes) : ℕ → Attrs → Prop
  | _, .nil => True
  | p, .attr key payload rest =>
      attrLen mem p = 4 + payload.length ∧ attrKey mem p = key ∧
        mem.slice (p + 4) payload.length = payload ∧ Laid mem (p + align4 (4 + payload.length)) rest
  | p, .nest key subs rest =>
      attrLen mem p = 4 + subs.size ∧ attrKey mem p = key ∧ Laid mem (p + 4) subs ∧
        Laid mem (p + (4 + subs.size)) rest

/-- The same `n` bytes at two places. -/
def Same (mem : Bytes) (p : ℕ) (mem' : Bytes) (p' n : ℕ) : Prop :=
  ∀ o k, o + k ≤ n → mem.slice (p + o) k = mem'.slice (p' + o) k

section Same
variable {mem mem' : Bytes} {p p' n : ℕ}

theorem Same.part (h : Same mem p mem' p' n) {o m : ℕ} (hm : o + m ≤ n) :
    Same mem (p + o) mem' (p' + o) m := by
  intro i k hik
  rw [Nat.add_assoc, Nat.add_assoc]
  exact h (o + i) k (by omega)

theorem Same.attrLen (h : Same mem p mem' p' n) (hn : 2 ≤ n) : attrLen mem' p' = attrLen mem p := by
  have h0 := h 0 2 (by omega)
  rw [Wire.attrLen, Wire.attrLen, Bytes.le16, Bytes.le16]
  rw [Nat.add_zero, Nat.add_zero] at h0
  rw [h0]

theorem Same.attrKey (h : Same mem p mem' p' n) (hn : 4 ≤ n) : attrKey mem' p' = attrKey mem p := by
  rw [Wire.attrKey, Wire.attrKey, Bytes.le16, Bytes.le16, h 2 2 (by omega)]

/-- A copy of the bytes is a copy of the attributes. -/
theorem Laid.copy {F : Attrs} (hlaid : Laid mem p F) (h : Same mem p mem' p' F.size) :
    Laid mem' p' F := by
  induction F generalizing p p' with
  | nil => trivial
  | attr key payload rest ih =>
      obtain ⟨hlen, hkey, hpay, hrest⟩ := hlaid
      have hle := le_align4 (4 + payload.length)
      rw [Attrs.size] at h
      have hdata := h 4 payload.length (by omega)
      constructor
      · rw [h.attrLen (by omega), hlen]
      constructor
      · rw [h.attrKey (by omega), hkey]
      constructor
      · rw [← hdata, hpay]
      · exact ih hrest (h.part (by omega))
  | nest key subs rest ihsubs ih =>
      obtain ⟨hlen, hkey, hsubs, hrest⟩ := hlaid
      rw [Attrs.size] at h
      constructor
      · rw [h.attrLen (by omega), hlen]
      constructor
      · rw [h.attrKey (by omega), hkey]
      constructor
      · exact ihsubs hsubs (h.part (by omega))
      · exact ih hrest (h.part (by omega))

/-- What is written behind the attributes leaves them in place. -/
theorem Laid.keep {F : Attrs} (hlaid : Laid mem p F) (hn : p + F.size ≤ n)
    (h : ∀ o k, o + k ≤ n → mem'.slice o k = mem.slice o k) : Laid mem' p F := by
  apply hlaid.copy
  intro o k hok
  exact (h (p + o) k (by omega)).symm

end Same

/-- A loop over attributes: where it starts, and where it goes from an attribute.
Nothing is known yet of how it finds its way. -/
structure Reader where
  first : Option ℕ
  next : ℕ → Option ℕ

namespace Reader

/-- The attributes a loop comes to. -/
inductive Visits (r : Reader) : ℕ → Prop where
  | first {p : ℕ} (h : r.first = some p) : Visits r p
  | next {p q : ℕ} (hp : Visits r p) (h : r.next p = some q) : Visits r q

/-- The loop that stops at the first hit; `n` bounds the attributes tried. -/
def search (r : Reader) (hit : ℕ → Bool) : ℕ → Option ℕ → Option ℕ
  | _, none => none
  | 0, some _ => none
  | n + 1, some p => if hit p then some p else r.search hit n (r.next p)

/-- The loop that goes on to the end and keeps the hits. -/
def collect (r : Reader) (hit : ℕ → Bool) : ℕ → Option ℕ → List ℕ
  | _, none => []
  | 0, some _ => []
  | n + 1, some p => if hit p then p :: r.collect hit n (r.next p) else r.collect hit n (r.next p)

/-- A reader for memory that holds attributes from `lo` to `hi`: it starts at the first
of them, goes on by their lengths, and stops at the end. -/
structure Over (r : Reader) (mem : Bytes) (lo hi : ℕ) : Prop where
  first_none : lo = hi → r.first = none
  first_some : lo + 4 ≤ hi → lo + attrLen mem lo ≤ hi → r.first = some lo
  next_none : ∀ p, lo ≤ p → 4 ≤ attrLen mem p → p + align4 (attrLen mem p) = hi → r.next p = none
  next_some : ∀ p q, lo ≤ p → 4 ≤ attrLen mem p → q = p + align4 (attrLen mem p) → q + 4 ≤ hi →
    q + attrLen mem q ≤ hi → r.next p = some q

theorem search_visits {r : Reader} {hit : ℕ → Bool} {n p : ℕ} {o : Option ℕ}
    (ho : ∀ q, o = some q → r.Visits q) (h : r.search hit n o = some p) :
    r.Visits p ∧ hit p = true := by
  induction n generalizing o with
  | zero => cases o <;> cases h
  | succ n ih =>
      cases o with
      | none => cases h
      | some q =>
          rw [search] at h
          by_cases hq : hit q = true
          · rw [if_pos hq] at h
            cases h
            exact ⟨ho p rfl, hq⟩
          · rw [if_neg hq] at h
            exact ih (fun q' hq' => .next (ho q rfl) hq') h

/-- A loop comes from one attribute to another, by none or more steps. -/
inductive Leads (r : Reader) : ℕ → ℕ → Prop where
  | here (p : ℕ) : Leads r p p
  | step {p p' q : ℕ} (h : r.next p = some p') (rest : Leads r p' q) : Leads r p q

theorem Leads.visits {r : Reader} {p q : ℕ} (h : r.Leads p q) (hp : r.Visits p) : r.Visits q := by
  induction h with
  | here p => exact hp
  | step h _ ih => exact ih (.next hp h)

theorem Leads.next {r : Reader} {p q q' : ℕ} (h : r.Leads p q) (hq : r.next q = some q') :
    r.Leads p q' := by
  induction h with
  | here p => exact .step hq (.here q')
  | step h _ ih => exact .step h (ih hq)

theorem visits_iff {r : Reader} {q : ℕ} : r.Visits q ↔ ∃ p, r.first = some p ∧ r.Leads p q := by
  constructor
  · intro h
    induction h with
    | first h => exact ⟨_, h, .here _⟩
    | next _ h ih =>
        obtain ⟨p, hp, hleads⟩ := ih
        exact ⟨p, hp, hleads.next h⟩
  · intro h
    obtain ⟨p, hp, hleads⟩ := h
    exact hleads.visits (.first hp)

theorem visits_of_first {r : Reader} {p q : ℕ} (h : r.first = some p) : r.Visits q ↔ r.Leads p q := by
  rw [visits_iff]
  constructor
  · intro hvisited
    obtain ⟨p', hp', hleads⟩ := hvisited
    rw [h] at hp'
    cases hp'
    exact hleads
  · exact fun hleads => ⟨p, h, hleads⟩

/-- The attributes of a loop in their order. -/
def nth (r : Reader) : ℕ → Option ℕ
  | 0 => r.first
  | n + 1 => (r.nth n).bind r.next

def Ends (r : Reader) : Prop := ∃ n, r.nth n = none

/-- Steps lead upwards, and only from attributes below the bound. -/
def Climbs (r : Reader) (bound : ℕ) : Prop := ∀ p q, r.next p = some q → p < q ∧ p < bound

section Climbs
variable {r : Reader} {bound n p q : ℕ}

theorem Climbs.le (hr : r.Climbs bound) (h : r.Leads p q) : p ≤ q := by
  induction h with
  | here p => exact le_rfl
  | step h _ ih => exact (hr _ _ h).1.le.trans ih

theorem Climbs.ends (hr : r.Climbs bound) : r.Ends := by
  have hle (n : ℕ) : ∀ p, r.nth n = some p → n ≤ p := by
    induction n with
    | zero => exact fun p _ => p.zero_le
    | succ n ih =>
        intro q h
        obtain ⟨p, hp, hq⟩ := Option.bind_eq_some_iff.mp h
        exact (ih p hp).trans_lt (hr p q hq).1
  refine ⟨bound + 1, Option.eq_none_iff_forall_ne_some.mpr fun q h => ?_⟩
  obtain ⟨p, hp, hq⟩ := Option.bind_eq_some_iff.mp h
  have hbound := (hr p q hq).2
  have hn := hle bound p hp
  omega

/-- With enough turns a search comes to the first hit. -/
theorem Climbs.search_iff (hr : r.Climbs bound) (hit : ℕ → Bool) (hn : 0 < n) (hbound : bound < n + p) :
    r.search hit n (some p) = some q ↔
      r.Leads p q ∧ hit q = true ∧ ∀ q' < q, r.Leads p q' → hit q' = false := by
  induction n generalizing p with
  | zero => cases hn
  | succ n ih =>
      rw [search]
      by_cases hp : hit p = true
      · rw [if_pos hp]
        constructor
        · intro h
          obtain rfl : p = q := Option.some.inj h
          refine ⟨.here p, hp, fun q' hq' hleads => ?_⟩
          have hle := hr.le hleads
          omega
        · intro h
          obtain ⟨hleads, -, hfirst⟩ := h
          obtain heq | hlt := (hr.le hleads).eq_or_lt
          · rw [heq]
          · rw [hfirst p hlt (.here p)] at hp
            cases hp
      · rw [if_neg hp]
        cases hnext : r.next p with
        | none =>
            constructor
            · intro h
              cases n <;> cases h
            · intro h
              obtain ⟨hleads, hq, -⟩ := h
              cases hleads with
              | here => exact absurd hq hp
              | step h _ =>
                  rw [hnext] at h
                  cases h
        | some p' =>
            obtain ⟨hlt, hpb⟩ := hr p p' hnext
            rw [ih (by omega) (by omega)]
            constructor
            · intro h
              obtain ⟨hleads, hq, hfirst⟩ := h
              refine ⟨.step hnext hleads, hq, fun q' hq' h => ?_⟩
              cases h with
              | here => exact Bool.not_eq_true _ ▸ hp
              | step h rest =>
                  rw [hnext] at h
                  cases h
                  exact hfirst q' hq' rest
            · intro h
              obtain ⟨hleads, hq, hfirst⟩ := h
              cases hleads with
              | here => exact absurd hq hp
              | step h rest =>
                  rw [hnext] at h
                  cases h
                  exact ⟨rest, hq, fun q' hq' h => hfirst q' hq' (.step hnext h)⟩

/-- With enough turns all hits are kept, in their order. -/
theorem Climbs.mem_collect (hr : r.Climbs bound) (hit : ℕ → Bool) (hn : 0 < n) (hbound : bound < n + p) :
    q ∈ r.collect hit n (some p) ↔ r.Leads p q ∧ hit q = true := by
  induction n generalizing p with
  | zero => cases hn
  | succ n ih =>
      have hrest : q ∈ r.collect hit n (r.next p) ↔ ∃ p', r.next p = some p' ∧ r.Leads p' q ∧ hit q = true := by
        cases hnext : r.next p with
        | none => cases n <;> simp [collect]
        | some p' =>
            obtain ⟨hlt, hpb⟩ := hr p p' hnext
            rw [ih (by omega) (by omega)]
            simp
      have hleads : r.Leads p q ↔ p = q ∨ ∃ p', r.next p = some p' ∧ r.Leads p' q := by
        constructor
        · intro h
          cases h with
          | here => exact .inl rfl
          | step h rest => exact .inr ⟨_, h, rest⟩
        · intro h
          obtain rfl | ⟨p', h, rest⟩ := h
          · exact .here p
          · exact .step h rest
      rw [collect, hleads]
      by_cases hp : hit p = true
      · rw [if_pos hp, List.mem_cons, hrest]
        constructor
        · intro h
          obtain rfl | ⟨p', h, rest, hq⟩ := h
          · exact ⟨.inl rfl, hp⟩
          · exact ⟨.inr ⟨p', h, rest⟩, hq⟩
        · intro h
          obtain ⟨rfl | ⟨p', h, rest⟩, hq⟩ := h
          · exact .inl rfl
          · exact .inr ⟨p', h, rest, hq⟩
      · rw [if_neg hp, hrest]
        constructor
        · intro h
          obtain ⟨p', h, rest, hq⟩ := h
          exact ⟨.inr ⟨p', h, rest⟩, hq⟩
        · intro h
          obtain ⟨rfl | ⟨p', h, rest⟩, hq⟩ := h
          · exact absurd hq hp
          · exact ⟨p', h, rest, hq⟩

theorem Climbs.sorted_collect (hr : r.Climbs bound) (hit : ℕ → Bool) (n : ℕ) (o : Option ℕ) :
    (r.collect hit n o).Pairwise (· < ·) ∧ ∀ p ∈ o, ∀ q ∈ r.collect hit n o, p ≤ q := by
  induction n generalizing o with
  | zero => cases o <;> simp [collect]
  | succ n ih =>
      cases o with
      | none => simp [collect]
      | some p =>
          obtain ⟨hsorted, hfrom⟩ := ih (r.next p)
          have hpast (q : ℕ) (hq : q ∈ r.collect hit n (r.next p)) : p < q := by
            cases hnext : r.next p with
            | none =>
                rw [hnext] at hq
                cases n <;> cases hq
            | some p' => exact (hr p p' hnext).1.trans_le (hfrom p' hnext q hq)
          have hle : ∀ p' ∈ some p, ∀ q ∈ r.collect hit n (r.next p), p' ≤ q := by
            intro p' hp' q hq
            obtain rfl := Option.some.inj hp'
            exact (hpast q hq).le
          rw [collect]
          by_cases hp : hit p = true
          · rw [if_pos hp]
            constructor
            · exact List.pairwise_cons.mpr ⟨hpast, hsorted⟩
            · intro p' hp' q hq
              cases List.mem_cons.mp hq with
              | inl heq => exact (Option.some.inj hp' ▸ heq).ge
              | inr hmem => exact hle p' hp' q hmem
          · rw [if_neg hp]
            exact ⟨hsorted, hle⟩

end Climbs

end Reader

/-- From `at` on the reader comes to exactly these attributes, and so inside nests,
where `sub` reads. -/
def Decodes (mem : Bytes) (sub : ℕ → Reader) : Reader → Option ℕ → Attrs → Prop
  | _, none, .nil => True
  | r, some p, .attr key payload rest =>
      attrLen mem p = 4 + payload.length ∧ attrKey mem p = key ∧
        mem.slice (p + 4) payload.length = payload ∧ Decodes mem sub r (r.next p) rest
  | r, some p, .nest key subs rest =>
      attrLen mem p = 4 + subs.size ∧ attrKey mem p = key ∧
        Decodes mem sub (sub p) (sub p).first subs ∧ Decodes mem sub r (r.next p) rest
  | _, _, _ => False

/-- The attribute at `p` carries a value. -/
def Carries (mem : Bytes) (sub : ℕ → Reader) (p : ℕ) : Value → Prop
  | .bytes b => attrLen mem p = 4 + b.length ∧ mem.slice (p + 4) b.length = b
  | .nest subs => attrLen mem p = 4 + subs.size ∧ Decodes mem sub (sub p) (sub p).first subs

section Decodes
variable {mem : Bytes} {sub : ℕ → Reader} {r : Reader} {lo hi : ℕ}

theorem Carries.len {p : ℕ} {v : Value} (h : Carries mem sub p v) : 4 ≤ attrLen mem p := by
  cases v with
  | bytes b =>
      have hlen := h.1
      omega
  | nest subs =>
      have hlen := h.1
      omega

theorem decodes_cons {o : Option ℕ} {key : ℕ} {v : Value} {rest : Attrs} :
    Decodes mem sub r o (.cons key v rest) ↔
      ∃ p, o = some p ∧ attrKey mem p = key ∧ Carries mem sub p v ∧ Decodes mem sub r (r.next p) rest := by
  constructor
  · intro h
    cases o with
    | none => cases v <;> exact h.elim
    | some p =>
        cases v with
        | bytes b => exact ⟨p, rfl, h.2.1, ⟨h.1, h.2.2.1⟩, h.2.2.2⟩
        | nest subs => exact ⟨p, rfl, h.2.1, ⟨h.1, h.2.2.1⟩, h.2.2.2⟩
  · intro h
    obtain ⟨p, rfl, hkey, hcarries, hrest⟩ := h
    cases v with
    | bytes b => exact ⟨hcarries.1, hkey, hcarries.2, hrest⟩
    | nest subs => exact ⟨hcarries.1, hkey, hcarries.2, hrest⟩

/-- The header of the next attribute, if there is one, lies in front of the end. -/
theorem Laid.fits {F : Attrs} {p : ℕ} (h : Laid mem p F) (hend : p + F.size = hi) :
    F = .nil ∧ p = hi ∨ F.start p = some p ∧ p + 4 ≤ hi ∧ p + attrLen mem p ≤ hi := by
  cases F with
  | nil => exact .inl ⟨rfl, hend⟩
  | attr key payload rest =>
      have hle := le_align4 (4 + payload.length)
      rw [Attrs.size] at hend
      rw [h.1]
      exact .inr ⟨rfl, by omega, by omega⟩
  | nest key subs rest =>
      rw [Attrs.size] at hend
      rw [h.1]
      exact .inr ⟨rfl, by omega, by omega⟩

theorem Reader.Over.first_eq (hr : r.Over mem lo hi) {F : Attrs} (h : Laid mem lo F)
    (hend : lo + F.size = hi) : r.first = F.start lo := by
  obtain ⟨rfl, heq⟩ | ⟨hstart, hhead, hlen⟩ := h.fits hend
  · exact hr.first_none heq
  · rw [hstart]
    exact hr.first_some hhead hlen

theorem Reader.Over.next_eq (hr : r.Over mem lo hi) {F : Attrs} {p q : ℕ} (hp : lo ≤ p)
    (hlen : 4 ≤ attrLen mem p) (hq : p + align4 (attrLen mem p) = q) (h : Laid mem q F)
    (hend : q + F.size = hi) : r.next p = F.start q := by
  obtain ⟨rfl, heq⟩ | ⟨hstart, hhead, hfits⟩ := h.fits hend
  · exact hr.next_none p hp hlen (by omega)
  · rw [hstart]
    exact hr.next_some p q hp hlen hq.symm hhead hfits

/-- What is laid out is read back. The induction is on the attributes; inside a
nest the reader is the one of the nest. -/
theorem Laid.decodes (ok : Attrs → Prop)
    (hsub : ∀ p G, ok G → Laid mem (p + 4) G → attrLen mem p = 4 + G.size →
      (sub p).Over mem (p + 4) (p + attrLen mem p))
    {F : Attrs} {p : ℕ} (h : Laid mem p F) (hok : F.Nests ok) (hr : r.Over mem lo hi) (hp : lo ≤ p)
    (hend : p + F.size = hi) : Decodes mem sub r (F.start p) F := by
  induction F generalizing r lo hi p with
  | nil => trivial
  | attr key payload rest ih =>
      obtain ⟨hlen, hkey, hpay, hrest⟩ := h
      rw [Attrs.size, ← Nat.add_assoc] at hend
      have hnext : r.next p = rest.start (p + align4 (4 + payload.length)) :=
        hr.next_eq hp (by omega) (by rw [hlen]) hrest hend
      refine ⟨hlen, hkey, hpay, ?_⟩
      rw [hnext]
      exact ih hrest hok hr (by omega) hend
  | nest key subs rest ihsubs ih =>
      obtain ⟨hlen, hkey, hsubs, hrest⟩ := h
      obtain ⟨hoksubs, hokin, hokrest⟩ := hok
      rw [Attrs.size, ← Nat.add_assoc] at hend
      have hmod : (4 + subs.size) % 4 = 0 := by
        have h4 := subs.size_mod
        omega
      have hnext : r.next p = rest.start (p + (4 + subs.size)) :=
        hr.next_eq hp (by omega) (by rw [hlen, align4_eq hmod]) hrest hend
      have hin := hsub p subs hoksubs hsubs hlen
      rw [hlen, ← Nat.add_assoc] at hin
      have hfirst := hin.first_eq hsubs rfl
      refine ⟨hlen, hkey, ?_, ?_⟩
      · rw [hfirst]
        exact ihsubs hsubs hokin hin le_rfl rfl
      · rw [hnext]
        exact ih hrest hokrest hr (by omega) hend

/-- A search by key finds the first attribute written under it. -/
theorem Decodes.search {F : Attrs} {o : Option ℕ} (h : Decodes mem sub r o F) (key : ℕ) {n : ℕ}
    (hn : F.width ≤ n) :
    match F.get key with
    | none => r.search (fun p => attrKey mem p = key) n o = none
    | some v => ∃ p, r.search (fun p => attrKey mem p = key) n o = some p ∧ attrKey mem p = key ∧
        Carries mem sub p v := by
  induction F using Attrs.list_induction generalizing n o with
  | nil =>
      cases o with
      | none => cases n <;> rfl
      | some p => exact h.elim
  | cons k v rest ih =>
      obtain ⟨p, rfl, hkey, hcarries, hrest⟩ := decodes_cons.mp h
      rw [Attrs.width_cons] at hn
      obtain ⟨m, rfl⟩ : ∃ m, n = m + 1 := ⟨n - 1, by omega⟩
      rw [Attrs.get_cons, Reader.search, hkey]
      by_cases hk : k = key
      · rw [if_pos hk, if_pos (by rw [decide_eq_true hk])]
        exact ⟨p, rfl, hkey.trans hk, hcarries⟩
      · rw [if_neg hk, if_neg (by rw [decide_eq_false hk]; simp)]
        exact ih hrest (by omega)

/-- A collection by key finds all attributes written under it, in order. -/
theorem Decodes.collect {F : Attrs} {o : Option ℕ} (h : Decodes mem sub r o F) (key : ℕ) {n : ℕ}
    (hn : F.width ≤ n) :
    List.Forall₂ (Carries mem sub) (r.collect (fun p => attrKey mem p = key) n o) (F.values key) := by
  induction F using Attrs.list_induction generalizing n o with
  | nil =>
      cases o with
      | none => cases n <;> exact .nil
      | some p => exact h.elim
  | cons k v rest ih =>
      obtain ⟨p, rfl, hkey, hcarries, hrest⟩ := decodes_cons.mp h
      rw [Attrs.width_cons] at hn
      obtain ⟨m, rfl⟩ : ∃ m, n = m + 1 := ⟨n - 1, by omega⟩
      have hcollect := ih hrest (n := m) (by omega)
      rw [Attrs.values_cons, Reader.collect, hkey]
      by_cases hk : k = key
      · rw [if_pos hk, if_pos (by rw [decide_eq_true hk])]
        exact .cons hcarries hcollect
      · rw [if_neg hk, if_neg (by rw [decide_eq_false hk]; simp)]
        exact hcollect

end Decodes

end Wire

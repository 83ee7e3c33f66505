import Wsupp.Requests

/-!
# Reading inside the message

The length of the first attribute is checked only from above, those after it are
checked the same way, and zero is all that ends the walk early. Lengths of one to
three bytes therefore pass, and so does a message shorter than its own header.
`Covered` says that no such length is met on the way.

The reads of the handlers are ranges of the message. They all lie inside it, for
every key and for both handlers that copy, if and only if the message is covered; an
SSID attribute of two bytes has a payload of minus two, which is copied as nearly
the whole address space.
-/
namespace Wsupp.Cntrl
open Nlusctl Wire

/-- An attribute with a header of its own, inside the message. -/
def Inside (msg : Bytes) (p : ℕ) : Prop :=
  4 ≤ attrLen msg p ∧ Ucmsg.size ≤ p ∧ p + attrLen msg p ≤ Ucmsg.len msg

/-- All attributes come from inside the message, and so does all that is read of them,
by key or by the two handlers that copy. -/
structure ReadsInside (msg : Bytes) : Prop where
  visited : ∀ p, (attrs msg).Visits p → Inside msg p
  found : ∀ key p, ucGet msg key = some p → Inside msg p
  paylen : ∀ p, (attrs msg).Visits p → 0 ≤ ucPaylen msg p
  configured : ∀ r ∈ configureStationReads msg, r.1 + r.2 ≤ Ucmsg.len msg
  forgotten : ∀ r ∈ cmdForgetReads msg, r.1 + r.2 ≤ Ucmsg.len msg

/-- From `p` on, up to the first attribute that does not fit, every length covers
the header. -/
inductive Covered (msg : Bytes) : ℕ → Prop where
  | short {p : ℕ} (h : Ucmsg.len msg < p + 4) : Covered msg p
  | long {p : ℕ} (h : Ucmsg.len msg < p + attrLen msg p) : Covered msg p
  | attr {p : ℕ} (hlen : 4 ≤ attrLen msg p) (hrest : Covered msg (p + align4 (attrLen msg p))) :
      Covered msg p

section Walk
variable {msg : Bytes} {p q : ℕ}

theorem ucGet0_wraps (h : Ucmsg.len msg < 8) : ucGet0 msg = some 8 := by
  have hlt := attrLen_lt msg 8
  have hlen : sizeT ((Ucmsg.len msg : Int) - Ucmsg.size) = 2 ^ 64 - (8 - Ucmsg.len msg) := by
    rw [Ucmsg.size, sizeT]
    omega
  rw [ucGet0, hlen, ucGet0In, if_neg (by rw [Ucattr.size]; omega), if_neg (by rw [Ucmsg.size]; omega)]
  rfl

theorem ucGet0_some (h8 : 8 ≤ Ucmsg.len msg) (h : ucGet0 msg = some p) :
    p = 8 ∧ p + 4 ≤ Ucmsg.len msg ∧ p + attrLen msg p ≤ Ucmsg.len msg := by
  have hlt := Ucmsg.len_lt msg
  have hlen : sizeT ((Ucmsg.len msg : Int) - Ucmsg.size) = Ucmsg.len msg - 8 :=
    sizeT_sub h8 (by omega)
  rw [ucGet0, hlen, ucGet0In, Ucattr.size, Ucmsg.size] at h
  split_ifs at h with hhead hfits
  cases h
  omega

theorem ucGetN_some (h8 : 8 ≤ Ucmsg.len msg) (h : ucGetN msg p = some q) :
    q = p + align4 (attrLen msg p) ∧ 0 < attrLen msg p ∧ q + 4 ≤ Ucmsg.len msg ∧
      q + attrLen msg q ≤ Ucmsg.len msg := by
  have hlt := Ucmsg.len_lt msg
  have hlen : sizeT ((Ucmsg.len msg : Int) - Ucmsg.size) = Ucmsg.len msg - 8 :=
    sizeT_sub h8 (by omega)
  have hend : endOf Ucmsg.size (Ucmsg.len msg - 8) = Ucmsg.len msg := by
    rw [endOf_eq _ (by omega), Ucmsg.size, Nat.add_sub_cancel' h8]
  rw [ucGetN, hlen, ucGetNIn, hend, Ucattr.size] at h
  dsimp only at h
  split_ifs at h with h1 h2 h3 h4 h5
  cases h
  omega

theorem visits_fits (h8 : 8 ≤ Ucmsg.len msg) (h : (attrs msg).Visits p) :
    8 ≤ p ∧ p + 4 ≤ Ucmsg.len msg ∧ p + attrLen msg p ≤ Ucmsg.len msg := by
  induction h with
  | first hfirst =>
      obtain ⟨rfl, hhead, hfits⟩ := ucGet0_some h8 hfirst
      exact ⟨le_rfl, hhead, hfits⟩
  | next hp hnext ih =>
      obtain ⟨rfl, -, hhead, hfits⟩ := ucGetN_some h8 hnext
      exact ⟨by omega, hhead, hfits⟩

/-- Wherever the loop comes, the lengths from there on are good. -/
theorem Covered.visits (h8 : 8 ≤ Ucmsg.len msg) (hgood : Covered msg 8) (h : (attrs msg).Visits p) :
    Covered msg p := by
  induction h with
  | first hfirst =>
      obtain ⟨rfl, -⟩ := ucGet0_some h8 hfirst
      exact hgood
  | next hp hnext ih =>
      obtain ⟨rfl, -⟩ := ucGetN_some h8 hnext
      have hfits := visits_fits h8 hp
      cases ih with
      | short hshort => omega
      | long hlong => omega
      | attr hlen hrest => exact hrest

/-- Where the loop comes to every attribute that fits, and finds four bytes or
more, the lengths are good. The induction is on the bytes left. -/
theorem covered_of_visited (h8 : 8 ≤ Ucmsg.len msg)
    (hgood : ∀ p, (attrs msg).Visits p → 4 ≤ attrLen msg p) {n : ℕ} (hn : Ucmsg.len msg < p + n)
    (hp : 8 ≤ p)
    (hvisit : p + 4 ≤ Ucmsg.len msg → p + attrLen msg p ≤ Ucmsg.len msg → (attrs msg).Visits p) :
    Covered msg p := by
  induction n generalizing p with
  | zero => exact .short (by omega)
  | succ n ih =>
      by_cases hshort : Ucmsg.len msg < p + 4
      · exact .short hshort
      by_cases hlong : Ucmsg.len msg < p + attrLen msg p
      · exact .long hlong
      have hp' := hvisit (by omega) (by omega)
      have hlen := hgood p hp'
      have hle := le_align4 (attrLen msg p)
      have hnext : ∀ q, q = p + align4 (attrLen msg p) → q + 4 ≤ Ucmsg.len msg →
          q + attrLen msg q ≤ Ucmsg.len msg → (attrs msg).Visits q := by
        intro q hq hhead hfits
        exact .next hp' ((attrs_over h8).next_some p q hp hlen hq hhead hfits)
      exact .attr hlen (ih (by omega) (by omega) (hnext _ rfl))

theorem ucGet_visits {key : ℕ} (h : ucGet msg key = some p) : (attrs msg).Visits p :=
  (Reader.search_visits (fun _ hq => .first hq) h).1

end Walk

section Reads
variable {msg : Bytes} {p : ℕ}

theorem Inside.paylen (h : Inside msg p) : ucPaylen msg p = (attrLen msg p - 4 : ℕ) := by
  rw [ucPaylen, Ucattr.size, Nat.cast_sub h.1]

theorem Inside.setFixed (h : Inside msg p) :
    ∀ r ∈ setFixedReads (p + Ucattr.size) (ucPaylen msg p), r.1 + r.2 ≤ Ucmsg.len msg := by
  have hlt := attrLen_lt msg p
  have hsize : sizeT (ucPaylen msg p) = attrLen msg p - 4 := sizeT_sub h.1 (by omega)
  obtain ⟨h4, h8, hfits⟩ := h
  intro r hr
  rw [setFixedReads, hsize] at hr
  split_ifs at hr with hlong
  · cases hr
  · obtain rfl := List.mem_singleton.mp hr
    dsimp only
    rw [Ucattr.size]
    omega

theorem Inside.fmtSsid (h : Inside msg p) :
    ∀ r ∈ fmtSsidReads (p + Ucattr.size) (ucPaylen msg p), r.1 + r.2 ≤ Ucmsg.len msg := by
  intro r hr
  rw [fmtSsidReads, h.paylen, Int.toNat_natCast] at hr
  obtain rfl := List.mem_singleton.mp hr
  obtain ⟨h4, h8, hfits⟩ := h
  dsimp only
  rw [Ucattr.size]
  omega

theorem configureStation_reads (h : ∀ key p, ucGet msg key = some p → Inside msg p) :
    ∀ r ∈ configureStationReads msg, r.1 + r.2 ≤ Ucmsg.len msg := by
  intro r hr
  unfold configureStationReads at hr
  cases hssid : ucGet msg ATTR_SSID with
  | none =>
      rw [hssid] at hr
      cases hr
  | some assid =>
      have hin := h _ _ hssid
      rw [hssid] at hr
      cases hpsk : ucGet msg ATTR_PSK with
      | none =>
          rw [hpsk] at hr
          obtain hr | hr := List.mem_append.mp hr
          · exact hin.fmtSsid r hr
          · exact hin.setFixed r hr
      | some apsk =>
          have hin' := h _ _ hpsk
          rw [hpsk] at hr
          dsimp only at hr
          split_ifs at hr with h32
          · obtain hr | hr := List.mem_append.mp hr
            · exact hin.setFixed r hr
            · split_ifs at hr with hlong
              · cases hr
              · obtain rfl := List.mem_singleton.mp hr
                rw [hin'.paylen] at h32
                obtain ⟨h4, h8, hfits⟩ := hin'
                dsimp only
                rw [Ucattr.size]
                omega
          · cases hr

theorem cmdForget_reads (h : ∀ key p, ucGet msg key = some p → Inside msg p) :
    ∀ r ∈ cmdForgetReads msg, r.1 + r.2 ≤ Ucmsg.len msg := by
  intro r hr
  unfold cmdForgetReads at hr
  cases hssid : ucGet msg ATTR_SSID with
  | none =>
      rw [hssid] at hr
      cases hr
  | some assid =>
      have hin := h _ _ hssid
      rw [hssid] at hr
      obtain hr | hr := List.mem_append.mp hr
      · exact hin.fmtSsid r hr
      · split_ifs at hr with hneg
        · exact hin.fmtSsid r hr
        · cases hr

end Reads

/-- The daemon reads inside the messages it gets exactly if their lengths, followed from
the first attribute on, cover the headers. This is for every key that is looked up and
for both handlers that copy what they find. -/
theorem reads_inside_iff {buf msg : Bytes} (h : ucMsg buf = some msg) :
    ReadsInside msg ↔ 8 ≤ Ucmsg.len msg ∧ Covered msg 8 := by
  obtain ⟨rfl, -, -⟩ := ucMsg_some.mp h
  constructor
  · intro hin
    have h8 : 8 ≤ Ucmsg.len msg := by
      by_contra hshort
      have hinside := hin.visited 8 (.first (ucGet0_wraps (by omega)))
      have hfits := hinside.2.2
      omega
    have hover := attrs_over h8
    refine ⟨h8, covered_of_visited h8 (fun p hp => (hin.visited p hp).1) (n := Ucmsg.len msg + 1)
      (by omega) le_rfl ?_⟩
    intro hhead hfits
    exact .first (hover.first_some hhead hfits)
  · intro hgood
    obtain ⟨h8, hgood⟩ := hgood
    have hvisited : ∀ p, (attrs msg).Visits p → Inside msg p := by
      intro p hp
      have hfits := visits_fits h8 hp
      cases hgood.visits h8 hp with
      | short hshort => omega
      | long hlong => omega
      | attr hlen hrest => exact ⟨hlen, hfits.1, hfits.2.2⟩
    have hfound : ∀ key p, ucGet msg key = some p → Inside msg p :=
      fun key p hp => hvisited p (ucGet_visits hp)
    exact {
      visited := hvisited
      found := hfound
      paylen := fun p hp => by
        rw [(hvisited p hp).paylen]
        exact Int.natCast_nonneg _
      configured := configureStation_reads hfound
      forgotten := cmdForget_reads hfound }

namespace Sample

/-- An SSID whose length counts two bytes only, and a PSK. -/
def stubSsid : Bytes :=
  Bytes.ofLe 4 48 ++ Bytes.ofLe 4 0x57490004 ++ [2, 0, 1, 0] ++ [36, 0, 2, 0] ++ Bytes.zeros 32

/-- One SSID and nothing else. -/
def plainSsid : Bytes := Bytes.ofLe 4 15 ++ Bytes.ofLe 4 0x57490004 ++ [7, 0, 1, 0] ++ [97, 98, 99]

end Sample

theorem plain_inside : ReadsInside Sample.plainSsid := by
  have hmsg : ucMsg Sample.plainSsid = some Sample.plainSsid := by decide +kernel
  have hlen : Ucmsg.len Sample.plainSsid = 15 := by decide +kernel
  have hattr : attrLen Sample.plainSsid 8 = 7 := by decide +kernel
  apply (reads_inside_iff hmsg).mpr
  constructor
  · rw [hlen]
    decide
  · apply Covered.attr
    · rw [hattr]
      decide
    · apply Covered.short
      rw [hlen, hattr]
      decide

/-- The name has an attribute of two bytes. Its payload has a length of minus two, which
is copied as nearly the whole address space. -/
theorem stub_copied : ucMsg Sample.stubSsid = some Sample.stubSsid ∧
    (attrs Sample.stubSsid).Visits 8 ∧ attrLen Sample.stubSsid 8 = 2 ∧
    ucPaylen Sample.stubSsid 8 = -2 ∧ (12, 2 ^ 64 - 2) ∈ configureStationReads Sample.stubSsid ∧
    ¬ ReadsInside Sample.stubSsid := by
  have hread : (12, 2 ^ 64 - 2) ∈ configureStationReads Sample.stubSsid := by decide +kernel
  have hlen : Ucmsg.len Sample.stubSsid = 48 := by decide +kernel
  refine ⟨by decide +kernel, .first (by decide +kernel), by decide +kernel, by decide +kernel, hread, ?_⟩
  intro hin
  have hle := hin.configured _ hread
  rw [hlen] at hle
  omega

end Wsupp.Cntrl

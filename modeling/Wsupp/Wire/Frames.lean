import Wsupp.Bytes

/-!
# Frames

A stream of frames that say in their first bytes how long they are, read in pieces
that end anywhere: after each piece the frames that are complete are taken, and the
rest is kept for the next one.

A framing is given by the size of the header and the length as a function of a
string that begins with one. What is taken and the rest make up the stream, and a
stream of whole frames is taken frame by frame however it is cut. Protocols with
different headers share this by giving their own framing.
-/
namespace Wire

structure Framing where
  /-- how many bytes tell the length -/
  header : ℕ
  len : Bytes → ℕ
  header_pos : 0 < header
  len_append (b c : Bytes) : header ≤ b.length → len (b ++ c) = len b

namespace Framing

structure Whole (F : Framing) (m : Bytes) : Prop where
  header : F.header ≤ m.length
  len : F.len m = m.length

/-- The first frame is complete. -/
def Ready (F : Framing) (b : Bytes) : Prop := F.header ≤ b.length ∧ 0 < F.len b ∧ F.len b ≤ b.length

instance (F : Framing) (b : Bytes) : Decidable (F.Ready b) :=
  inferInstanceAs (Decidable (F.header ≤ b.length ∧ 0 < F.len b ∧ F.len b ≤ b.length))

/-- Frames are taken while there are any, and the rest is left. The rest is no frame,
and together they are what there was. -/
inductive Cuts (F : Framing) : Bytes → List Bytes → Bytes → Prop
  | done (b : Bytes) : ¬F.Ready b → Cuts F b [] b
  | frame (b : Bytes) (fs : List Bytes) (r : Bytes) :
      F.Ready b → Cuts F (b.drop (F.len b)) fs r → Cuts F b (b.take (F.len b) :: fs) r

/-- Piece after piece: what each of them completes, and the rest it leaves to the next
one. -/
inductive Receives (F : Framing) : Bytes → List Bytes → List (List Bytes × Bytes) → Prop
  | done (b : Bytes) : Receives F b [] []
  | piece (b c : Bytes) (cs fs : List Bytes) (r : Bytes) (turns : List (List Bytes × Bytes)) :
      F.Cuts (b ++ c) fs r → Receives F r cs turns → Receives F b (c :: cs) ((fs, r) :: turns)

variable {F : Framing} {m b q t r : Bytes} {ms fs cs : List Bytes} {turns : List (List Bytes × Bytes)}

theorem Whole.len_of_start (h : F.Whole m) (hq : q ++ t = m ++ b) (hheader : F.header ≤ q.length) :
    F.len q = m.length := by
  have hstart : F.len (q ++ t) = F.len (m ++ b) := by rw [hq]
  rw [F.len_append q t hheader, F.len_append m b h.header, h.len] at hstart
  exact hstart

/-- A start of the stream has the first frame in it as soon as it is long enough. -/
theorem Whole.ready_iff (h : F.Whole m) (hq : q ++ t = m ++ b) : F.Ready q ↔ m.length ≤ q.length := by
  have hheader := h.header
  have hpos := F.header_pos
  constructor
  · intro ⟨hle, _, hlen⟩
    rw [h.len_of_start hq hle] at hlen
    exact hlen
  · intro hle
    have hlen := h.len_of_start hq (by omega)
    exact ⟨by omega, by omega, by omega⟩

/-- No start of an empty stream has a frame in it. -/
theorem not_ready_nil : ¬F.Ready [] := by
  intro h
  have hle : F.header ≤ 0 := h.1
  have hpos := F.header_pos
  omega

theorem Ready.first (h : F.Ready q) (hq : q ++ t = ms.flatten) (hms : ∀ m ∈ ms, F.Whole m) :
    ∃ ms', ms = q.take (F.len q) :: ms' ∧ q.drop (F.len q) ++ t = ms'.flatten := by
  cases ms with
  | nil =>
      have hnil : q = [] := (List.append_eq_nil_iff.mp hq).1
      rw [hnil] at h
      exact absurd h not_ready_nil
  | cons m ms =>
      have hm := hms m List.mem_cons_self
      rw [List.flatten_cons] at hq
      have hlen := hm.len_of_start hq h.1
      have hle := (hm.ready_iff hq).mp h
      have htake : q.take m.length = m := by
        have hboth := congrArg (List.take m.length) hq
        rw [List.take_append_of_le_length hle, List.take_left] at hboth
        exact hboth
      have hdrop : q.drop m.length ++ t = ms.flatten := by
        have hboth := congrArg (List.drop m.length) hq
        rw [List.drop_append_of_le_length hle, List.drop_left] at hboth
        exact hboth
      rw [hlen, htake, hdrop]
      exact ⟨ms, rfl, rfl⟩

/-- Where nothing can be taken, the first frame is not all there. -/
theorem short_of_not_ready (h : ¬F.Ready q) (hq : q ++ t = ms.flatten) (hms : ∀ m ∈ ms, F.Whole m) :
    (q = [] ∧ ms = []) ∨ ∃ m ms', ms = m :: ms' ∧ q.length < m.length := by
  cases ms with
  | nil => exact .inl ⟨(List.append_eq_nil_iff.mp hq).1, rfl⟩
  | cons m ms =>
      rw [List.flatten_cons] at hq
      have hshort : ¬m.length ≤ q.length := mt ((hms m List.mem_cons_self).ready_iff hq).mpr h
      exact .inr ⟨m, ms, rfl, not_le.mp hshort⟩

theorem Cuts.not_ready (h : F.Cuts b fs r) : ¬F.Ready r := by
  induction h with
  | done b hb => exact hb
  | frame b fs r hb hcuts ih => exact ih

theorem Cuts.first (h : F.Cuts b fs r) (hb : b ++ t = ms.flatten) (hms : ∀ m ∈ ms, F.Whole m) :
    ∃ ms', ms = fs ++ ms' ∧ r ++ t = ms'.flatten := by
  induction h generalizing ms with
  | done b hready => exact ⟨ms, rfl, hb⟩
  | frame b fs r hready hcuts ih =>
      obtain ⟨ms', rfl, hrest⟩ := hready.first hb hms
      obtain ⟨left, rfl, hleft⟩ := ih hrest fun m hm => hms m (List.mem_cons_of_mem _ hm)
      exact ⟨left, rfl, hleft⟩

/-- However a stream of whole frames is cut, they are taken one after the other, and what is
kept is never as long as the longest of them. -/
theorem Receives.all (h : F.Receives b cs turns) (hready : cs = [] → ¬F.Ready b) (hb : b ++ cs.flatten = ms.flatten)
    (hms : ∀ m ∈ ms, F.Whole m) :
    turns.flatMap Prod.fst = ms ∧ ∀ turn ∈ turns, turn.2 = [] ∨ ∃ m ∈ ms, turn.2.length < m.length := by
  induction h generalizing ms with
  | done b =>
      obtain ⟨-, rfl⟩ | ⟨m, ms', rfl, hlt⟩ := short_of_not_ready (hready rfl) hb hms
      · exact ⟨rfl, List.forall_mem_nil _⟩
      · have hlen := congrArg List.length hb
        rw [List.flatten_nil, List.append_nil, List.flatten_cons, List.length_append] at hlen
        omega
  | piece b c cs fs r turns hcuts hrest ih =>
      rw [List.flatten_cons, ← List.append_assoc] at hb
      obtain ⟨ms', rfl, hms'⟩ := hcuts.first hb hms
      have hwhole (m : Bytes) (hm : m ∈ ms') := hms m (List.mem_append_right _ hm)
      obtain ⟨hall, hshort⟩ := ih (fun _ => hcuts.not_ready) hms' hwhole
      constructor
      · rw [List.flatMap_cons, hall]
      intro turn hturn
      cases List.mem_cons.mp hturn with
      | inl heq =>
          rw [heq]
          obtain ⟨hnil, -⟩ | ⟨m, ms, rfl, hlt⟩ := short_of_not_ready hcuts.not_ready hms' hwhole
          · exact .inl hnil
          · exact .inr ⟨m, List.mem_append_right _ List.mem_cons_self, hlt⟩
      | inr hmem =>
          obtain hnil | ⟨m, hm, hlt⟩ := hshort turn hmem
          · exact .inl hnil
          · exact .inr ⟨m, List.mem_append_right _ hm, hlt⟩

end Framing

end Wire

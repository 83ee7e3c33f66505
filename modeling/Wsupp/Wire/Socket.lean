import Wsupp.Bytes

/-!
# Stream sockets

A socket as its reader meets it: data in the pieces it comes in, moments at which
nothing is waiting, interruptions, and the end of the stream when the list has run
out. `recv` takes as much of the next piece as there is room for; the rest of the
piece stays. A call that may block passes over the quiet moments.

A piece has at least one byte by its type. The data of a stream is what its pieces
make up together, and every call either takes something from the front of it or
tells why it does not; nothing is lost or duplicated in between.
-/
namespace Wire

inductive Arrival where
  | bytes (x : UInt8) (b : Bytes)
  | quiet
  | interrupted
deriving DecidableEq, Repr

def Arrival.data : Arrival → Bytes
  | .bytes x b => x :: b
  | .quiet | .interrupted => []

/-- The bytes of a stream, however they come. -/
def data (s : List Arrival) : Bytes := s.flatMap Arrival.data

/-- What a call leaves of a piece comes first the next time. -/
def unread : Bytes → List Arrival → List Arrival
  | [], s => s
  | x :: b, s => .bytes x b :: s

inductive Received where
  | bytes (b : Bytes)
  | again
  | interrupted
  | closed
deriving DecidableEq, Repr

def recv (left : ℕ) (nowait : Bool) : List Arrival → Received × List Arrival
  | [] => (.closed, [])
  | .quiet :: s => if nowait then (.again, s) else recv left nowait s
  | .interrupted :: s => (.interrupted, s)
  | .bytes x b :: s => (.bytes (x :: b.take (left - 1)), unread (b.drop (left - 1)) s)

variable {left : ℕ} {nowait : Bool} {s s' : List Arrival} {b : Bytes}

@[simp] theorem data_nil : data [] = [] := rfl

@[simp] theorem data_cons (a : Arrival) (s : List Arrival) : data (a :: s) = a.data ++ data s := rfl

@[simp] theorem data_append (s s' : List Arrival) : data (s ++ s') = data s ++ data s' :=
  List.flatMap_append

@[simp] theorem data_unread (b : Bytes) (s : List Arrival) : data (unread b s) = b ++ data s := by
  cases b <;> rfl

theorem data_quiet {s : List Arrival} (h : ∀ a ∈ s, a = .quiet) : data s = [] := by
  induction s with
  | nil => rfl
  | cons a s ih =>
      obtain ⟨rfl, hs⟩ := List.forall_mem_cons.mp h
      exact ih hs

/-- Received bytes are the start of a piece, after quiet moments only. -/
theorem recv_bytes (h : recv left nowait s = (.bytes b, s')) :
    ∃ s₁ x t s₂, s = s₁ ++ .bytes x t :: s₂ ∧ (∀ a ∈ s₁, a = .quiet) ∧
      b = x :: t.take (left - 1) ∧ s' = unread (t.drop (left - 1)) s₂ := by
  induction s with
  | nil => cases h
  | cons a s ih =>
      cases a with
      | bytes x t =>
          cases h
          exact ⟨[], x, t, s, rfl, by simp, rfl, rfl⟩
      | quiet =>
          rw [recv] at h
          split at h
          · cases h
          obtain ⟨s₁, x, t, s₂, rfl, hquiet, hb, hs'⟩ := ih h
          exact ⟨.quiet :: s₁, x, t, s₂, rfl, List.forall_mem_cons.mpr ⟨rfl, hquiet⟩, hb, hs'⟩
      | interrupted => cases h

/-- A call neither loses nor makes up bytes, and takes no more than it has room for. -/
theorem recv_keeps (hleft : 0 < left) (h : recv left nowait s = (.bytes b, s')) :
    b ++ data s' = data s ∧ b ≠ [] ∧ b.length ≤ left := by
  obtain ⟨s₁, x, t, s₂, rfl, hquiet, rfl, rfl⟩ := recv_bytes h
  refine ⟨?_, by simp, ?_⟩
  · rw [data_unread, data_append, data_quiet hquiet, data_cons, Arrival.data, List.nil_append,
      List.cons_append, ← List.append_assoc, List.take_append_drop, List.cons_append]
  · rw [List.length_cons, List.length_take]
    omega

theorem recv_other {r : Received} (h : recv left nowait s = (r, s')) (hr : ∀ b, r ≠ .bytes b) :
    data s' = data s := by
  induction s with
  | nil =>
      cases h
      rfl
  | cons a s ih =>
      cases a with
      | bytes x t =>
          cases h
          exact absurd rfl (hr _)
      | quiet =>
          rw [recv] at h
          split at h
          · cases h
            rfl
          · exact ih h
      | interrupted =>
          cases h
          rfl

theorem recv_again (h : recv left nowait s = (.again, s')) : nowait = true ∧ s = .quiet :: s' := by
  induction s with
  | nil => cases h
  | cons a s ih =>
      cases a with
      | bytes x t => cases h
      | quiet =>
          rw [recv] at h
          split at h
          next hnowait =>
            cases h
            exact ⟨hnowait, rfl⟩
          next hnowait => exact absurd (ih h).1 hnowait
      | interrupted => cases h

theorem recv_interrupted (h : recv left nowait s = (.interrupted, s')) : Arrival.interrupted ∈ s := by
  induction s with
  | nil => cases h
  | cons a s ih =>
      cases a with
      | bytes x t => cases h
      | quiet =>
          rw [recv] at h
          split at h
          · cases h
          · exact List.mem_cons_of_mem _ (ih h)
      | interrupted => exact List.mem_cons_self

theorem recv_closed (h : recv left nowait s = (.closed, s')) : s' = [] := by
  induction s with
  | nil =>
      cases h
      rfl
  | cons a s ih =>
      cases a with
      | bytes x t => cases h
      | quiet =>
          rw [recv] at h
          split at h
          · cases h
          · exact ih h
      | interrupted => cases h

end Wire

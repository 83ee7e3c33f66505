import Wsupp.Bytes

/-!
# Elements

Strings of elements, each a type, the length of its data in one byte, and the data.
`rest` is what remains of any string once the whole elements at its front have been
taken off.

A rest is empty, a lone type, or a header that claims more than there is. So a walk
over a string is a walk over the list of its whole elements and one more look at the
rest; whoever reads elements is done with the one by induction on the list and has
to be careful with the other.
-/
namespace Wire

structure Element where
  type : UInt8
  data : Bytes
  counted : data.length ≤ 255

def Element.bytes (e : Element) : Bytes := e.type :: UInt8.ofNat e.data.length :: e.data

def elements (es : List Element) : Bytes := es.flatMap Element.bytes

namespace Element
variable (e : Element) (b : Bytes)

theorem length_bytes : e.bytes.length = e.data.length + 2 := rfl

@[simp] theorem front_type : (e.bytes ++ b).at' 0 = e.type := rfl

@[simp] theorem front_len : ((e.bytes ++ b).at' 1).toNat = e.data.length := by
  have hcounted := e.counted
  have hlen : (e.bytes ++ b).at' 1 = UInt8.ofNat e.data.length := rfl
  rw [hlen, UInt8.toNat_ofNat']
  omega

@[simp] theorem front_data : (e.bytes ++ b).slice 2 e.data.length = e.data := List.take_left

@[simp] theorem front_rest : (e.bytes ++ b).drop (2 + e.data.length) = b := by
  rw [Nat.add_comm]
  exact List.drop_left

end Element

@[simp] theorem elements_nil : elements [] = [] := rfl

@[simp] theorem elements_cons (e : Element) (es : List Element) : elements (e :: es) = e.bytes ++ elements es := rfl

theorem elements_append (es es' : List Element) : elements (es ++ es') = elements es ++ elements es' :=
  List.flatMap_append

theorem elements_replicate (n : ℕ) : elements (List.replicate n ⟨0, [], Nat.zero_le _⟩) = Bytes.zeros (2 * n) := by
  induction n with
  | zero => rfl
  | succ n ih =>
      rw [List.replicate_succ, elements_cons, ih]
      rfl

theorem length_le_elements {e : Element} {es : List Element} (h : e ∈ es) :
    e.bytes.length ≤ (elements es).length :=
  (List.sublist_flatten_of_mem (List.mem_map_of_mem h)).length_le.trans_eq
    (congrArg List.length List.flatMap_def.symm)

/-- The string without the whole elements at its front; every turn takes two bytes at
least. -/
def restFrom : ℕ → Bytes → Bytes
  | n + 1, x :: len :: b => if len.toNat ≤ b.length then restFrom n (b.drop len.toNat) else x :: len :: b
  | _, b => b

def rest (b : Bytes) : Bytes := restFrom b.length b

end Wire

import Wsupp.Crypto
import Wsupp.Crypto.KeyWrap

/-!
# Key transport

`unwrap_key` returns 0 for what has been wrapped behind the right first block, and
for nothing else. It looks at the length first.

So for every key and every buffer there is exactly one text that it gives, and what
an access point wraps is what the station unwraps. Lengths that are no whole number
of blocks, or too short to hold a block behind the first one, are refused before
anything is done. The key wrap is undone step by step in the module on it; here the
first block is checked, which is what tells a wrapped key from anything else.
-/
namespace Wsupp
open Aes128 (Wrappable)

section Transport
variable {kek buf plain : Bytes}

theorem unwrapKey_wrappable (h : Wrappable buf) :
    unwrapKey kek buf = (memxcmp 8 (Aes128.unwrap kek buf) unwrapIv, Aes128.unwrap kek buf) := by
  obtain ⟨h8, h16⟩ := h
  rw [unwrapKey, if_neg (by omega)]

theorem unwrapKey_other (h : ¬ Wrappable buf) : unwrapKey kek buf = (-1, buf) := by
  unfold Wrappable at h
  rw [unwrapKey, if_pos (by omega)]

theorem unwrapKey_zero (h : Wrappable buf) :
    (unwrapKey kek buf).1 = 0 ↔ (Aes128.unwrap kek buf).take 8 = unwrapIv := by
  have h16 := h.2
  rw [unwrapKey_wrappable h, memxcmp_eq_zero (by rw [h.length_unwrap]; omega) (by decide)]
  exact Iff.rfl

theorem unwrapKey_wrap (h : Wrappable plain) (hiv : plain.take 8 = unwrapIv) :
    unwrapKey kek (Aes128.wrap kek plain) = (0, plain) := by
  have hwrapped : Wrappable (Aes128.wrap kek plain) := by
    unfold Wrappable
    rw [h.length_wrap]
    exact h
  have hzero : (unwrapKey kek (Aes128.wrap kek plain)).1 = 0 := by
    rw [unwrapKey_zero hwrapped, h.unwrap_wrap, hiv]
  rw [unwrapKey_wrappable hwrapped, h.unwrap_wrap] at *
  exact Prod.ext hzero rfl

theorem unwrapKey_accepts :
    (unwrapKey kek buf).1 = 0 ↔
      ∃ plain, Wrappable plain ∧ plain.take 8 = unwrapIv ∧ Aes128.wrap kek plain = buf := by
  constructor
  · intro hzero
    by_cases h : Wrappable buf
    · refine ⟨Aes128.unwrap kek buf, ?_, (unwrapKey_zero h).mp hzero, h.wrap_unwrap⟩
      unfold Wrappable
      rw [h.length_unwrap]
      exact h
    · rw [unwrapKey_other h] at hzero
      exact absurd hzero (show (-1 : UInt32) ≠ 0 by decide)
  · intro h
    obtain ⟨plain, hplain, hiv, rfl⟩ := h
    rw [unwrapKey_wrap hplain hiv]

end Transport

/-- Wrapping and unwrapping undo each other; a buffer is accepted exactly if it is the
wrapping of a plaintext with the right first block, which it is replaced with. One of
another length is left alone and refused. -/
theorem key_transport (kek buf : Bytes) :
    (Wrappable buf → Aes128.unwrap kek (Aes128.wrap kek buf) = buf ∧
      Aes128.wrap kek (Aes128.unwrap kek buf) = buf) ∧
    ((unwrapKey kek buf).1 = 0 ↔
      ∃ plain, Wrappable plain ∧ plain.take 8 = unwrapIv ∧ Aes128.wrap kek plain = buf) ∧
    (∀ plain, Wrappable plain → plain.take 8 = unwrapIv → Aes128.wrap kek plain = buf →
      (unwrapKey kek buf).2 = plain) ∧
    (¬ Wrappable buf → (unwrapKey kek buf).1 ≠ 0 ∧ (unwrapKey kek buf).2 = buf) := by
  constructor
  · exact fun h => ⟨h.unwrap_wrap, h.wrap_unwrap⟩
  constructor
  · exact unwrapKey_accepts
  constructor
  · intro plain hplain hiv hwrap
    rw [← hwrap, unwrapKey_wrap hplain hiv]
  · intro h
    rw [unwrapKey_other h]
    exact ⟨show (-1 : UInt32) ≠ 0 by decide, rfl⟩

end Wsupp

import Wsupp.Safety.KeyDerivation

/-!
# Message integrity

A packet passes `check_mic` exactly with the MIC that `make_mic` puts into it: the
field is zero whenever it is hashed over, and the comparison misses no difference.

Packets have any length and the field lies anywhere inside them. The code is the
first 16 bytes of HMAC-SHA1 under the key of 16 bytes the source uses; that the
library computes the HMAC of the standard is taken from the module on key
derivation. `memxcmp` goes through both strings to their ends and collects the
differences, so its result says nothing about where they differ.
-/
namespace Wsupp

section Mic
variable {kck buf field : Bytes} {off : ℕ}

/-- The packet with its MIC field zeroed. -/
def unsigned (off : ℕ) (buf : Bytes) : Bytes := buf.poke off (Bytes.zeros 16)

theorem unsigned_poke (h : off + 16 ≤ buf.length) (hfield : field.length = 16) :
    unsigned off (buf.poke off field) = unsigned off buf := by
  have hoff : (buf.take off).length = off := List.length_take_of_le (by omega)
  have hfront : (buf.take off ++ field).length = off + 16 := by
    rw [List.length_append, hoff, hfield]
  have htake : (buf.take off ++ field ++ buf.drop (off + 16)).take off = buf.take off := by
    rw [List.append_assoc, List.take_left' hoff]
  have hdrop : (buf.take off ++ field ++ buf.drop (off + 16)).drop (off + 16) = buf.drop (off + 16) :=
    List.drop_left' hfront
  have hzeros : (Bytes.zeros 16).length = 16 := rfl
  rw [unsigned, unsigned, Bytes.poke, Bytes.poke, Bytes.poke, hfield, hzeros, htake, hdrop]

theorem checkMic_eq_zero (h : off + 16 ≤ buf.length) :
    checkMic off kck buf = 0 ↔ buf.slice off 16 = makeMic kck (unsigned off buf) := by
  have hcopy : (buf.slice off 16).length = 16 := Bytes.length_slice h
  have hhash : (16 : ℕ) ≤ (Sha1.hmacSha1 kck 16 (unsigned off buf)).length := by
    rw [length_hmacSha1]
    decide
  have hcheck : checkMic off kck buf =
      memxcmp 16 (Sha1.hmacSha1 kck 16 (unsigned off buf)) (buf.slice off 16) := rfl
  rw [hcheck, memxcmp_eq_zero hhash (Nat.le_of_eq hcopy.symm), makeMic,
    List.take_of_length_le (Nat.le_of_eq hcopy)]
  exact eq_comm

/-- A field put into the packet is accepted if it is the one MIC of the packet. -/
theorem checkMic_poke (h : off + 16 ≤ buf.length) (hfield : field.length = 16) :
    checkMic off kck (buf.poke off field) = 0 ↔ field = makeMic kck (unsigned off buf) := by
  have hlen : (buf.poke off field).length = buf.length := Bytes.length_poke (by rw [hfield]; exact h)
  have hslice : (buf.poke off field).slice off 16 = field := by
    have hpoke := Bytes.slice_poke (b := field) (show off ≤ buf.length by omega)
    rwa [hfield] at hpoke
  rw [checkMic_eq_zero (by rw [hlen]; exact h), hslice, unsigned_poke h hfield]

end Mic

/-- `check_mic` accepts exactly the MIC over the packet with the field zeroed: the one
`make_mic` fills in, and no other contents of the field. Under a key of 16 bytes it is the
HMAC-SHA1 of the standards, cut to its first 16 bytes. `memxcmp` is zero exactly on equal
strings. -/
theorem mic_exact (kck : Bytes) {buf : Bytes} {off : ℕ} (h : off + 16 ≤ buf.length) :
    (kck.length = 16 → (checkMic off kck buf = 0 ↔
      buf.slice off 16 = (hmacStandard kck (buf.poke off (Bytes.zeros 16))).take 16)) ∧
    (checkMic off kck buf = 0 ↔
      buf.slice off 16 = (Sha1.hmacSha1 kck 16 (buf.poke off (Bytes.zeros 16))).take 16) ∧
    checkMic off kck (buf.poke off (makeMic kck (buf.poke off (Bytes.zeros 16)))) = 0 ∧
    (∀ field : Bytes, field.length = 16 → field ≠ makeMic kck (buf.poke off (Bytes.zeros 16)) →
      checkMic off kck (buf.poke off field) ≠ 0) ∧
    ∀ a b : Bytes, a.length = b.length → (memxcmp a.length a b = 0 ↔ a = b) := by
  constructor
  · intro hkck
    have hshort : kck.length ≤ 64 := by omega
    have hstandard : Sha1.hmacSha1 kck 16 (unsigned off buf) = hmacStandard kck (unsigned off buf) := by
      have hsame := hmacSha1_standard hshort (unsigned off buf)
      rwa [hkck] at hsame
    rw [checkMic_eq_zero h, makeMic, hstandard, unsigned]
  constructor
  · exact checkMic_eq_zero h
  constructor
  · exact (checkMic_poke h (length_makeMic _ _)).mpr rfl
  constructor
  · intro field hfield hother haccepted
    exact hother ((checkMic_poke h hfield).mp haccepted)
  · intro a b hlen
    rw [memxcmp_eq_zero (Nat.le_refl _) (Nat.le_of_eq hlen), List.take_length, hlen, List.take_length]

namespace Sample

/-- A packet of 120 bytes, no two neighbours of which are equal. -/
def signed : Bytes := (List.range 120).map fun i => UInt8.ofNat (7 * i + 1)

def signer : Bytes := [69, 67, 132, 180, 16, 244, 128, 30, 200, 208, 96, 13, 156, 177, 200, 23]

end Sample

theorem mic_exact_sample :
    (checkMic 81 Sample.signer Sample.signed = 0 ↔
      Sample.signed.slice 81 16 = (hmacStandard Sample.signer (Sample.signed.poke 81 (Bytes.zeros 16))).take 16) ∧
    checkMic 81 Sample.signer (Sample.signed.poke 81
      (makeMic Sample.signer (Sample.signed.poke 81 (Bytes.zeros 16)))) = 0 ∧
    checkMic 81 Sample.signer (Sample.signed.poke 81 Sample.signer) ≠ 0 := by
  have hmic := mic_exact Sample.signer (show 81 + 16 ≤ Sample.signed.length by decide)
  exact ⟨hmic.1 rfl, hmic.2.2.1, hmic.2.2.2.1 Sample.signer rfl (by decide +kernel)⟩

end Wsupp

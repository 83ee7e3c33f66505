import Wsupp.Crypto.Sha1
import Wsupp.Crypto.Aes128

/-!
# Crypto routines of the EAPOL negotiation

Key expansion, the message integrity code and the unwrapping of key data, on top of
HMAC-SHA1 and the AES key wrap. These are the functions the key negotiation calls,
on the arrays it has: the order of the addresses and nonces, the counter byte of
each block of the key expansion and the comparison of two codes are as in the
source.

Lengths that are fixed in the source stay fixed here; a buffer that is too short for
one simply yields fewer bytes. What the functions mean is proved elsewhere against
the standards, and that their accesses stay inside the packet is a result about
packets.
-/
namespace Wsupp

/-- `memxcmp`: the differences of the bytes, or-ed together. The C int is given
by its bits; callers only test it for zero. -/
def memxcmp : ℕ → Bytes → Bytes → UInt32
  | len + 1, a :: as, b :: bs => (a.toUInt32 - b.toUInt32) ||| memxcmp len as bs
  | _, _, _ => 0

theorem byte_sub_eq_zero (a b : UInt8) : a.toUInt32 - b.toUInt32 = 0 ↔ a = b := by
  constructor
  · intro h
    have ha := a.toNat_lt
    have hb := b.toNat_lt
    have h' := congrArg UInt32.toNat h
    rw [UInt32.toNat_sub, UInt8.toNat_toUInt32, UInt8.toNat_toUInt32] at h'
    change _ = 0 at h'
    apply UInt8.toNat_inj.mp
    omega
  · intro h
    rw [h]
    exact UInt32.sub_self _

/-- The differences or-ed together are zero only if all of them are. -/
theorem memxcmp_eq_zero {len : ℕ} {a b : Bytes} (ha : len ≤ a.length) (hb : len ≤ b.length) :
    memxcmp len a b = 0 ↔ a.take len = b.take len := by
  induction len generalizing a b with
  | zero => exact ⟨fun _ => rfl, fun _ => rfl⟩
  | succ len ih =>
      cases a with
      | nil => cases ha
      | cons x a =>
          cases b with
          | nil => cases hb
          | cons y b =>
              rw [memxcmp, UInt32.or_eq_zero_iff, byte_sub_eq_zero, List.take_succ_cons, List.take_succ_cons,
                List.cons.injEq, ih (Nat.le_of_succ_le_succ ha) (Nat.le_of_succ_le_succ hb)]

/-- `PRF480`: `str` comes without its terminating zero byte. -/
def prf480 (key str mac1 mac2 nonce1 nonce2 : Bytes) : Bytes :=
  let ibuf := str ++ [0] ++ mac1.take 6 ++ mac2.take 6 ++ nonce1.take 32 ++ nonce2.take 32
  Sha1.hmacSha1 key 32 (ibuf ++ [0]) ++ Sha1.hmacSha1 key 32 (ibuf ++ [1]) ++
    Sha1.hmacSha1 key 32 (ibuf ++ [2])

def makeMic (kck buf : Bytes) : Bytes := (Sha1.hmacSha1 kck 16 buf).take 16

theorem length_hmacSha1 (key : Bytes) (klen : Int) (input : Bytes) :
    (Sha1.hmacSha1 key klen input).length = 20 := rfl

theorem length_makeMic (kck buf : Bytes) : (makeMic kck buf).length = 16 := rfl

/-- `check_mic` on the mic field at an offset: the field is zeroed in the
buffer before hashing. -/
def checkMic (off : ℕ) (kck buf : Bytes) : UInt32 :=
  let copy := buf.slice off 16
  let buf := buf.take off ++ Bytes.zeros 16 ++ buf.drop (off + 16)
  memxcmp 16 (Sha1.hmacSha1 kck 16 buf) copy

def unwrapIv : Bytes := [0xA6, 0xA6, 0xA6, 0xA6, 0xA6, 0xA6, 0xA6, 0xA6]

/-- `unwrap_key` returns the buffer it leaves behind with its result. -/
def unwrapKey (kek buf : Bytes) : UInt32 × Bytes :=
  if buf.length % 8 ≠ 0 ∨ buf.length < 16 then (-1, buf)
  else
    let buf := Aes128.unwrap kek buf
    (memxcmp 8 buf unwrapIv, buf)

end Wsupp

import Wsupp.Eapol
import Wsupp.Crypto.Hashing

/-!
# Pairwise keys

What `pmk_to_ptk` computes is the PRF of IEEE 802.11 over the addresses and the
nonces in their numerical order. The order does not depend on whose they are, so
both ends of a negotiation get the same keys.

The PRF is stated with the HMAC-SHA1 of the standards, which the library computes
for keys of up to a block. The source compares addresses and nonces as byte strings,
which for equal lengths is the order of the numbers they spell. The lengths of the
arrays are assumed of the state; every state of a run has them.
-/
namespace Wsupp
open KeyedHash (beMin beMax)

def hmacStandard : Bytes → Bytes → Bytes := KeyedHash.hmac SecureHash.sha1 64

theorem hmac_sha1_eq : KeyedHash.hmac Sha1.sha1 64 = hmacStandard := by
  rw [hmacStandard, funext Sha1.sha1_eq]

theorem hmacSha1_standard {key : Bytes} (h : key.length ≤ 64) (input : Bytes) :
    Sha1.hmacSha1 key key.length input = hmacStandard key input := by
  rw [Sha1.hmacSha1_eq h, hmac_sha1_eq]

section Prf
variable {key str mac1 mac2 nonce1 nonce2 : Bytes}

theorem prf480_input (h1 : mac1.length = 6) (h2 : mac2.length = 6) (h3 : nonce1.length = 32)
    (h4 : nonce2.length = 32) :
    str ++ [0] ++ mac1.take 6 ++ mac2.take 6 ++ nonce1.take 32 ++ nonce2.take 32 =
      str ++ [0] ++ (mac1 ++ mac2 ++ nonce1 ++ nonce2) := by
  rw [List.take_of_length_le (Nat.le_of_eq h1), List.take_of_length_le (Nat.le_of_eq h2),
    List.take_of_length_le (Nat.le_of_eq h3), List.take_of_length_le (Nat.le_of_eq h4)]
  simp only [List.append_assoc]

theorem take_prf480 (hkey : key.length = 32) (h1 : mac1.length = 6) (h2 : mac2.length = 6)
    (h3 : nonce1.length = 32) (h4 : nonce2.length = 32) :
    (prf480 key str mac1 mac2 nonce1 nonce2).take 48 =
      KeyedHash.prf hmacStandard 20 key str (mac1 ++ mac2 ++ nonce1 ++ nonce2) 48 := by
  have hmac (input : Bytes) : Sha1.hmacSha1 key 32 input = hmacStandard key input := by
    have hshort : key.length ≤ 64 := by omega
    have hstandard := hmacSha1_standard hshort input
    rwa [hkey] at hstandard
  have hrange : List.range ((48 + (20 - 1)) / 20) = [0, 1, 2] := rfl
  rw [prf480, prf480_input h1 h2 h3 h4, hmac, hmac, hmac, KeyedHash.prf, hrange]
  simp only [List.flatMap_cons, List.flatMap_nil, List.append_nil, List.append_assoc]
  rfl

end Prf

/-- What the standard derives the keys from, and the 48 bytes it makes of it. -/
def pairwiseKeys (psk mac mac' nonce nonce' : Bytes) : Bytes :=
  KeyedHash.prf hmacStandard 20 psk "Pairwise key expansion".toUTF8.toList
    (beMin mac mac' ++ beMax mac mac' ++ beMin nonce nonce' ++ beMax nonce nonce') 48

theorem pairwiseKeys_comm {psk mac mac' nonce nonce' : Bytes} (hmac : mac.length = mac'.length)
    (hnonce : nonce.length = nonce'.length) :
    pairwiseKeys psk mac mac' nonce nonce' = pairwiseKeys psk mac' mac nonce' nonce := by
  rw [pairwiseKeys, KeyedHash.beMin_comm hmac, KeyedHash.beMax_comm hmac, KeyedHash.beMin_comm hnonce,
    KeyedHash.beMax_comm hnonce]
  rfl

theorem memcmp_order {a b : Bytes} (h : a.length = b.length) :
    (if Bytes.memcmp a b < 0 then (a, b) else (b, a)) = (beMin a b, beMax a b) := by
  split_ifs with hlt
  · have hlt := (Bytes.memcmp_neg_iff h).mp hlt
    rw [KeyedHash.beMin_of_lt hlt, KeyedHash.beMax_of_lt hlt]
  · have hle : ¬ a.beNat < b.beNat := fun hlt' => hlt ((Bytes.memcmp_neg_iff h).mpr hlt')
    rw [KeyedHash.beMin_comm h, KeyedHash.beMax_comm h, beMin, beMax, if_pos (Nat.le_of_not_lt hle),
      if_pos (Nat.le_of_not_lt hle)]

/-- The sizes of the arrays the keys come from: the PSK, both addresses and both nonces.
-/
structure Daemon.Keyable (s : Daemon) : Prop where
  psk : s.PSK.length = 32
  smac : s.smac.length = 6
  amac : s.amac.length = 6
  bssid : s.ap.bssid.length = 6
  snonce : s.snonce.length = 32
  anonce : s.anonce.length = 32

section Keys
variable {s : Daemon}

theorem take_ptkOf (h : s.Keyable) :
    (ptkOf s).take 48 = pairwiseKeys s.PSK s.smac s.ap.bssid s.snonce s.anonce := by
  have hamac : Bytes.memcpy s.amac s.ap.bssid 6 = s.ap.bssid := by
    rw [Bytes.memcpy, List.take_of_length_le (Nat.le_of_eq h.bssid), List.drop_eq_nil_of_le (Nat.le_of_eq h.amac),
      List.append_nil]
  have hmac : s.smac.length = s.ap.bssid.length := by rw [h.smac, h.bssid]
  have hnonce : s.snonce.length = s.anonce.length := by rw [h.snonce, h.anonce]
  have hlen (P : Bytes → Prop) {a b : Bytes} (ha : P a) (hb : P b) : P (beMin a b) ∧ P (beMax a b) := by
    unfold beMin beMax
    split_ifs
    · exact ⟨ha, hb⟩
    · exact ⟨hb, ha⟩
  obtain ⟨hmin, hmax⟩ := hlen (·.length = 6) h.smac h.bssid
  obtain ⟨hmin', hmax'⟩ := hlen (·.length = 32) h.snonce h.anonce
  rw [ptkOf, hamac, memcmp_order hmac, memcmp_order hnonce]
  exact take_prf480 h.psk hmin hmax hmin' hmax'

theorem slice_ptkOf (h : s.Keyable) {o : ℕ} (ho : o + 16 ≤ 48) :
    (ptkOf s).slice o 16 = (pairwiseKeys s.PSK s.smac s.ap.bssid s.snonce s.anonce).slice o 16 := by
  have hslice := Bytes.slice_slice (ptkOf s) ho 0
  have htake : (ptkOf s).slice 0 48 = (ptkOf s).take 48 := rfl
  rw [htake, take_ptkOf h, Nat.zero_add] at hslice
  exact hslice.symm

/-- The keys left behind are those of the standard, for every PSK, pair of addresses and
pair of nonces; a peer with both addresses and both nonces exchanged gets the same ones.
-/
theorem pmkToPtk_pairwise (h : s.Keyable) :
    (∃ s' out, pmkToPtk s = .ok () s' out ∧
      s'.KCK = (pairwiseKeys s.PSK s.smac s.ap.bssid s.snonce s.anonce).slice 0 16 ∧
      s'.KEK = (pairwiseKeys s.PSK s.smac s.ap.bssid s.snonce s.anonce).slice 16 16 ∧
      s'.PTK = (pairwiseKeys s.PSK s.smac s.ap.bssid s.snonce s.anonce).slice 32 16) ∧
    ∀ t : Daemon, t.Keyable → t.PSK = s.PSK → t.smac = s.ap.bssid → t.ap.bssid = s.smac →
      t.snonce = s.anonce → t.anonce = s.snonce → ∀ s' t' out out',
        pmkToPtk s = .ok () s' out → pmkToPtk t = .ok () t' out' →
          t'.KCK = s'.KCK ∧ t'.KEK = s'.KEK ∧ t'.PTK = s'.PTK := by
  have hkeys {s s' : Daemon} {out : List Act} (h : s.Keyable) (hrun : pmkToPtk s = .ok () s' out) :
      s'.KCK = (pairwiseKeys s.PSK s.smac s.ap.bssid s.snonce s.anonce).slice 0 16 ∧
      s'.KEK = (pairwiseKeys s.PSK s.smac s.ap.bssid s.snonce s.anonce).slice 16 16 ∧
      s'.PTK = (pairwiseKeys s.PSK s.smac s.ap.bssid s.snonce s.anonce).slice 32 16 := by
    cases hrun
    exact ⟨slice_ptkOf h (by decide), slice_ptkOf h (by decide), slice_ptkOf h (by decide)⟩
  constructor
  · exact ⟨_, _, rfl, hkeys h rfl⟩
  · intro t ht hpsk hsmac hbssid hsnonce hanonce s' t' out out' hs htrun
    obtain ⟨hkck, hkek, hptk⟩ := hkeys h hs
    obtain ⟨hkck', hkek', hptk'⟩ := hkeys ht htrun
    have hswap : pairwiseKeys t.PSK t.smac t.ap.bssid t.snonce t.anonce =
        pairwiseKeys s.PSK s.smac s.ap.bssid s.snonce s.anonce := by
      rw [hpsk, hsmac, hbssid, hsnonce, hanonce]
      exact pairwiseKeys_comm (by rw [h.smac, h.bssid]) (by rw [h.snonce, h.anonce])
    rw [hkck', hkek', hptk', hswap]
    exact ⟨hkck.symm, hkek.symm, hptk.symm⟩

end Keys

/-- A daemon that is going to talk to its likeness. -/
def sampleEnd (mac mac' nonce nonce' : UInt8) : Daemon :=
  { PSK := List.replicate 32 7, smac := List.replicate 6 mac, ap := { bssid := List.replicate 6 mac' }
    snonce := List.replicate 32 nonce, anonce := List.replicate 32 nonce' }

theorem sampleEnd_keyable (mac mac' nonce nonce' : UInt8) : (sampleEnd mac mac' nonce nonce').Keyable :=
  ⟨rfl, rfl, rfl, rfl, rfl, rfl⟩

theorem sampleEnds_agree :
    (sampleEnd 1 2 3 4).Keyable ∧ (sampleEnd 2 1 4 3).Keyable ∧
      ∀ s' t' out out', pmkToPtk (sampleEnd 1 2 3 4) = .ok () s' out →
        pmkToPtk (sampleEnd 2 1 4 3) = .ok () t' out' →
          t'.KCK = s'.KCK ∧ t'.KEK = s'.KEK ∧ t'.PTK = s'.PTK :=
  ⟨sampleEnd_keyable 1 2 3 4, sampleEnd_keyable 2 1 4 3,
    (pmkToPtk_pairwise (sampleEnd_keyable 1 2 3 4)).2 (sampleEnd 2 1 4 3) (sampleEnd_keyable 2 1 4 3)
      rfl rfl rfl rfl rfl⟩

end Wsupp

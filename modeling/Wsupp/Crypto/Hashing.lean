import Wsupp.Crypto.Sha1
import Wsupp.Crypto.Inverse
import Wsupp.Standards.SecureHash
import Wsupp.Standards.KeyedHash

/-!
# The hash against its standard

The schedule of the code is the standard's, its four loops are the eighty steps, and
the three paddings are the standard's padding of whatever is left behind the last
whole block. HMAC then hashes two concatenations, for keys that fit into a block.

So for every input the library computes SHA-1 as the standard defines it. The source
feeds the blocks of a message one by one and pads the rest on its own; the proof
follows that division, with one lemma for a tail that leaves room for the length,
one for a tail that does not and one for none. Keys longer than a block, which the
source cuts instead of hashing, are not covered here.
-/
namespace Wsupp.Sha1
open SecureHash (chain padding compress)

theorem word_eq {blk : Bytes} {i : ℕ} (h : 4 * i + 4 ≤ blk.length) :
    word blk i = UInt32.ofNat (blk.slice (4 * i) 4).beNat := by
  have hword : word blk i = Aes128.w (blk.at' (4 * i)) (blk.at' (4 * i + 1)) (blk.at' (4 * i + 2))
      (blk.at' (4 * i + 3)) := rfl
  have h0 := (blk.at' (4 * i)).toNat_lt
  have h1 := (blk.at' (4 * i + 1)).toNat_lt
  have h2 := (blk.at' (4 * i + 2)).toNat_lt
  have h3 := (blk.at' (4 * i + 3)).toNat_lt
  apply UInt32.toNat_inj.mp
  rw [hword, Bytes.slice_four h, Aes128.toNat_w, UInt32.toNat_ofNat']
  simp only [Bytes.beNat, List.foldl_cons, List.foldl_nil]
  omega

theorem ofWord_eq (w : UInt32) : ofWord w = SecureHash.bytesOf w := by
  have h0 : (w >>> 24).toUInt8 = UInt8.ofNat (w.toNat / 256 ^ 3) := by
    apply UInt8.toNat_inj.mp
    rw [UInt8.toNat_ofNat']
    exact Aes128.toNat_b0 w
  have h1 : (w >>> 16).toUInt8 = UInt8.ofNat (w.toNat / 256 ^ 2) := by
    apply UInt8.toNat_inj.mp
    rw [UInt8.toNat_ofNat']
    exact Aes128.toNat_b1 w
  have h2 : (w >>> 8).toUInt8 = UInt8.ofNat (w.toNat / 256 ^ 1) := by
    apply UInt8.toNat_inj.mp
    rw [UInt8.toNat_ofNat']
    exact Aes128.toNat_b2 w
  have h3 : w.toUInt8 = UInt8.ofNat (w.toNat / 256 ^ 0) := by
    apply UInt8.toNat_inj.mp
    rw [UInt8.toNat_ofNat', Nat.pow_zero, Nat.div_one]
    exact Aes128.toNat_b3 w
  rw [ofWord, h0, h1, h2, h3]
  rfl

section Schedule
variable {blk : Bytes}

theorem getD_newest (g : ℕ → UInt32) {t j : ℕ} (h : j < t) :
    ((List.range t).map g).reverse.getD j 0 = g (t - 1 - j) := by
  have hlen : ((List.range t).map g).length = t := by rw [List.length_map, List.length_range]
  rw [List.getD_eq_getElem?_getD, List.getElem?_reverse (by omega), hlen, List.getElem?_map,
    List.getElem?_range (by omega)]
  rfl

theorem newest_word {t : ℕ} (ht : 16 ≤ t) :
    let ws := ((List.range t).map (SecureHash.W blk)).reverse
    rol (ws.getD 2 0 ^^^ ws.getD 7 0 ^^^ ws.getD 13 0 ^^^ ws.getD 15 0) 1 :: ws =
      ((List.range (t + 1)).map (SecureHash.W blk)).reverse := by
  dsimp only
  rw [getD_newest _ (by omega), getD_newest _ (by omega), getD_newest _ (by omega), getD_newest _ (by omega),
    List.range_succ, List.map_append, List.reverse_append, List.map_singleton, List.reverse_singleton,
    List.singleton_append, SecureHash.W.eq_def blk t, if_neg (by omega)]
  rfl

theorem extend_eq (n : ℕ) {t : ℕ} (ht : 16 ≤ t) :
    extend n ((List.range t).map (SecureHash.W blk)).reverse =
      ((List.range (t + n)).map (SecureHash.W blk)).reverse := by
  induction n generalizing t with
  | zero => rfl
  | succ n ih =>
      rw [extend, newest_word ht, ih (by omega), Nat.add_right_comm, Nat.add_assoc]

theorem load_eq (h : blk.length = 64) : load blk = (List.range 80).map (SecureHash.W blk) := by
  have hfirst : (List.range 16).map (word blk) = (List.range 16).map (SecureHash.W blk) := by
    apply List.map_congr_left
    intro i hi
    have hi := List.mem_range.mp hi
    rw [SecureHash.W, if_pos hi, word_eq (by omega)]
  rw [load, hfirst, extend_eq 64 (Nat.le_refl 16), List.reverse_reverse]

end Schedule

/-- The chaining value as the standard's registers. -/
def State.words (h : State) : SecureHash.Words := ⟨h.a, h.b, h.c, h.d, h.e⟩

/-- A stretch of steps with one function and one constant. -/
theorem foldl_round {g : UInt32 → UInt32 → UInt32 → UInt32} {k : UInt32} (blk : Bytes) (n : ℕ) {i : ℕ}
    (hg : ∀ t, i ≤ t → t < i + n → SecureHash.f t = g ∧ SecureHash.K t = k) (h : State) :
    (((List.range' i n).map (SecureHash.W blk)).foldl (round g k) h).words =
      (List.range' i n).foldl (SecureHash.step blk) h.words := by
  induction n generalizing i h with
  | zero => rfl
  | succ n ih =>
      obtain ⟨hf, hk⟩ := hg i (Nat.le_refl i) (by omega)
      have hstep : (round g k h (SecureHash.W blk i)).words = SecureHash.step blk h.words i := by
        rw [SecureHash.step, hf, hk]
        rfl
      have hrest (t : ℕ) (hi : i + 1 ≤ t) (ht : t < i + 1 + n) := hg t (by omega) (by omega)
      rw [List.range'_succ, List.map_cons, List.foldl_cons, List.foldl_cons, ih hrest, hstep]

theorem steps_first (t : ℕ) (_ : 0 ≤ t) (h : t < 0 + 20) :
    SecureHash.f t = fa ∧ SecureHash.K t = 0x5A827999 := by
  have h19 : t ≤ 19 := by omega
  constructor
  · funext b c d
    rw [SecureHash.f, if_pos h19]
    rfl
  · rw [SecureHash.K, if_pos h19]

theorem steps_second (t : ℕ) (hi : 20 ≤ t) (h : t < 20 + 20) :
    SecureHash.f t = fb ∧ SecureHash.K t = 0x6ED9EBA1 := by
  have h19 : ¬ t ≤ 19 := by omega
  have h39 : t ≤ 39 := by omega
  constructor
  · funext b c d
    rw [SecureHash.f, if_neg h19, if_pos h39]
    rfl
  · rw [SecureHash.K, if_neg h19, if_pos h39]

theorem steps_third (t : ℕ) (hi : 40 ≤ t) (h : t < 40 + 20) :
    SecureHash.f t = fc ∧ SecureHash.K t = 0x8F1BBCDC := by
  have h19 : ¬ t ≤ 19 := by omega
  have h39 : ¬ t ≤ 39 := by omega
  have h59 : t ≤ 59 := by omega
  constructor
  · funext b c d
    rw [SecureHash.f, if_neg h19, if_neg h39, if_pos h59]
    rfl
  · rw [SecureHash.K, if_neg h19, if_neg h39, if_pos h59]

theorem steps_fourth (t : ℕ) (hi : 60 ≤ t) (_ : t < 60 + 20) :
    SecureHash.f t = fb ∧ SecureHash.K t = 0xCA62C1D6 := by
  have h19 : ¬ t ≤ 19 := by omega
  have h39 : ¬ t ≤ 39 := by omega
  have h59 : ¬ t ≤ 59 := by omega
  constructor
  · funext b c d
    rw [SecureHash.f, if_neg h19, if_neg h39, if_neg h59]
    rfl
  · rw [SecureHash.K, if_neg h19, if_neg h39, if_neg h59]

theorem proc_eq {blk : Bytes} (h : State) (hlen : blk.length = 64) :
    (proc h blk).words = compress h.words blk := by
  have hquarter (i : ℕ) (hi : ((List.range 80).drop i).take 20 = List.range' i 20) :
      (((List.range 80).map (SecureHash.W blk)).drop i).take 20 =
        (List.range' i 20).map (SecureHash.W blk) := by
    rw [← List.map_drop, ← List.map_take, hi]
  have hall : List.range 80 = List.range' 0 20 ++ List.range' 20 20 ++ List.range' 40 20 ++ List.range' 60 20 := rfl
  have hfirst := hquarter 0 rfl
  rw [List.drop_zero] at hfirst
  have hsteps : (((List.range' 60 20).map (SecureHash.W blk)).foldl (round fb 0xCA62C1D6)
      (((List.range' 40 20).map (SecureHash.W blk)).foldl (round fc 0x8F1BBCDC)
      (((List.range' 20 20).map (SecureHash.W blk)).foldl (round fb 0x6ED9EBA1)
      (((List.range' 0 20).map (SecureHash.W blk)).foldl (round fa 0x5A827999) h)))).words =
      (List.range 80).foldl (SecureHash.step blk) h.words := by
    rw [foldl_round blk 20 steps_fourth, foldl_round blk 20 steps_third, foldl_round blk 20 steps_second,
      foldl_round blk 20 steps_first, hall, List.foldl_append, List.foldl_append, List.foldl_append]
  rw [proc, load_eq hlen, hash, hfirst, hquarter 20 rfl, hquarter 40 rfl, hquarter 60 rfl,
    compress, ← hsteps]
  rfl

theorem length_putSize (total : ℕ) : (putSize total).length = 8 := rfl

/-- The bytes of a word are those of any number it is the low half of. -/
theorem byte_ofNat (n : ℕ) {j : ℕ} (hj : j < 4) :
    UInt8.ofNat ((UInt32.ofNat n).toNat / 256 ^ j) = UInt8.ofNat (n / 256 ^ j) := by
  apply UInt8.toNat_inj.mp
  rw [UInt8.toNat_ofNat', UInt8.toNat_ofNat', UInt32.toNat_ofNat']
  obtain rfl | rfl | rfl | rfl : j = 0 ∨ j = 1 ∨ j = 2 ∨ j = 3 := by omega
  all_goals omega

theorem size64_eq (n : ℕ) :
    SecureHash.size64 n = SecureHash.bytesOf (UInt32.ofNat (n / 256 ^ 4)) ++ SecureHash.bytesOf (UInt32.ofNat n) := by
  have hhigh (i : ℕ) (hi : i < 4) :
      UInt8.ofNat ((UInt32.ofNat (n / 256 ^ 4)).toNat / 256 ^ (3 - i)) = UInt8.ofNat (n / 256 ^ (7 - i)) := by
    rw [byte_ofNat _ (by omega), Nat.div_div_eq_div_mul, ← pow_add, show 4 + (3 - i) = 7 - i by omega]
  have hlow (i : ℕ) (hi : i < 4) :
      UInt8.ofNat ((UInt32.ofNat n).toNat / 256 ^ (3 - i)) = UInt8.ofNat (n / 256 ^ (7 - (4 + i))) := by
    rw [byte_ofNat _ (by omega), show 3 - i = 7 - (4 + i) by omega]
  have hrange : List.range 8 = List.range 4 ++ (List.range 4).map (4 + ·) := rfl
  rw [SecureHash.size64, SecureHash.bytesOf, SecureHash.bytesOf, hrange, List.map_append, List.map_map]
  congr 1
  · apply List.map_congr_left
    intro i hi
    exact (hhigh i (List.mem_range.mp hi)).symm
  · apply List.map_congr_left
    intro i hi
    exact (hlow i (List.mem_range.mp hi)).symm

theorem putSize_eq (total : ℕ) : putSize total = SecureHash.size64 (8 * total) := by
  have hhigh : UInt32.ofNat (total * 8 % 2 ^ 64 / 2 ^ 32) = UInt32.ofNat (8 * total / 256 ^ 4) := by
    apply UInt32.toNat_inj.mp
    rw [UInt32.toNat_ofNat', UInt32.toNat_ofNat']
    omega
  have hlow : UInt32.ofNat (total * 8 % 2 ^ 64 % 2 ^ 32) = UInt32.ofNat (8 * total) := by
    apply UInt32.toNat_inj.mp
    rw [UInt32.toNat_ofNat', UInt32.toNat_ofNat']
    omega
  rw [putSize, hhigh, hlow, ofWord_eq, ofWord_eq, size64_eq]

section Last
variable {tail : Bytes} {total : ℕ}

theorem length_pad1 (h : tail.length ≤ 55) : (pad1 tail total).length = 64 := by
  simp only [pad1, Bytes.zeros, List.length_append, List.length_replicate, List.length_singleton, length_putSize]
  omega

theorem length_pad2 (h : tail.length < 64) : (pad2 tail).length = 64 := by
  simp only [pad2, Bytes.zeros, List.length_append, List.length_replicate, List.length_singleton]
  omega

theorem length_pad0 : (pad0 total).length = 64 := rfl

/-- There is room for the size in the last block. -/
theorem padding_short (h : tail.length ≤ 55) (htotal : total % 64 = tail.length) :
    tail ++ padding total = pad1 tail total := by
  have hzeros : (64 - (total + 9) % 64) % 64 = 55 - tail.length := by omega
  rw [padding, hzeros, pad1, putSize_eq, List.append_assoc, List.append_assoc]
  rfl

theorem padding_long (h : 55 < tail.length) (hlen : tail.length < 64) (htotal : total % 64 = tail.length) :
    tail ++ padding total = pad2 tail ++ pad0 total := by
  have hzeros : (64 - (total + 9) % 64) % 64 = 63 - tail.length + 56 := by omega
  have hsplit : Bytes.zeros (63 - tail.length + 56) = Bytes.zeros (63 - tail.length) ++ Bytes.zeros 56 :=
    List.replicate_add ..
  rw [padding, hzeros, hsplit, pad2, pad0, putSize_eq]
  simp only [List.append_assoc, List.cons_append, List.nil_append]

theorem last_eq (h : State) (tail : Bytes) (total : ℕ) (hlen : tail.length < 64)
    (htotal : total % 64 = tail.length) :
    (last h tail tail.length total).words = chain compress 64 h.words (tail ++ padding total) := by
  have htake : tail.take (tail.length % 64) = tail := by
    rw [Nat.mod_eq_of_lt hlen, List.take_length]
  rw [last, htake]
  split_ifs with hlong
  · rw [padding_long hlong hlen htotal, SecureHash.chain_block (by decide) (length_pad2 hlen),
      SecureHash.chain_one (by decide) length_pad0, proc_eq _ length_pad0, proc_eq _ (length_pad2 hlen)]
  · have hshort : tail.length ≤ 55 := by omega
    rw [padding_short hshort htotal, SecureHash.chain_one (by decide) (length_pad1 hshort),
      proc_eq _ (length_pad1 hshort)]

end Last

/-- The whole blocks, then the rest with its padding, for any total that leaves the
same rest. -/
theorem blocks_last {fuel : ℕ} {ptr : Bytes} (h : State) (total : ℕ) (hfuel : ptr.length ≤ fuel)
    (htotal : total % 64 = ptr.length % 64) :
    (last (blocks fuel h ptr).1 (blocks fuel h ptr).2 (blocks fuel h ptr).2.length total).words =
      chain compress 64 h.words (ptr ++ padding total) := by
  induction fuel generalizing h ptr with
  | zero =>
      have hlen : ptr.length = 0 := Nat.le_zero.mp hfuel
      rw [blocks]
      exact last_eq h ptr total (by omega) (by omega)
  | succ fuel ih =>
      rw [blocks]
      split_ifs with hwhole
      · have hdrop : (ptr.drop 64).length = ptr.length - 64 := List.length_drop
        have htake : (ptr.take 64).length = 64 := List.length_take_of_le hwhole
        have hsplit : ptr ++ padding total = ptr.take 64 ++ (ptr.drop 64 ++ padding total) := by
          rw [← List.append_assoc, List.take_append_drop]
        rw [ih _ (by omega) (by omega), hsplit, SecureHash.chain_block (by decide) htake, proc_eq h htake]
      · have hlen : ptr.length < 64 := Nat.lt_of_not_le hwhole
        exact last_eq h ptr total hlen (by omega)

theorem hashRest_eq (h : State) (input : Bytes) {prev : ℕ} (hprev : prev % 64 = 0) :
    (hashRest h input prev).words = chain compress 64 h.words (input ++ padding (input.length + prev)) :=
  blocks_last h _ (Nat.le_refl _) (by omega)

theorem fini_eq (h : State) : fini h = h.words.digest := by
  simp only [fini, ofWord_eq]
  rfl

theorem length_fini (h : State) : (fini h).length = 20 := rfl

theorem sha1_eq (input : Bytes) : sha1 input = SecureHash.sha1 input := by
  have hinit : init.words = SecureHash.H0 := rfl
  have hchain := blocks_last init input.length (Nat.le_refl input.length) rfl
  rw [sha1, fini_eq, hchain, hinit, SecureHash.sha1]

section Hmac
variable {key : Bytes} {klen : ℕ} {val : UInt8}

theorem length_hmacPad (h : klen ≤ key.length) (h64 : klen ≤ 64) : (hmacPad key klen val).length = 64 := by
  simp only [hmacPad, Bytes.zeros, List.length_map, List.length_append, List.length_take, List.length_replicate]
  omega

/-- The pad and what follows it are hashed as one string. -/
theorem pad_hashRest (h : klen ≤ key.length) (h64 : klen ≤ 64) (input : Bytes) :
    fini (hashRest (proc init (hmacPad key klen val)) input 64) = sha1 (hmacPad key klen val ++ input) := by
  have hpad : (hmacPad key klen val).length = 64 := length_hmacPad h h64
  have hinit : init.words = SecureHash.H0 := rfl
  rw [fini_eq, hashRest_eq _ _ (by decide), proc_eq _ hpad, hinit, sha1_eq, SecureHash.sha1, List.append_assoc,
    SecureHash.chain_block (by decide) hpad, List.length_append, hpad, Nat.add_comm]

theorem pad_last (h : klen ≤ key.length) (h64 : klen ≤ 64) {inner : Bytes} (hinner : inner.length = 20) :
    fini (last (proc init (hmacPad key klen val)) inner 20 (64 + 20)) = sha1 (hmacPad key klen val ++ inner) := by
  have hpad : (hmacPad key klen val).length = 64 := length_hmacPad h h64
  have hinit : init.words = SecureHash.H0 := rfl
  have hlast := last_eq (proc init (hmacPad key klen val)) inner (64 + 20) (by omega) (by omega)
  rw [hinner] at hlast
  rw [fini_eq, hlast, proc_eq _ hpad, hinit, sha1_eq, SecureHash.sha1, List.append_assoc,
    SecureHash.chain_block (by decide) hpad, List.length_append, hpad, hinner]

end Hmac

theorem hmacSha1_cut (key input : Bytes) :
    hmacSha1 key key.length input = KeyedHash.hmac sha1 64 (key.take 64) input := by
  have hklen : (min (max (key.length : ℤ) 0) 64).toNat = min key.length 64 := by omega
  have hlen : (key.take 64).length = min key.length 64 := by
    rw [List.length_take, Nat.min_comm]
  have htake : key.take (min key.length 64) = key.take 64 := by
    rw [Nat.min_comm]
    exact List.take_eq_take_min.symm
  have hpad (val : UInt8) : hmacPad key (min key.length 64) val =
      (KeyedHash.keyBlock sha1 64 (key.take 64)).map (· ^^^ val) := by
    rw [KeyedHash.keyBlock_short (by omega), hlen, hmacPad, htake]
  have hle : min key.length 64 ≤ key.length := Nat.min_le_left ..
  have h64 : min key.length 64 ≤ 64 := Nat.min_le_right ..
  rw [hmacSha1, hklen, pad_last hle h64 (length_fini _), pad_hashRest hle h64, hpad, hpad]
  rfl

theorem hmacSha1_eq {key : Bytes} (h : key.length ≤ 64) (input : Bytes) :
    hmacSha1 key key.length input = KeyedHash.hmac sha1 64 key input := by
  rw [hmacSha1_cut, List.take_of_length_le h]

/-- `sha1` is the standard's hash, and `hmac_sha1` hashes the two concatenations, for
every key that fits into a block. Inputs are of any length, whatever is left of them
behind the last whole block. -/
theorem hashes_concatenation (input : Bytes) :
    sha1 input = SecureHash.sha1 input ∧
      ∀ key : Bytes, key.length ≤ 64 → hmacSha1 key key.length input =
        sha1 ((key ++ Bytes.zeros (64 - key.length)).map (· ^^^ 0x5C) ++
          sha1 ((key ++ Bytes.zeros (64 - key.length)).map (· ^^^ 0x36) ++ input)) := by
  constructor
  · exact sha1_eq input
  · intro key h
    rw [hmacSha1_eq h, KeyedHash.hmac, KeyedHash.keyBlock_short h]
    rfl

theorem hashes_concatenation_tail :
    sha1 (Bytes.zeros 56) = SecureHash.sha1 (Bytes.zeros 56) ∧ (Bytes.zeros 64).length ≤ 64 ∧
      hmacSha1 (Bytes.zeros 64) 64 (Bytes.zeros 56) =
        sha1 ((Bytes.zeros 64 ++ Bytes.zeros 0).map (· ^^^ 0x5C) ++
          sha1 ((Bytes.zeros 64 ++ Bytes.zeros 0).map (· ^^^ 0x36) ++ Bytes.zeros 56)) :=
  ⟨(hashes_concatenation (Bytes.zeros 56)).1, by decide,
    (hashes_concatenation (Bytes.zeros 56)).2 (Bytes.zeros 64) (by decide)⟩

example : sha1 [0x61, 0x62, 0x63] = [0xa9, 0x99, 0x3e, 0x36, 0x47, 0x06, 0x81, 0x6a, 0xba, 0x3e,
    0x25, 0x71, 0x78, 0x50, 0xc2, 0x6c, 0x9c, 0xd0, 0xd8, 0x9d] := by
  decide +kernel

end Wsupp.Sha1

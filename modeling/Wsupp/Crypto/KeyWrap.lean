import Wsupp.Crypto.Inverse

/-!
# The key wrap undone

The buffer is taken as its blocks: a step of the wrap changes the first block and
one other. Steps in the opposite order with the same counters take it all back, and
so the check of the first block says what has been wrapped. Both loops of either
direction are loops over steps that undo each other, the inner ones over the blocks,
the outer ones over the six rounds.

The result is about buffers of at least two whole blocks, which are those the wrap
is defined on. The round trip of the block cipher is all that is used of the cipher.
-/
namespace Wsupp.Aes128

section Blocks
variable {R R' b m : Bytes} {n i k : ℕ}

theorem setBlock_eq (R : Bytes) (i : ℕ) (hb : b.length = 8) : setBlock R i b = R.poke (8 * i) b := by
  rw [setBlock, Bytes.poke, hb]

theorem length_setBlock (hb : b.length = 8) (hi : 8 * i + 8 ≤ R.length) : (setBlock R i b).length = R.length := by
  rw [setBlock_eq R i hb, Bytes.length_poke (by omega)]

theorem length_block (hi : 8 * i + 8 ≤ R.length) : (block R i).length = 8 := Bytes.length_slice hi

theorem block_setBlock (hb : b.length = 8) (hi : 8 * i + 8 ≤ R.length) (k : ℕ) :
    block (setBlock R i b) k = if k = i then b else block R k := by
  rw [setBlock_eq R i hb]
  unfold block
  obtain hlt | heq | hgt := Nat.lt_trichotomy k i
  · rw [if_neg (by omega), Bytes.slice_poke_before (by omega) (by omega)]
  · have hin : (R.poke (8 * i) b).slice (8 * i) b.length = b := Bytes.slice_poke (by omega)
    rw [hb] at hin
    rw [if_pos heq, heq, hin]
  · rw [if_neg (by omega), Bytes.slice_poke_after (by omega) (by omega)]

/-- Buffers of whole blocks are told apart by their blocks. -/
theorem ext_blocks (hR : R.length = 8 * n) (hR' : R'.length = 8 * n) (h : ∀ k < n, block R k = block R' k) :
    R = R' := by
  induction n generalizing R R' with
  | zero => rw [List.length_eq_zero_iff.mp hR, List.length_eq_zero_iff.mp hR']
  | succ n ih =>
      have hhead : R.take 8 = R'.take 8 := h 0 (by omega)
      have htail : R.drop 8 = R'.drop 8 := by
        apply ih (by rw [List.length_drop]; omega) (by rw [List.length_drop]; omega)
        intro k hk
        have hnext := h (k + 1) (by omega)
        unfold block Bytes.slice at *
        rwa [List.drop_drop, List.drop_drop, Nat.add_comm 8]
      rw [← List.take_append_drop 8 R, ← List.take_append_drop 8 R', hhead, htail]

theorem xor_xor (h : b.length = m.length) : Bytes.xor (Bytes.xor b m) m = b := by
  induction b generalizing m with
  | nil => rfl
  | cons x b ih =>
      cases m with
      | nil => cases h
      | cons y m =>
          have hrest := ih (Nat.succ.inj h)
          unfold Bytes.xor at *
          rw [List.zipWith_cons_cons, List.zipWith_cons_cons, UInt8.xor_assoc, UInt8.xor_self, UInt8.xor_zero, hrest]

theorem length_wrapmask (t : ℕ) : (wrapmask t).length = 8 := rfl

theorem length_xor_wrapmask (t : ℕ) (hb : b.length = 8) : (Bytes.xor b (wrapmask t)).length = 8 := by
  rw [Bytes.xor, List.length_zipWith, hb, length_wrapmask]
  rfl

end Blocks

section Steps
variable (W : List UInt32) {R : Bytes} {n i t : ℕ}

/-- What comes out of the cipher has two halves of a block each. -/
theorem length_halves {B : Bytes} (h : B.length = 16) : (B.take 8).length = 8 ∧ (B.drop 8).length = 8 := by
  constructor
  · rw [List.length_take, h]
    rfl
  · rw [List.length_drop, h]

/-- Block by block, what a step of the wrap leaves behind. -/
theorem wrapStep_spec (hR : R.length = 8 * (n + 1)) (hi : 0 < i) (hin : i ≤ n) :
    (wrapStep W R t i).length = R.length ∧ ∀ k, block (wrapStep W R t i) k =
      if k = 0 then Bytes.xor ((encrypt W (block R 0 ++ block R i)).take 8) (wrapmask t)
      else if k = i then (encrypt W (block R 0 ++ block R i)).drop 8 else block R k := by
  obtain ⟨htake, hdrop⟩ := length_halves (length_encrypt W (block R 0 ++ block R i))
  have h₁ : (setBlock R 0 ((encrypt W (block R 0 ++ block R i)).take 8)).length = R.length :=
    length_setBlock htake (by omega)
  have h₂ : (setBlock (setBlock R 0 ((encrypt W (block R 0 ++ block R i)).take 8)) i
      ((encrypt W (block R 0 ++ block R i)).drop 8)).length = R.length := by
    rw [length_setBlock hdrop (by omega), h₁]
  have hfirst := length_xor_wrapmask t (length_block (show 8 * 0 + 8 ≤ _ by rw [h₂]; omega))
  unfold wrapStep
  dsimp only
  constructor
  · rw [length_setBlock hfirst (by omega), h₂]
  · intro k
    rw [block_setBlock hfirst (by omega), block_setBlock hdrop (by omega), block_setBlock htake (by omega),
      if_neg (by omega : ¬ 0 = i), if_pos rfl, block_setBlock hdrop (by omega), block_setBlock htake (by omega)]
    by_cases hk : k = 0
    · rw [if_pos hk, if_pos hk]
    · rw [if_neg hk, if_neg hk, if_neg hk]

theorem unwrapStep_spec (hR : R.length = 8 * (n + 1)) (hi : 0 < i) (hin : i ≤ n) :
    (unwrapStep W R t i).length = R.length ∧ ∀ k, block (unwrapStep W R t i) k =
      if k = 0 then (decrypt W (Bytes.xor (block R 0) (wrapmask t) ++ block R i)).take 8
      else if k = i then (decrypt W (Bytes.xor (block R 0) (wrapmask t) ++ block R i)).drop 8
      else block R k := by
  have hfirst : (Bytes.xor (block R 0) (wrapmask t)).length = 8 := length_xor_wrapmask t (length_block (by omega))
  obtain ⟨htake, hdrop⟩ := length_halves (length_decrypt W (Bytes.xor (block R 0) (wrapmask t) ++ block R i))
  have h₁ : (setBlock R 0 (Bytes.xor (block R 0) (wrapmask t))).length = R.length :=
    length_setBlock hfirst (by omega)
  have h₂ : (setBlock (setBlock R 0 (Bytes.xor (block R 0) (wrapmask t))) 0
      ((decrypt W (Bytes.xor (block R 0) (wrapmask t) ++ block R i)).take 8)).length = R.length := by
    rw [length_setBlock htake (by omega), h₁]
  unfold unwrapStep
  dsimp only
  rw [block_setBlock hfirst (by omega) 0, if_pos rfl, block_setBlock hfirst (by omega) i,
    if_neg (by omega : ¬ i = 0)]
  constructor
  · rw [length_setBlock hdrop (by omega), h₂]
  · intro k
    rw [block_setBlock hdrop (by omega), block_setBlock htake (by omega), block_setBlock hfirst (by omega)]
    by_cases hk : k = 0
    · rw [if_neg (by omega : ¬ k = i), if_pos hk, if_pos hk]
    · rw [if_neg hk, if_neg hk, if_neg hk]

/-- With its counter, a step of the unwrap takes a step of the wrap back. -/
theorem unwrapStep_wrapStep (hR : R.length = 8 * (n + 1)) (hi : 0 < i) (hin : i ≤ n) :
    unwrapStep W (wrapStep W R t i) t i = R := by
  obtain ⟨hlen, hblock⟩ := wrapStep_spec W (t := t) hR hi hin
  obtain ⟨hlen', hblock'⟩ := unwrapStep_spec W (t := t) (hlen.trans hR) hi hin
  obtain ⟨htake, -⟩ := length_halves (length_encrypt W (block R 0 ++ block R i))
  have h0 : (block R 0).length = 8 := length_block (by omega)
  have hdec : decrypt W (encrypt W (block R 0 ++ block R i)) = block R 0 ++ block R i := by
    apply decrypt_encrypt
    rw [List.length_append, h0, length_block (by omega)]
  have hhead := hblock 0
  have hother := hblock i
  rw [if_pos rfl] at hhead
  rw [if_neg (by omega), if_pos rfl] at hother
  apply ext_blocks (by rw [hlen', hlen, hR]) hR
  intro k _
  rw [hblock', hhead, hother, xor_xor (htake.trans (length_wrapmask t).symm), List.take_append_drop, hdec]
  by_cases hk : k = 0
  · rw [if_pos hk, hk, List.take_left' h0]
  by_cases hki : k = i
  · rw [if_neg hk, if_pos hki, hki, List.drop_left' h0]
  · rw [if_neg hk, if_neg hki, hblock, if_neg hk, if_neg hki]

theorem wrapStep_unwrapStep (hR : R.length = 8 * (n + 1)) (hi : 0 < i) (hin : i ≤ n) :
    wrapStep W (unwrapStep W R t i) t i = R := by
  obtain ⟨hlen, hblock⟩ := unwrapStep_spec W (t := t) hR hi hin
  obtain ⟨hlen', hblock'⟩ := wrapStep_spec W (t := t) (hlen.trans hR) hi hin
  have h0 : (block R 0).length = 8 := length_block (by omega)
  have hx : (Bytes.xor (block R 0) (wrapmask t)).length = 8 := length_xor_wrapmask t h0
  have henc : encrypt W (decrypt W (Bytes.xor (block R 0) (wrapmask t) ++ block R i)) =
      Bytes.xor (block R 0) (wrapmask t) ++ block R i := by
    apply encrypt_decrypt
    rw [List.length_append, hx, length_block (by omega)]
  have hhead := hblock 0
  have hother := hblock i
  rw [if_pos rfl] at hhead
  rw [if_neg (by omega), if_pos rfl] at hother
  apply ext_blocks (by rw [hlen', hlen, hR]) hR
  intro k _
  rw [hblock', hhead, hother, List.take_append_drop, henc]
  by_cases hk : k = 0
  · rw [if_pos hk, hk, List.take_left' hx, xor_xor (h0.trans (length_wrapmask t).symm)]
  by_cases hki : k = i
  · rw [if_neg hk, if_pos hki, hki, List.drop_left' hx]
  · rw [if_neg hk, if_neg hki, hblock, if_neg hk, if_neg hki]

end Steps

section Rounds
variable (W : List UInt32) {R : Bytes} {n k : ℕ} (base : ℕ)

/-- Buffers of the block that is checked and `n` others. -/
def Sized (n : ℕ) (R : Bytes) : Prop := R.length = 8 * (n + 1)

theorem wrapInner_eq (hk : k ≤ n) (R : Bytes) :
    wrapInner W base n k R = Loops.up (fun i R => wrapStep W R (base + (i + 1)) (i + 1)) n k R := by
  induction k generalizing R with
  | zero => rfl
  | succ k ih =>
      have hindex : n - (k + 1) + 1 = n - k := by omega
      rw [wrapInner, Loops.up, hindex, ih (by omega)]

theorem unwrapInner_eq (n : ℕ) (R : Bytes) :
    unwrapInner W base n R = Loops.down (fun i R => unwrapStep W R (base + (i + 1)) (i + 1)) n R := by
  induction n generalizing R with
  | zero => rfl
  | succ n ih => exact ih _

theorem wrapStep_keeps : Loops.Keeps (Sized n) (fun i R => wrapStep W R (base + (i + 1)) (i + 1)) n :=
  fun i hi _ hR => (wrapStep_spec W hR i.succ_pos hi).1.trans hR

theorem unwrapStep_keeps : Loops.Keeps (Sized n) (fun i R => unwrapStep W R (base + (i + 1)) (i + 1)) n :=
  fun i hi _ hR => (unwrapStep_spec W hR i.succ_pos hi).1.trans hR

theorem wrapInner_sized (hR : Sized n R) : Sized n (wrapInner W base n n R) := by
  rw [wrapInner_eq W base (Nat.le_refl n)]
  exact (wrapStep_keeps W base).up (Nat.le_refl n) hR

theorem unwrapInner_sized (hR : Sized n R) : Sized n (unwrapInner W base n R) := by
  rw [unwrapInner_eq]
  exact (unwrapStep_keeps W base).down (Nat.le_refl n) hR

theorem unwrapInner_wrapInner (hR : Sized n R) : unwrapInner W base n (wrapInner W base n n R) = R := by
  have hundo : Loops.Undoes (Sized n) (fun i R => unwrapStep W R (base + (i + 1)) (i + 1))
      (fun i R => wrapStep W R (base + (i + 1)) (i + 1)) n :=
    fun i hi _ hR => unwrapStep_wrapStep W hR i.succ_pos hi
  rw [unwrapInner_eq, wrapInner_eq W base (Nat.le_refl n)]
  exact hundo.down_up (wrapStep_keeps W base) hR

theorem wrapInner_unwrapInner (hR : Sized n R) : wrapInner W base n n (unwrapInner W base n R) = R := by
  have hundo : Loops.Undoes (Sized n) (fun i R => wrapStep W R (base + (i + 1)) (i + 1))
      (fun i R => unwrapStep W R (base + (i + 1)) (i + 1)) n :=
    fun i hi _ hR => wrapStep_unwrapStep W hR i.succ_pos hi
  rw [unwrapInner_eq, wrapInner_eq W base (Nat.le_refl n)]
  exact hundo.up_down (unwrapStep_keeps W base) hR

theorem wrapOuter_eq (n k : ℕ) (R : Bytes) :
    wrapOuter W n k R = Loops.up (fun j R => wrapInner W (n * j) n n R) 6 k R := by
  induction k generalizing R with
  | zero => rfl
  | succ k ih =>
      have hindex : 6 - (k + 1) = 5 - k := by omega
      rw [wrapOuter, Loops.up, hindex, ih]

theorem unwrapOuter_eq (n j : ℕ) (R : Bytes) :
    unwrapOuter W n j R = Loops.down (fun j R => unwrapInner W (n * j) n R) j R := by
  induction j generalizing R with
  | zero => rfl
  | succ j ih => exact ih _

theorem wrapOuter_sized (hR : Sized n R) : Sized n (wrapOuter W n 6 R) := by
  have hkeeps : Loops.Keeps (Sized n) (fun j R => wrapInner W (n * j) n n R) 6 :=
    fun _ _ _ hR => wrapInner_sized W _ hR
  rw [wrapOuter_eq]
  exact hkeeps.up (Nat.le_refl 6) hR

theorem unwrapOuter_sized (hR : Sized n R) : Sized n (unwrapOuter W n 6 R) := by
  have hkeeps : Loops.Keeps (Sized n) (fun j R => unwrapInner W (n * j) n R) 6 :=
    fun _ _ _ hR => unwrapInner_sized W _ hR
  rw [unwrapOuter_eq]
  exact hkeeps.down (Nat.le_refl 6) hR

theorem unwrapOuter_wrapOuter (hR : Sized n R) : unwrapOuter W n 6 (wrapOuter W n 6 R) = R := by
  have hundo : Loops.Undoes (Sized n) (fun j R => unwrapInner W (n * j) n R)
      (fun j R => wrapInner W (n * j) n n R) 6 := fun _ _ _ hR => unwrapInner_wrapInner W _ hR
  rw [unwrapOuter_eq, wrapOuter_eq]
  exact hundo.down_up (fun _ _ _ hR => wrapInner_sized W _ hR) hR

theorem wrapOuter_unwrapOuter (hR : Sized n R) : wrapOuter W n 6 (unwrapOuter W n 6 R) = R := by
  have hundo : Loops.Undoes (Sized n) (fun j R => wrapInner W (n * j) n n R)
      (fun j R => unwrapInner W (n * j) n R) 6 := fun _ _ _ hR => wrapInner_unwrapInner W _ hR
  rw [unwrapOuter_eq, wrapOuter_eq]
  exact hundo.up_down (fun _ _ _ hR => unwrapInner_sized W _ hR) hR

end Rounds

/-- What can be wrapped: whole blocks, and one besides the first. -/
def Wrappable (buf : Bytes) : Prop := buf.length % 8 = 0 ∧ 16 ≤ buf.length

section Buffers
variable {key buf : Bytes}

theorem Wrappable.sized (h : Wrappable buf) : Sized (buf.length / 8 - 1) buf := by
  obtain ⟨h8, h16⟩ := h
  unfold Sized
  omega

theorem Wrappable.length_wrap (h : Wrappable buf) : (wrap key buf).length = buf.length := by
  have hsized := wrapOuter_sized (init key) h.sized
  exact hsized.trans h.sized.symm

theorem Wrappable.length_unwrap (h : Wrappable buf) : (unwrap key buf).length = buf.length := by
  have hsized := unwrapOuter_sized (init key) h.sized
  exact hsized.trans h.sized.symm

theorem Wrappable.unwrap_wrap (h : Wrappable buf) : unwrap key (wrap key buf) = buf := by
  rw [unwrap, h.length_wrap]
  exact unwrapOuter_wrapOuter (init key) h.sized

theorem Wrappable.wrap_unwrap (h : Wrappable buf) : wrap key (unwrap key buf) = buf := by
  rw [wrap, h.length_unwrap]
  exact wrapOuter_unwrapOuter (init key) h.sized

end Buffers

end Wsupp.Aes128

import Mathlib.Data.Nat.Notation

/-!
# Loops that undo each other

A loop that counts up and one that counts down, with a step for every index. Where
each step of one is undone by the step of the other with the same index, the loops
are undone by each other, whichever of them comes first.

The state is of any type and the steps may depend on the index. An invariant of the
state is carried along, since steps often undo each other only on states of the
right shape. Nested loops need nothing more: a loop that is undone by another is
itself a step of the loop around it.
-/
namespace Loops

variable {α : Type} {P : α → Prop} {f g : ℕ → α → α} {n k i : ℕ} {x : α}

/-- The last `k` turns of a loop from 0 up to `n - 1`. -/
def up (f : ℕ → α → α) (n : ℕ) : ℕ → α → α
  | 0, x => x
  | k + 1, x => up f n k (f (n - (k + 1)) x)

/-- A loop from `n - 1` down to 0. -/
def down (g : ℕ → α → α) : ℕ → α → α
  | 0, x => x
  | i + 1, x => down g i (g i x)

/-- The steps below `n` stay within `P`. -/
def Keeps (P : α → Prop) (f : ℕ → α → α) (n : ℕ) : Prop := ∀ i < n, ∀ x, P x → P (f i x)

/-- A step of `g` takes back what the step of `f` with its index has done. -/
def Undoes (P : α → Prop) (g f : ℕ → α → α) (n : ℕ) : Prop := ∀ i < n, ∀ x, P x → g i (f i x) = x

theorem Keeps.up (hf : Keeps P f n) (hk : k ≤ n) (hx : P x) : P (up f n k x) := by
  induction k generalizing x with
  | zero => exact hx
  | succ k ih => exact ih (by omega) (hf _ (by omega) x hx)

theorem Keeps.down (hg : Keeps P g n) (hi : i ≤ n) (hx : P x) : P (down g i x) := by
  induction i generalizing x with
  | zero => exact hx
  | succ i ih => exact ih (by omega) (hg i (by omega) x hx)

/-- After `k` steps up, only the steps below them are left of the loop down. -/
theorem Undoes.down_up_from (h : Undoes P g f n) (hf : Keeps P f n) (hk : k ≤ n) (hx : P x) :
    Loops.down g n (Loops.up f n k x) = Loops.down g (n - k) x := by
  induction k generalizing x with
  | zero => rfl
  | succ k ih =>
      have hlt : n - (k + 1) < n := by omega
      have hnext : n - k = n - (k + 1) + 1 := by omega
      rw [Loops.up, ih (by omega) (hf _ hlt x hx), hnext, Loops.down, h _ hlt x hx]

theorem Undoes.down_up (h : Undoes P g f n) (hf : Keeps P f n) (hx : P x) :
    Loops.down g n (Loops.up f n n x) = x := by
  rw [h.down_up_from hf (Nat.le_refl n) hx, Nat.sub_self]
  rfl

/-- After `i` steps down, the loop up has only the steps above them to take. -/
theorem Undoes.up_down_from (h : Undoes P f g n) (hg : Keeps P g n) (hi : i ≤ n) (hx : P x) :
    Loops.up f n n (Loops.down g i x) = Loops.up f n (n - i) x := by
  induction i generalizing x with
  | zero => rfl
  | succ i ih =>
      have hlt : i < n := by omega
      have hnext : n - i = n - (i + 1) + 1 := by omega
      have hindex : n - (n - (i + 1) + 1) = i := by omega
      rw [Loops.down, ih (by omega) (hg i hlt x hx), hnext, Loops.up, hindex, h i hlt x hx]

theorem Undoes.up_down (h : Undoes P f g n) (hg : Keeps P g n) (hx : P x) :
    Loops.up f n n (Loops.down g n x) = x := by
  rw [h.up_down_from hg (Nat.le_refl n) hx, Nat.sub_self]
  rfl

end Loops

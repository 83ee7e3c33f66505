import Mathlib.Data.List.Basic
import Mathlib.Data.List.GetD
import Mathlib.Data.List.Infix
import Mathlib.Data.List.TakeWhile

/-!
# Text in a buffer

Lines with a terminator after each of them, loops that look for the end of a run of
characters, and codes that spell the characters of a name.

A text is a list over any type of characters, and a line one without the terminator.
Joining and splitting lines are inverse to each other where the text ends with a
terminator; `At` says where in a text a line stands, and what replacing or erasing
it does to the lines. A loop over a buffer stops at the first character that does
not belong to the run, or at the end. If no word of a code begins another, names can
be told apart by their spelling.
-/
namespace Text
variable {α β : Type}

def unlines (nl : α) (ls : List (List α)) : List α := ls.flatMap (· ++ [nl])

section Lines
variable {nl : α}

@[simp] theorem unlines_nil : unlines nl [] = [] := rfl

@[simp] theorem unlines_cons (l : List α) (ls : List (List α)) :
    unlines nl (l :: ls) = l ++ nl :: unlines nl ls := by
  simp [unlines]

@[simp] theorem unlines_append (ls ls' : List (List α)) :
    unlines nl (ls ++ ls') = unlines nl ls ++ unlines nl ls' :=
  List.flatMap_append

theorem length_le_unlines (ls : List (List α)) : ls.length ≤ (unlines nl ls).length := by
  induction ls with
  | nil => exact le_rfl
  | cons l ls ih =>
      simp only [unlines_cons, List.length_cons, List.length_append]
      omega

/-- All lines of the text have their terminator. -/
def Ended (nl : α) (t : List α) : Prop := t = [] ∨ t.getLast? = some nl

theorem Ended.of_cons {x : α} {t : List α} (h : Ended nl (x :: t)) (ht : t ≠ []) : Ended nl t := by
  rcases h with h | h
  · cases h
  · rw [List.getLast?_cons_of_ne_nil ht] at h
    exact .inr h

theorem ended_append (t : List α) : Ended nl (t ++ [nl]) := .inr (by simp)

end Lines

section Reading
variable [DecidableEq α] {nl : α}

/-- The lines of a text. The last one may lack its terminator, and then it is there
only if it has characters. -/
def lines (nl : α) : List α → List (List α)
  | [] => []
  | x :: t => if x = nl then [] :: lines nl t else (x :: (lines nl t).headD []) :: (lines nl t).tail

instance decidableEnded (t : List α) : Decidable (Ended nl t) := inferInstanceAs (Decidable (_ ∨ _))

@[simp] theorem lines_nil : lines nl [] = [] := rfl

theorem lines_line {l : List α} (h : nl ∉ l) (t : List α) : lines nl (l ++ nl :: t) = l :: lines nl t := by
  induction l with
  | nil => exact if_pos rfl
  | cons x l ih =>
      obtain ⟨hx, hl⟩ := not_or.mp (List.mem_cons.not.mp h)
      rw [List.cons_append, lines, if_neg (Ne.symm hx), ih hl]
      rfl

/-- What is left without a terminator is a line, if it is anything. -/
theorem lines_last {l : List α} (h : nl ∉ l) : lines nl l = if l = [] then [] else [l] := by
  induction l with
  | nil => rfl
  | cons x l ih =>
      obtain ⟨hx, hl⟩ := not_or.mp (List.mem_cons.not.mp h)
      rw [lines, if_neg (Ne.symm hx), ih hl, if_neg (List.cons_ne_nil x l)]
      split
      · next hnil => rw [hnil]; rfl
      · rfl

theorem not_mem_of_mem_lines {t l : List α} (h : l ∈ lines nl t) : nl ∉ l := by
  induction t generalizing l with
  | nil => cases h
  | cons x t ih =>
      rw [lines] at h
      split at h
      · rcases List.mem_cons.mp h with rfl | h
        · exact List.not_mem_nil
        · exact ih h
      next hx =>
      rcases List.mem_cons.mp h with rfl | h
      swap
      · exact ih (List.mem_of_mem_tail h)
      refine List.mem_cons.not.mpr (not_or.mpr ⟨Ne.symm hx, ?_⟩)
      cases hls : lines nl t with
      | nil => exact List.not_mem_nil
      | cons l' ls =>
          refine ih ?_
          rw [hls]
          exact List.mem_cons_self

/-- What is written after a text that ends with a terminator makes lines of its own. -/
theorem lines_append {t : List α} (h : Ended nl t) (t' : List α) :
    lines nl (t ++ t') = lines nl t ++ lines nl t' := by
  induction t with
  | nil => rfl
  | cons x t ih =>
      rw [List.cons_append, lines, lines]
      by_cases ht : t = []
      · subst ht
        have hx : x = nl := by
          rcases h with h | h
          · cases h
          · exact Option.some.inj h
        rw [if_pos hx, if_pos hx]
        rfl
      rw [ih (h.of_cons ht)]
      split
      · rfl
      next hx =>
      have hne : lines nl t ≠ [] := by
        cases t with
        | nil => exact absurd rfl ht
        | cons y t =>
            rw [lines]
            split <;> exact List.cons_ne_nil _ _
      obtain ⟨l, ls, hls⟩ := List.exists_cons_of_ne_nil hne
      rw [hls]
      rfl

/-- A text where a line is left open goes on in that line. -/
theorem length_lines_open {t l : List α} (ht : ¬ Ended nl t) (hl : nl ∉ l) :
    (lines nl (t ++ l ++ [nl])).length = (lines nl t).length := by
  induction t with
  | nil => exact absurd (.inl rfl) ht
  | cons x t ih =>
      by_cases hnil : t = []
      · subst hnil
        have hx : x ≠ nl := fun hx => ht (.inr (congrArg some hx))
        have hline : lines nl ((x :: l) ++ [nl]) = [x :: l] :=
          lines_line (List.mem_cons.not.mpr (not_or.mpr ⟨hx.symm, hl⟩)) []
        have hsingle : lines nl [x] = [[x]] := by
          rw [lines, if_neg hx]
          rfl
        rw [hsingle]
        exact (congrArg List.length hline : _ = 1)
      have hopen : ¬ Ended nl t := by
        intro hend
        refine ht (.inr ?_)
        rw [List.getLast?_cons_of_ne_nil hnil]
        exact hend.resolve_left hnil
      have hlen := ih hopen
      simp only [List.cons_append, lines]
      split
      · simp only [List.length_cons, hlen]
      · simp only [List.length_cons, List.length_tail, hlen]

/-- The `k`-th line `l` of a text, with what stands before and after it. The line is
open if nothing follows, not even its terminator. -/
structure At (nl : α) (t : List α) (k : ℕ) (before l after : List α) : Prop where
  split : t = before ++ l ++ after
  ended : Ended nl before
  index : (lines nl before).length = k
  inner : nl ∉ l
  closed : after = [] ∧ l ≠ [] ∨ ∃ rest, after = nl :: rest

namespace At
variable {t before l after : List α} {k : ℕ} (h : At nl t k before l after)
include h

/-- Another line in its place, with an end or with something in it. -/
theorem lines_replaced {l' : List α} (hl : nl ∉ l') (hkeep : l' ≠ [] ∨ after ≠ []) :
    lines nl (before ++ l' ++ after) = (lines nl t).set k l' := by
  have hboth : ∀ {m}, nl ∉ m → (m ≠ [] ∨ after ≠ []) →
      lines nl (m ++ after) = m :: lines nl after.tail := by
    intro m hm hkeep
    rcases h.closed with ⟨rfl, -⟩ | ⟨rest, rfl⟩
    · rw [List.append_nil, lines_last hm, if_neg (hkeep.resolve_right fun hne => hne rfl)]
      rfl
    · exact lines_line hm rest
  have hline : l ≠ [] ∨ after ≠ [] := by
    rcases h.closed with ⟨-, hne⟩ | ⟨rest, rfl⟩
    · exact .inl hne
    · exact .inr (List.cons_ne_nil _ _)
  rw [h.split, List.append_assoc, lines_append h.ended, hboth hl hkeep, List.append_assoc,
    lines_append h.ended, hboth h.inner hline, ← h.index, List.set_append_right _ _ le_rfl, Nat.sub_self]
  rfl

theorem lines_erased : lines nl (before ++ after.tail) = (lines nl t).eraseIdx k := by
  have hline : lines nl (l ++ after) = l :: lines nl after.tail := by
    rcases h.closed with ⟨rfl, hne⟩ | ⟨rest, rfl⟩
    · rw [List.append_nil, lines_last h.inner, if_neg hne]
      rfl
    · exact lines_line h.inner rest
  rw [lines_append h.ended, h.split, List.append_assoc, lines_append h.ended, hline, ← h.index,
    List.eraseIdx_append_of_length_le le_rfl, Nat.sub_self]
  rfl

end At

/-- From the end of a line on, the next one is read. -/
theorem at_of_ended {before u : List α} (hend : Ended nl before) (hu : u ≠ []) :
    At nl (before ++ u) (lines nl before).length before (u.takeWhile fun x => x ≠ nl)
      (u.dropWhile fun x => x ≠ nl) where
  split := by rw [List.append_assoc, List.takeWhile_append_dropWhile]
  ended := hend
  index := rfl
  inner := fun hmem => by simpa using List.mem_takeWhile_imp hmem
  closed := by
    cases hafter : u.dropWhile fun x => x ≠ nl with
    | nil =>
        have hwhole := u.takeWhile_append_dropWhile (p := fun x => x ≠ nl)
        rw [hafter, List.append_nil] at hwhole
        exact .inl ⟨rfl, hwhole.symm ▸ hu⟩
    | cons x rest =>
        have hx := List.head?_dropWhile_not (fun x => decide (x ≠ nl)) u
        rw [hafter] at hx
        exact .inr ⟨rest, by simpa using hx⟩

/-- A line with its end is followed by the rest of the text. -/
theorem At.next {t before l rest : List α} {k : ℕ} (h : At nl t k before l (nl :: rest)) :
    t = (before ++ l ++ [nl]) ++ rest ∧ Ended nl (before ++ l ++ [nl]) ∧
      (lines nl (before ++ l ++ [nl])).length = k + 1 := by
  refine ⟨?_, ended_append _, ?_⟩
  · rw [h.split]
    simp
  · rw [List.append_assoc, lines_append h.ended, lines_line h.inner, List.length_append, h.index]
    rfl

end Reading

/-- `i` is moved on past the characters that pass `q`, up to `e`; what is read past
the end of the buffer does not matter. -/
theorem scan_eq {f : ℕ → ℕ → ℕ} {q : α → Bool} {b : List α} {d : α} {e : ℕ} (h0 : ∀ i, f 0 i = i)
    (hstep : ∀ n i, f (n + 1) i = if i < e ∧ q (b.getD i d) = true then f n (i + 1) else i)
    (he : e ≤ b.length) {n i : ℕ} (hn : e ≤ i + n) :
    f n i = i + (((b.take e).drop i).takeWhile q).length := by
  induction n generalizing i with
  | zero =>
      have hdrop : (b.take e).drop i = [] := List.drop_eq_nil_of_le (by simp; omega)
      rw [h0, hdrop]
      rfl
  | succ n ih =>
      rw [hstep]
      by_cases hi : i < e
      swap
      · have hdrop : (b.take e).drop i = [] := List.drop_eq_nil_of_le (by simp; omega)
        rw [if_neg fun h => hi h.1, hdrop]
        rfl
      have hdrop : (b.take e).drop i = b.getD i d :: (b.take e).drop (i + 1) := by
        rw [List.drop_eq_getElem_cons (by simp; omega), List.getElem_take,
          List.getD_eq_getElem _ _ (by omega)]
      rw [hdrop, List.takeWhile_cons]
      by_cases hq : q (b.getD i d) = true
      · rw [if_pos ⟨hi, hq⟩, if_pos hq, ih (by omega), List.length_cons]
        omega
      · rw [if_neg fun h => hq h.2, if_neg hq]
        rfl

theorem takeWhile_stops {q : α → Bool} {l t : List α} {x : α} (hl : ∀ y ∈ l, q y = true)
    (hx : q x = false) : (l ++ x :: t).takeWhile q = l := by
  rw [List.takeWhile_append_of_pos hl, List.takeWhile_cons_of_neg (by simp [hx]), List.append_nil]

/-- No character's spelling starts another one's. -/
def PrefixFree (f : α → List β) : Prop := ∀ x y, f x <+: f y → x = y

/-- A code whose characters can be read off a text one by one. -/
theorem PrefixFree.of_read {f : α → List β} {g : List β → α} (h : ∀ x t, g (f x ++ t) = x) :
    PrefixFree f := by
  rintro x y ⟨t, ht⟩
  have hx := h x t
  rw [ht, ← List.append_nil (f y), h] at hx
  exact hx.symm

/-- A text in a prefix-free code can be read in one way. -/
theorem PrefixFree.flatMap_injective {f : α → List β} (h : PrefixFree f) (hne : ∀ x, f x ≠ []) :
    Function.Injective fun l : List α => l.flatMap f := by
  intro l
  induction l with
  | nil =>
      intro l' heq
      cases l' with
      | nil => rfl
      | cons y l' => exact absurd (List.append_eq_nil_iff.mp heq.symm).1 (hne y)
  | cons x l ih =>
      intro l' heq
      cases l' with
      | nil => exact absurd (List.append_eq_nil_iff.mp heq).1 (hne x)
      | cons y l' =>
          simp only [List.flatMap_cons] at heq
          have hxy : x = y := by
            rcases List.prefix_or_prefix_of_prefix (List.prefix_append (f x) (l.flatMap f))
              (heq ▸ List.prefix_append (f y) (l'.flatMap f)) with hp | hp
            · exact h x y hp
            · exact (h y x hp).symm
          subst hxy
          rw [ih (List.append_cancel_left heq)]

end Text

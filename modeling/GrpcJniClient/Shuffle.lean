/-
`java.util.Collections.shuffle`.

The list is gone through backwards: the element at each position is swapped with
one that is drawn from the positions up to it.

* `shuffle_perm` — the result is a permutation of the list, so that it is one of
  the `Shuffling`s;
* `exists_shuffle_eq` — and every permutation is what some draws lead to.
-/
import Mathlib.Algebra.GroupWithZero.Nat
import Mathlib.Data.List.Perm.Basic

namespace Shuffle

variable {α : Type*}

/-- What a source of random numbers returns: `nextInt n` is below `n`. -/
abbrev Draws := (n : ℕ) → [NeZero n] → Fin n

/-- Draws that return the given numbers. -/
def Draws.ofIndex (index : ℕ → ℕ) : Draws := fun n _ => Fin.ofNat n (index n)

/-- `Collections.swap`. -/
def swap (l : List α) (i j : ℕ) : List α :=
  if h : i < l.length ∧ j < l.length then (l.set i (l.get ⟨j, h.2⟩)).set j (l.get ⟨i, h.1⟩) else l

/-- The loop, from the `i`-th element down to the first, which stays. -/
def shuffleFrom (nextInt : Draws) : ℕ → List α → List α
  | 0, l => l
  | i + 1, l => shuffleFrom nextInt i (swap l i (nextInt (i + 1)))

/-- `Collections.shuffle`. -/
def shuffle (nextInt : Draws) (l : List α) : List α := shuffleFrom nextInt l.length l

variable {l l' : List α} {i j : ℕ} {nextInt nextInt' : Draws}

theorem swap_perm (l : List α) (i j : ℕ) : (swap l i j).Perm l := by
  rw [swap]
  split_ifs with h
  · exact List.set_set_perm h.1 h.2
  · exact List.Perm.refl l

theorem shuffleFrom_perm (nextInt : Draws) (i : ℕ) (l : List α) :
    (shuffleFrom nextInt i l).Perm l := by
  induction i generalizing l with
  | zero => exact List.Perm.refl l
  | succ i ih =>
    rw [shuffleFrom]
    exact (ih _).trans (swap_perm l i _)

theorem shuffle_perm (nextInt : Draws) (l : List α) : (shuffle nextInt l).Perm l :=
  shuffleFrom_perm nextInt l.length l

/-- A way to put the elements of lists in another order. -/
structure Shuffling (α : Type*) where
  shuffle : List α → List α
  perm : ∀ l, (shuffle l).Perm l

/-- `Collections.shuffle` is one, whatever is drawn. -/
def Shuffling.collections (nextInt : Draws) : Shuffling α :=
  ⟨Shuffle.shuffle nextInt, shuffle_perm nextInt⟩

/-! ### Every permutation -/

/-- Only the bounds that the loop comes to are drawn. -/
theorem shuffleFrom_congr (h : ∀ n ≤ i, ∀ [NeZero n], nextInt n = nextInt' n) (l : List α) :
    shuffleFrom nextInt i l = shuffleFrom nextInt' i l := by
  induction i generalizing l with
  | zero => rfl
  | succ i ih =>
    rw [shuffleFrom, shuffleFrom, h (i + 1) (Nat.le_refl _)]
    exact ih (fun n hn => h n (Nat.le_succ_of_le hn)) _

theorem drop_set_self (hi : i < l.length) (x : α) :
    (l.set i x).drop i = x :: l.drop (i + 1) := by
  have hlength : i < (l.set i x).length := by
    rw [List.length_set]
    exact hi
  rw [List.drop_eq_getElem_cons hlength, List.getElem_set_self,
    List.drop_set_of_lt (Nat.lt_succ_self i)]

/-- The swap puts the drawn element in its place, and moves nothing behind it. -/
theorem drop_swap (hi : i < l.length) (hj : j ≤ i) :
    (swap l i j).drop i = l[j] :: l.drop (i + 1) := by
  have hbounds : i < l.length ∧ j < l.length := ⟨hi, Nat.lt_of_le_of_lt hj hi⟩
  rw [swap, dif_pos hbounds, List.get_eq_getElem, List.get_eq_getElem]
  rcases Nat.lt_or_eq_of_le hj with hlt | rfl
  · rw [List.drop_set_of_lt hlt, drop_set_self hi]
  · rw [List.set_set, drop_set_self hi]

/-- The part that is still to be shuffled holds the element that comes next. -/
theorem exists_getElem_eq (hperm : l'.Perm l) (hi : i < l.length)
    (hdrop : l'.drop (i + 1) = l.drop (i + 1)) :
    ∃ j, ∃ hj : j ≤ i, l'.drop i = l[j] :: l.drop (i + 1) := by
  have hi' : i < l'.length := by
    rw [hperm.length_eq]
    exact hi
  -- behind the part both lists are the same, so the part itself is permuted
  have hpart : (l'.take (i + 1)).Perm (l.take (i + 1)) := by
    rw [← List.take_append_drop (i + 1) l', ← List.take_append_drop (i + 1) l, hdrop,
      List.perm_append_right_iff] at hperm
    exact hperm
  have hmem : l'[i] ∈ l.take (i + 1) := by
    rw [← hpart.mem_iff, List.take_succ_eq_append_getElem hi']
    exact List.mem_append_right _ List.mem_cons_self
  obtain ⟨j, hj, heq⟩ := List.getElem_of_mem hmem
  rw [List.length_take] at hj
  refine ⟨j, by omega, ?_⟩
  rw [List.drop_eq_getElem_cons hi', hdrop, ← heq, List.getElem_take]

/-- From the last element to the first, each draw can be made the right one. -/
theorem exists_shuffleFrom_eq (hperm : l'.Perm l) (hi : i ≤ l.length)
    (hdrop : l'.drop i = l.drop i) :
    ∃ index, shuffleFrom (Draws.ofIndex index) i l = l' := by
  induction i generalizing l with
  | zero =>
    rw [List.drop_zero, List.drop_zero] at hdrop
    exact ⟨fun _ => 0, hdrop.symm⟩
  | succ i ih =>
    obtain ⟨j, hj, hplace⟩ := exists_getElem_eq hperm hi hdrop
    have hswapped : l'.drop i = (swap l i j).drop i := by
      rw [hplace, drop_swap hi hj]
    have hlength : i ≤ (swap l i j).length := by
      rw [(swap_perm l i j).length_eq]
      omega
    obtain ⟨index, hindex⟩ := ih (hperm.trans (swap_perm l i j).symm) hlength hswapped
    refine ⟨Function.update index (i + 1) j, ?_⟩
    have hdraw : (Draws.ofIndex (Function.update index (i + 1) j) (i + 1) : ℕ) = j := by
      rw [Draws.ofIndex, Function.update_self, Fin.val_ofNat, Nat.mod_eq_of_lt (by omega)]
    rw [shuffleFrom, hdraw, ← hindex]
    refine shuffleFrom_congr (fun n hn _ => ?_) _
    rw [Draws.ofIndex, Draws.ofIndex, Function.update_of_ne (by omega)]

theorem exists_shuffle_eq (h : l'.Perm l) :
    ∃ nextInt : Draws, shuffle nextInt l = l' := by
  obtain ⟨index, hindex⟩ := exists_shuffleFrom_eq h (Nat.le_refl _)
    (by rw [List.drop_length, ← h.length_eq, List.drop_length])
  exact ⟨Draws.ofIndex index, hindex⟩

end Shuffle

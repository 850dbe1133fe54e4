/-
Lists of all that has been made, and a pointer to what is alive of it.

Threads, sockets and references are numbered in the order in which they were made,
and a field of their owner, such as `thread_` or `sock_`, holds a number or nothing.

* `Only p xs o` — what has the property `p` is the element that `o` points to, so
  that at most one element has it (`Only.atMostOne`);
* `Points p xs o` — what `o` points to has the property;
* `Only.append`, `Only.lose` — making one, and disposing of it;
* `modify_concat` — an update of the one made last.
-/
import Mathlib.Data.List.Basic

namespace Ownership

/-- What has the property is the element that `o` points to. -/
def Only {α : Type*} (p : α → Bool) (xs : List α) (o : Option ℕ) : Prop :=
  ∀ k, (xs[k]?).any p = true → o = some k

/-- What `o` points to has the property. -/
def Points {α : Type*} (p : α → Bool) (xs : List α) (o : Option ℕ) : Prop :=
  ∀ k, o = some k → (xs[k]?).any p = true

/-- At most one element has the property. -/
def AtMostOne {α : Type*} (p : α → Bool) (xs : List α) : Prop :=
  ∀ j k : ℕ, (xs[j]?).any p = true → (xs[k]?).any p = true → j = k

variable {α : Type*} {p : α → Bool} {xs : List α} {x : α} {f : α → α} {o : Option ℕ} {j k : ℕ}

theorem any_append_singleton : ((xs ++ [x])[k]?).any p = true ↔
    (xs[k]?).any p = true ∨ k = xs.length ∧ p x = true := by
  -- before, at or behind the new element
  rcases Nat.lt_trichotomy k xs.length with hk | rfl | hk
  · rw [List.getElem?_append_left hk]
    exact ⟨.inl, fun h => h.resolve_right fun ⟨heq, _⟩ => absurd heq (Nat.ne_of_lt hk)⟩
  · simp
  · rw [List.getElem?_eq_none (by simp; omega), List.getElem?_eq_none (Nat.le_of_lt hk)]
    simp
    omega

theorem any_modify : ((xs.modify j f)[k]?).any p = true ↔
    (xs[k]?).any (fun x => p (if j = k then f x else x)) = true := by
  rw [List.getElem?_modify]
  cases xs[k]? <;> simp

/-- What has been made last, updated. -/
theorem modify_concat : (xs ++ [x]).modify xs.length f = xs ++ [f x] := by
  induction xs with
  | nil => rfl
  | cons y xs ih =>
    rw [List.cons_append, List.length_cons, List.modify_succ_cons, ih, List.cons_append]

theorem Only.atMostOne (h : Only p xs o) : AtMostOne p xs := fun j k hj hk =>
  Option.some_inj.mp ((h j hj).symm.trans (h k hk))

/-- Where nothing is pointed to, nothing has the property. -/
theorem Only.eq_false (h : Only p xs none) : ∀ x ∈ xs, p x = false := by
  intro x hx
  obtain ⟨k, hk⟩ := List.getElem?_of_mem hx
  -- else `o` would point to it
  by_contra hp
  cases h k (by rw [hk]; simpa using hp)

theorem Only.append (h : Only p xs none) : Only p (xs ++ [x]) (some xs.length) := by
  intro k hk
  rcases any_append_singleton.mp hk with hk | ⟨rfl, -⟩
  · cases h k hk
  · rfl

/-- Making one that does not have the property. -/
theorem Only.append_of_eq_false (h : Only p xs o) (hx : p x = false) : Only p (xs ++ [x]) o := by
  intro k hk
  rcases any_append_singleton.mp hk with hk | ⟨-, hx'⟩
  · exact h k hk
  · simp [hx] at hx'

theorem Points.append_self (hx : p x = true) : Points p (xs ++ [x]) (some xs.length) := by
  rintro k ⟨⟩
  exact any_append_singleton.mpr (.inr ⟨rfl, hx⟩)

theorem only_nil : Only p [] none := fun k hk => by simp at hk

theorem points_none : Points p xs none := fun _ h => by cases h

/-- The element that was pointed to loses the property. -/
theorem Only.lose (h : Only p xs (some j)) (hf : ∀ x, p (f x) = false) :
    Only p (xs.modify j f) none := by
  intro k hk
  rw [any_modify] at hk
  -- at `j` the property is lost, and elsewhere nothing had it
  by_cases hjk : j = k
  · simp [hjk, hf] at hk
  · simp only [if_neg hjk] at hk
    exact absurd (Option.some_inj.mp (h k hk)) hjk

/-- A change that gives nothing the property. -/
theorem Only.modify (h : Only p xs o) (hf : ∀ x, p (f x) = true → p x = true) :
    Only p (xs.modify j f) o := by
  intro k hk
  rw [any_modify] at hk
  refine h k ?_
  cases hx : xs[k]? with
  | none => simp [hx] at hk
  | some x =>
    rw [hx, Option.any_some] at hk
    split at hk
    · exact hf x hk
    · exact hk

theorem Points.modify (h : Points p xs o) (hf : ∀ x, p x = true → p (f x) = true) :
    Points p (xs.modify j f) o := by
  intro k hk
  rw [any_modify]
  have hx := h k hk
  cases hx' : xs[k]? with
  | none => simp [hx'] at hx
  | some x =>
    rw [hx', Option.any_some] at hx
    rw [Option.any_some]
    split
    · exact hf x hx
    · exact hx

theorem Only.modify_self (h : Only p xs (some j)) : Only p (xs.modify j f) (some j) := by
  intro k hk
  rw [any_modify] at hk
  by_cases hjk : j = k
  · exact congrArg some hjk
  · simp only [if_neg hjk] at hk
    exact h k hk

/-- What is pointed to gains the property. -/
theorem Points.gain {q : α → Bool} (h : Points q xs (some j)) (hf : ∀ x, p (f x) = true) :
    Points p (xs.modify j f) (some j) := by
  rintro k ⟨⟩
  rw [any_modify]
  have hx := h j rfl
  cases hx' : xs[j]? with
  | none => simp [hx'] at hx
  | some x => simp [hf]

end Ownership

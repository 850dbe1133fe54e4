/-
Queues that carry the data of several streams and switches between them.

A message may select a stream (`switch`), or belong to one (`tag`).  Whoever
takes the messages one by one keeps the stream that was selected last.

* `current` — the stream selected after a queue has been taken;
* `InOrder` — each message that belongs to a stream will be taken while that
  stream is selected;
* `inOrder_append_data` — behind a queue in order, data is in order exactly if
  all of it belongs to the stream that the queue leaves selected;
* `InOrder.sublist_data` — losing data never breaks the order, only losing a
  switch can.
-/
import Mathlib.Data.List.Basic

namespace Demux

variable {α κ : Type*}

/-- The stream that is selected after the queue. -/
def current (switch : α → Option κ) : Option κ → List α → Option κ
  | k, [] => k
  | k, x :: xs => current switch ((switch x).or k) xs

/-- Starting with the stream `k` selected, each message of the queue that belongs
to a stream is taken while that stream is selected. -/
def InOrder (switch tag : α → Option κ) : Option κ → List α → Prop
  | _, [] => True
  | k, x :: xs => (∀ j, tag x = some j → k = some j) ∧ InOrder switch tag ((switch x).or k) xs

instance decidableInOrder [DecidableEq κ] (switch tag : α → Option κ) :
    ∀ (k : Option κ) (xs : List α), Decidable (InOrder switch tag k xs)
  | _, [] => inferInstanceAs (Decidable True)
  | k, x :: xs =>
      have := decidableInOrder switch tag ((switch x).or k) xs
      inferInstanceAs (Decidable ((∀ j ∈ tag x, k = some j) ∧ _))

variable {switch tag : α → Option κ} {k : Option κ} {xs ys : List α} {x : α}

@[simp] theorem current_nil : current switch k [] = k := rfl

@[simp] theorem inOrder_nil : InOrder switch tag k [] := trivial

theorem inOrder_cons : InOrder switch tag k (x :: xs) ↔
    (∀ j, tag x = some j → k = some j) ∧ InOrder switch tag ((switch x).or k) xs := Iff.rfl

theorem current_append :
    current switch k (xs ++ ys) = current switch (current switch k xs) ys := by
  induction xs generalizing k with
  | nil => rfl
  | cons x xs ih => exact ih

theorem inOrder_append : InOrder switch tag k (xs ++ ys) ↔
    InOrder switch tag k xs ∧ InOrder switch tag (current switch k xs) ys := by
  induction xs generalizing k with
  | nil => simp
  | cons x xs ih =>
    rw [List.cons_append, inOrder_cons, inOrder_cons, ih, and_assoc]
    rfl

/-- Data selects nothing. -/
theorem current_data (h : ∀ x ∈ xs, switch x = none) : current switch k xs = k := by
  induction xs with
  | nil => rfl
  | cons x xs ih =>
    rw [List.forall_mem_cons] at h
    rw [current, h.1, Option.none_or]
    exact ih h.2

/-- Data is in order if all of it belongs to the selected stream. -/
theorem inOrder_data (h : ∀ x ∈ xs, switch x = none) :
    InOrder switch tag k xs ↔ ∀ x ∈ xs, ∀ j, tag x = some j → k = some j := by
  induction xs with
  | nil => simp
  | cons x xs ih =>
    rw [List.forall_mem_cons] at h
    rw [inOrder_cons, h.1, Option.none_or, ih h.2, List.forall_mem_cons]

theorem inOrder_append_data (h : ∀ y ∈ ys, switch y = none) :
    InOrder switch tag k (xs ++ ys) ↔ InOrder switch tag k xs ∧
      ∀ y ∈ ys, ∀ j, tag y = some j → current switch k xs = some j := by
  rw [inOrder_append, inOrder_data h]

/-- What is left of data stays in order. -/
theorem InOrder.sublist_data {ys' : List α} (h : ∀ y ∈ ys, switch y = none) (hsub : ys'.Sublist ys)
    (hI : InOrder switch tag k (xs ++ ys)) : InOrder switch tag k (xs ++ ys') := by
  have h' : ∀ y ∈ ys', switch y = none := fun y hy => h y (hsub.subset hy)
  rw [inOrder_append_data h] at hI
  rw [inOrder_append_data h']
  exact ⟨hI.1, fun y hy => hI.2 y (hsub.subset hy)⟩

end Demux

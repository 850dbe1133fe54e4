/-
The backlog of a sequence of arrivals and services.

An arrival adds one to the backlog, and a service takes one off when there is
one to take; everything else leaves it as it is.

* `backlog_append_singleton` — the backlog after one more element;
* `le_backlog_iff` — the backlog is the largest surplus of arrivals over
  services at the end of the sequence.
-/
import Mathlib.Data.List.Basic
import Mathlib.Data.List.Infix

namespace Backlog

/-- What an element of a sequence does to the backlog. -/
inductive Effect where
  | arrival
  | service
  | neither
  deriving DecidableEq, Repr

/-- The backlog after an element. -/
def Effect.apply (n : ℕ) : Effect → ℕ
  | arrival => n + 1
  | service => n - 1
  | neither => n

variable {α : Type*} (effect : α → Effect)

def backlog (as : List α) : ℕ := as.foldl (fun n a => (effect a).apply n) 0

def arrivals (as : List α) : ℕ := as.countP fun a => effect a = .arrival

def services (as : List α) : ℕ := as.countP fun a => effect a = .service

@[simp] theorem backlog_append_singleton (as : List α) (a : α) :
    backlog effect (as ++ [a]) = (effect a).apply (backlog effect as) := by
  rw [backlog, List.foldl_append]
  rfl

theorem arrivals_append_singleton (as : List α) (a : α) :
    arrivals effect (as ++ [a]) = arrivals effect as + if effect a = .arrival then 1 else 0 := by
  simp [arrivals, List.countP_append, List.countP_singleton]

theorem services_append_singleton (as : List α) (a : α) :
    services effect (as ++ [a]) = services effect as + if effect a = .service then 1 else 0 := by
  simp [services, List.countP_append, List.countP_singleton]

/-- **The backlog is the largest surplus at the end.**  It has reached `k`
exactly if some suffix has at least `k` more arrivals than services. -/
theorem le_backlog_iff (k : ℕ) (as : List α) :
    k ≤ backlog effect as ↔ ∃ s, s <:+ as ∧ services effect s + k ≤ arrivals effect s := by
  induction as using List.reverseRecOn generalizing k with
  | nil =>
    constructor
    · intro hk
      exact ⟨[], List.suffix_rfl, by rw [Nat.le_zero.mp hk]; rfl⟩
    · rintro ⟨s, hs, hle⟩
      rw [List.suffix_nil.mp hs] at hle
      exact (Nat.zero_add k).symm.trans_le hle
  | append_singleton as a ih =>
    -- a suffix is empty, or ends in `a`
    have hsplit : (∃ s, s <:+ as ++ [a] ∧ services effect s + k ≤ arrivals effect s) ↔
        k = 0 ∨ ∃ s, s <:+ as ∧ services effect (s ++ [a]) + k ≤ arrivals effect (s ++ [a]) := by
      constructor
      · rintro ⟨s, hs, hle⟩
        rcases List.suffix_concat_iff.mp hs with rfl | ⟨t, rfl, ht⟩
        · exact Or.inl (Nat.le_zero.mp ((Nat.zero_add k).symm.trans_le hle))
        · exact Or.inr ⟨t, ht, hle⟩
      · rintro (rfl | ⟨s, hs, hle⟩)
        · exact ⟨[], List.nil_suffix, Nat.le_refl _⟩
        · exact ⟨s ++ [a], List.suffix_append_inj_of_length_eq rfl |>.mpr ⟨hs, rfl⟩, hle⟩
    rw [hsplit, backlog_append_singleton]
    simp only [services_append_singleton, arrivals_append_singleton]
    cases effect a with
    | arrival =>
      rcases k with _ | k
      · exact iff_of_true (Nat.zero_le _) (Or.inl rfl)
      · have hle : ∀ n m : ℕ, n + 0 + (k + 1) ≤ m + 1 ↔ n + k ≤ m := by omega
        simp only [Effect.apply, reduceCtorEq, if_false, if_true, hle, ← ih, false_or,
          Nat.add_le_add_iff_right]
    | service =>
      have hle : ∀ n m : ℕ, n + 1 + k ≤ m + 0 ↔ n + (k + 1) ≤ m := by omega
      simp only [Effect.apply, reduceCtorEq, if_false, if_true, hle, ← ih]
      omega
    | neither =>
      simp only [Effect.apply, reduceCtorEq, if_false, Nat.add_zero, ← ih]
      omega

end Backlog

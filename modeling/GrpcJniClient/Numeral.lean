/-
Numbers written with a fixed number of digits.

The lowest digits of a number, the most significant first, with a sign `enc d` for
each digit `d`; what a number has beyond them is dropped.

* `value_write` — reading the digits gives the number back, up to what was dropped,
  as soon as `dec` reads each sign;
* `length_write`, `exists_of_mem_write` — how long the text is, and what is in it.
-/
import Mathlib.Algebra.Group.Nat.Defs
import Mathlib.Data.List.Basic

namespace Numeral

variable {α β : Type*} {b : ℕ} {enc : ℕ → α} {dec : α → Option ℕ}

/-- The number `v` with `w` digits. -/
def write (b : ℕ) (enc : ℕ → α) : ℕ → ℕ → List α
  | 0, _ => []
  | w + 1, v => write b enc w (v / b) ++ [enc (v % b)]

/-- The value of a row of digits; `none` if one of them is no digit. -/
def value (b : ℕ) (dec : α → Option ℕ) (cs : List α) : Option ℕ :=
  cs.foldlM (fun acc c => (dec c).map (acc * b + ·)) 0

theorem map_write (f : α → β) (b : ℕ) (enc : ℕ → α) (w v : ℕ) :
    (write b enc w v).map f = write b (f ∘ enc) w v := by
  induction w generalizing v with
  | zero => rfl
  | succ w ih =>
    rw [write, write, List.map_append, ih]
    rfl

@[simp] theorem length_write (b : ℕ) (enc : ℕ → α) (w v : ℕ) : (write b enc w v).length = w := by
  induction w generalizing v with
  | zero => rfl
  | succ w ih => rw [write, List.length_append, ih, List.length_singleton]

theorem exists_of_mem_write (hb : 0 < b) {w v : ℕ} {c : α} (hc : c ∈ write b enc w v) :
    ∃ d < b, enc d = c := by
  induction w generalizing v with
  | zero => cases hc
  | succ w ih =>
    rw [write, List.mem_append, List.mem_singleton] at hc
    rcases hc with hc | rfl
    · exact ih hc
    · exact ⟨v % b, Nat.mod_lt v hb, rfl⟩

theorem value_write (hb : 0 < b) (hdec : ∀ d < b, dec (enc d) = some d) (w v : ℕ) :
    value b dec (write b enc w v) = some (v % b ^ w) := by
  induction w generalizing v with
  | zero =>
    rw [Nat.pow_zero, Nat.mod_one]
    rfl
  | succ w ih =>
    have hvalue := ih (v / b)
    have hlast := hdec (v % b) (Nat.mod_lt v hb)
    rw [value] at hvalue
    rw [value, write, List.foldlM_append, hvalue, Nat.pow_succ', Nat.mod_mul, Nat.add_comm,
      Nat.mul_comm]
    simp [hlast]

end Numeral

/-
Lookups by a key in normal form.

`select f key l k` is the first element of a list whose key has the normal form
`k`.  Only the keys of the elements are normalized, not `k` itself.

* `select_eq_some_iff`, `select_eq_none_iff` — what is found: the first element
  whose key is equal to `k` up to normalization, but only for a `k` in normal form;
* `select_eq_select_iff` — so two keys that are equal up to normalization find the
  same exactly if both or neither are in normal form, or there is nothing to find.
-/
import Mathlib.Data.List.Basic

namespace NormalLookup

variable {α κ : Type*} [DecidableEq κ]

/-- The first element whose key has the normal form `k`. -/
def select (f : κ → κ) (key : α → κ) (l : List α) (k : κ) : Option α :=
  l.find? fun x => f (key x) == k

/-- The element is the first one in the list with its key, up to normalization. -/
def Foremost (f : κ → κ) (key : α → κ) (l : List α) (x : α) : Prop :=
  ∃ before after, l = before ++ x :: after ∧ ∀ y ∈ before, f (key y) ≠ f (key x)

variable {f : κ → κ} {key : α → κ} {l : List α} {k k' : κ} {x : α}

/-- What is found has the key, which is then in normal form. -/
theorem of_select_eq_some (hf : ∀ k, f (f k) = f k) (h : select f key l k = some x) :
    x ∈ l ∧ f (key x) = k ∧ f k = k := by
  have hkey := List.find?_some h
  rw [beq_iff_eq] at hkey
  refine ⟨List.mem_of_find?_eq_some h, hkey, ?_⟩
  rw [← hkey, hf]

theorem select_eq_some_iff (hf : ∀ k, f (f k) = f k) :
    select f key l k = some x ↔ f (key x) = f k ∧ f k = k ∧ Foremost f key l x := by
  constructor
  · intro h
    obtain ⟨-, hkey, hk⟩ := of_select_eq_some hf h
    obtain ⟨-, before, after, hl, hbefore⟩ := List.find?_eq_some_iff_append.mp h
    refine ⟨hkey.trans hk.symm, hk, before, after, hl, fun y hy heq => ?_⟩
    have hne := hbefore y hy
    rw [heq, hkey, beq_self_eq_true] at hne
    cases hne
  · rintro ⟨hkey, hk, before, after, rfl, hbefore⟩
    rw [hk] at hkey
    refine List.find?_eq_some_iff_append.mpr
      ⟨beq_iff_eq.mpr hkey, before, after, rfl, fun y hy => ?_⟩
    rw [Bool.not_eq_true', beq_eq_false_iff_ne, ← hkey]
    exact hbefore y hy

theorem select_eq_none_iff (hf : ∀ k, f (f k) = f k) :
    select f key l k = none ↔ (f k = k → ∀ x ∈ l, f (key x) ≠ f k) := by
  rw [select, List.find?_eq_none]
  constructor
  · intro h hk x hx heq
    exact h x hx (beq_iff_eq.mpr (heq.trans hk))
  · intro h x hx heq
    rw [beq_iff_eq] at heq
    have hk : f k = k := by
      rw [← heq, hf]
    exact h hk x hx (heq.trans hk.symm)

/-- **Normalizing one side is not enough.**  Keys that are equal up to normalization
find the same exactly if both or neither are in normal form, or no element has a
key equal to them. -/
theorem select_eq_select_iff (hf : ∀ k, f (f k) = f k) (hkk : f k = f k') :
    select f key l k = select f key l k' ↔
      (f k = k ↔ f k' = k') ∨ ∀ x ∈ l, f (key x) ≠ f k := by
  constructor
  · intro h
    rcases hk : select f key l k with _ | x
    · have hk' := h.symm.trans hk
      rw [select_eq_none_iff hf] at hk hk'
      rw [← hkk] at hk'
      by_cases hnone : ∀ x ∈ l, f (key x) ≠ f k
      · exact .inr hnone
      · exact .inl ⟨fun hn => absurd (hk hn) hnone, fun hn => absurd (hk' (hkk.trans hn)) hnone⟩
    · have hk' := h.symm.trans hk
      exact .inl ⟨fun _ => (of_select_eq_some hf hk').2.2, fun _ => (of_select_eq_some hf hk).2.2⟩
  · rintro (hnormal | hnone)
    · by_cases hk : f k = k
      · -- both are the normal form
        rw [← hk, hkk, hnormal.mp hk]
      · rw [(select_eq_none_iff hf).mpr fun h => absurd h hk,
          (select_eq_none_iff hf).mpr fun h => absurd (hnormal.mpr h) hk]
    · rw [(select_eq_none_iff hf).mpr fun _ => hnone,
        (select_eq_none_iff hf).mpr fun _ => hkk ▸ hnone]

end NormalLookup

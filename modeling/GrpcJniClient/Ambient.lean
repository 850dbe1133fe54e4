/-
Components in surroundings that change on their own.

What becomes of an output may depend on something outside the component, which changes
without its doing.  `step` lets the component take its own steps and the surroundings
change in between, and records each output with the surroundings in which it was made.

* `exec_inner` — between the changes the component runs as it does alone;
* `record_of_step` — a step records what it adds to the outputs;
* `map_snd_record` — so the record holds exactly the outputs, in their order;
* `sublist_filterMap`, `filterMap_eq_iff` — what is read of the outputs is part of what
  there is to read, and all of it exactly if no output is missed.
-/
import GrpcJniClient.Run
import Mathlib.Data.List.Basic

namespace Ambient

variable {σ α β γ ε : Type*}

/-- A component, the surroundings, and the outputs with the surroundings of each. -/
structure System (σ ε β : Type*) where
  inner : σ
  env : ε
  record : List (ε × β)

inductive Move (α ε : Type*) where
  /-- The component takes a step. -/
  | inner (m : α)
  /-- The surroundings change. -/
  | change (env : ε)

/-- The step of the component, if it is one. -/
def Move.inner? : Move α ε → Option α
  | inner m => some m
  | change _ => none

/-- A step of the component for each of `f`. -/
def Move.moves {α' : Type*} (f : α → List α') : Move α ε → List (Move α' ε)
  | inner m => (f m).map .inner
  | change env => [.change env]

/-- One step; `out` are the outputs of the component so far. -/
def step (step : σ → α → Option σ) (out : σ → List β) (s : System σ ε β) :
    Move α ε → Option (System σ ε β)
  | .inner m => (step s.inner m).map fun t =>
      ⟨t, s.env, s.record ++ ((out t).drop (out s.inner).length).map (s.env, ·)⟩
  | .change env => some { s with env := env }

variable {step : σ → α → Option σ} {out : σ → List β} {s t : System σ ε β} {m : α}
  {ls : List (Move α ε)}

/-- The component runs as it does alone. -/
theorem exec_inner (h : Run.exec (Ambient.step step out) s ls = some t) :
    Run.exec step s.inner (ls.filterMap Move.inner?) = some t.inner := by
  induction ls generalizing s with
  | nil =>
    obtain rfl := Option.some_inj.mp h
    rfl
  | cons l ls ih =>
    rw [Run.exec_cons, Option.bind_eq_some_iff] at h
    obtain ⟨u, hu, h⟩ := h
    cases l with
    | inner m =>
      obtain ⟨v, hv, rfl⟩ := Option.map_eq_some_iff.mp hu
      show Run.exec step s.inner (m :: ls.filterMap Move.inner?) = _
      rw [Run.exec_cons, hv]
      exact ih h
    | change env =>
      -- the component does not see it
      obtain rfl := Option.some_inj.mp hu
      exact ih (s := { s with env := env }) h

/-- What a step adds to the outputs is recorded with the surroundings at the time. -/
theorem record_of_step {new : List β} (h : Ambient.step step out s (.inner m) = some t)
    (hout : out t.inner = out s.inner ++ new) : t.record = s.record ++ new.map (s.env, ·) := by
  obtain ⟨u, -, rfl⟩ := Option.map_eq_some_iff.mp h
  rw [show out u = out s.inner ++ new from hout, List.drop_left]

/-- The record holds the outputs. -/
theorem map_snd_record (hgrows : ∀ s m t, step s m = some t → out s <+: out t)
    (hs : s.record.map Prod.snd = out s.inner)
    (h : Run.exec (Ambient.step step out) s ls = some t) :
    t.record.map Prod.snd = out t.inner := by
  refine Run.exec_invariant (C := fun _ _ => True)
    (I := fun s : System σ ε β => s.record.map Prod.snd = out s.inner) ?_ hs
    (Run.along_true _ _) h
  intro s l t hs _ hst
  cases l with
  | inner m =>
    obtain ⟨u, hu, rfl⟩ := Option.map_eq_some_iff.mp hst
    obtain ⟨new, hnew⟩ := hgrows _ _ _ hu
    rw [← hnew, List.drop_left, List.map_append, hs, List.map_map]
    exact congrArg (out s.inner ++ ·) (List.map_id _)
  | change env =>
    obtain rfl := Option.some_inj.mp hst
    exact hs

theorem filterMap_inner?_flatMap_moves {α' : Type*} (f : α → List α') (ls : List (Move α ε)) :
    (ls.flatMap (Move.moves f)).filterMap Move.inner? = (ls.filterMap Move.inner?).flatMap f := by
  induction ls with
  | nil => rfl
  | cons l ls ih =>
    rw [List.flatMap_cons, List.filterMap_append, ih]
    cases l with
    | inner m =>
      have hinner : ((f m).map Move.inner).filterMap (Move.inner? (ε := ε)) = f m := by
        rw [List.filterMap_map]
        exact List.filterMap_some
      show ((f m).map Move.inner).filterMap Move.inner? ++ _ = _
      rw [hinner]
      rfl
    | change env => rfl

theorem sublist_filterMap {f g : β → Option γ} {l : List β}
    (h : ∀ x ∈ l, f x = none ∨ f x = g x) : (l.filterMap f).Sublist (l.filterMap g) := by
  induction l with
  | nil => exact List.Sublist.refl _
  | cons x xs ih =>
    rw [List.forall_mem_cons] at h
    rw [List.filterMap_cons, List.filterMap_cons]
    rcases h.1 with hx | hx
    · rw [hx]
      cases g x with
      | none => exact ih h.2
      | some b => exact (ih h.2).cons b
    · rw [hx]
      cases g x with
      | none => exact ih h.2
      | some b => exact (ih h.2).cons_cons b

/-- Where nothing is read that is not there, all is read exactly if each thing is. -/
theorem filterMap_eq_iff {f g : β → Option γ} {l : List β}
    (h : ∀ x ∈ l, f x = none ∨ f x = g x) :
    l.filterMap f = l.filterMap g ↔ ∀ x ∈ l, f x = g x := by
  refine ⟨fun heq => ?_, List.filterMap_congr⟩
  induction l with
  | nil => exact fun x hx => absurd hx List.not_mem_nil
  | cons x xs ih =>
    rw [List.forall_mem_cons] at h ⊢
    have hx : f x = g x := by
      rcases h.1 with hnone | hx
      · cases hg : g x with
        | none => exact hnone
        | some b =>
          -- what is missed here makes the whole shorter
          have hlen := congrArg List.length heq
          rw [List.filterMap_cons_none hnone, List.filterMap_cons_some hg, List.length_cons] at hlen
          have hle := (sublist_filterMap h.2).length_le
          omega
      · exact hx
    rw [List.filterMap_cons, List.filterMap_cons, hx] at heq
    refine ⟨hx, ih h.2 ?_⟩
    cases hg : g x with
    | none => simpa only [hg] using heq
    | some b => exact (List.cons.inj (by simpa only [hg] using heq)).2

end Ambient

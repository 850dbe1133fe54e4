/-
Loops of a deterministic program.

`next s` is the state after one more iteration; it is `none` where the loop is
left, by its condition or by a `break`.

* `Runs next s visited t` — from `s` the loop does an iteration in each of the
  states `visited` and is left in `t`;
* `exec` runs a loop with a limit on its iterations, `runs_iff_exec`;
* `emit` collects what its body does, `Runs.emit`;
* `exists_runs_of_measure` — a loop whose iterations decrease a number ends;
* `not_ends` — one that can always go on does not;
* `Runs.map` — a loop that simulates another one does the same iterations.
-/
import Mathlib.Data.List.Basic

namespace Loop

variable {σ τ : Type*} {next : σ → Option σ}

/-- From a state, the states in which an iteration is done, and the last one. -/
inductive Runs (next : σ → Option σ) : σ → List σ → σ → Prop
  | leave {s : σ} : next s = none → Runs next s [] s
  | iterate {s s' t : σ} {visited : List σ} : next s = some s' → Runs next s' visited t →
      Runs next s (s :: visited) t

/-- The loop is left after finitely many iterations. -/
def Ends (next : σ → Option σ) (s : σ) : Prop := ∃ visited t, Runs next s visited t

/-- At most `fuel` iterations; `none` if these do not end the loop. -/
def exec (next : σ → Option σ) : ℕ → σ → Option (List σ × σ)
  | 0, s => if (next s).isNone then some ([], s) else none
  | fuel + 1, s =>
    match next s with
    | none => some ([], s)
    | some s' => (exec next fuel s').map fun (visited, t) => (s :: visited, t)

/-- A loop whose body gives a list of events; what the body does comes before
the step to the next state. -/
def emit {ε : Type*} (next : σ → Option σ) (body : σ → Option (List ε)) :
    ℕ → σ → Option (List ε)
  | 0, s => if (next s).isNone then some [] else none
  | fuel + 1, s =>
    match next s with
    | none => some []
    | some s' => do
      let events ← body s
      let rest ← emit next body fuel s'
      return events ++ rest

variable {s s' t t' : σ} {visited visited' : List σ}

theorem Runs.exec (h : Runs next s visited t) {fuel : ℕ} (hfuel : visited.length ≤ fuel) :
    exec next fuel s = some (visited, t) := by
  induction h generalizing fuel with
  | leave hnone =>
    cases fuel with
    | zero => simp [Loop.exec, hnone]
    | succ fuel => simp [Loop.exec, hnone]
  | iterate hsome _ ih =>
    cases fuel with
    | zero => simp at hfuel
    | succ fuel =>
      rw [List.length_cons, Nat.add_le_add_iff_right] at hfuel
      simp [Loop.exec, hsome, ih hfuel]

theorem runs_of_exec {fuel : ℕ} (h : exec next fuel s = some (visited, t)) :
    Runs next s visited t := by
  induction fuel generalizing s visited with
  | zero =>
    rw [exec, Option.ite_none_right_eq_some, Option.isNone_iff_eq_none, Option.some_inj] at h
    obtain ⟨hnone, heq⟩ := h
    obtain ⟨rfl, rfl⟩ := Prod.mk.inj heq
    exact .leave hnone
  | succ fuel ih =>
    rw [exec] at h
    split at h
    · rename_i hnone
      obtain ⟨rfl, rfl⟩ := Prod.mk.inj (Option.some_inj.mp h)
      exact .leave hnone
    · rename_i s' hsome
      obtain ⟨⟨rest, u⟩, hrest, heq⟩ := Option.map_eq_some_iff.mp h
      obtain ⟨rfl, rfl⟩ := Prod.mk.inj heq
      exact .iterate hsome (ih hrest)

theorem runs_iff_exec : Runs next s visited t ↔ ∃ fuel, exec next fuel s = some (visited, t) :=
  ⟨fun h => ⟨_, h.exec (Nat.le_refl _)⟩, fun ⟨_, h⟩ => runs_of_exec h⟩

/-- The events of a loop are those of its iterations. -/
theorem Runs.emit {ε : Type*} {body : σ → Option (List ε)} {events : σ → List ε}
    (h : Runs next s visited t) (hbody : ∀ u ∈ visited, body u = some (events u)) {fuel : ℕ}
    (hfuel : visited.length ≤ fuel) :
    emit next body fuel s = some (visited.flatMap events) := by
  induction h generalizing fuel with
  | leave hnone =>
    cases fuel with
    | zero => simp [Loop.emit, hnone]
    | succ fuel => simp [Loop.emit, hnone]
  | iterate hsome _ ih =>
    cases fuel with
    | zero => simp at hfuel
    | succ fuel =>
      rw [List.length_cons, Nat.add_le_add_iff_right] at hfuel
      have hrest := ih (fun u hu => hbody u (List.mem_cons_of_mem _ hu)) hfuel
      simp [Loop.emit, hsome, hbody _ List.mem_cons_self, hrest]

/-- A loop runs in one way only. -/
theorem Runs.unique (h : Runs next s visited t) (h' : Runs next s visited' t') :
    visited = visited' ∧ t = t' := by
  have hle := Nat.le_max_left visited.length visited'.length
  have hle' := Nat.le_max_right visited.length visited'.length
  exact Prod.mk.inj (Option.some_inj.mp ((h.exec hle).symm.trans (h'.exec hle')))

/-- What an iteration keeps holds in every state that the loop visits. -/
theorem Runs.invariant {I : σ → Prop} (keep : ∀ s s', I s → next s = some s' → I s')
    (h : Runs next s visited t) (hs : I s) :
    (∀ u ∈ visited, I u ∧ (next u).isSome = true) ∧ I t ∧ next t = none := by
  induction h with
  | leave hnone => exact ⟨fun u hu => absurd hu List.not_mem_nil, hs, hnone⟩
  | iterate hsome _ ih =>
    obtain ⟨hvisited, ht⟩ := ih (keep _ _ hs hsome)
    refine ⟨fun u hu => ?_, ht⟩
    rcases List.mem_cons.mp hu with rfl | hu
    · exact ⟨hs, by rw [hsome]; rfl⟩
    · exact hvisited u hu

/-- A loop whose iterations decrease `μ` ends, after at most `μ` of them. -/
theorem exists_runs_of_measure (μ : σ → ℕ) (hμ : ∀ s s', next s = some s' → μ s' < μ s) (s : σ) :
    ∃ visited t, Runs next s visited t ∧ visited.length ≤ μ s := by
  -- on the bound: the rest of the loop starts below it
  induction hn : μ s using Nat.strongRecOn generalizing s with
  | ind n ih =>
    rcases hs : next s with _ | s'
    · exact ⟨[], s, .leave hs, Nat.zero_le _⟩
    · have hlt : μ s' < n := hn ▸ hμ s s' hs
      obtain ⟨visited, t, hruns, hlen⟩ := ih (μ s') hlt s' rfl
      refine ⟨s :: visited, t, .iterate hs hruns, ?_⟩
      rw [List.length_cons]
      omega

/-- A loop that can go on in every state it gets to does not end. -/
theorem not_ends {I : σ → Prop} (goes : ∀ s, I s → ∃ s', next s = some s' ∧ I s') (hs : I s) :
    ¬ Ends next s := by
  rintro ⟨visited, t, h⟩
  induction h with
  | leave hnone =>
    obtain ⟨s', hs', -⟩ := goes _ hs
    rw [hnone] at hs'
    cases hs'
  | iterate hsome _ ih =>
    obtain ⟨s', hs', hI⟩ := goes _ hs
    rw [Option.some_inj.mp (hsome.symm.trans hs')] at ih
    exact ih hI

/-- A loop that takes the same steps on the images of the states. -/
theorem Runs.map {next' : τ → Option τ} (f : σ → τ) (hf : ∀ s, next' (f s) = (next s).map f)
    (h : Runs next s visited t) : Runs next' (f s) (visited.map f) (f t) := by
  induction h with
  | leave hnone => exact .leave (by rw [hf, hnone]; rfl)
  | iterate hsome _ ih => exact .iterate (by rw [hf, hsome]; rfl) ih

end Loop

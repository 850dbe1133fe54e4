/-
Runs of a labelled step function.

A component is a partial step function `step : σ → α → Option σ`; a label
names everything that is free in a step (which thread moves, how a call ends),
so that a list of labels is a run.

* `exec step s ls` is the state at the end of the run;
* `Reached step s ls t` says that the run passes through `t`;
* `Along step C s ls` says that every step of the run is taken in a state that
  meets `C`;
* `Reached.invariant` is the induction of every safety proof: what one step
  preserves under `C`, a run keeps whose steps all meet `C`;
* `exec_history` is the induction for what a run does step by step: a relation
  between the labels so far and the state;
* `forall_reached_iff_along` sharpens it to an equivalence when a step outside
  `C` breaks the property at once;
* `exec_iff_along` does so for the end of a run, when what a step outside `C`
  breaks stays broken, and `exec_iff_brought_about` says which step has brought about
  what no step undoes;
* `Strays step C B s ls` says that right after its first step outside `C` the run can
  be continued into `B`; `strays_of_not_along` and `exists_exec_of_measure` find such a
  continuation, and `forall_reached_and_strays` is the exact rule where there is one;
* `Inevitably step internal P s` says that from `s` the component gets to `P` by
  its own steps, in whatever order it takes them, and `inevitably_of_measure`
  derives it from a measure.
-/
import Mathlib.Data.List.Induction

namespace Run

variable {σ α : Type*} {step : σ → α → Option σ}

/-- The state at the end of the run `ls` from `s`; `none` when one of the labels
is not enabled in its turn. -/
def exec (step : σ → α → Option σ) (s : σ) (ls : List α) : Option σ :=
  ls.foldlM step s

@[simp] theorem exec_nil (s : σ) : exec step s [] = some s := rfl

@[simp] theorem exec_cons (s : σ) (l : α) (ls : List α) :
    exec step s (l :: ls) = (step s l).bind fun t => exec step t ls := rfl

/-- The run `ls` from `s` passes through `t` (its ends included). -/
def Reached (step : σ → α → Option σ) : σ → List α → σ → Prop
  | s, [], t => t = s
  | s, l :: ls, t => t = s ∨ ∃ u, step s l = some u ∧ Reached step u ls t

/-- Every step of the run `ls` from `s` is taken in a state that meets `C`. -/
def Along (step : σ → α → Option σ) (C : σ → α → Prop) : σ → List α → Prop
  | _, [] => True
  | s, l :: ls => C s l ∧ ∀ t, step s l = some t → Along step C t ls

theorem along_cons {C : σ → α → Prop} (s : σ) (l : α) (ls : List α) :
    Along step C s (l :: ls) ↔ C s l ∧ ∀ t, step s l = some t → Along step C t ls :=
  Iff.rfl

/-- A run can be checked step by step, if `C` can. -/
instance decidableAlong {C : σ → α → Prop} [∀ s l, Decidable (C s l)] :
    ∀ (s : σ) (ls : List α), Decidable (Along step C s ls)
  | _, [] => inferInstanceAs (Decidable True)
  | s, l :: ls =>
      have : DecidablePred fun t => Along step C t ls := fun t => decidableAlong t ls
      inferInstanceAs (Decidable (C s l ∧ ∀ t ∈ step s l, Along step C t ls))

/-- Labels that meet `C` in every state. -/
theorem along_of_forall {C : σ → α → Prop} {ls : List α} (h : ∀ l ∈ ls, ∀ s, C s l) (s : σ) :
    Along step C s ls := by
  induction ls generalizing s with
  | nil => trivial
  | cons l ls ih =>
    rw [List.forall_mem_cons] at h
    exact ⟨h.1 s, fun t _ => ih h.2 t⟩

theorem along_true (s : σ) (ls : List α) : Along step (fun _ _ => True) s ls :=
  along_of_forall (fun _ _ _ => trivial) s

theorem along_append {C : σ → α → Prop} (s : σ) (ls ls' : List α) :
    Along step C s (ls ++ ls') ↔
      Along step C s ls ∧ ∀ t, exec step s ls = some t → Along step C t ls' := by
  induction ls generalizing s with
  | nil =>
    rw [List.nil_append]
    exact ⟨fun h => ⟨trivial, fun t ht => Option.some_inj.mp ht ▸ h⟩, fun h => h.2 s rfl⟩
  | cons l ls ih =>
    rw [List.cons_append, along_cons, along_cons, and_assoc]
    refine and_congr_right fun _ => ?_
    constructor
    · intro h
      refine ⟨fun t ht => ((ih t).mp (h t ht)).1, fun u hu => ?_⟩
      rw [exec_cons, Option.bind_eq_some_iff] at hu
      obtain ⟨t, ht, hu⟩ := hu
      exact ((ih t).mp (h t ht)).2 u hu
    · rintro ⟨hl, hls'⟩ t ht
      refine (ih t).mpr ⟨hl t ht, fun u hu => hls' u ?_⟩
      rw [exec_cons, ht]
      exact hu

theorem Along.and {C D : σ → α → Prop} {s : σ} {ls : List α} (hC : Along step C s ls)
    (hD : Along step D s ls) : Along step (fun s l => C s l ∧ D s l) s ls := by
  induction ls generalizing s with
  | nil => trivial
  | cons l ls ih => exact ⟨⟨hC.1, hD.1⟩, fun t ht => ih (hC.2 t ht) (hD.2 t ht)⟩

theorem reached_self (s : σ) (ls : List α) : Reached step s ls s := by
  cases ls with
  | nil => rfl
  | cons l ls => exact Or.inl rfl

/-- The end of a run is one of the states it passes through. -/
theorem reached_of_exec {s t : σ} {ls : List α} (h : exec step s ls = some t) :
    Reached step s ls t := by
  induction ls generalizing s with
  | nil =>
    rw [exec_nil, Option.some_inj] at h
    exact h.symm
  | cons l ls ih =>
    rw [exec_cons, Option.bind_eq_some_iff] at h
    obtain ⟨u, hu, ht⟩ := h
    exact Or.inr ⟨u, hu, ih ht⟩

/-- **The invariant rule.** What a step preserves under `C` holds in every state
that a run passes through whose steps all meet `C`. -/
theorem Reached.invariant {I : σ → Prop} {C : σ → α → Prop}
    (keep : ∀ s l t, I s → C s l → step s l = some t → I t) {s t : σ} {ls : List α}
    (hs : I s) (hC : Along step C s ls) (ht : Reached step s ls t) : I t := by
  induction ls generalizing s with
  | nil =>
    subst ht
    exact hs
  | cons l ls ih =>
    rcases ht with rfl | ⟨u, hu, ht⟩
    · exact hs
    · exact ih (keep s l u hs hC.1 hu) (hC.2 u hu) ht

/-- The invariant rule at the end of a run. -/
theorem exec_invariant {I : σ → Prop} {C : σ → α → Prop}
    (keep : ∀ s l t, I s → C s l → step s l = some t → I t) {s t : σ} {ls : List α}
    (hs : I s) (hC : Along step C s ls) (ht : exec step s ls = some t) : I t :=
  Reached.invariant keep hs hC (reached_of_exec ht)

/-- **The exact rule.** When `I` carries `P`, is preserved under `C`, and a step
outside `C` leads to a state without `P`, then `P` holds all along a run exactly
when every step of it meets `C`. -/
theorem forall_reached_iff_along {I P : σ → Prop} {C : σ → α → Prop}
    (hIP : ∀ s, I s → P s) (keep : ∀ s l t, I s → C s l → step s l = some t → I t)
    (break_ : ∀ s l, I s → ¬ C s l → ∃ t, step s l = some t ∧ ¬ P t) {s : σ} {ls : List α}
    (hs : I s) : (∀ t, Reached step s ls t → P t) ↔ Along step C s ls := by
  constructor
  · intro h
    induction ls generalizing s with
    | nil => trivial
    | cons l ls ih =>
      -- a step outside `C` would end the property right there
      have hC : C s l := by
        by_contra hC
        obtain ⟨t, ht, hP⟩ := break_ s l hs hC
        exact hP (h t (Or.inr ⟨t, ht, reached_self t ls⟩))
      exact ⟨hC, fun t ht =>
        ih (keep s l t hs hC ht) fun u hu => h u (Or.inr ⟨t, ht, hu⟩)⟩
  · exact fun hC t ht => hIP t (Reached.invariant keep hs hC ht)

/-- **The exact rule at the end of a run.** When a step gives `P` exactly if `P`
held before it and the step meets `C`, a run gives `P` exactly if all its steps
meet `C`. -/
theorem exec_iff_along {P : σ → Prop} {C : σ → α → Prop}
    (hstep : ∀ s l t, step s l = some t → (P t ↔ P s ∧ C s l)) {s t : σ} {ls : List α}
    (hs : P s) (ht : exec step s ls = some t) : P t ↔ Along step C s ls := by
  suffices h : ∀ s, exec step s ls = some t → (P t ↔ P s ∧ Along step C s ls) from
    (h s ht).trans (and_iff_right hs)
  clear hs ht s
  induction ls with
  | nil =>
    intro s ht
    rw [exec_nil, Option.some_inj] at ht
    subst ht
    exact (and_iff_left trivial).symm
  | cons l ls ih =>
    intro s ht
    rw [exec_cons, Option.bind_eq_some_iff] at ht
    obtain ⟨u, hu, ht⟩ := ht
    -- the first step leads to `u` and to nowhere else
    have hrest : Along step C s (l :: ls) ↔ C s l ∧ Along step C u ls := by
      rw [along_cons]
      refine and_congr_right fun _ => ⟨fun h => h u hu, fun h v hv => ?_⟩
      rwa [← Option.some_inj.mp (hu.symm.trans hv)]
    rw [ih u ht, hstep s l u hu, hrest, and_assoc]

/-- The step at place `k` of a run, and the one after it. -/
theorem step_of_getElem {I : σ → Prop} (keep : ∀ s l t, I s → step s l = some t → I t) {s t : σ}
    {ls : List α} {k : ℕ} {l : α} (hs : I s) (ht : exec step s ls = some t)
    (hl : ls[k]? = some l) :
    ∃ u v, I u ∧ step u l = some v ∧ ∀ l', ls[k + 1]? = some l' → ∃ w, step v l' = some w := by
  induction ls generalizing s k with
  | nil => simp at hl
  | cons a ls ih =>
    rw [exec_cons, Option.bind_eq_some_iff] at ht
    obtain ⟨u, hu, ht⟩ := ht
    cases k with
    | zero =>
      obtain rfl := Option.some_inj.mp hl
      refine ⟨s, u, hs, hu, fun l' hl' => ?_⟩
      cases ls with
      | nil => simp at hl'
      | cons b ls =>
        obtain rfl := Option.some_inj.mp hl'
        rw [exec_cons, Option.bind_eq_some_iff] at ht
        exact ⟨_, ht.choose_spec.1⟩
    | succ k => exact ih (keep s a u hs hu) ht hl

/-- Every state that the run passes through meets `p`, as a check. -/
def all (step : σ → α → Option σ) (p : σ → Bool) : σ → List α → Bool
  | s, [] => p s
  | s, l :: ls => p s && (step s l).all fun t => all step p t ls

theorem of_all {p : σ → Bool} {s t : σ} {ls : List α} (h : all step p s ls = true)
    (ht : Reached step s ls t) : p t = true := by
  induction ls generalizing s with
  | nil =>
    subst ht
    exact h
  | cons l ls ih =>
    rw [all, Bool.and_eq_true] at h
    rcases ht with rfl | ⟨u, hu, ht⟩
    · exact h.1
    · rw [hu] at h
      exact ih h.2 ht

theorem exec_append (s : σ) (ls ls' : List α) :
    exec step s (ls ++ ls') = (exec step s ls).bind fun t => exec step t ls' := by
  induction ls generalizing s with
  | nil => rfl
  | cons l ls ih =>
    rw [List.cons_append, exec_cons, exec_cons]
    cases step s l with
    | none => rfl
    | some t => exact ih t

/-- The step that a run takes at place `k`, between the ends of its parts. -/
theorem exec_take_succ {s t : σ} {ls : List α} {k : ℕ} {l : α} (h : exec step s ls = some t)
    (hl : ls[k]? = some l) :
    ∃ u v, exec step s (ls.take k) = some u ∧ step u l = some v ∧
      exec step s (ls.take (k + 1)) = some v := by
  have htake : ls.take (k + 1) = ls.take k ++ [l] := by
    rw [List.take_add_one, hl]
    rfl
  rw [← List.take_append_drop (k + 1) ls, exec_append, Option.bind_eq_some_iff] at h
  obtain ⟨v, hv, -⟩ := h
  have hlast := hv
  rw [htake, exec_append, Option.bind_eq_some_iff] at hlast
  obtain ⟨u, hu, hlast⟩ := hlast
  rw [exec_cons, Option.bind_eq_some_iff] at hlast
  obtain ⟨w, hw, hvw⟩ := hlast
  obtain rfl := Option.some_inj.mp hvw
  exact ⟨u, w, hu, hw, hv⟩

/-- What relates the labels taken so far to the state, if every step keeps it. -/
theorem exec_history {R : List α → σ → Prop} {s t : σ} {ls : List α}
    (keep : ∀ ls s l t, R ls s → step s l = some t → R (ls ++ [l]) t) (hs : R [] s)
    (h : exec step s ls = some t) : R ls t := by
  induction ls using List.reverseRecOn generalizing t with
  | nil =>
    obtain rfl := Option.some_inj.mp h
    exact hs
  | append_singleton ls l ih =>
    rw [exec_append, Option.bind_eq_some_iff] at h
    obtain ⟨u, hu, h⟩ := h
    rw [exec_cons, Option.bind_eq_some_iff] at h
    obtain ⟨v, hv, h⟩ := h
    obtain rfl := Option.some_inj.mp h
    exact keep ls u l v (ih hu) hv

/-- **The exact rule for what stays.**  What a step can bring about and none undoes holds
at the end of a run exactly if it held at its start or a step of the run has brought it
about. -/
theorem exec_iff_brought_about {P : σ → Prop} {E : σ → α → Prop}
    (keep : ∀ s l t, step s l = some t → (P t ↔ P s ∨ E s l)) {s t : σ} {ls : List α}
    (h : exec step s ls = some t) :
    P t ↔ P s ∨ ∃ pre l post u, ls = pre ++ l :: post ∧ exec step s pre = some u ∧ E u l := by
  induction ls generalizing s with
  | nil =>
    obtain rfl := Option.some_inj.mp h
    refine ⟨Or.inl, ?_⟩
    rintro (hs | ⟨pre, l, post, u, hls, -⟩)
    · exact hs
    · cases pre <;> cases hls
  | cons l ls ih =>
    rw [exec_cons, Option.bind_eq_some_iff] at h
    obtain ⟨u, hu, ht⟩ := h
    rw [ih ht, keep s l u hu]
    -- the step that brings it about is the first one, or one of the rest
    constructor
    · rintro ((hs | hl) | ⟨pre, l', post, v, rfl, hv, hE⟩)
      · exact Or.inl hs
      · exact Or.inr ⟨[], l, ls, s, rfl, rfl, hl⟩
      · refine Or.inr ⟨l :: pre, l', post, v, rfl, ?_, hE⟩
        rw [exec_cons, hu]
        exact hv
    · rintro (hs | ⟨pre, l', post, v, hls, hv, hE⟩)
      · exact Or.inl (Or.inl hs)
      · cases pre with
        | nil =>
          obtain ⟨rfl, rfl⟩ := List.cons.inj hls
          obtain rfl := Option.some_inj.mp hv
          exact Or.inl (Or.inr hE)
        | cons l₀ pre =>
          obtain ⟨rfl, rfl⟩ := List.cons.inj hls
          rw [exec_cons, hu] at hv
          exact Or.inr ⟨pre, l', post, v, rfl, hv, hE⟩

/-- A run seen through `f`, with its labels renamed by `g`. -/
theorem exec_map {τ β : Type*} {step' : τ → β → Option τ} (f : σ → τ) (g : α → β)
    (h : ∀ s l, step' (f s) (g l) = (step s l).map f) (s : σ) (ls : List α) :
    exec step' (f s) (ls.map g) = (exec step s ls).map f := by
  induction ls generalizing s with
  | nil => rfl
  | cons l ls ih =>
    rw [List.map_cons, exec_cons, exec_cons, h]
    cases step s l with
    | none => rfl
    | some t => exact ih t

/-- A run with a step outside `C` has a first one. -/
theorem exists_first_not {C : σ → α → Prop} {s t : σ} {ls : List α}
    (hC : ¬ Along step C s ls) (ht : exec step s ls = some t) :
    ∃ pre l post u v, ls = pre ++ l :: post ∧ exec step s pre = some u ∧
      Along step C s pre ∧ ¬ C u l ∧ step u l = some v := by
  induction ls generalizing s with
  | nil => exact absurd trivial hC
  | cons l ls ih =>
    rw [exec_cons, Option.bind_eq_some_iff] at ht
    obtain ⟨u, hu, ht⟩ := ht
    by_cases hl : C s l
    · -- the first step is in `C`, so that the one outside is among the rest
      have hrest : ¬ Along step C u ls := by
        intro h
        refine hC ⟨hl, fun v hv => ?_⟩
        rwa [Option.some_inj.mp (hv.symm.trans hu)]
      obtain ⟨pre, l', post, v, w, rfl, hv, hpre, hnot, hw⟩ := ih hrest ht
      refine ⟨l :: pre, l', post, v, w, rfl, ?_, ⟨hl, fun x hx => ?_⟩, hnot, hw⟩
      · rw [exec_cons, hu]
        exact hv
      · rwa [Option.some_inj.mp (hx.symm.trans hu)]
    · exact ⟨[], l, ls, s, u, rfl, rfl, trivial, hl, hu⟩

/-- The run has a step outside `C`, and from right after the first such step the
component can be brought into `B`. -/
def Strays (step : σ → α → Option σ) (C : σ → α → Prop) (B : σ → Prop) (s : σ) (ls : List α) :
    Prop :=
  ∃ pre l post u v, ls = pre ++ l :: post ∧ exec step s pre = some u ∧ Along step C s pre ∧
    ¬ C u l ∧ step u l = some v ∧ ∃ ls' w, exec step v ls' = some w ∧ B w

/-- **The rule for what a step outside `C` leads to.**  When from right after
such a step the component can be brought to a bad state, every run with such a
step strays. -/
theorem strays_of_not_along {I B : σ → Prop} {C : σ → α → Prop}
    (keep : ∀ s l t, I s → C s l → step s l = some t → I t)
    (bad : ∀ s l t, I s → ¬ C s l → step s l = some t → ∃ ls u, exec step t ls = some u ∧ B u)
    {s : σ} {ls : List α} (hs : I s) (hrun : (exec step s ls).isSome = true)
    (hC : ¬ Along step C s ls) : Strays step C B s ls := by
  obtain ⟨t, ht⟩ := Option.isSome_iff_exists.mp hrun
  obtain ⟨pre, l, post, u, v, hls, hu, hpre, hnot, hv⟩ := exists_first_not hC ht
  -- all the steps before it are in `C`, so that the invariant still holds there
  have hI : I u := exec_invariant keep hs hpre hu
  exact ⟨pre, l, post, u, v, hls, hu, hpre, hnot, hv, bad u l v hI hnot hv⟩

/-- **The exact rule with a continuation.**  When `I` carries `P` and is preserved
under `C`, and right after a step outside `C` the component can be brought to a
state without `P`, then `P` holds all along every run whose steps meet `C`, and
every other run strays to a state without `P`. -/
theorem forall_reached_and_strays {I P : σ → Prop} {C : σ → α → Prop}
    (hIP : ∀ s, I s → P s) (keep : ∀ s l t, I s → C s l → step s l = some t → I t)
    (bad : ∀ s l t, I s → ¬ C s l → step s l = some t → ∃ ls u, exec step t ls = some u ∧ ¬ P u)
    {s : σ} {ls : List α} (hs : I s) :
    (Along step C s ls → ∀ t, Reached step s ls t → P t) ∧
    ((exec step s ls).isSome = true → ¬ Along step C s ls →
      Strays step C (fun t => ¬ P t) s ls) := by
  constructor
  · intro hC t ht
    exact hIP t (Reached.invariant keep hs hC ht)
  · exact strays_of_not_along keep bad hs

/-- When every state in `I` has a step into `B`, or back into `I` with a smaller
`μ`, some run from a state in `I` ends in `B`. -/
theorem exists_exec_of_measure {I B : σ → Prop} (μ : σ → ℕ)
    (progress : ∀ s, I s → ∃ l t, step s l = some t ∧ (B t ∨ I t ∧ μ t < μ s)) {s : σ} (hs : I s) :
    ∃ ls t, exec step s ls = some t ∧ B t := by
  induction hn : μ s using Nat.strongRecOn generalizing s with
  | ind n ih =>
    obtain ⟨l, t, ht, hB | ⟨hI, hlt⟩⟩ := progress s hs
    · refine ⟨[l], t, ?_, hB⟩
      rw [exec_cons, ht]
      rfl
    · obtain ⟨ls, u, hu, hB⟩ := ih (μ t) (hn ▸ hlt) hI rfl
      refine ⟨l :: ls, u, ?_, hB⟩
      rw [exec_cons, ht]
      exact hu

/-! ### What the component is bound to do -/

/-- However the internal steps are scheduled, `P` is reached: it holds here, or
some internal step is enabled and all of them lead there. -/
inductive Inevitably (step : σ → α → Option σ) (internal : α → Prop) (P : σ → Prop) : σ → Prop
  | now {s : σ} : P s → Inevitably step internal P s
  | later {s : σ} : (∃ l t, internal l ∧ step s l = some t) →
      (∀ l t, internal l → step s l = some t → Inevitably step internal P t) →
      Inevitably step internal P s

/-- When every internal step decreases `μ` and `P` holds where none is enabled,
`P` is inevitable. -/
theorem inevitably_of_measure {internal : α → Prop} {I P : σ → Prop} (μ : σ → ℕ)
    (keep : ∀ s l t, I s → internal l → step s l = some t → I t ∧ μ t < μ s)
    (final : ∀ s, I s → (∀ l, internal l → step s l = none) → P s) {s : σ} (hs : I s) :
    Inevitably step internal P s := by
  induction hn : μ s using Nat.strongRecOn generalizing s with
  | ind n ih =>
    by_cases hstuck : ∀ l, internal l → step s l = none
    · exact .now (final s hs hstuck)
    · -- some internal step is enabled, and whichever is taken has a smaller measure ahead
      push Not at hstuck
      obtain ⟨l, hl, hne⟩ := hstuck
      refine .later ⟨l, _, hl, Option.some_get (Option.isSome_iff_ne_none.mpr hne) |>.symm⟩ ?_
      intro l t hl ht
      obtain ⟨hI, hlt⟩ := keep s l t hs hl ht
      exact ih (μ t) (hn ▸ hlt) hI rfl

/-- What internal steps preserve still holds where the inevitable has come. -/
theorem Inevitably.exists_of_invariant {internal : α → Prop} {I P : σ → Prop}
    (keep : ∀ s l t, I s → internal l → step s l = some t → I t) {s : σ}
    (h : Inevitably step internal P s) (hs : I s) : ∃ t, I t ∧ P t := by
  induction h with
  | now hP => exact ⟨_, hs, hP⟩
  | later hex _ ih =>
    obtain ⟨l, t, hl, ht⟩ := hex
    exact ih l t hl ht (keep _ l t hs hl ht)

end Run

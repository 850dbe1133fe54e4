/-
Pools of threads over a shared memory.

A thread is a program counter `κ`; what one step of it does is a partial
function `prim m r k` of the memory, the outcome `r` of whatever the step waits
for, and the counter: the new memory, the new counter and the threads forked.
`move` lets one thread of a pool take a step.

* `of_move` — what a step of the pool is;
* `getElem?_move` — after it a thread is the one that moved, one that did not,
  or a forked one;
* `countP_moved` — how many threads of a kind there are after a step;
* `exec_solo` — a thread that runs alone leaves the others as they are, and its
  steps add up to those of `solo`; `exec_spawn_solo` is the same in a system
  where the steps of its threads have labels.
-/
import GrpcJniClient.Run

namespace ThreadPool

variable {μ κ ρ : Type*}

/-- A shared memory and the threads, in the order in which they were forked. -/
structure Pool (μ κ : Type*) where
  shared : μ
  threads : List κ

namespace Pool

/-- Thread `i` takes a step with outcome `r`. -/
def move (prim : μ → ρ → κ → Option (μ × κ × List κ)) (p : Pool μ κ) (i : ℕ) (r : ρ) :
    Option (Pool μ κ) :=
  (p.threads[i]?).bind fun k =>
    (prim p.shared r k).map fun (m, k', forks) => ⟨m, p.threads.set i k' ++ forks⟩

/-- A new thread. -/
def spawn (p : Pool μ κ) (k : κ) : Pool μ κ := { p with threads := p.threads ++ [k] }

variable {prim : μ → ρ → κ → Option (μ × κ × List κ)} {p q : Pool μ κ} {i j : ℕ} {r : ρ} {k : κ}

theorem of_move (h : p.move prim i r = some q) :
    ∃ k m k' forks, p.threads[i]? = some k ∧ prim p.shared r k = some (m, k', forks) ∧
      q = ⟨m, p.threads.set i k' ++ forks⟩ := by
  obtain ⟨k, hk, hq⟩ := Option.bind_eq_some_iff.mp h
  obtain ⟨⟨m, k', forks⟩, hprim, rfl⟩ := Option.map_eq_some_iff.mp hq
  exact ⟨k, m, k', forks, hk, hprim, rfl⟩

theorem move_eq {m : μ} {k' : κ} {forks : List κ} (hk : p.threads[i]? = some k)
    (hprim : prim p.shared r k = some (m, k', forks)) :
    p.move prim i r = some ⟨m, p.threads.set i k' ++ forks⟩ := by
  rw [move, hk, Option.bind_some, hprim]
  rfl

theorem getElem?_moved {ts forks : List κ} {k' : κ} (hk : ts[i]? = some k) :
    (ts.set i k' ++ forks)[i]? = some k' := by
  have hi : i < ts.length := (List.getElem?_eq_some_iff.mp hk).choose
  rw [List.getElem?_append_left (by rwa [List.length_set]), List.getElem?_set_self hi]

theorem getElem?_unmoved {ts forks : List κ} {k' : κ} (hj : ts[j]? = some k) (hne : j ≠ i) :
    (ts.set i k' ++ forks)[j]? = some k := by
  have hlt : j < ts.length := (List.getElem?_eq_some_iff.mp hj).choose
  rw [List.getElem?_append_left (by rwa [List.length_set]), List.getElem?_set_ne hne.symm, hj]

/-- A thread of the pool after a step has moved, has not, or is new. -/
theorem getElem?_move {ts forks : List κ} {k' x : κ} (h : (ts.set i k' ++ forks)[j]? = some x) :
    (j = i ∧ x = k') ∨ (j ≠ i ∧ ts[j]? = some x) ∨ x ∈ forks := by
  rw [List.getElem?_append] at h
  split at h
  · -- among the old places: the one that moved, or another
    by_cases hne : j = i
    · subst hne
      rw [List.getElem?_set] at h
      split at h
      · split at h
        · exact Or.inl ⟨rfl, (Option.some_inj.mp h).symm⟩
        · cases h
      · rename_i hne
        exact absurd rfl hne
    · rw [List.getElem?_set_ne (fun h => hne h.symm)] at h
      exact Or.inr (Or.inl ⟨hne, h⟩)
  · exact Or.inr (Or.inr (List.mem_of_getElem? h))

theorem mem_move {ts forks : List κ} {k' x : κ} (h : x ∈ ts.set i k' ++ forks) :
    x = k' ∨ x ∈ ts ∨ x ∈ forks := by
  rcases List.mem_append.mp h with h | h
  · rcases List.mem_or_eq_of_mem_set h with h | rfl
    · exact Or.inr (Or.inl h)
    · exact Or.inl rfl
  · exact Or.inr (Or.inr h)

/-- A step takes its thread from one kind to another and adds the forks. -/
theorem countP_moved (P : κ → Bool) {ts : List κ} (k' : κ) (forks : List κ)
    (hk : ts[i]? = some k) :
    (ts.set i k' ++ forks).countP P + (if P k then 1 else 0)
      = ts.countP P + (if P k' then 1 else 0) + forks.countP P := by
  obtain ⟨hi, rfl⟩ := List.getElem?_eq_some_iff.mp hk
  -- the thread itself counts towards the pool, so nothing is subtracted from zero
  have hle : (if P ts[i] then 1 else 0) ≤ ts.countP P := by
    split
    · rename_i hP
      exact List.countP_pos_iff.mpr ⟨_, List.getElem_mem hi, hP⟩
    · exact Nat.zero_le _
  rw [List.countP_append, List.countP_set hi]
  omega

/-- A step of a thread does not raise a count by more than its own part, when
what counts afterwards counted before. -/
theorem countP_set_le {P Q : κ → Bool} {ts : List κ} {i : ℕ} {k : κ} (k' : κ)
    (hk : ts[i]? = some k) (hQP : ∀ x ∈ ts, Q x = true → P x = true) :
    (ts.set i k').countP Q + (if P k then 1 else 0) ≤ ts.countP P + (if Q k' then 1 else 0) := by
  -- on the list, down to the place of the thread that moves
  induction ts generalizing i with
  | nil => cases hk
  | cons x xs ih =>
    rw [List.forall_mem_cons] at hQP
    cases i with
    | zero =>
      obtain rfl := Option.some_inj.mp hk
      have hrest := List.countP_mono_left hQP.2
      rw [List.set_cons_zero, List.countP_cons, List.countP_cons]
      omega
    | succ i =>
      have hrest := ih hk hQP.2
      have hx : (if Q x then 1 else 0) ≤ if P x then 1 else 0 := by
        split
        · rename_i hQ
          exact Nat.le_of_eq (if_pos (hQP.1 hQ)).symm
        · exact Nat.zero_le _
      rw [List.set_cons_succ, List.countP_cons, List.countP_cons]
      omega

/-- Two threads of a kind. -/
theorem exists_two_of_countP {P : κ → Bool} {ts : List κ} (h : 2 ≤ ts.countP P) :
    ∃ (i j : ℕ) (k k' : κ), i ≠ j ∧ ts[i]? = some k ∧ ts[j]? = some k' ∧ P k = true ∧ P k' = true := by
  induction ts with
  | nil => exact absurd h (by simp)
  | cons x xs ih =>
    by_cases hx : P x = true
    · -- the head is one of the two, and one more is behind it
      rw [List.countP_cons_of_pos hx] at h
      obtain ⟨k', hk', hP⟩ := List.countP_pos_iff.mp (show 0 < xs.countP P by omega)
      obtain ⟨j, hj⟩ := List.mem_iff_getElem?.mp hk'
      exact ⟨0, j + 1, x, k', by omega, rfl, hj, hx, hP⟩
    · rw [List.countP_cons_of_neg hx] at h
      obtain ⟨i, j, k, k', hne, hi, hj, hP⟩ := ih h
      exact ⟨i + 1, j + 1, k, k', by omega, hi, hj, hP⟩

/-- Of a kind of which there is one, no two threads differ. -/
theorem eq_of_countP_le_one {P : κ → Bool} {ts : List κ} (h : ts.countP P ≤ 1) {k k' : κ}
    (hk : k ∈ ts) (hk' : k' ∈ ts) (hP : P k = true) (hP' : P k' = true) : k = k' := by
  induction ts with
  | nil => cases hk
  | cons x xs ih =>
    by_cases hx : P x = true
    · -- the head is the only one of its kind
      rw [List.countP_cons_of_pos hx] at h
      have hnone : ∀ y ∈ xs, ¬ P y = true := List.countP_eq_zero.mp (by omega)
      have head : ∀ y ∈ x :: xs, P y = true → y = x := fun y hy hPy =>
        (List.mem_cons.mp hy).resolve_right fun hmem => hnone y hmem hPy
      rw [head k hk hP, head k' hk' hP']
    · rw [List.countP_cons_of_neg hx] at h
      have tail : ∀ y ∈ x :: xs, P y = true → y ∈ xs := fun y hy hPy =>
        (List.mem_cons.mp hy).resolve_left fun heq => hx (heq ▸ hPy)
      exact ih h (tail k hk hP) (tail k' hk' hP')

/-- A step of the thread that stands after `ts`. -/
theorem move_append {m m' : μ} {ts rest forks : List κ} {k' : κ}
    (h : prim m r k = some (m', k', forks)) :
    (⟨m, ts ++ k :: rest⟩ : Pool μ κ).move prim ts.length r
      = some ⟨m', ts ++ k' :: (rest ++ forks)⟩ := by
  have hk : (ts ++ k :: rest)[ts.length]? = some k := by
    rw [List.getElem?_append_right (Nat.le_refl _), Nat.sub_self, List.getElem?_cons_zero]
  rw [move_eq hk h, List.set_append_right _ _ (Nat.le_refl _), Nat.sub_self, List.set_cons_zero,
    List.append_assoc, List.cons_append]

/-- The steps of one thread that runs alone, with the threads it forks. -/
def solo (prim : μ → ρ → κ → Option (μ × κ × List κ)) (m : μ) (k : κ) (forks : List κ) :
    List ρ → Option (μ × κ × List κ)
  | [] => some (m, k, forks)
  | r :: rs => (prim m r k).bind fun (m', k', forks') => solo prim m' k' (forks ++ forks') rs

/-- A thread that runs alone leaves the threads before it as they are. -/
theorem exec_solo {m m' : μ} {ts rest forks : List κ} {k' : κ} {rs : List ρ}
    (h : solo prim m k rest rs = some (m', k', forks)) :
    Run.exec (fun (p : Pool μ κ) r => p.move prim ts.length r) ⟨m, ts ++ k :: rest⟩ rs
      = some ⟨m', ts ++ k' :: forks⟩ := by
  induction rs generalizing m k rest with
  | nil =>
    obtain ⟨rfl, rfl, rfl⟩ := Option.some_inj.mp h
    rfl
  | cons r rs ih =>
    obtain ⟨⟨m₁, k₁, forks₁⟩, hprim, hrest⟩ := Option.bind_eq_some_iff.mp h
    rw [Run.exec_cons, move_append hprim, Option.bind_some]
    exact ih hrest

/-- A new thread that runs alone, in a system where its steps have a label. -/
theorem exec_spawn_solo {α : Type*} {step : Pool μ κ → α → Option (Pool μ κ)} {label : ρ → α}
    {m' : μ} {forks : List κ} {k' : κ} {rs : List ρ}
    (hstep : ∀ q r, step q (label r) = q.move prim p.threads.length r)
    (h : solo prim p.shared k [] rs = some (m', k', forks)) :
    Run.exec step (p.spawn k) (rs.map label) = some ⟨m', p.threads ++ k' :: forks⟩ := by
  -- the labelled steps are those of `move`, read through `label`
  have hmap : Run.exec step (id (p.spawn k)) (rs.map label)
      = (Run.exec (fun q r => q.move prim p.threads.length r) (p.spawn k) rs).map id :=
    Run.exec_map id label (fun q r => (hstep q r).trans (congrFun Option.map_id _).symm) _ rs
  rw [Option.map_id] at hmap
  exact hmap.trans (exec_solo h)

end Pool

end ThreadPool

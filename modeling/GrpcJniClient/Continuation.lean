/-
One-shot continuations, and functions that suspend for a callback.

A continuation can be resumed once; a second resumption throws, unless it has
been cancelled.  A `Bridge` says what the callbacks of a suspending function do;
any number of its calls are suspended together, and one main thread runs all
their callbacks.  A guarded callback reads `isActive` and resumes in two steps,
between which the continuation may be cancelled.

* `exec_isSome_iff` — which sequences of resumptions and cancellations throw;
* `never_crashes_of_guarded` — guarded callbacks never do;
* `crashes_iff` — callbacks without a guard throw exactly if the calls' own
  sequences do.
-/
import GrpcJniClient.Run

namespace Coroutine

/-! ### Continuations -/

/-- A cancellable continuation. -/
inductive Continuation (α : Type*) where
  | active
  | resumed (a : α)
  | cancelled
  deriving DecidableEq, Repr

inductive Op (α : Type*) where
  | resume (a : α)
  | cancel
  deriving DecidableEq, Repr

variable {σ ι κ α : Type*}

namespace Continuation

def isActive : Continuation α → Bool
  | active => true
  | _ => false

/-- A resumption; `none` when it throws. -/
def resume (a : α) : Continuation α → Option (Continuation α)
  | active => some (resumed a)
  | resumed _ => none
  | cancelled => some cancelled

/-- A cancellation, which a resumed continuation ignores. -/
def cancel : Continuation α → Continuation α
  | active => cancelled
  | c => c

def apply (c : Continuation α) : Op α → Option (Continuation α)
  | .resume a => c.resume a
  | .cancel => some c.cancel

end Continuation

def Op.isResume : Op α → Bool
  | resume _ => true
  | cancel => false

/-- At most one operation is a resumption, or the first of all is a cancellation. -/
def AtMostOnce (ops : List (Op α)) : Prop :=
  ops.countP Op.isResume ≤ 1 ∨ ops.head? = some .cancel

instance [DecidableEq α] (ops : List (Op α)) : Decidable (AtMostOnce ops) :=
  inferInstanceAs (Decidable (_ ∨ _))

namespace Continuation

/-- Only a resumed continuation throws. -/
theorem of_resume_eq_none {c : Continuation α} {a : α} (h : c.resume a = none) :
    ∃ a', c = resumed a' := by
  cases c with
  | active => cases h
  | resumed a' => exact ⟨a', rfl⟩
  | cancelled => cases h

theorem of_cancel_eq_resumed {c : Continuation α} {a : α} (h : c.cancel = resumed a) :
    c = resumed a := by
  cases c with
  | active => cases h
  | resumed a' => exact h
  | cancelled => cases h

theorem ne_resumed_of_isActive {c : Continuation α} (h : c.isActive = true) (a : α) :
    c ≠ resumed a := by
  rintro rfl
  cases h

/-- A cancelled continuation ignores everything. -/
theorem exec_cancelled (ops : List (Op α)) : Run.exec apply cancelled ops = some cancelled := by
  induction ops with
  | nil => rfl
  | cons o ops ih =>
    rw [Run.exec_cons]
    cases o <;> exact ih

/-- A resumed one takes no further resumption. -/
theorem exec_resumed (a : α) (ops : List (Op α)) :
    Run.exec apply (resumed a) ops
      = if ops.countP Op.isResume = 0 then some (resumed a) else none := by
  induction ops with
  | nil => rfl
  | cons o ops ih =>
    rw [Run.exec_cons]
    cases o with
    | resume b =>
      rw [List.countP_cons_of_pos rfl, if_neg (Nat.succ_ne_zero _)]
      rfl
    | cancel =>
      rw [List.countP_cons_of_neg Bool.false_ne_true]
      exact ih

/-- **Which sequences throw.** -/
theorem exec_isSome_iff (ops : List (Op α)) :
    (Run.exec apply active ops).isSome = true ↔ AtMostOnce ops := by
  rw [AtMostOnce]
  cases ops with
  | nil => simp
  | cons o ops =>
    rw [Run.exec_cons]
    cases o with
    | resume a =>
      rw [List.countP_cons_of_pos rfl]
      show (Run.exec apply (resumed a) ops).isSome = true ↔ _
      rw [exec_resumed]
      by_cases hcount : ops.countP Op.isResume = 0
      · simp [hcount]
      · rw [if_neg hcount]
        refine iff_of_false Bool.false_ne_true ?_
        rintro (h | h)
        · omega
        · cases h
    | cancel =>
      show (Run.exec apply cancelled ops).isSome = true ↔ _
      simp [exec_cancelled]

end Continuation

/-! ### Callbacks -/

/-- What a callback does with its continuation. -/
inductive Effect (α : Type*) where
  | nothing
  | resume (a : α)
  /-- The resumption is guarded by `isActive`. -/
  | resumeIfActive (a : α)
  deriving DecidableEq, Repr

/-- A suspending function with an argument in `ι`, whose callbacks are those of
`κ`: what they do to the state that they share, and to the continuation. -/
structure Bridge (σ ι κ α : Type*) where
  update : ι → κ → σ → σ
  effect : κ → Effect α

inductive MainThread (α : Type*) where
  | idle
  /-- Call `i` has been found active. -/
  | resuming (i : ℕ) (a : α)
  /-- A callback has thrown. -/
  | crashed
  deriving DecidableEq, Repr

def MainThread.alive : MainThread α → Bool
  | crashed => false
  | _ => true

/-- The calls that have been made. -/
structure Calls (σ ι α : Type*) where
  shared : σ
  calls : List (ι × Continuation α)
  main : MainThread α

inductive Event (ι κ : Type*) where
  | call (x : ι)
  | callback (i : ℕ) (k : κ)
  /-- The main thread goes on to a guarded resumption. -/
  | resume
  | cancel (i : ℕ)
  deriving DecidableEq, Repr

namespace Calls

def initial (s : σ) : Calls σ ι α := ⟨s, [], .idle⟩

/-- The continuation of a call. -/
def cont (s : Calls σ ι α) (i : ℕ) : Continuation α := (s.calls[i]?.map (·.2)).getD .active

def setCont (s : Calls σ ι α) (i : ℕ) (c : Continuation α) : Calls σ ι α :=
  { s with calls := s.calls.modify i fun (x, _) => (x, c) }

/-- The main thread resumes call `i`. -/
def resume (s : Calls σ ι α) (i : ℕ) (a : α) : Calls σ ι α :=
  match (s.cont i).resume a with
  | some c => { s.setCont i c with main := .idle }
  | none => { s with main := .crashed }

end Calls

namespace Bridge

/-- A callback of call `i`, whose argument is `x`. -/
def callback (b : Bridge σ ι κ α) (s : Calls σ ι α) (i : ℕ) (x : ι) (k : κ) : Calls σ ι α :=
  let s := { s with shared := b.update x k s.shared }
  match b.effect k with
  | .nothing => s
  | .resume a => s.resume i a
  | .resumeIfActive a => if (s.cont i).isActive then { s with main := .resuming i a } else s

def step (b : Bridge σ ι κ α) (s : Calls σ ι α) : Event ι κ → Option (Calls σ ι α)
  | .call x => if s.main.alive then some { s with calls := s.calls ++ [(x, .active)] } else none
  | .callback i k =>
      match s.main with
      | .idle => s.calls[i]?.map fun (x, _) => b.callback s i x k
      | _ => none
  | .resume =>
      match s.main with
      | .resuming i a => some (s.resume i a)
      | _ => none
  | .cancel i =>
      if s.main.alive && i < s.calls.length then some (s.setCont i (s.cont i).cancel) else none

/-- What an event does to call `i`, if its callbacks have no guard. -/
def op (b : Bridge σ ι κ α) (i : ℕ) : Event ι κ → Option (Op α)
  | .callback j k =>
      match b.effect k with
      | .resume a => if j = i then some (.resume a) else none
      | _ => none
  | .cancel j => if j = i then some .cancel else none
  | _ => none

def ops (b : Bridge σ ι κ α) (i : ℕ) (es : List (Event ι κ)) : List (Op α) := es.filterMap (b.op i)

end Bridge

section Lemmas

variable {b : Bridge σ ι κ α} {s t : Calls σ ι α} {e : Event ι κ} {i : ℕ}

namespace Calls

theorem cont_setCont (hi : i < s.calls.length) (c : Continuation α) (j : ℕ) :
    (s.setCont i c).cont j = if i = j then c else s.cont j := by
  rw [cont, setCont, List.getElem?_modify]
  split
  · next h =>
    subst h
    rw [List.getElem?_eq_getElem hi]
    rfl
  · simp [cont]

/-- A call that is made later is active. -/
theorem cont_append (s : Calls σ ι α) (x : ι) (i : ℕ) :
    ({ s with calls := s.calls ++ [(x, .active)] } : Calls σ ι α).cont i = s.cont i := by
  rw [cont, cont]
  rcases Nat.lt_trichotomy i s.calls.length with hi | hi | hi
  · rw [List.getElem?_append_left hi]
  · subst hi
    rw [List.getElem?_concat_length, List.getElem?_eq_none (Nat.le_refl _)]
    rfl
  · rw [List.getElem?_eq_none (by simpa using Nat.succ_le_of_lt hi),
      List.getElem?_eq_none (Nat.le_of_lt hi)]

theorem of_resume_eq_some (hi : i < s.calls.length) {a : α} {c : Continuation α}
    (h : (s.cont i).resume a = some c) :
    (s.resume i a).main = .idle ∧ ∀ j, (s.resume i a).cont j = if i = j then c else s.cont j := by
  rw [resume, h]
  exact ⟨rfl, cont_setCont hi c⟩

theorem of_resume_eq_none {a : α} (h : (s.cont i).resume a = none) :
    (s.resume i a).main = .crashed := by
  rw [resume, h]

end Calls

namespace Bridge

/-- What an event is. -/
theorem step_cases (h : b.step s e = some t) :
    (∃ x, e = .call x ∧ s.main.alive = true ∧
      t = { s with calls := s.calls ++ [(x, .active)] }) ∨
    (∃ i k x, e = .callback i k ∧ s.main = .idle ∧ i < s.calls.length ∧ t = b.callback s i x k) ∨
    (∃ i a, e = .resume ∧ s.main = .resuming i a ∧ t = s.resume i a) ∨
    ∃ i, e = .cancel i ∧ s.main.alive = true ∧ i < s.calls.length ∧
      t = s.setCont i (s.cont i).cancel := by
  cases e with
  | call x =>
    rw [step, Option.ite_none_right_eq_some] at h
    exact Or.inl ⟨x, rfl, h.1, (Option.some_inj.mp h.2).symm⟩
  | callback i k =>
    rw [step] at h
    split at h
    · next hmain =>
      obtain ⟨⟨x, c⟩, hc, rfl⟩ := Option.map_eq_some_iff.mp h
      exact Or.inr (Or.inl ⟨i, k, x, rfl, hmain, (List.getElem?_eq_some_iff.mp hc).1, rfl⟩)
    · cases h
  | resume =>
    rw [step] at h
    split at h
    · next i a hmain =>
      exact Or.inr (Or.inr (Or.inl ⟨i, a, rfl, hmain, (Option.some_inj.mp h).symm⟩))
    · cases h
  | cancel i =>
    rw [step, Option.ite_none_right_eq_some, Bool.and_eq_true, decide_eq_true_eq] at h
    exact Or.inr (Or.inr (Or.inr ⟨i, rfl, h.1.1, h.1.2, (Option.some_inj.mp h.2).symm⟩))

/-! ### Guarded callbacks -/

/-- Every resumption is guarded. -/
def Guarded (b : Bridge σ ι κ α) : Prop := ∀ k a, b.effect k ≠ .resume a

/-- No resumption is guarded. -/
def Unguarded (b : Bridge σ ι κ α) : Prop := ∀ k a, b.effect k ≠ .resumeIfActive a

/-- The main thread has not crashed, and what it is to resume has not been resumed. -/
def Resumable (s : Calls σ ι α) : Prop :=
  s.main ≠ .crashed ∧
    ∀ i a, s.main = .resuming i a → i < s.calls.length ∧ ∀ a', s.cont i ≠ .resumed a'

theorem resumable_step (hb : b.Guarded) (hs : Resumable s) (hstep : b.step s e = some t) :
    Resumable t := by
  obtain ⟨halive, hresuming⟩ := hs
  rcases step_cases hstep with ⟨x, rfl, -, rfl⟩ | ⟨i, k, x, rfl, hmain, hi, rfl⟩ |
    ⟨i, a, rfl, hmain, rfl⟩ | ⟨i, rfl, -, hi, rfl⟩
  · refine ⟨halive, fun j a hj => ?_⟩
    obtain ⟨hlt, hne⟩ := hresuming j a hj
    rw [Calls.cont_append]
    exact ⟨by simp; omega, hne⟩
  · rw [callback]
    split
    · exact ⟨halive, hresuming⟩
    · next a heffect => exact absurd heffect (hb k a)
    · next a heffect =>
      split
      · next hactive =>
        refine ⟨by simp, fun j a' hj => ?_⟩
        cases hj
        exact ⟨hi, Continuation.ne_resumed_of_isActive hactive⟩
      · exact ⟨halive, hresuming⟩
  · obtain ⟨hlt, hne⟩ := hresuming i a hmain
    rw [Calls.resume]
    split
    · exact ⟨by simp, fun j a' hj => by cases hj⟩
    · next hnone =>
      obtain ⟨a', hcont⟩ := Continuation.of_resume_eq_none hnone
      exact absurd hcont (hne a')
  · refine ⟨halive, fun j a hj => ?_⟩
    obtain ⟨hlt, hne⟩ := hresuming j a hj
    refine ⟨by simpa [Calls.setCont] using hlt, fun a' => ?_⟩
    rw [Calls.cont_setCont hi]
    split
    · next h =>
      -- cancelled between the check and the resumption
      subst h
      exact fun hcont => hne a' (Continuation.of_cancel_eq_resumed hcont)
    · exact hne a'

/-- **Guarded callbacks never throw.** -/
theorem never_crashes_of_guarded (hb : b.Guarded) {s₀ : σ} {es : List (Event ι κ)}
    (hrun : Run.exec b.step (.initial s₀) es = some t) : t.main ≠ .crashed := by
  have hinitial : Resumable (Calls.initial s₀ : Calls σ ι α) := by
    refine ⟨by simp [Calls.initial], fun i a h => ?_⟩
    cases h
  exact (Run.exec_invariant (C := fun _ _ => True) (fun _ _ _ hs _ => resumable_step hb hs)
    hinitial (Run.along_true _ _) hrun).1

/-! ### Callbacks without a guard -/

theorem exec_ops_concat {es : List (Event ι κ)} {c : Continuation α}
    (h : Run.exec Continuation.apply .active (b.ops i es) = some c) (e : Event ι κ) :
    Run.exec Continuation.apply .active (b.ops i (es ++ [e]))
      = match b.op i e with
        | some o => c.apply o
        | none => some c := by
  rw [ops, List.filterMap_append, Run.exec_append, ← ops, h, Option.bind_some]
  cases ho : b.op i e with
  | none => simp [ho]
  | some o => simp [ho]

/-- The calls are where their own operations have brought them, or one of these
has thrown. -/
def History (b : Bridge σ ι κ α) (es : List (Event ι κ)) (s : Calls σ ι α) : Prop :=
  match s.main with
  | .idle => ∀ i, Run.exec Continuation.apply .active (b.ops i es) = some (s.cont i)
  | .resuming _ _ => False
  | .crashed => ∃ i, Run.exec Continuation.apply .active (b.ops i es) = none

/-- An operation on call `i`. -/
theorem history_apply {es : List (Event ι κ)} {o : Op α}
    (hs : ∀ j, Run.exec Continuation.apply .active (b.ops j es) = some (s.cont j))
    (hop : ∀ j, b.op j e = if i = j then some o else none)
    (hsome : ∀ c, (s.cont i).apply o = some c →
      t.main = .idle ∧ ∀ j, t.cont j = if i = j then c else s.cont j)
    (hnone : (s.cont i).apply o = none → t.main = .crashed) : b.History (es ++ [e]) t := by
  have hexec : ∀ j, Run.exec Continuation.apply .active (b.ops j (es ++ [e]))
      = if i = j then (s.cont i).apply o else some (s.cont j) := by
    intro j
    rw [exec_ops_concat (hs j), hop]
    by_cases h : i = j
    · subst h
      rw [if_pos rfl, if_pos rfl]
    · rw [if_neg h, if_neg h]
  rw [History]
  cases ho : (s.cont i).apply o with
  | none =>
    rw [hnone ho]
    exact ⟨i, by rw [hexec, if_pos rfl, ho]⟩
  | some c =>
    obtain ⟨hmain, hcont⟩ := hsome c ho
    rw [hmain]
    intro j
    rw [hexec, hcont, ho]
    split <;> rfl

theorem history_step (hb : b.Unguarded) {es : List (Event ι κ)} (hs : b.History es s)
    (hstep : b.step s e = some t) : b.History (es ++ [e]) t := by
  -- without a guard the main thread never stands between a check and a resumption
  have hidle : s.main.alive = true → s.main = .idle := by
    intro halive
    rw [History] at hs
    split at hs
    · assumption
    · exact hs.elim
    · next hmain =>
      rw [hmain] at halive
      cases halive
  have hkept : ∀ u : Calls σ ι α, s.main = .idle → u.main = .idle → (∀ j, u.cont j = s.cont j) →
      (∀ j, b.op j e = none) → b.History (es ++ [e]) u := by
    intro u hmain hu hcont hop
    rw [History, hmain] at hs
    rw [History, hu]
    intro j
    rw [exec_ops_concat (hs j), hop, hcont]
  rcases step_cases hstep with ⟨x, rfl, halive, rfl⟩ | ⟨i, k, x, rfl, hmain, hi, rfl⟩ |
    ⟨i, a, rfl, hmain, rfl⟩ | ⟨i, rfl, halive, hi, rfl⟩
  · exact hkept _ (hidle halive) (hidle halive) (Calls.cont_append s x) fun _ => rfl
  · cases heffect : b.effect k with
    | nothing =>
      rw [callback, heffect]
      exact hkept _ hmain hmain (fun _ => rfl) fun j => by rw [op, heffect]
    | resume a =>
      have hcallback : b.callback s i x k
          = ({ s with shared := b.update x k s.shared } : Calls σ ι α).resume i a := by
        rw [callback, heffect]
      rw [History, hmain] at hs
      rw [hcallback]
      exact history_apply (i := i) (o := .resume a) hs (fun j => by rw [op, heffect])
        (fun c => Calls.of_resume_eq_some (s := { s with shared := b.update x k s.shared }) hi)
        (Calls.of_resume_eq_none (s := { s with shared := b.update x k s.shared }))
    | resumeIfActive a => exact absurd heffect (hb k a)
  · rw [History, hmain] at hs
    exact hs.elim
  · rw [History, hidle halive] at hs
    refine history_apply hs (fun j => rfl) (fun c hc => ?_) fun hnone => ?_
    · obtain rfl := Option.some_inj.mp hc
      exact ⟨hidle halive, Calls.cont_setCont hi _⟩
    · cases hnone

/-- **Which callbacks throw.**  Without a guard, a run of any calls crashes exactly
if one of the calls is resumed twice without having been cancelled first. -/
theorem crashes_iff (hb : b.Unguarded) {s₀ : σ} {es : List (Event ι κ)}
    (hrun : Run.exec b.step (.initial s₀) es = some t) :
    t.main ≠ .crashed ↔ ∀ i, AtMostOnce (b.ops i es) := by
  have hinitial : b.History [] (Calls.initial s₀) := by
    intro i
    rfl
  have hhistory : b.History es t :=
    Run.exec_history (fun _ _ _ _ hs => history_step hb hs) hinitial hrun
  simp only [← Continuation.exec_isSome_iff]
  rw [History] at hhistory
  split at hhistory
  · next hmain => simp [hmain, hhistory]
  · exact hhistory.elim
  · next hmain =>
    obtain ⟨i, hi⟩ := hhistory
    refine iff_of_false (fun h => h hmain) fun h => ?_
    have := h i
    simp [hi] at this

end Bridge

end Lemmas

end Coroutine

/-
A shared flow together with a subscriber that may come late.

A value that is emitted before the subscription is missed for good
(`replay = 0`); from then on the subscriber has a buffer of `n` values.

* `Flow n α` — the values missed and, once it has subscribed, the collector;
* `Flow.Moves` — what the subscriber does on its own: it changes nothing of what
  was emitted or missed, and uses up work;
* `Flow.Spacious` — while no more than `n` values have been emitted, none is
  forgotten;
* `Flow.Spacious.handled_eq_emitted_iff` — of a flow whose collector is drained,
  all that was emitted has been handled exactly if nothing was missed.
-/
import GrpcJniClient.SharedFlow

namespace SharedFlow

variable {α : Type*} {n : ℕ}

structure Flow (n : ℕ) (α : Type*) where
  /-- What was emitted while there was no subscriber. -/
  missed : List α
  collector : Option (Collector n α)

namespace Flow

def initial : Flow n α := ⟨[], none⟩

/-- All that has been emitted. -/
def emitted (f : Flow n α) : List α := f.missed ++ (f.collector.map Collector.emitted).getD []

/-- All that has been handled. -/
def handled (f : Flow n α) : List α := (f.collector.map Collector.handled).getD []

def tryEmit (f : Flow n α) (v : α) : Flow n α :=
  match f.collector with
  | none => { f with missed := f.missed ++ [v] }
  | some c => { f with collector := some (c.tryEmit v) }

/-- `collect` starts; once. -/
def subscribe (f : Flow n α) : Option (Flow n α) :=
  if f.collector.isNone then some { f with collector := some .initial } else none

/-- The collector takes its next value. -/
def take (f : Flow n α) : Option (Flow n α) :=
  f.collector.bind fun c => c.take.map fun c => { f with collector := some c }

/-- The collector finishes its value. -/
def handle (f : Flow n α) : Option (α × Flow n α) :=
  f.collector.bind fun c => c.handle.map fun (v, c) => (v, { f with collector := some c })

variable {f g : Flow n α} {v : α} {c : Collector n α}

theorem of_subscribe (h : f.subscribe = some g) :
    f.collector = none ∧ g = ⟨f.missed, some .initial⟩ := by
  rw [subscribe, Option.ite_none_right_eq_some, Option.isNone_iff_eq_none, Option.some_inj] at h
  exact ⟨h.1, h.2.symm⟩

theorem of_take (h : f.take = some g) :
    ∃ c c', f.collector = some c ∧ c.take = some c' ∧ g = ⟨f.missed, some c'⟩ := by
  rw [take, Option.bind_eq_some_iff] at h
  obtain ⟨c, hc, h⟩ := h
  obtain ⟨c', hc', rfl⟩ := Option.map_eq_some_iff.mp h
  exact ⟨c, c', hc, hc', rfl⟩

theorem of_handle (h : f.handle = some (v, g)) :
    ∃ c c', f.collector = some c ∧ c.handle = some (v, c') ∧ g = ⟨f.missed, some c'⟩ := by
  rw [handle, Option.bind_eq_some_iff] at h
  obtain ⟨c, hc, h⟩ := h
  obtain ⟨⟨w, c'⟩, hc', h⟩ := Option.map_eq_some_iff.mp h
  rw [Prod.mk.injEq] at h
  obtain ⟨rfl, rfl⟩ := h
  exact ⟨c, c', hc, hc', rfl⟩

/-! ### What was emitted, and what was missed -/

theorem emitted_tryEmit (f : Flow n α) (v : α) : (f.tryEmit v).emitted = f.emitted ++ [v] := by
  rcases f with ⟨missed, _ | c⟩
  · simp [tryEmit, emitted]
  · simp [tryEmit, emitted, Collector.tryEmit]

theorem emitted_of_subscribe (h : f.subscribe = some g) : g.emitted = f.emitted := by
  obtain ⟨hc, rfl⟩ := of_subscribe h
  rw [emitted, emitted, hc]
  rfl

theorem emitted_of_take (h : f.take = some g) : g.emitted = f.emitted := by
  obtain ⟨c, c', hc, hc', rfl⟩ := of_take h
  obtain ⟨_, -, -, -, -, he⟩ := Collector.of_take hc'
  rw [emitted, emitted, hc, Option.map_some, Option.map_some, he]

theorem emitted_of_handle (h : f.handle = some (v, g)) : g.emitted = f.emitted := by
  obtain ⟨c, c', hc, hc', rfl⟩ := of_handle h
  obtain ⟨-, -, -, -, he⟩ := Collector.of_handle hc'
  rw [emitted, emitted, hc, Option.map_some, Option.map_some, he]

/-- An emission is missed exactly if nobody has subscribed. -/
theorem missed_tryEmit_eq_nil :
    (f.tryEmit v).missed = [] ↔ f.missed = [] ∧ f.collector.isSome = true := by
  rcases f with ⟨missed, _ | c⟩
  · simp [tryEmit]
  · simp [tryEmit]

theorem missed_of_subscribe (h : f.subscribe = some g) : g.missed = f.missed := by
  obtain ⟨-, rfl⟩ := of_subscribe h
  rfl

theorem missed_of_take (h : f.take = some g) : g.missed = f.missed := by
  obtain ⟨-, -, -, -, rfl⟩ := of_take h
  rfl

theorem missed_of_handle (h : f.handle = some (v, g)) : g.missed = f.missed := by
  obtain ⟨-, -, -, -, rfl⟩ := of_handle h
  rfl

/-- A step of the subscriber. -/
inductive Moves (f : Flow n α) : Flow n α → Prop
  | subscribe {g : Flow n α} : f.subscribe = some g → Moves f g
  | take {g : Flow n α} : f.take = some g → Moves f g
  | handle {v : α} {g : Flow n α} : f.handle = some (v, g) → Moves f g

theorem Moves.emitted_eq (h : f.Moves g) : g.emitted = f.emitted := by
  cases h with
  | subscribe h => exact emitted_of_subscribe h
  | take h => exact emitted_of_take h
  | handle h => exact emitted_of_handle h

theorem Moves.missed_eq (h : f.Moves g) : g.missed = f.missed := by
  cases h with
  | subscribe h => exact missed_of_subscribe h
  | take h => exact missed_of_take h
  | handle h => exact missed_of_handle h

/-- Nothing that was missed is ever handled. -/
theorem missed_eq_nil_of_handled (h : f.handled = f.emitted) : f.missed = [] := by
  rcases f with ⟨missed, _ | c⟩
  · -- nobody has handled anything, so nothing was emitted either
    exact (List.append_eq_nil_iff.mp h.symm).1
  · -- no more is handled than was emitted to the collector
    have hle : c.handled.length ≤ c.emitted.length :=
      ((List.sublist_append_left _ _).trans c.inOrder).length_le
    have hlen : c.handled.length = missed.length + c.emitted.length := by
      rw [← List.length_append]
      exact congrArg List.length h
    have hzero : missed.length = 0 := by omega
    exact List.length_eq_zero_iff.mp hzero

/-! ### Flows with room for everything -/

/-- As long as no more values have been emitted than the buffer holds, none has
been forgotten. -/
def Spacious (f : Flow n α) : Prop :=
  ∀ c, f.collector = some c → c.emitted.length ≤ n → c.kept = c.emitted

theorem spacious_initial : (initial : Flow n α).Spacious := by
  intro c hc
  cases hc

theorem Spacious.tryEmit (hf : f.Spacious) (v : α) : (f.tryEmit v).Spacious := by
  rcases f with ⟨missed, _ | c⟩
  · intro c hc
    cases hc
  · intro c' hc' hlen
    obtain rfl := Option.some_inj.mp hc'
    have hlt : c.emitted.length < n := by
      rw [Collector.tryEmit, List.length_append, List.length_singleton] at hlen
      omega
    have hkept := hf c rfl hlt.le
    -- nothing is forgotten so far, so the buffer holds less than its room
    have hroom : c.flow.items.length < n := by
      have hlength := congrArg List.length hkept
      rw [Collector.kept, List.length_append, List.length_append] at hlength
      omega
    rw [Collector.kept_tryEmit_of_lt hroom, hkept]
    rfl

theorem Spacious.subscribe (h : f.subscribe = some g) : g.Spacious := by
  obtain ⟨-, rfl⟩ := of_subscribe h
  intro c hc _
  obtain rfl := Option.some_inj.mp hc
  rfl

theorem Spacious.take (hf : f.Spacious) (h : f.take = some g) : g.Spacious := by
  obtain ⟨c, c', hc, hc', rfl⟩ := of_take h
  obtain ⟨_, -, -, -, -, he⟩ := Collector.of_take hc'
  intro c'' hc'' hlen
  obtain rfl := Option.some_inj.mp hc''
  rw [he] at hlen ⊢
  rw [Collector.kept_of_take hc', hf c hc hlen]

theorem Spacious.handle (hf : f.Spacious) (h : f.handle = some (v, g)) : g.Spacious := by
  obtain ⟨c, c', hc, hc', rfl⟩ := of_handle h
  obtain ⟨-, -, -, -, he⟩ := Collector.of_handle hc'
  intro c'' hc'' hlen
  obtain rfl := Option.some_inj.mp hc''
  rw [he] at hlen ⊢
  rw [Collector.kept_of_handle hc', hf c hc hlen]

theorem Spacious.moves (hf : f.Spacious) (h : f.Moves g) : g.Spacious := by
  cases h with
  | subscribe h => exact .subscribe h
  | take h => exact hf.take h
  | handle h => exact hf.handle h

/-- With room for everything, a drained collector has handled all that was
emitted exactly if nothing was missed. -/
theorem Spacious.handled_eq_emitted_iff (hf : f.Spacious) (hlen : f.emitted.length ≤ n)
    (hc : f.collector = some c) (hd : c.Drained) : f.handled = f.emitted ↔ f.missed = [] := by
  refine ⟨missed_eq_nil_of_handled, fun hm => ?_⟩
  -- what was emitted reached the collector, which has kept it
  have hemitted : f.emitted = c.emitted := by
    rw [emitted, hm, hc]
    rfl
  have hkept : c.kept = c.emitted := hf c hc (hemitted ▸ hlen)
  rw [hemitted, handled, hc, ← hkept, hd.kept_eq]
  rfl

/-! ### The work that is left -/

/-- The steps the subscriber has still to take. -/
def work (f : Flow n α) : ℕ :=
  match f.collector with
  | none => 1
  | some c => 2 * c.flow.items.length + c.holding.toList.length

theorem work_of_subscribe (h : f.subscribe = some g) : g.work < f.work := by
  obtain ⟨hc, rfl⟩ := of_subscribe h
  rw [work, work, hc]
  exact Nat.zero_lt_one

theorem work_of_take (h : f.take = some g) : g.work < f.work := by
  obtain ⟨c, c', hc, hc', rfl⟩ := of_take h
  obtain ⟨v, hnone, hitems, hsome, -, -⟩ := Collector.of_take hc'
  simp only [work, hc, hnone, hitems, hsome, List.length_cons, Option.toList_none,
    Option.toList_some, List.length_nil]
  omega

theorem work_of_handle (h : f.handle = some (v, g)) : g.work < f.work := by
  obtain ⟨c, c', hc, hc', rfl⟩ := of_handle h
  obtain ⟨hsome, hnone, hflow, -, -⟩ := Collector.of_handle hc'
  simp only [work, hc, hnone, hsome, hflow, Option.toList_none, Option.toList_some,
    List.length_cons, List.length_nil]
  omega

theorem Moves.work_lt (h : f.Moves g) : g.work < f.work := by
  cases h with
  | subscribe h => exact work_of_subscribe h
  | take h => exact work_of_take h
  | handle h => exact work_of_handle h

/-- A collector with nothing to take and nothing in hand is drained. -/
theorem drained_of_stuck (hc : f.collector = some c) (htake : f.take = none)
    (hhandle : f.handle = none) : c.Drained := by
  rw [handle, hc, Option.bind_some, Option.map_eq_none_iff] at hhandle
  rw [take, hc, Option.bind_some, Option.map_eq_none_iff] at htake
  exact .of_stuck htake hhandle

end Flow

end SharedFlow

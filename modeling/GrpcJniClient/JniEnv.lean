/-
Native code on a thread of a Java VM.

A thread has an environment while it is attached, and holds local references,
which are numbered; those of an attachment end with it.  Whether the platform
grants an attachment or an object is free (`answers`).  Anything done without an
environment, and any use of a reference that is not live, sets `faulted`.

* `withEnv` — attaches the thread for a block, unless it is attached already;
* `Block` — a block leaves the thread attached, does not fault, and says which
  references stay and what it calls;
* `Block.withEnv` — so a block in `withEnv` leaves the attachment as it was, and
  without one no references.
-/
import Mathlib.Data.List.Basic

namespace Jni

structure Thread (υ : Type*) where
  attached : Bool
  /-- The local references that are live. -/
  localRefs : List ℕ
  /-- The number of the next one. -/
  nextRef : ℕ
  /-- What the platform answers, in order; where they end it grants all. -/
  answers : List Bool
  /-- The calls of Java methods. -/
  upcalls : List υ
  faulted : Bool
  deriving DecidableEq, Repr

abbrev Native (υ α : Type) := StateM (Thread υ) α

section

variable {υ : Type}

def ask : Native υ Bool := do
  let s ← get
  set { s with answers := s.answers.tail }
  return s.answers.headD true

/-- An access through the environment that needs these references, null ones apart. -/
def use (refs : List (Option ℕ)) : Native υ Unit := modify fun s =>
  { s with faulted := s.faulted || !s.attached || !refs.all (·.all (s.localRefs.contains ·)) }

def newLocalRef : Native υ ℕ := do
  use []
  let s ← get
  set { s with localRefs := s.localRefs ++ [s.nextRef], nextRef := s.nextRef + 1 }
  return s.nextRef

/-- A function that makes an object or returns null. -/
def newObject : Native υ (Option ℕ) := do
  if ← ask then
    let r ← newLocalRef
    return some r
  else
    use []
    return none

def deleteLocalRef (r : Option ℕ) : Native υ Unit := do
  use [r]
  modify fun s => { s with localRefs := r.elim s.localRefs s.localRefs.erase }

def callMethod (refs : List (Option ℕ)) (u : υ) : Native υ Unit := do
  use refs
  modify fun s => { s with upcalls := s.upcalls ++ [u] }

/-- Run a block with an environment: the thread's own, or that of an attachment for
the block. -/
def withEnv (fn : Native υ Unit) : Native υ Unit := do
  let s ← get
  if s.attached then fn
  else if ← ask then
    modify fun s => { s with attached := true, localRefs := [] }
    fn
    modify fun s => { s with attached := false, localRefs := [] }

theorem run_bind {α β : Type} {s t : Thread υ} {x : Native υ α} {f : α → Native υ β} {a : α}
    (h : x.run s = (a, t)) : (x >>= f).run s = (f a).run t := by
  show (f (x.run s).1).run (x.run s).2 = _
  rw [h]

/-! ### Blocks -/

/-- References are numbered in order, and there are none without an attachment. -/
structure Thread.WellFormed (s : Thread υ) : Prop where
  fresh : ∀ r ∈ s.localRefs, r < s.nextRef
  detached : s.attached = false → s.localRefs = []

/-- The platform grants everything from here on. -/
def Thread.Granting (s : Thread υ) : Prop := ∀ a ∈ s.answers, a = true

/-- From the start `s` of a block, `t` has been reached with the references `new` and
the calls `calls`. -/
structure Within (s t : Thread υ) (new : List ℕ) (calls : List υ) : Prop where
  attached : t.attached = true
  localRefs : t.localRefs = s.localRefs ++ new
  old : ∀ r ∈ s.localRefs, r < s.nextRef
  new : ∀ r ∈ new, s.nextRef ≤ r ∧ r < t.nextRef
  nextRef : s.nextRef ≤ t.nextRef
  upcalls : t.upcalls = s.upcalls ++ calls
  faulted : t.faulted = s.faulted
  granting : s.Granting → t.Granting

variable {s t : Thread υ} {new : List ℕ} {calls : List υ} {fn : Native υ Unit}

theorem within_self (hs : s.WellFormed) (h : s.attached = true) : Within s s [] [] where
  attached := h
  localRefs := (List.append_nil _).symm
  old := hs.fresh
  new _ hr := by cases hr
  nextRef := Nat.le_refl _
  upcalls := (List.append_nil _).symm
  faulted := rfl
  granting := id

namespace Within

theorem fresh (h : Within s t new calls) : ∀ r ∈ t.localRefs, r < t.nextRef := by
  intro r hr
  rw [h.localRefs] at hr
  rcases List.mem_append.mp hr with hr | hr
  · exact Nat.lt_of_lt_of_le (h.old r hr) h.nextRef
  · exact (h.new r hr).2

theorem use (h : Within s t new calls) (refs : List (Option ℕ))
    (hrefs : ∀ r, some r ∈ refs → r ∈ new) :
    (use refs).run t = ((), t) := by
  have hall : refs.all (·.all (t.localRefs.contains ·)) = true := by
    rw [List.all_eq_true, h.localRefs]
    rintro (_ | r) hr
    · rfl
    · simpa using Or.inr (hrefs r hr)
  have hfaulted : (t.faulted || !t.attached || !refs.all (·.all (t.localRefs.contains ·))) =
      t.faulted := by
    rw [h.attached, hall]
    simp
  show ((), { t with faulted := _ }) = ((), t)
  rw [hfaulted]

theorem newLocalRef (h : Within s t new calls) :
    ∃ r t', (newLocalRef : Native υ ℕ).run t = (r, t') ∧ r ∉ new ∧
      Within s t' (new ++ [r]) calls := by
  refine ⟨_, _, run_bind (h.use [] (by simp)),
    fun hr => absurd (h.new _ hr).2 (Nat.lt_irrefl _), ?_⟩
  exact { h with
    localRefs := by
      show t.localRefs ++ [t.nextRef] = _
      rw [h.localRefs, List.append_assoc]
    new := by
      intro r hr
      rcases List.mem_append.mp hr with hr | hr
      · exact ⟨(h.new r hr).1, Nat.lt_succ_of_lt (h.new r hr).2⟩
      · rw [List.mem_singleton.mp hr]
        exact ⟨h.nextRef, Nat.lt_succ_self _⟩
    nextRef := Nat.le_succ_of_le h.nextRef }

theorem ask (h : Within s t new calls) : ∃ a t', (ask : Native υ Bool).run t = (a, t') ∧
    Within s t' new calls ∧ (s.Granting → a = true) := by
  refine ⟨_, _, rfl, { h with granting := fun hs a ha => ?_ }, fun hs => ?_⟩
  · exact h.granting hs a (List.mem_of_mem_tail ha)
  · have ht := h.granting hs
    cases hanswers : t.answers with
    | nil => rfl
    | cons a as => exact ht a (by rw [hanswers]; exact List.mem_cons_self)

theorem newObject (h : Within s t new calls) :
    ∃ r t', (newObject : Native υ (Option ℕ)).run t = (r, t') ∧
      Within s t' (new ++ r.toList) calls ∧ (s.Granting → r.isSome = true) := by
  obtain ⟨a, t', hrun, h', ha⟩ := h.ask
  cases a with
  | true =>
    obtain ⟨r, t'', hrun', -, h''⟩ := h'.newLocalRef
    exact ⟨some r, t'', (run_bind hrun).trans (run_bind hrun'), h'', fun _ => rfl⟩
  | false =>
    refine ⟨none, t', (run_bind hrun).trans (run_bind (h'.use [] (by simp))), ?_,
      fun hs => absurd (ha hs) Bool.false_ne_true⟩
    rwa [Option.toList_none, List.append_nil]

theorem deleteLocalRef {r : Option ℕ} (h : Within s t new calls) (hr : ∀ i, r = some i → i ∈ new) :
    ∃ t', (deleteLocalRef r : Native υ Unit).run t = ((), t') ∧
      Within s t' (r.elim new new.erase) calls := by
  have hrun := run_bind (f := fun _ => modify fun s : Thread υ =>
    { s with localRefs := r.elim s.localRefs s.localRefs.erase })
    (h.use [r] fun i hi => hr i (List.mem_singleton.mp hi).symm)
  refine ⟨_, hrun, ?_⟩
  cases r with
  | none => exact h
  | some i =>
    have hi := hr i rfl
    refine { h with localRefs := ?_, new := fun i' hi' => h.new i' (List.mem_of_mem_erase hi') }
    -- the reference is none of those from before the block
    have hold : i ∉ s.localRefs := fun hmem =>
      absurd (h.old i hmem) (Nat.not_lt.mpr (h.new i hi).1)
    show t.localRefs.erase i = _
    rw [h.localRefs, List.erase_append_right _ hold]
    rfl

theorem callMethod (h : Within s t new calls) (refs : List (Option ℕ)) (u : υ)
    (hrefs : ∀ r, some r ∈ refs → r ∈ new) :
    ∃ t', (callMethod refs u : Native υ Unit).run t = ((), t') ∧
      Within s t' new (calls ++ [u]) := by
  refine ⟨_, run_bind (h.use refs hrefs), { h with upcalls := ?_ }⟩
  show t.upcalls ++ [u] = _
  rw [h.upcalls, List.append_assoc]

end Within

section

variable {β : Type} (f : υ → β)

/-- What a block does: it leaves at most `left` references, and makes some of the calls
`wanted`, in order and up to what `f` ignores; where the platform grants everything, it
leaves as many and makes them all. -/
def Block (fn : Native υ Unit) (left : ℕ) (wanted : List υ) : Prop :=
  ∀ s : Thread υ, s.WellFormed → s.attached = true →
    ∃ new calls, Within s (fn.run s).2 new calls ∧
      (new.length ≤ left ∧ (s.Granting → new.length = left)) ∧
      (calls.map f).Sublist (wanted.map f) ∧ (s.Granting → calls = wanted)

/-- What code does to a thread that may be attached or not. -/
structure Leaves (left : ℕ) (wanted : List υ) (s t : Thread υ) : Prop where
  attached : t.attached = s.attached
  wellFormed : t.WellFormed
  faulted : t.faulted = s.faulted
  granting : s.Granting → t.Granting
  refs : ∃ new, t.localRefs = s.localRefs ++ new ∧ new.length ≤ left ∧
    (s.attached = true → s.Granting → new.length = left)
  upcalls : ∃ calls, t.upcalls = s.upcalls ++ calls ∧
    (calls.map f).Sublist (wanted.map f) ∧ (s.Granting → calls = wanted)

variable {f} {left left' : ℕ} {wanted wanted' : List υ}

theorem leaves_self (hs : s.WellFormed) : Leaves f 0 [] s s where
  attached := rfl
  wellFormed := hs
  faulted := rfl
  granting := id
  refs := ⟨[], (List.append_nil _).symm, Nat.le_refl _, fun _ _ => rfl⟩
  upcalls := ⟨[], (List.append_nil _).symm, List.Sublist.refl _, fun _ => rfl⟩

theorem Leaves.trans {v : Thread υ} (h : Leaves f left wanted s t)
    (h' : Leaves f left' wanted' t v) : Leaves f (left + left') (wanted ++ wanted') s v := by
  obtain ⟨new, hnew, hleft, hexact⟩ := h.refs
  obtain ⟨new', hnew', hleft', hexact'⟩ := h'.refs
  obtain ⟨calls, hcalls, hsub, hall⟩ := h.upcalls
  obtain ⟨calls', hcalls', hsub', hall'⟩ := h'.upcalls
  exact {
    attached := h'.attached.trans h.attached
    wellFormed := h'.wellFormed
    faulted := h'.faulted.trans h.faulted
    granting := fun hs => h'.granting (h.granting hs)
    refs := by
      refine ⟨new ++ new', by rw [hnew', hnew, List.append_assoc], ?_, fun ha hs => ?_⟩
      · rw [List.length_append]
        omega
      · rw [List.length_append, hexact ha hs,
          hexact' (h.attached.trans ha) (h.granting hs)]
    upcalls := by
      refine ⟨calls ++ calls', by rw [hcalls', hcalls, List.append_assoc], ?_, fun hs => ?_⟩
      · rw [List.map_append, List.map_append]
        exact hsub.append hsub'
      · rw [hall hs, hall' (h.granting hs)] }

theorem Within.leaves (h : Within s t new calls) (hattached : s.attached = true)
    (hleft : new.length ≤ left ∧ (s.Granting → new.length = left))
    (hcalls : (calls.map f).Sublist (wanted.map f) ∧ (s.Granting → calls = wanted)) :
    Leaves f left wanted s t where
  attached := h.attached.trans hattached.symm
  wellFormed := ⟨h.fresh, fun hd => absurd (h.attached.symm.trans hd) (by simp)⟩
  faulted := h.faulted
  granting := h.granting
  refs := ⟨new, h.localRefs, hleft.1, fun _ => hleft.2⟩
  upcalls := ⟨calls, h.upcalls, hcalls⟩

/-- A block in `withEnv`, on any thread. -/
theorem Block.withEnv (hfn : Block f fn left wanted) (hs : s.WellFormed) :
    Leaves f left wanted s ((withEnv fn).run s).2 := by
  by_cases hattached : s.attached = true
  · have hrun : (Jni.withEnv fn).run s = fn.run s := by
      show (if s.attached = true then fn else _).run s = _
      rw [if_pos hattached]
    rw [hrun]
    obtain ⟨new, calls, h, hleft, hcalls⟩ := hfn s hs hattached
    exact h.leaves hattached hleft hcalls
  · have hdetached : s.attached = false := by simpa using hattached
    have hrefs := hs.detached hdetached
    have hgranting : s.Granting → ∀ a ∈ s.answers.tail, a = true :=
      fun hs a ha => hs a (List.mem_of_mem_tail ha)
    have hrun : (Jni.withEnv fn).run s =
        if s.answers.headD true then
          ((), { (fn.run { s with
            answers := s.answers.tail, attached := true, localRefs := [] }).2 with
              attached := false, localRefs := [] })
        else ((), { s with answers := s.answers.tail }) := by
      show (if s.attached = true then fn else _).run s = _
      rw [if_neg hattached]
      show (if s.answers.headD true = true then _ else _ : Native υ Unit).run
        { s with answers := s.answers.tail } = _
      split <;> rfl
    rw [hrun]
    split
    case isTrue =>
      obtain ⟨new, calls, h, -, hsub, hall⟩ := hfn { s with
        answers := s.answers.tail, attached := true, localRefs := [] }
        ⟨fun r hr => absurd hr List.not_mem_nil, fun _ => rfl⟩ rfl
      exact {
        attached := hdetached.symm
        wellFormed := ⟨fun r hr => absurd hr List.not_mem_nil, fun _ => rfl⟩
        faulted := h.faulted
        granting := fun hs => h.granting (hgranting hs)
        refs := ⟨[], by rw [hrefs]; rfl, Nat.zero_le _, fun ha => absurd ha hattached⟩
        upcalls := ⟨calls, h.upcalls, hsub, fun hs => hall (hgranting hs)⟩ }
    case isFalse hanswer =>
      have hnot : ¬ s.Granting := by
        intro hs
        cases hanswers : s.answers with
        | nil => exact hanswer (by rw [hanswers]; rfl)
        | cons a as =>
          have ha := hs a (by rw [hanswers]; exact List.mem_cons_self)
          exact hanswer (by rw [hanswers]; exact ha)
      exact {
        attached := rfl
        wellFormed := ⟨hs.fresh, hs.detached⟩
        faulted := rfl
        granting := fun hs => absurd hs hnot
        refs := ⟨[], (List.append_nil _).symm, Nat.zero_le _, fun ha => absurd ha hattached⟩
        upcalls := ⟨[], (List.append_nil _).symm, List.nil_sublist _, fun hs => absurd hs hnot⟩ }

end

end

end Jni

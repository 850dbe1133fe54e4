/-
Buffers of a shared flow without replay that drops its oldest value.

A `MutableSharedFlow` with `replay = 0`, `extraBufferCapacity = n` and
`BufferOverflow.DROP_OLDEST` keeps, for every subscriber, the values emitted
since the subscription that the subscriber has not taken yet.  `tryEmit` never
suspends: it appends the value and, when more than `n` are waiting, forgets the
oldest.  A value emitted while nobody is subscribed is kept for nobody.

`Buffer n α` is one subscriber's share, with the bound as a field, and
`Collector n α` a subscriber that takes one value at a time and handles it, with
the histories of what was emitted and handled.

* `forgotten_append` — an offer forgets from the old end only, and
  `forgotten_of_lt`: nothing below capacity;
* `Collector.inOrder` — a field of every collector: what it has handled, holds
  and has still to take is a sublist of what was emitted, so nothing is ever
  reordered or duplicated;
* `Collector.lossless_tryEmit` — losing values of a kind is final, and happens
  exactly when an emission forgets one.
-/
import Mathlib.Data.List.Basic
import Mathlib.Data.List.Infix

namespace SharedFlow

variable {α : Type*} {n : ℕ}

/-- The values a subscriber has still to take, oldest first. -/
structure Buffer (n : ℕ) (α : Type*) where
  items : List α
  bound : items.length ≤ n

namespace Buffer

@[ext] theorem ext {b c : Buffer n α} (h : b.items = c.items) : b = c := by
  cases b
  cases c
  subst h
  rfl

instance [DecidableEq α] : DecidableEq (Buffer n α) := fun b c =>
  decidable_of_iff (b.items = c.items) ⟨ext, congrArg items⟩

/-- The buffer of a subscriber that has just subscribed (`replay = 0`). -/
def empty : Buffer n α := ⟨[], Nat.zero_le n⟩

/-- `tryEmit` as one subscriber sees it. -/
def offer (b : Buffer n α) (v : α) : Buffer n α where
  items := (b.items ++ [v]).drop (b.items.length + 1 - n)
  bound := by
    rw [List.length_drop, List.length_append, List.length_singleton]
    omega

theorem offer_items (b : Buffer n α) (v : α) :
    (b.offer v).items = (b.items ++ [v]).drop (b.items.length + 1 - n) := rfl

/-- What an offer forgets: the oldest value of a full buffer, else nothing. -/
def forgotten (b : Buffer n α) (v : α) : List α :=
  (b.items ++ [v]).take (b.items.length + 1 - n)

theorem forgotten_append (b : Buffer n α) (v : α) :
    b.forgotten v ++ (b.offer v).items = b.items ++ [v] :=
  List.take_append_drop _ _

theorem forgotten_of_lt {b : Buffer n α} {v : α} (h : b.items.length < n) :
    b.forgotten v = [] := by
  rw [forgotten, Nat.sub_eq_zero_of_le h, List.take_zero]

/-- Take the oldest value, when there is one. -/
def poll (b : Buffer n α) : Option (α × Buffer n α) :=
  match b with
  | ⟨[], _⟩ => none
  | ⟨v :: vs, h⟩ => some (v, ⟨vs, (Nat.le_succ _).trans h⟩)

theorem poll_eq_some {b b' : Buffer n α} {v : α} :
    b.poll = some (v, b') ↔ b.items = v :: b'.items := by
  rcases b with ⟨_ | ⟨w, ws⟩, hb⟩
  · simp [poll]
  · constructor
    · intro h
      rw [poll, Option.some_inj, Prod.mk.injEq] at h
      obtain ⟨rfl, rfl⟩ := h
      rfl
    · intro h
      obtain ⟨rfl, rfl⟩ := List.cons.inj h
      rfl

/-- An offer keeps its value, behind what it does not forget. -/
theorem offer_items_concat (b : Buffer n α) (v : α) (hn : 0 < n) :
    (b.offer v).items = b.items.drop (b.items.length + 1 - n) ++ [v] := by
  have hle : b.items.length + 1 - n ≤ b.items.length := by omega
  rw [offer_items, List.drop_append_of_le_length hle]

/-- What has just been offered is there. -/
theorem mem_offer {b : Buffer n α} (v : α) (hn : 0 < n) : v ∈ (b.offer v).items := by
  rw [offer_items_concat b v hn]
  exact List.mem_append_right _ (List.mem_singleton_self v)

/-- Of many offers the buffer keeps the last. -/
theorem items_foldl_offer (b : Buffer n α) (vs : List α) :
    (vs.foldl offer b).items = (b.items ++ vs).drop (b.items.length + vs.length - n) := by
  -- on the offers; each drops what is over the bound
  induction vs generalizing b with
  | nil =>
    rw [List.foldl_nil, List.append_nil, List.length_nil, Nat.add_zero,
      Nat.sub_eq_zero_of_le b.bound, List.drop_zero]
  | cons v vs ih =>
    have hle : b.items.length + 1 - n ≤ (b.items ++ [v]).length := by
      rw [List.length_append, List.length_singleton]
      exact Nat.sub_le _ _
    have hlen : (b.offer v).items.length = b.items.length + 1 - (b.items.length + 1 - n) := by
      rw [offer_items, List.length_drop, List.length_append, List.length_singleton]
    rw [List.foldl_cons, ih, hlen, offer_items, ← List.drop_append_of_le_length hle,
      List.drop_drop, List.append_assoc, List.singleton_append, List.length_cons]
    congr 1
    have := b.bound
    omega

/-- As many offers as the buffer holds replace what was in it. -/
theorem items_foldl_offer_of_length (b : Buffer n α) {vs : List α} (h : vs.length = n) :
    (vs.foldl offer b).items = vs := by
  rw [items_foldl_offer, h, Nat.add_sub_cancel, List.drop_left]

/-- An offer forgets values from the old end only. -/
theorem offer_suffix (b : Buffer n α) (v : α) : (b.offer v).items <:+ b.items ++ [v] :=
  List.drop_suffix _ _

/-- An offer now forgets no value of the kind `p`: there is room, or the oldest
waiting value is of another kind. -/
def Spares (p : α → Bool) (b : Buffer n α) : Prop :=
  b.items.length < n ∨ ∀ w, b.items.head? = some w → p w = false

/-- Where every value counts, there must be room. -/
theorem spares_true {b : Buffer n α} (hn : 0 < n) :
    b.Spares (fun _ => true) ↔ b.items.length < n := by
  refine or_iff_left_of_imp fun h => ?_
  -- an empty buffer has room; any other has an oldest value, which counts
  rcases b with ⟨_ | ⟨w, ws⟩, hb⟩
  · exact hn
  · exact absurd (h w rfl) Bool.true_eq_false.mp

theorem forall_forgotten {p : α → Bool} {b : Buffer n α} {v : α} (hn : 0 < n) :
    (∀ w ∈ b.forgotten v, p w = false) ↔ b.Spares p := by
  rcases Nat.lt_or_eq_of_le b.bound with hlt | heq
  · rw [forgotten_of_lt hlt]
    exact ⟨fun _ => Or.inl hlt, fun _ w hw => absurd hw List.not_mem_nil⟩
  · -- a full buffer of positive capacity forgets its head
    obtain ⟨w, ws, hb⟩ : ∃ w ws, b.items = w :: ws :=
      List.exists_cons_of_length_pos (by omega)
    have hf : b.forgotten v = [w] := by
      rw [forgotten, heq, Nat.add_sub_cancel_left, hb]
      rfl
    rw [hf, Spares, hb]
    simp only [List.mem_singleton, forall_eq, List.head?_cons, Option.some_inj, forall_eq']
    refine (or_iff_right ?_).symm
    rw [← hb, heq]
    exact Nat.lt_irrefl n

end Buffer

/-- A subscriber that takes the values one at a time and handles each before it
takes the next. -/
structure Collector (n : ℕ) (α : Type*) where
  /-- What has been emitted since the subscription. -/
  emitted : List α
  /-- What is still to be taken. -/
  flow : Buffer n α
  /-- The value being handled. -/
  holding : Option α
  /-- What has been handled. -/
  handled : List α
  inOrder : (handled ++ (holding.toList ++ flow.items)).Sublist emitted

namespace Collector

/-- A collector that has just subscribed. -/
def initial : Collector n α := ⟨[], .empty, none, [], List.Sublist.refl []⟩

/-- Everything of what was emitted that has not been forgotten. -/
def kept (c : Collector n α) : List α := c.handled ++ (c.holding.toList ++ c.flow.items)

theorem kept_sublist (c : Collector n α) : c.kept.Sublist c.emitted := c.inOrder

/-- The collector has taken and handled all there is. -/
def Drained (c : Collector n α) : Prop := c.holding = none ∧ c.flow.items = []

theorem Drained.kept_eq {c : Collector n α} (h : c.Drained) : c.kept = c.handled := by
  rw [kept, h.1, h.2, Option.toList_none, List.append_nil, List.append_nil]

theorem kept_offer (c : Collector n α) (v : α) :
    (c.handled ++ (c.holding.toList ++ (c.flow.offer v).items)).Sublist (c.kept ++ [v]) := by
  rw [kept, List.append_assoc, List.append_assoc]
  exact ((c.flow.offer_suffix v).sublist.append_left _).append_left _

/-- `tryEmit` on the flow the collector has subscribed to. -/
def tryEmit (c : Collector n α) (v : α) : Collector n α where
  emitted := c.emitted ++ [v]
  flow := c.flow.offer v
  holding := c.holding
  handled := c.handled
  inOrder := (kept_offer c v).trans (c.inOrder.append_right [v])

/-- Take the next value; possible when none is being handled. -/
def take (c : Collector n α) : Option (Collector n α) :=
  if hc : c.holding = none then
    match h : c.flow.poll with
    | none => none
    | some (v, flow) =>
        some ⟨c.emitted, flow, some v, c.handled, by
          have hI := c.inOrder
          rwa [hc, Buffer.poll_eq_some.mp h] at hI⟩
  else none

/-- Finish the value being handled. -/
def handle (c : Collector n α) : Option (α × Collector n α) :=
  match h : c.holding with
  | none => none
  | some v =>
      some (v, ⟨c.emitted, c.flow, none, c.handled ++ [v], by
        have hI := c.inOrder
        rwa [h, Option.toList_some, ← List.append_assoc, List.append_assoc _ [v],
          ← List.append_assoc] at hI⟩)

theorem of_take {c c' : Collector n α} (h : c.take = some c') :
    ∃ v, c.holding = none ∧ c.flow.items = v :: c'.flow.items ∧ c'.holding = some v ∧
      c'.handled = c.handled ∧ c'.emitted = c.emitted := by
  unfold take at h
  split at h
  · rename_i hc
    split at h
    · exact absurd h (by simp)
    · rename_i v flow hp
      obtain rfl := Option.some_inj.mp h
      exact ⟨v, hc, Buffer.poll_eq_some.mp hp, rfl, rfl, rfl⟩
  · exact absurd h (by simp)

theorem of_handle {c c' : Collector n α} {v : α} (h : c.handle = some (v, c')) :
    c.holding = some v ∧ c'.holding = none ∧ c'.flow = c.flow ∧
      c'.handled = c.handled ++ [v] ∧ c'.emitted = c.emitted := by
  unfold handle at h
  split at h
  · exact absurd h (by simp)
  · rename_i w hw
    obtain ⟨rfl, rfl⟩ := Prod.mk.inj (Option.some_inj.mp h)
    exact ⟨hw, rfl, rfl, rfl, rfl⟩

/-- What is handled has been emitted. -/
theorem mem_emitted_of_handle {c c' : Collector n α} {v : α} (h : c.handle = some (v, c')) :
    v ∈ c.emitted := by
  obtain ⟨hv, -⟩ := of_handle h
  refine c.kept_sublist.subset ?_
  rw [kept, hv]
  exact List.mem_append_right _ (List.mem_append_left _ (List.mem_singleton_self v))

/-- A collector that handles nothing can take what waits. -/
theorem exists_take {c : Collector n α} (hc : c.holding = none) (hne : c.flow.items ≠ []) :
    ∃ c', c.take = some c' := by
  unfold take
  rw [dif_pos hc]
  split
  · rename_i hpoll
    -- something waits, so polling gives a value
    rcases hb : c.flow with ⟨_ | ⟨v, vs⟩, hbound⟩
    · rw [hb] at hne
      exact absurd rfl hne
    · rw [hb] at hpoll
      cases hpoll
  · exact ⟨_, rfl⟩

theorem exists_handle {c : Collector n α} {v : α} (hc : c.holding = some v) :
    ∃ c', c.handle = some (v, c') := by
  unfold handle
  split
  · rename_i hnone
    rw [hnone] at hc
    cases hc
  · rename_i w hw
    obtain rfl := Option.some_inj.mp (hw.symm.trans hc)
    exact ⟨_, rfl⟩

theorem kept_of_take {c c' : Collector n α} (h : c.take = some c') : c'.kept = c.kept := by
  obtain ⟨v, hc, hf, hv, hh, -⟩ := of_take h
  rw [kept, kept, hc, hf, hv, hh]
  rfl

theorem kept_of_handle {c c' : Collector n α} {v : α} (h : c.handle = some (v, c')) :
    c'.kept = c.kept := by
  obtain ⟨hc, hv, hf, hh, -⟩ := of_handle h
  rw [kept, kept, hc, hf, hv, hh, List.append_assoc]
  rfl

/-- With room for it, a value is kept behind all the others. -/
theorem kept_tryEmit_of_lt {c : Collector n α} (h : c.flow.items.length < n) (v : α) :
    (c.tryEmit v).kept = c.kept ++ [v] := by
  have hoffer := c.flow.forgotten_append v
  rw [Buffer.forgotten_of_lt h, List.nil_append] at hoffer
  show c.handled ++ (c.holding.toList ++ (c.flow.offer v).items) = c.kept ++ [v]
  rw [hoffer, kept, List.append_assoc, List.append_assoc]

theorem Drained.of_stuck {c : Collector n α} (htake : c.take = none) (hhandle : c.handle = none) :
    c.Drained := by
  -- else it could finish what it is handling
  have hc : c.holding = none := by
    by_contra hne
    obtain ⟨v, hv⟩ := Option.ne_none_iff_exists'.mp hne
    obtain ⟨c', hc'⟩ := exists_handle hv
    rw [hc'] at hhandle
    cases hhandle
  refine ⟨hc, ?_⟩
  by_contra hne
  obtain ⟨c', hc'⟩ := exists_take hc hne
  rw [hc'] at htake
  cases htake

/-- The last value emitted is never the one that is forgotten. -/
theorem getLast?_kept_tryEmit (c : Collector n α) (v : α) (hn : 0 < n) :
    (c.tryEmit v).kept.getLast? = some v := by
  show (c.handled ++ (c.holding.toList ++ (c.flow.offer v).items)).getLast? = some v
  rw [Buffer.offer_items_concat c.flow v hn, ← List.append_assoc, ← List.append_assoc,
    List.getLast?_concat]

/-! ### Losing values -/

/-- No value of the kind `p` that was emitted has been forgotten. -/
def Lossless (p : α → Bool) (c : Collector n α) : Prop :=
  c.kept.filter p = c.emitted.filter p

theorem lossless_initial (p : α → Bool) : Lossless p (initial : Collector n α) := rfl

theorem lossless_iff_countP {p : α → Bool} {c : Collector n α} :
    c.Lossless p ↔ c.kept.countP p = c.emitted.countP p := by
  rw [Lossless, List.countP_eq_length_filter, List.countP_eq_length_filter]
  exact ⟨fun h => congrArg List.length h, (c.kept_sublist.filter p).eq_of_length⟩

theorem lossless_of_take {p : α → Bool} {c c' : Collector n α} (h : c.take = some c') :
    c'.Lossless p ↔ c.Lossless p := by
  obtain ⟨_, -, -, -, -, he⟩ := of_take h
  rw [Lossless, Lossless, kept_of_take h, he]

theorem lossless_of_handle {p : α → Bool} {c c' : Collector n α} {v : α}
    (h : c.handle = some (v, c')) : c'.Lossless p ↔ c.Lossless p := by
  obtain ⟨-, -, -, -, he⟩ := of_handle h
  rw [Lossless, Lossless, kept_of_handle h, he]

/-- An emission keeps or forgets each value of the kind `p`. -/
theorem countP_kept_tryEmit (p : α → Bool) (c : Collector n α) (v : α) :
    (c.tryEmit v).kept.countP p + (c.flow.forgotten v).countP p =
      c.kept.countP p + [v].countP p := by
  have h := congrArg (List.countP p) (c.flow.forgotten_append v)
  rw [List.countP_append, List.countP_append] at h
  simp only [kept, tryEmit, List.countP_append]
  omega

/-- **Loss is final**: after an emission nothing of the kind `p` is lost exactly
if nothing was lost before and the emission forgets nothing of that kind. -/
theorem lossless_tryEmit {p : α → Bool} {c : Collector n α} {v : α} (hn : 0 < n) :
    (c.tryEmit v).Lossless p ↔ c.Lossless p ∧ c.flow.Spares p := by
  have hcount := countP_kept_tryEmit p c v
  have hle := c.kept_sublist.countP_le (p := p)
  have hemit : (c.tryEmit v).emitted.countP p = c.emitted.countP p + [v].countP p :=
    List.countP_append
  have hzero : (c.flow.forgotten v).countP p = 0 ↔ ∀ w ∈ c.flow.forgotten v, p w = false := by
    simp only [List.countP_eq_zero, Bool.not_eq_true]
  -- what is kept and what is forgotten add up, so one count says it
  rw [lossless_iff_countP, lossless_iff_countP, ← Buffer.forall_forgotten (v := v) hn, ← hzero,
    hemit]
  omega

/-- Nothing of a kind is lost exactly if reading the kept values for it gives
what reading the emitted values gives. -/
theorem lossless_iff_filterMap {β : Type*} {f : α → Option β} {c : Collector n α} :
    c.Lossless (fun v => (f v).isSome) ↔ c.kept.filterMap f = c.emitted.filterMap f := by
  rw [lossless_iff_countP, ← List.length_filterMap_eq_countP, ← List.length_filterMap_eq_countP]
  exact ⟨(c.kept_sublist.filterMap f).eq_of_length, congrArg List.length⟩

end Collector

end SharedFlow

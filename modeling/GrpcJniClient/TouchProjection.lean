/-
The touch listener with any number of fingers.

The listener's arrays have two elements, and an event may have any number of
pointers.

* `listener_completes_iff` — the listener fails exactly if a finger lifts that is
  neither of the first two;
* `Gesture.stepAny` — the gestures of any number of fingers, `Gesture.step` being
  those of at most two;
* `Projects` — a report shows what the first two pointers of an event are and
  whether they stay down;
* `reports_project` — every report of a gesture does, from the first event to the
  last.
-/
import GrpcJniClient.TouchSlots
import Mathlib.Data.BitVec

namespace Carplay.Touch

variable {κ : Type*} {fingers fingers' : List ℕ} {e : MotionEvent κ}

/-! ### Failures -/

theorem listener_eq_none [Zero κ] (hact : e.actionMasked = .ACTION_POINTER_UP)
    (hidx : 2 ≤ e.actionIndex) : listener e = none := by
  obtain ⟨n, hn⟩ := Nat.exists_eq_add_of_le' hidx
  have hrecord : record e false .new (n + 2) = none := by
    rw [record]
    cases e.pointers[n + 2]? with
    | none => rfl
    | some p => rfl
  rw [listener, hact]
  dsimp only
  rw [hn, hrecord]
  rfl

/-- **The listener fails exactly if a finger lifts that has no slot.**  An event
has at least one pointer, since one of them has the action's index. -/
theorem listener_completes_iff [Zero κ] (e : MotionEvent κ)
    (hidx : e.actionIndex < e.pointers.length) :
    (listener e).isSome = true ↔ ¬ (e.actionMasked = .ACTION_POINTER_UP ∧ 2 ≤ e.actionIndex) := by
  constructor
  · rintro hsome ⟨hact, htwo⟩
    rw [listener_eq_none hact htwo] at hsome
    cases hsome
  · intro hkeeps
    have hpos := Nat.zero_lt_of_lt hidx
    by_cases hdown : e.actionMasked = .ACTION_DOWN
    · obtain ⟨p, rest, hp⟩ := List.exists_cons_of_length_pos hpos
      rw [listener, hdown]
      simp [record, hp, Report.set]
    by_cases hother : e.actionMasked = .other
    · rw [listener, hother]
      rfl
    · have htwo : e.actionMasked = .ACTION_POINTER_UP → e.actionIndex < 2 := fun hact =>
        Nat.lt_of_not_le fun h => hkeeps ⟨hact, h⟩
      rw [listener_eq_touchAt hpos (fun h => absurd h hdown) (fun h => ⟨hidx, htwo h⟩) hother]
      rfl

/-- Two fingers stay down while a third one lifts. -/
def thirdLifts : MotionEvent (BitVec 32) :=
  ⟨.ACTION_POINTER_UP, 2, [⟨0, 1, 2⟩, ⟨1, 3, 4⟩, ⟨2, 5, 6⟩]⟩

/-- The second of three fingers lifts. -/
def secondLifts : MotionEvent (BitVec 32) :=
  ⟨.ACTION_POINTER_UP, 1, [⟨0, 1, 2⟩, ⟨1, 3, 4⟩, ⟨2, 5, 6⟩]⟩

theorem listener_completes_iff_second :
    secondLifts.actionIndex < secondLifts.pointers.length ∧
      ((listener secondLifts).isSome = true ↔
        ¬ (secondLifts.actionMasked = .ACTION_POINTER_UP ∧ 2 ≤ secondLifts.actionIndex)) :=
  ⟨by decide, listener_completes_iff secondLifts (by decide)⟩

theorem third_lift_fails :
    thirdLifts.actionIndex < thirdLifts.pointers.length ∧ listener thirdLifts = none :=
  ⟨by decide, rfl⟩

/-! ### Gestures -/

namespace Gesture

/-- One event of a gesture of any number of fingers; the state is the ids of the
fingers that are down, by index. -/
def stepAny (fingers : List ℕ) (e : MotionEvent κ) : Option (List ℕ) :=
  match e.actionMasked with
  | .ACTION_DOWN => if fingers = [] ∧ e.ids.length = 1 then some e.ids else none
  | .ACTION_MOVE => if fingers ≠ [] ∧ e.ids = fingers then some fingers else none
  | .ACTION_POINTER_DOWN =>
      if fingers ≠ [] ∧ e.ids.Nodup ∧ e.actionIndex < e.ids.length ∧
          e.ids.eraseIdx e.actionIndex = fingers then some e.ids
      else none
  | .ACTION_POINTER_UP =>
      if e.ids = fingers ∧ 2 ≤ fingers.length ∧ e.actionIndex < fingers.length then
        some (fingers.eraseIdx e.actionIndex)
      else none
  | .ACTION_UP => if e.ids = fingers ∧ fingers.length = 1 then some [] else none
  | .ACTION_CANCEL => if e.ids = fingers ∧ fingers ≠ [] then some [] else none
  | .other => none

/-- A gesture of at most two fingers is one of them. -/
theorem stepAny_of_step (h : step fingers e = some fingers') :
    stepAny fingers e = some fingers' := by
  cases hact : e.actionMasked with
  | ACTION_POINTER_DOWN =>
    simp only [step, hact, Option.ite_none_right_eq_some, Option.some_inj] at h
    obtain ⟨⟨hne, -, hnodup, hidx, herase⟩, rfl⟩ := h
    simp only [stepAny, hact]
    exact if_pos ⟨hne, hnodup, hidx, herase⟩
  | _ =>
    simp only [step, hact] at h
    simp only [stepAny, hact]
    exact h

/-- What an event of a gesture leaves: the fingers that it lists, all but the one
that lifts, or none. -/
theorem stepAny_cases (hF : fingers.Nodup) (h : stepAny fingers e = some fingers') :
    e.ids.Nodup ∧ e.ids ≠ [] ∧ (e.actionMasked = .ACTION_DOWN → e.ids.length = 1) ∧
      (((e.actionMasked = .ACTION_DOWN ∨ e.actionMasked = .ACTION_MOVE ∨
          e.actionMasked = .ACTION_POINTER_DOWN) ∧ fingers' = e.ids) ∨
        (e.actionMasked = .ACTION_POINTER_UP ∧ e.actionIndex < e.ids.length ∧
          fingers' = e.ids.eraseIdx e.actionIndex) ∨
        ((e.actionMasked = .ACTION_UP ∨ e.actionMasked = .ACTION_CANCEL) ∧ fingers' = [])) := by
  cases hact : e.actionMasked with
  | ACTION_DOWN =>
    simp only [stepAny, hact, Option.ite_none_right_eq_some, Option.some_inj] at h
    obtain ⟨⟨-, hone⟩, rfl⟩ := h
    obtain ⟨a, ha⟩ := List.length_eq_one_iff.mp hone
    rw [ha]
    exact ⟨List.nodup_singleton a, List.cons_ne_nil a [], fun _ => rfl, .inl ⟨.inl rfl, rfl⟩⟩
  | ACTION_MOVE =>
    simp only [stepAny, hact, Option.ite_none_right_eq_some, Option.some_inj] at h
    obtain ⟨⟨hne, hids⟩, rfl⟩ := h
    refine ⟨hids ▸ hF, hids ▸ hne, fun h => ?_, .inl ⟨.inr (.inl rfl), hids.symm⟩⟩
    cases h
  | ACTION_POINTER_DOWN =>
    simp only [stepAny, hact, Option.ite_none_right_eq_some, Option.some_inj] at h
    obtain ⟨⟨-, hnodup, hidx, -⟩, rfl⟩ := h
    refine ⟨hnodup, List.ne_nil_of_length_pos (Nat.zero_lt_of_lt hidx), fun h => ?_,
      .inl ⟨.inr (.inr rfl), rfl⟩⟩
    cases h
  | ACTION_POINTER_UP =>
    simp only [stepAny, hact, Option.ite_none_right_eq_some, Option.some_inj] at h
    obtain ⟨⟨hids, -, hidx⟩, rfl⟩ := h
    subst hids
    refine ⟨hF, List.ne_nil_of_length_pos (Nat.zero_lt_of_lt hidx), fun h => ?_,
      .inr (.inl ⟨rfl, hidx, rfl⟩)⟩
    cases h
  | ACTION_UP =>
    simp only [stepAny, hact, Option.ite_none_right_eq_some, Option.some_inj] at h
    obtain ⟨⟨hids, hone⟩, rfl⟩ := h
    subst hids
    refine ⟨hF, List.ne_nil_of_length_pos (by omega), fun h => ?_, .inr (.inr ⟨.inl rfl, rfl⟩)⟩
    cases h
  | ACTION_CANCEL =>
    simp only [stepAny, hact, Option.ite_none_right_eq_some, Option.some_inj] at h
    obtain ⟨⟨hids, hne⟩, rfl⟩ := h
    subst hids
    refine ⟨hF, hne, fun h => ?_, .inr (.inr ⟨.inr rfl, rfl⟩)⟩
    cases h
  | other =>
    simp only [stepAny, hact] at h
    cases h

theorem nodup_of_stepAny (hF : fingers.Nodup) (h : stepAny fingers e = some fingers') :
    fingers'.Nodup := by
  obtain ⟨hnodup, -, -, ⟨-, rfl⟩ | ⟨-, -, rfl⟩ | ⟨-, rfl⟩⟩ := stepAny_cases hF h
  · exact hnodup
  · exact hnodup.eraseIdx _
  · exact List.nodup_nil

end Gesture

/-! ### Reports -/

/-- The report shows the first two pointers of the event: which of them are still
`down`, and where they are. -/
structure Projects [Zero κ] (e : MotionEvent κ) (down : List ℕ) (r : Report κ) : Prop where
  state : ∀ s : Slot, (r.touch s).state = true ↔ ∃ id, e.ids[s.index]? = some id ∧ id ∈ down
  coordinates : ∀ (s : Slot) (p : Pointer κ), e.pointers[s.index]? = some p →
    (r.touch s).x = p.x ∧ (r.touch s).y = p.y
  absent : ∀ s : Slot, e.pointers[s.index]? = none → (r.touch s).x = 0 ∧ (r.touch s).y = 0

/-- What is reported of an event of a gesture, if anything is. -/
theorem report_eq [Zero κ] (hF : fingers.Nodup) (h : Gesture.stepAny fingers e = some fingers')
    {r : Report κ} (hr : listener e = some r) : r = ⟨e.touchAt 0, e.touchAt 1⟩ := by
  obtain ⟨-, hne, hdown, hcases⟩ := Gesture.stepAny_cases hF h
  have hlen : e.ids.length = e.pointers.length := List.length_map _
  -- an event of a gesture lists a finger at least
  have hpos : 0 < e.pointers.length := hlen ▸ List.length_pos_iff.mpr hne
  have hother : e.actionMasked ≠ .other := by
    intro hact
    simp [hact] at hcases
  have hup : e.actionMasked = .ACTION_POINTER_UP →
      e.actionIndex < e.pointers.length ∧ e.actionIndex < 2 := by
    intro hact
    refine ⟨?_, Nat.lt_of_not_le fun htwo => ?_⟩
    · simpa [hact, hlen] using hcases.imp_right fun h => h.imp_left fun h => h.2.1
    · -- it would have failed
      rw [listener_eq_none hact htwo] at hr
      cases hr
  rw [listener_eq_touchAt hpos (fun hact => hlen ▸ hdown hact) hup hother] at hr
  exact (Option.some_inj.mp hr).symm

/-- A pointer's state says whether its finger stays down. -/
theorem stateAt_iff (hF : fingers.Nodup) (h : Gesture.stepAny fingers e = some fingers') {i id : ℕ}
    (hid : e.ids[i]? = some id) : e.stateAt i = true ↔ id ∈ fingers' := by
  obtain ⟨hnodup, -, -, ⟨hact, rfl⟩ | ⟨hact, hidx, rfl⟩ | ⟨hact, rfl⟩⟩ := Gesture.stepAny_cases hF h
  · refine iff_of_true ?_ (List.mem_of_getElem? hid)
    rcases hact with hact | hact | hact <;> simp [MotionEvent.stateAt, hact]
  · -- the ids differ, so the one that is erased stands at no other index
    have hstate : e.stateAt i = (i != e.actionIndex) := by rw [MotionEvent.stateAt, hact]
    rw [hstate, bne_iff_ne, List.mem_eraseIdx_iff_getElem?]
    constructor
    · exact fun hne => ⟨i, hne, hid⟩
    · rintro ⟨j, hj, hjd⟩ rfl
      exact hj (index_unique hnodup hjd hid)
  · refine iff_of_false ?_ List.not_mem_nil
    rcases hact with hact | hact <;> simp [MotionEvent.stateAt, hact]

/-- The step lemma: an event of a gesture is reported as it is. -/
theorem projects_of_stepAny [Zero κ] (hF : fingers.Nodup)
    (h : Gesture.stepAny fingers e = some fingers') {r : Report κ} (hr : listener e = some r) :
    Projects e fingers' r := by
  obtain rfl := report_eq hF h hr
  -- the listener fills both slots by index
  have htouch : ∀ s : Slot,
      (⟨e.touchAt 0, e.touchAt 1⟩ : Report κ).touch s = e.touchAt s.index := by
    intro s
    cases s <;> rfl
  refine ⟨fun s => ?_, fun s p hp => ?_, fun s hs => ?_⟩
  · rw [htouch, MotionEvent.touchAt, MotionEvent.ids, List.getElem?_map]
    cases hp : e.pointers[s.index]? with
    | none => simp
    | some p =>
      have hid : e.ids[s.index]? = some p.id := by rw [MotionEvent.ids, List.getElem?_map, hp]; rfl
      simpa using stateAt_iff hF h hid
  · rw [htouch, MotionEvent.touchAt, hp]
    exact ⟨rfl, rfl⟩
  · rw [htouch, MotionEvent.touchAt, hs]
    exact ⟨rfl, rfl⟩

/-- The fingers before an event of a gesture and after it. -/
theorem exists_stepAny {events : List (MotionEvent κ)}
    (h : Run.exec Gesture.stepAny [] events = some fingers) {k : ℕ} (he : events[k]? = some e) :
    ∃ before down, before.Nodup ∧ Gesture.stepAny before e = some down ∧
      Run.exec Gesture.stepAny [] (events.take (k + 1)) = some down := by
  obtain ⟨before, down, hbefore, hstep, hdown⟩ := Run.exec_take_succ h he
  refine ⟨before, down, ?_, hstep, hdown⟩
  exact Run.exec_invariant (C := fun _ _ => True) (fun _ _ _ hF _ => Gesture.nodup_of_stepAny hF)
    List.nodup_nil (Run.along_true _ _) hbefore

/-- **Each report is the projection of the fingers on screen**, for every event of
a gesture of any number of fingers with which the listener does not fail. -/
theorem reports_project [Zero κ] (events : List (MotionEvent κ)) (fingers : List ℕ)
    (h : Run.exec Gesture.stepAny [] events = some fingers) (k : ℕ) (e : MotionEvent κ)
    (r : Report κ) (he : events[k]? = some e) (hr : listener e = some r) :
    ∃ down, Run.exec Gesture.stepAny [] (events.take (k + 1)) = some down ∧ Projects e down r := by
  obtain ⟨before, down, hF, hstep, hdown⟩ := exists_stepAny h he
  exact ⟨down, hdown, projects_of_stepAny hF hstep hr⟩

/-- Three fingers come down, and the first of them lifts. -/
def threeFingers : List (MotionEvent (BitVec 32)) :=
  [⟨.ACTION_DOWN, 0, [⟨0, 1, 2⟩]⟩,
    ⟨.ACTION_POINTER_DOWN, 1, [⟨0, 1, 2⟩, ⟨1, 3, 4⟩]⟩,
    ⟨.ACTION_POINTER_DOWN, 2, [⟨0, 1, 2⟩, ⟨1, 3, 4⟩, ⟨2, 5, 6⟩]⟩,
    ⟨.ACTION_POINTER_UP, 0, [⟨0, 1, 2⟩, ⟨1, 3, 4⟩, ⟨2, 5, 6⟩]⟩]

theorem reports_project_three :
    Run.exec Gesture.stepAny [] threeFingers = some [1, 2] ∧
      ∃ down, Run.exec Gesture.stepAny [] (threeFingers.take 4) = some down ∧
        Projects (κ := BitVec 32) ⟨.ACTION_POINTER_UP, 0, [⟨0, 1, 2⟩, ⟨1, 3, 4⟩, ⟨2, 5, 6⟩]⟩ down
          ⟨⟨false, 1, 2⟩, ⟨true, 3, 4⟩⟩ :=
  ⟨by decide, reports_project threeFingers [1, 2] (by decide) 3 _ _ rfl rfl⟩

end Carplay.Touch

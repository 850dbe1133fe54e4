/-
The slots in which `CarplayMainActivity`'s touch listener reports the fingers of
a gesture.

* `steady_iff` — from one event to the next no finger changes its index exactly
  if one comes down at index 0 when the first of two has just lifted, and only
  then;
* `slots_kept_iff` — each finger keeps its slot exactly if that is so throughout
  the gesture;
* `lift_moves_finger` — the first finger lifts, and the second moves over.
-/
import GrpcJniClient.TouchListener

namespace Carplay.Touch

variable {κ : Type*}

/-- Where an element of the arrays `x` and `y` comes from. -/
inductive Origin where
  | nowhere
  | finger (id : ℕ)
  deriving DecidableEq, Repr

instance : Zero Origin := ⟨.nowhere⟩

namespace MotionEvent

/-- The event with each finger in place of its coordinates. -/
def tagged (e : MotionEvent κ) : MotionEvent Origin :=
  { e with pointers := e.pointers.map fun p => ⟨p.id, .finger p.id, .finger p.id⟩ }

/-- The event releases the finger `id`. -/
def Releases (e : MotionEvent κ) (id : ℕ) : Prop :=
  match e.actionMasked with
  | .ACTION_POINTER_UP => e.ids[e.actionIndex]? = some id
  | .ACTION_UP | .ACTION_CANCEL => id ∈ e.ids
  | _ => False

end MotionEvent

/-- The two slots of a report. -/
inductive Slot where
  | touch1
  | touch2
  deriving DecidableEq, Repr

/-- The index that fills the slot. -/
def Slot.index : Slot → ℕ
  | .touch1 => 0
  | .touch2 => 1

def Report.touch (r : Report κ) : Slot → TouchPoint κ
  | .touch1 => r.touch1
  | .touch2 => r.touch2

/-- The slot's coordinates are those of the finger `id`. -/
def Report.Shows (r : Report Origin) (s : Slot) (id : ℕ) : Prop :=
  (r.touch s).x = .finger id ∧ (r.touch s).y = .finger id

/-- The finger `id` is down from event `i` to event `j`. -/
def StaysDown (events : List (MotionEvent κ)) (id i j : ℕ) : Prop :=
  ∀ k, i ≤ k → k ≤ j → ∃ e, events[k]? = some e ∧ id ∈ e.ids ∧ (k < j → ¬ e.Releases id)

/-- The reports of a gesture, with fingers in place of coordinates, keep every
finger in its slot. -/
structure KeepsSlots (events : List (MotionEvent κ)) (reports : List (Report Origin)) : Prop where
  /-- A finger that stays down is reported in one slot. -/
  slot : ∀ (id i j : ℕ) (s s' : Slot) (r r' : Report Origin), i ≤ j → StaysDown events id i j →
    reports[i]? = some r → reports[j]? = some r' → r.Shows s id → r'.Shows s' id → s = s'
  /-- A slot passes to another finger only through a report with its state
  `false`. -/
  handover : ∀ (s : Slot) (id id' i j : ℕ) (r r' : Report Origin), i ≤ j →
    reports[i]? = some r → reports[j]? = some r' → r.Shows s id → r'.Shows s id' →
    (∀ k q, i ≤ k → k < j → reports[k]? = some q → (q.touch s).state = true) → id = id'

/-- The listener reports every event, and keeps every finger in its slot. -/
def SlotsKept (events : List (MotionEvent κ)) : Prop :=
  ∃ reports, events.mapM (fun e => listener e.tagged) = some reports ∧ KeepsSlots events reports

namespace MotionEvent

/-- The first of two fingers lifts. -/
def LiftsFirst (e : MotionEvent κ) : Prop := e.actionMasked = .ACTION_POINTER_UP ∧ e.actionIndex = 0

/-- A second finger comes down at index 0. -/
def InsertsFirst (e : MotionEvent κ) : Prop :=
  e.actionMasked = .ACTION_POINTER_DOWN ∧ e.actionIndex = 0

end MotionEvent

/-- When the first of two fingers lifts, another comes down at index 0 next, and
only then. -/
def IndicesKept (events : List (MotionEvent κ)) : Prop :=
  ∀ (k : ℕ) (e e' : MotionEvent κ), events[k]? = some e → events[k + 1]? = some e' →
    (e.LiftsFirst ↔ e'.InsertsFirst)

instance (e : MotionEvent κ) : Decidable e.LiftsFirst := inferInstanceAs (Decidable (_ ∧ _))

instance (e : MotionEvent κ) : Decidable e.InsertsFirst := inferInstanceAs (Decidable (_ ∧ _))

instance (events : List (MotionEvent κ)) : Decidable (IndicesKept events) :=
  decidable_of_iff (∀ k < events.length, ∀ e ∈ events[k]?, ∀ e' ∈ events[k + 1]?,
      (e.LiftsFirst ↔ e'.InsertsFirst))
    ⟨fun h k e e' he he' => h k (List.getElem?_eq_some_iff.mp he).choose e he e' he',
      fun h k _ e he e' he' => h k e e' he he'⟩

variable {fingers fingers' : List ℕ} {e e' : MotionEvent κ}

/-! ### Two events in a row -/

/-- From one event to the next no finger that stays down changes its index, and
no index passes to another finger while its state is `true`. -/
structure Steady (e e' : MotionEvent κ) : Prop where
  index : ∀ (id i j : ℕ), ¬ e.Releases id → e.ids[i]? = some id → e'.ids[j]? = some id → i = j
  handover : ∀ (id id' i : ℕ), e.stateAt i = true → e.ids[i]? = some id →
    e'.ids[i]? = some id' → id = id'

/-- The event takes nothing away. -/
structure Settled (e : MotionEvent κ) : Prop where
  state : ∀ i, e.stateAt i = true
  keeps : ∀ id, ¬ e.Releases id
  lifts : ¬ e.LiftsFirst

theorem settled_of_action (h : e.actionMasked = .ACTION_DOWN ∨ e.actionMasked = .ACTION_MOVE ∨
    e.actionMasked = .ACTION_POINTER_DOWN) : Settled e := by
  rcases h with h | h | h
  all_goals
    refine ⟨fun i => ?_, fun id => ?_, ?_⟩
    · simp [MotionEvent.stateAt, h]
    · simp [MotionEvent.Releases, h]
    · simp [MotionEvent.LiftsFirst, h]

/-- How an event leaves the fingers: as it lists them, without one of two, or
with none. -/
theorem leaves_cases (hF : Gesture.Fits fingers) (h : Gesture.step fingers e = some fingers') :
    (Settled e ∧ e.ids = fingers' ∧ fingers' ≠ []) ∨
    (∃ a b, e.ids = [a, b] ∧ a ≠ b ∧ fingers' = [b] ∧ e.LiftsFirst ∧
      e.stateAt 0 = false ∧ ∀ id, e.Releases id ↔ id = a) ∨
    (∃ a b, e.ids = [a, b] ∧ a ≠ b ∧ fingers' = [a] ∧ ¬ e.LiftsFirst ∧
      e.stateAt 1 = false ∧ ∀ id, e.Releases id ↔ id = b) ∨
    (fingers' = [] ∧ ¬ e.LiftsFirst ∧ (∀ i, e.stateAt i = false) ∧ ∀ id ∈ e.ids, e.Releases id) := by
  rcases Gesture.step_cases hF.1 h with ⟨-, hact, a, hids, rfl⟩ | ⟨hne, hact, hids, rfl⟩ |
    ⟨hact, a, c, -, -, rfl, hids⟩ | ⟨hact, a, b, rfl, hids, hidx⟩ | ⟨hact, -, -, rfl⟩
  · exact .inl ⟨settled_of_action (.inl hact), hids, by simp⟩
  · exact .inl ⟨settled_of_action (.inr (.inl hact)), hids, hne⟩
  · refine .inl ⟨settled_of_action (.inr (.inr hact)), rfl, ?_⟩
    rcases hids with ⟨-, hids⟩ | ⟨-, hids⟩ <;> simp [hids]
  · have hneq : a ≠ b := by simpa using hF.2
    rcases hidx with ⟨hi, rfl⟩ | ⟨hi, rfl⟩
    · refine .inr (.inl ⟨a, b, hids, hneq, rfl, ⟨hact, hi⟩, ?_, fun id => ?_⟩)
      · simp [MotionEvent.stateAt, hact, hi]
      · simp [MotionEvent.Releases, hact, hi, hids, eq_comm]
    · refine .inr (.inr (.inl ⟨a, b, hids, hneq, rfl, ?_, ?_, fun id => ?_⟩))
      · simp [MotionEvent.LiftsFirst, hi]
      · simp [MotionEvent.stateAt, hact, hi]
      · simp [MotionEvent.Releases, hact, hi, hids, eq_comm]
  · refine .inr (.inr (.inr ⟨rfl, ?_, ?_, ?_⟩))
    all_goals rcases hact with hact | hact <;> simp [MotionEvent.LiftsFirst,
      MotionEvent.stateAt, MotionEvent.Releases, hact]

/-- What an event finds down: the same fingers as it lists, none, or all but the
one that comes down at index 0 or 1. -/
theorem finds_cases (hF : Gesture.Fits fingers) (h : Gesture.step fingers e = some fingers') :
    (e.ids = fingers ∧ fingers ≠ [] ∧ ¬ e.InsertsFirst) ∨
    (fingers = [] ∧ ¬ e.InsertsFirst) ∨
    (∃ a c, fingers = [a] ∧ a ≠ c ∧ e.ids = [c, a] ∧ e.InsertsFirst) ∨
    (∃ a c, fingers = [a] ∧ a ≠ c ∧ e.ids = [a, c] ∧ ¬ e.InsertsFirst) := by
  rcases Gesture.step_cases hF.1 h with ⟨rfl, hact, -⟩ | ⟨hne, hact, hids, -⟩ |
    ⟨hact, a, c, rfl, hac, -, ⟨hi, hids⟩ | ⟨hi, hids⟩⟩ |
    ⟨hact, a, b, rfl, hids, -⟩ | ⟨hact, hne, hids, -⟩
  · exact .inr (.inl ⟨rfl, by simp [MotionEvent.InsertsFirst, hact]⟩)
  · exact .inl ⟨hids, hne, by simp [MotionEvent.InsertsFirst, hact]⟩
  · exact .inr (.inr (.inl ⟨a, c, rfl, hac, hids, hact, hi⟩))
  · exact .inr (.inr (.inr ⟨a, c, rfl, hac, hids, by simp [MotionEvent.InsertsFirst, hi]⟩))
  · exact .inl ⟨hids, by simp, by simp [MotionEvent.InsertsFirst, hact]⟩
  · refine .inl ⟨hids, hne, ?_⟩
    rcases hact with hact | hact <;> simp [MotionEvent.InsertsFirst, hact]

/-- A finger that was down alone is at index 0 of the next event, or another one
has come down there. -/
theorem finds_one_cases {a : ℕ} (h : Gesture.step [a] e = some fingers') : e.ids.Nodup ∧
    (e.ids[0]? = some a ∧ ¬ e.InsertsFirst ∨ e.ids[1]? = some a ∧ e.InsertsFirst) := by
  rcases finds_cases (by simp [Gesture.Fits]) h with ⟨hids, -, hins⟩ | ⟨hnil, -⟩ |
    ⟨_, c, ha, hac, hids, hins⟩ | ⟨_, c, ha, hac, hids, hins⟩
  · exact ⟨by simp [hids], .inl ⟨by simp [hids], hins⟩⟩
  · cases hnil
  · obtain rfl := (List.cons.inj ha).1
    exact ⟨by simp [hids, hac.symm], .inr ⟨by simp [hids], hins⟩⟩
  · obtain rfl := (List.cons.inj ha).1
    exact ⟨by simp [hids, hac], .inl ⟨by simp [hids], hins⟩⟩

theorem index_unique {ids : List ℕ} (hnodup : ids.Nodup) {i j a : ℕ} (hi : ids[i]? = some a)
    (hj : ids[j]? = some a) : i = j := by
  obtain ⟨hlt, hget⟩ := List.getElem?_eq_some_iff.mp hi
  obtain ⟨hlt', hget'⟩ := List.getElem?_eq_some_iff.mp hj
  exact hnodup.getElem_inj_iff.mp (hget.trans hget'.symm)

/-- An event with the same fingers changes no index. -/
theorem steady_of_ids_eq (hnodup : fingers.Nodup) (hids : e.ids = fingers)
    (hids' : e'.ids = fingers) : Steady e e' where
  index := by
    intro id i j _ hi hj
    rw [hids] at hi
    rw [hids'] at hj
    exact index_unique hnodup hi hj
  handover := by
    intro id id' i _ hi hi'
    rw [hids] at hi
    rw [hids', hi] at hi'
    exact Option.some_inj.mp hi'

/-- Only the finger `a` stays, at index `k`, and no other index has state
`true`. -/
theorem steady_of_one {a k : ℕ} (hnodup : e.ids.Nodup) (hnodup' : e'.ids.Nodup)
    (hk : e.ids[k]? = some a) (hk' : e'.ids[k]? = some a)
    (honly : ∀ id ∈ e.ids, ¬ e.Releases id → id = a)
    (hstate : ∀ i, i ≠ k → e.ids[i]? = none ∨ e.stateAt i = false) : Steady e e' where
  index := by
    intro id i j hkept hi hj
    obtain rfl := honly id (List.mem_of_getElem? hi) hkept
    rw [index_unique hnodup hi hk, index_unique hnodup' hj hk']
  handover := by
    intro id id' i htrue hi hi'
    by_cases hik : i = k
    · subst hik
      exact Option.some_inj.mp ((hi.symm.trans hk).trans (hk'.symm.trans hi'))
    · rcases hstate i hik with hnone | hfalse
      · rw [hnone] at hi
        cases hi
      · rw [hfalse] at htrue
        cases htrue

/-- The finger `a` has index `i` in one event and another in the next. -/
theorem not_steady {a i j : ℕ} (hkept : ¬ e.Releases a) (hi : e.ids[i]? = some a)
    (hj : e'.ids[j]? = some a) (hne : i ≠ j) : ¬ Steady e e' :=
  fun hS => hne (hS.index a i j hkept hi hj)

/-- **Two events in a row**: the fingers stay where they are exactly if one comes
down at index 0 when, and only when, the first has just lifted. -/
theorem steady_iff {fingers'' : List ℕ} (hF : Gesture.Fits fingers)
    (h : Gesture.step fingers e = some fingers') (h' : Gesture.step fingers' e' = some fingers'') :
    Steady e e' ↔ (e.LiftsFirst ↔ e'.InsertsFirst) := by
  have hF' := hF.step h
  rcases leaves_cases hF h with ⟨hS, hids, hne⟩ | ⟨a, b, hids, hab, rfl, hlifts, hstate, hrel⟩ |
    ⟨a, b, hids, hab, rfl, hlifts, hstate, hrel⟩ | ⟨rfl, hlifts, hstate, hrel⟩
  · -- nothing is taken away: what counts is where the next finger comes down
    rcases finds_cases hF' h' with ⟨hids', -, hins⟩ | ⟨hnil, -⟩ | ⟨a, c, rfl, hac, hids', hins⟩ |
      ⟨a, c, rfl, hac, hids', hins⟩
    · exact iff_of_true (steady_of_ids_eq hF'.2 hids hids') (iff_of_false hS.lifts hins)
    · exact absurd hnil hne
    · refine iff_of_false (not_steady (i := 0) (j := 1) (hS.keeps a) ?_ ?_ (by omega)) ?_
      · simp [hids]
      · simp [hids']
      · exact fun hiff => hS.lifts (hiff.mpr hins)
    · refine iff_of_true (steady_of_one (a := a) (k := 0) ?_ ?_ ?_ ?_ ?_ ?_)
        (iff_of_false hS.lifts hins)
      · simp [hids]
      · simp [hids', hac]
      · simp [hids]
      · simp [hids']
      · simp [hids]
      · intro i hi
        exact .inl (by simp [hids]; omega)
  · -- the first of two lifts, and the second, `b`, is about to move to index 0
    obtain ⟨hnodup', ⟨hb, hins⟩ | ⟨hb, hins⟩⟩ := finds_one_cases h'
    · refine iff_of_false (not_steady (a := b) (i := 1) (j := 0) ?_ ?_ hb (by omega)) ?_
      · rw [hrel]
        exact hab.symm
      · simp [hids]
      · exact fun hiff => hins (hiff.mp hlifts)
    · -- a new finger takes index 0, so `b` stays at index 1
      refine iff_of_true (steady_of_one (a := b) (k := 1) ?_ hnodup' ?_ hb ?_ ?_)
        (iff_of_true hlifts hins)
      · simp [hids, hab]
      · simp [hids]
      · simp [hids, hrel]
      · intro i hi
        rcases i with _ | _ | i
        · exact .inr hstate
        · exact absurd rfl hi
        · exact .inl (by simp [hids])
  · -- the second of two lifts, and the first, `a`, stays at index 0
    obtain ⟨hnodup', ⟨ha, hins⟩ | ⟨ha, hins⟩⟩ := finds_one_cases h'
    · refine iff_of_true (steady_of_one (a := a) (k := 0) ?_ hnodup' ?_ ha ?_ ?_)
        (iff_of_false hlifts hins)
      · simp [hids, hab]
      · simp [hids]
      · intro id hmem hkept
        rw [hrel] at hkept
        simpa [hids, hkept] using hmem
      · intro i hi
        rcases i with _ | _ | i
        · exact absurd rfl hi
        · exact .inr hstate
        · exact .inl (by simp [hids])
    · -- unless a new finger takes it
      refine iff_of_false (not_steady (a := a) (i := 0) (j := 1) ?_ ?_ ha (by omega)) ?_
      · rw [hrel]
        exact hab
      · simp [hids]
      · exact fun hiff => hlifts (hiff.mpr hins)
  · -- every finger lifts
    have hins : ¬ e'.InsertsFirst := by
      rcases finds_cases hF' h' with ⟨-, hnil, -⟩ | ⟨-, hins⟩ | ⟨a, c, hnil, -⟩ | ⟨a, c, hnil, -⟩
      · exact absurd rfl hnil
      · exact hins
      · cases hnil
      · cases hnil
    refine iff_of_true ⟨fun id i j hkept hi => ?_, fun id id' i htrue => ?_⟩
      (iff_of_false hlifts hins)
    · exact absurd (hrel id (List.mem_of_getElem? hi)) hkept
    · rw [hstate i] at htrue
      cases htrue

/-! ### A whole gesture -/

/-- What the listener reports of an event. -/
def MotionEvent.report (e : MotionEvent κ) : Report Origin :=
  ⟨e.tagged.touchAt 0, e.tagged.touchAt 1⟩

theorem MotionEvent.ids_tagged (e : MotionEvent κ) : e.tagged.ids = e.ids := by
  simp [ids, tagged]

theorem Gesture.step_tagged (fingers : List ℕ) (e : MotionEvent κ) :
    Gesture.step fingers e.tagged = Gesture.step fingers e := by
  simp only [step, MotionEvent.ids_tagged]
  rfl

theorem MotionEvent.touch_report (e : MotionEvent κ) (s : Slot) :
    e.report.touch s = e.tagged.touchAt s.index := by
  cases s <;> rfl

theorem MotionEvent.shows_report {s : Slot} {id : ℕ} :
    e.report.Shows s id ↔ e.ids[s.index]? = some id := by
  rw [Report.Shows, touch_report, touchAt, tagged, ids, List.getElem?_map, List.getElem?_map]
  cases e.pointers[s.index]? with
  | none => simp [OfNat.ofNat, Zero.zero]
  | some p => simp

/-- The state that a finger is shown with. -/
theorem MotionEvent.state_of_shows {s : Slot} {id : ℕ} (h : e.report.Shows s id) :
    (e.report.touch s).state = e.stateAt s.index := by
  rw [shows_report, ids, List.getElem?_map] at h
  obtain ⟨p, hp, -⟩ := Option.map_eq_some_iff.mp h
  rw [touch_report, touchAt, tagged, List.getElem?_map, hp]
  rfl

/-- What is shown for a finger on the device are its coordinates. -/
theorem coordinates_of_shows [Zero κ] (hF : Gesture.Fits fingers)
    (h : Gesture.step fingers e = some fingers') {r : Report κ} (hr : listener e = some r)
    {s : Slot} {id : ℕ} (hid : e.report.Shows s id) :
    ∃ p ∈ e.pointers, p.id = id ∧ r.touch s = ⟨e.stateAt s.index, p.x, p.y⟩ := by
  obtain rfl := Option.some_inj.mp ((listener_eq hF h).symm.trans hr)
  rw [MotionEvent.shows_report, MotionEvent.ids, List.getElem?_map] at hid
  obtain ⟨p, hp, hpid⟩ := Option.map_eq_some_iff.mp hid
  have htouch : e.touchAt s.index = ⟨e.stateAt s.index, p.x, p.y⟩ := by
    rw [MotionEvent.touchAt, hp]
  refine ⟨p, List.mem_of_getElem? hp, hpid, ?_⟩
  cases s <;> exact htouch

/-- A slot with state `true` shows a finger. -/
theorem MotionEvent.exists_shows {s : Slot} (h : (e.report.touch s).state = true) :
    ∃ id, e.report.Shows s id := by
  rw [touch_report, touchAt, tagged, List.getElem?_map] at h
  cases hp : e.pointers[s.index]? with
  | none => simp [hp] at h
  | some p =>
    refine ⟨p.id, shows_report.mpr ?_⟩
    rw [ids, List.getElem?_map, hp, Option.map_some]

/-- The index of a finger is that of a slot. -/
theorem exists_slot (hF : Gesture.Fits fingers) (h : Gesture.step fingers e = some fingers')
    {id i : ℕ} (hi : e.ids[i]? = some id) : ∃ s : Slot, s.index = i := by
  have hlt : i < 2 := by
    have hbound := (List.getElem?_eq_some_iff.mp hi).choose
    rcases Gesture.ids_cases hF h with ⟨a, hids, -⟩ | ⟨a, b, hids, -⟩
    · rw [hids, List.length_singleton] at hbound
      omega
    · rw [hids, List.length_cons, List.length_singleton] at hbound
      omega
  rcases i with _ | _ | i
  · exact ⟨.touch1, rfl⟩
  · exact ⟨.touch2, rfl⟩
  · omega

variable {events : List (MotionEvent κ)}

/-- What is known of event `k` of a gesture and of the next. -/
theorem event_of_exec (h : Run.exec Gesture.step [] events = some fingers) {k : ℕ}
    (hk : events[k]? = some e) :
    ∃ f f', Gesture.Fits f ∧ Gesture.step f e = some f' ∧
      ∀ e', events[k + 1]? = some e' → ∃ f'', Gesture.step f' e' = some f'' :=
  Run.step_of_getElem (I := Gesture.Fits) (fun _ _ _ => Gesture.Fits.step)
    ⟨by simp, List.nodup_nil⟩ h hk

/-- The listener reports every event of a gesture. -/
theorem mapM_listener (h : Run.exec Gesture.step [] events = some fingers) :
    events.mapM (fun e => listener e.tagged) = some (events.map MotionEvent.report) := by
  have hall : ∀ e ∈ events, listener e.tagged = some e.report := by
    intro e he
    obtain ⟨k, hk⟩ := List.mem_iff_getElem?.mp he
    obtain ⟨f, f', hF, hstep, -⟩ := event_of_exec h hk
    exact listener_eq hF ((Gesture.step_tagged f e).trans hstep)
  clear h
  induction events with
  | nil => rfl
  | cons e es ih =>
    rw [List.forall_mem_cons] at hall
    rw [List.mapM_cons, hall.1, ih hall.2]
    rfl

/-- Every two events in a row are steady. -/
def SteadyThroughout (events : List (MotionEvent κ)) : Prop :=
  ∀ (k : ℕ) (e e' : MotionEvent κ), events[k]? = some e → events[k + 1]? = some e' → Steady e e'

theorem getElem?_reports {k : ℕ} {r : Report Origin}
    (h : (events.map MotionEvent.report)[k]? = some r) :
    ∃ e, events[k]? = some e ∧ r = e.report := by
  rw [List.getElem?_map] at h
  obtain ⟨e, he, rfl⟩ := Option.map_eq_some_iff.mp h
  exact ⟨e, he, rfl⟩

/-- Where every step is steady, a finger that stays down keeps its index. -/
theorem SteadyThroughout.index (hS : SteadyThroughout events) {id i j m : ℕ}
    (hdown : StaysDown events id i (i + j)) (hi : events[i]? = some e) (hm : e.ids[m]? = some id) :
    ∃ e', events[i + j]? = some e' ∧ e'.ids[m]? = some id := by
  induction j with
  | zero => exact ⟨e, hi, hm⟩
  | succ j ih =>
    obtain ⟨e₁, he₁, hm₁⟩ := ih fun k hk hk' =>
      have ⟨e, he, hmem, hrel⟩ := hdown k hk (by omega)
      ⟨e, he, hmem, fun hlt => hrel (by omega)⟩
    obtain ⟨e₁', he₁', -, hkept⟩ := hdown (i + j) (by omega) (by omega)
    obtain rfl := Option.some_inj.mp (he₁.symm.trans he₁')
    obtain ⟨e₂, he₂, hmem, -⟩ := hdown (i + j + 1) (by omega) (by omega)
    obtain ⟨m', hm'⟩ := List.mem_iff_getElem?.mp hmem
    obtain rfl := (hS _ _ _ he₁ he₂).index id m m' (hkept (by omega)) hm₁ hm'
    exact ⟨e₂, he₂, hm'⟩

/-- Where every step is steady, a slot whose state stays `true` keeps its
finger. -/
theorem SteadyThroughout.handover (hS : SteadyThroughout events) {s : Slot} {id id' i j : ℕ}
    {e' : MotionEvent κ} (hi : events[i]? = some e) (hj : events[i + j]? = some e')
    (hid : e.report.Shows s id) (hid' : e'.report.Shows s id')
    (hstate : ∀ k q, i ≤ k → k < i + j → events[k]? = some q →
      (q.report.touch s).state = true) : id = id' := by
  induction j generalizing e' id' with
  | zero =>
    obtain rfl := Option.some_inj.mp (hi.symm.trans hj)
    exact Option.some_inj.mp
      ((MotionEvent.shows_report.mp hid).symm.trans (MotionEvent.shows_report.mp hid'))
  | succ j ih =>
    have hlt : i + j < events.length := by
      have := (List.getElem?_eq_some_iff.mp hj).choose
      omega
    have he₁ := List.getElem?_eq_getElem hlt
    have htrue := hstate (i + j) _ (by omega) (by omega) he₁
    obtain ⟨id₁, hid₁⟩ := MotionEvent.exists_shows htrue
    obtain rfl := ih he₁ hid₁ fun k q hk hk' => hstate k q hk (by omega)
    rw [MotionEvent.state_of_shows hid₁] at htrue
    exact (hS _ _ _ he₁ hj).handover id id' s.index htrue (MotionEvent.shows_report.mp hid₁)
      (MotionEvent.shows_report.mp hid')

theorem slotsKept_iff (h : Run.exec Gesture.step [] events = some fingers) :
    SlotsKept events ↔ SteadyThroughout events := by
  constructor
  · -- two events in a row are a stretch of their own
    rintro ⟨rs, hrs, hkeeps⟩ k e e' he he'
    obtain rfl := Option.some_inj.mp ((mapM_listener h).symm.trans hrs)
    obtain ⟨f, f', hF, hstep, hnext⟩ := event_of_exec h he
    obtain ⟨f'', hstep'⟩ := hnext e' he'
    have hr : (events.map MotionEvent.report)[k]? = some e.report := by
      rw [List.getElem?_map, he, Option.map_some]
    have hr' : (events.map MotionEvent.report)[k + 1]? = some e'.report := by
      rw [List.getElem?_map, he', Option.map_some]
    refine ⟨fun id i j hkept hi hj => ?_, fun id id' i htrue hi hi' => ?_⟩
    · obtain ⟨s, rfl⟩ := exists_slot hF hstep hi
      obtain ⟨s', rfl⟩ := exists_slot (hF.step hstep) hstep' hj
      refine congrArg Slot.index (hkeeps.slot id k (k + 1) s s' _ _ (Nat.le_succ k) ?_ hr hr'
        (MotionEvent.shows_report.mpr hi) (MotionEvent.shows_report.mpr hj))
      intro n hn hn'
      rcases Nat.eq_or_lt_of_le hn with rfl | hlt
      · exact ⟨e, he, List.mem_of_getElem? hi, fun _ => hkept⟩
      · obtain rfl : n = k + 1 := by omega
        exact ⟨e', he', List.mem_of_getElem? hj, fun hlt => absurd hlt (Nat.lt_irrefl _)⟩
    · obtain ⟨s, rfl⟩ := exists_slot hF hstep hi
      have hshows := MotionEvent.shows_report.mpr hi
      refine hkeeps.handover s id id' k (k + 1) _ _ (Nat.le_succ k) hr hr' hshows
        (MotionEvent.shows_report.mpr hi') fun n q hn hn' hq => ?_
      obtain rfl : n = k := by omega
      obtain rfl := Option.some_inj.mp (hr.symm.trans hq)
      rw [MotionEvent.state_of_shows hshows, htrue]
  · -- a longer stretch is walked through event by event
    intro hS
    refine ⟨_, mapM_listener h, ?_, ?_⟩
    · intro id i j s s' r r' hij hdown hr hr' hid hid'
      obtain ⟨e, he, rfl⟩ := getElem?_reports hr
      obtain ⟨e', he', rfl⟩ := getElem?_reports hr'
      obtain ⟨j, rfl⟩ := Nat.exists_eq_add_of_le hij
      obtain ⟨e₁, he₁, hm⟩ := hS.index hdown he (MotionEvent.shows_report.mp hid)
      obtain rfl := Option.some_inj.mp (he'.symm.trans he₁)
      obtain ⟨f, f', hF, hstep, -⟩ := event_of_exec h he'
      have hnodup : e'.ids.Nodup := by
        rcases Gesture.ids_cases hF hstep with ⟨a, hids, -⟩ | ⟨a, b, hids, hab, -⟩
        · simp [hids]
        · simp [hids, hab]
      have hindex := index_unique hnodup hm (MotionEvent.shows_report.mp hid')
      cases s <;> cases s' <;> first | rfl | cases hindex
    · intro s id id' i j r r' hij hr hr' hid hid' hstate
      obtain ⟨e, he, rfl⟩ := getElem?_reports hr
      obtain ⟨e', he', rfl⟩ := getElem?_reports hr'
      obtain ⟨j, rfl⟩ := Nat.exists_eq_add_of_le hij
      refine hS.handover he he' hid hid' fun k q hk hk' hq => hstate k q.report hk hk' ?_
      rw [List.getElem?_map, hq, Option.map_some]

/-- **Each finger keeps its slot exactly if none changes its index.**  Of every
gesture with at most two fingers the listener reports every event; each finger
is reported in one slot while it is down, and no slot passes to another finger
without a report of its release — if and only if another finger comes down at
index 0 right after the first of two has lifted, and at no other time. -/
theorem slots_kept_iff (events : List (MotionEvent κ)) (fingers : List ℕ)
    (h : Run.exec Gesture.step [] events = some fingers) :
    SlotsKept events ↔ IndicesKept events := by
  rw [slotsKept_iff h]
  refine forall₃_congr fun k e e' => forall₂_congr fun he he' => ?_
  obtain ⟨f, f', hF, hstep, hnext⟩ := event_of_exec h he
  obtain ⟨f'', hstep'⟩ := hnext e' he'
  exact steady_iff hF hstep hstep'

/-- A finger at `(x, y)`. -/
private def fingerAt (id : ℕ) (x y : BitVec 32) : Pointer (BitVec 32) := ⟨id, x, y⟩

/-- Two fingers come down and move; the second lifts, then the first. -/
private def pinch : List (MotionEvent (BitVec 32)) :=
  [⟨.ACTION_DOWN, 0, [fingerAt 0 10 20]⟩,
    ⟨.ACTION_POINTER_DOWN, 1, [fingerAt 0 10 20, fingerAt 1 300 400]⟩,
    ⟨.ACTION_MOVE, 0, [fingerAt 0 110 120, fingerAt 1 200 300]⟩,
    ⟨.ACTION_POINTER_UP, 1, [fingerAt 0 110 120, fingerAt 1 200 300]⟩,
    ⟨.ACTION_UP, 0, [fingerAt 0 110 120]⟩]

theorem slots_kept_iff_pinch : Run.exec Gesture.step [] pinch = some [] ∧ SlotsKept pinch :=
  have h : Run.exec Gesture.step [] pinch = some [] := by decide
  ⟨h, (slots_kept_iff pinch [] h).mpr (by decide)⟩

/-- Two fingers come down; the first lifts, then the second. -/
private def liftFirst : List (MotionEvent (BitVec 32)) :=
  [⟨.ACTION_DOWN, 0, [fingerAt 0 10 20]⟩,
    ⟨.ACTION_POINTER_DOWN, 1, [fingerAt 0 10 20, fingerAt 1 300 400]⟩,
    ⟨.ACTION_POINTER_UP, 0, [fingerAt 0 10 20, fingerAt 1 300 400]⟩,
    ⟨.ACTION_MOVE, 0, [fingerAt 1 300 410]⟩,
    ⟨.ACTION_UP, 0, [fingerAt 1 300 410]⟩]

/-- **The first finger lifts, and the second moves over.**  Finger 1 is reported
in the second slot, and from the next move on in the first. -/
theorem lift_moves_finger :
    ¬ ∀ events : List (MotionEvent (BitVec 32)),
      Run.exec Gesture.step [] events = some [] → SlotsKept events := by
  intro h
  have hexec : Run.exec Gesture.step [] liftFirst = some [] := by decide
  have hsteady := (slotsKept_iff hexec).mp (h liftFirst hexec) 2 _ _ rfl rfl
  have hkept : ¬ MotionEvent.Releases (liftFirst.get ⟨2, by decide⟩) 1 := by
    simp [liftFirst, MotionEvent.Releases, MotionEvent.ids, fingerAt]
  exact absurd (hsteady.index 1 1 0 hkept rfl rfl) (by decide)

end Carplay.Touch

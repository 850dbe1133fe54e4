/-
The touch listener of `CarplayMainActivity`, and touch gestures.

A `MotionEvent` lists its pointers by index.  The listener is generic in what a
coordinate is: `getX(i).toInt()` is an `Int` on the device, and the finger itself
when a report is asked where it comes from.

* `Gesture.step` — the gestures: ids are stable, indices are compacted when a
  finger lifts, and at most two fingers are down;
* `Gesture.step_cases` — what an event of a gesture can be;
* `listener_eq` — what the listener reports of it.
-/
import GrpcJniClient.Run
import Mathlib.Data.List.Nodup

namespace Carplay.Touch

/-- `MotionEvent.getActionMasked`. -/
inductive Action where
  | ACTION_DOWN
  | ACTION_UP
  | ACTION_MOVE
  | ACTION_CANCEL
  | ACTION_POINTER_DOWN
  | ACTION_POINTER_UP
  | other
  deriving DecidableEq, Repr

variable {κ : Type*}

/-- A pointer of an event, its coordinates as `toInt()` gives them. -/
structure Pointer (κ : Type*) where
  id : ℕ
  x : κ
  y : κ
  deriving DecidableEq, Repr

/-- An Android `MotionEvent`; its pointers stand at their indices. -/
structure MotionEvent (κ : Type*) where
  actionMasked : Action
  actionIndex : ℕ
  pointers : List (Pointer κ)
  deriving DecidableEq, Repr

/-- One element of the arrays `state`, `x` and `y`. -/
structure TouchPoint (κ : Type*) where
  state : Bool
  x : κ
  y : κ
  deriving DecidableEq, Repr

/-- The arguments of `uiMotionEventChanged`: the elements 0 and 1 of the
listener's arrays. -/
structure Report (κ : Type*) where
  touch1 : TouchPoint κ
  touch2 : TouchPoint κ
  deriving DecidableEq, Repr

namespace Report

/-- The arrays as the listener makes them. -/
def new [Zero κ] : Report κ := ⟨⟨false, 0, 0⟩, ⟨false, 0, 0⟩⟩

/-- Write element `i` of the arrays; `none` is the
`ArrayIndexOutOfBoundsException`. -/
def set (r : Report κ) (i : ℕ) (t : TouchPoint κ) : Option (Report κ) :=
  match i with
  | 0 => some { r with touch1 := t }
  | 1 => some { r with touch2 := t }
  | _ => none

end Report

/-- Write pointer `i` of the event with this state; `none` is an exception. -/
def record (event : MotionEvent κ) (state : Bool) (r : Report κ) (i : ℕ) : Option (Report κ) :=
  (event.pointers[i]?).bind fun p => r.set i ⟨state, p.x, p.y⟩

/-- `CarplayMainActivity`'s touch listener, up to its call of
`uiMotionEventChanged`. -/
def listener [Zero κ] (event : MotionEvent κ) : Option (Report κ) :=
  let pointerCount := min event.pointers.length 2
  match event.actionMasked with
  | .ACTION_DOWN => record event true .new 0
  | .ACTION_POINTER_DOWN | .ACTION_MOVE =>
      (List.range pointerCount).foldlM (record event true) .new
  | .ACTION_POINTER_UP => do
      let index := event.actionIndex
      let r ← record event false .new index
      (List.range pointerCount).foldlM
        (fun r i => if i != index then record event true r i else some r) r
  | .ACTION_UP | .ACTION_CANCEL =>
      (List.range pointerCount).foldlM (record event false) .new
  | .other => some .new

namespace MotionEvent

/-- The ids of the pointers, by index. -/
def ids (e : MotionEvent κ) : List ℕ := e.pointers.map (·.id)

/-- The state the listener gives pointer `i`. -/
def stateAt (e : MotionEvent κ) (i : ℕ) : Bool :=
  match e.actionMasked with
  | .ACTION_DOWN | .ACTION_POINTER_DOWN | .ACTION_MOVE => true
  | .ACTION_POINTER_UP => i != e.actionIndex
  | _ => false

/-- What the listener puts into slot `i`. -/
def touchAt [Zero κ] (e : MotionEvent κ) (i : ℕ) : TouchPoint κ :=
  match e.pointers[i]? with
  | some p => ⟨e.stateAt i, p.x, p.y⟩
  | none => ⟨false, 0, 0⟩
end MotionEvent

namespace Gesture

/-- One event of a gesture; the state is the ids of the fingers that are down, by
index. -/
def step (fingers : List ℕ) (e : MotionEvent κ) : Option (List ℕ) :=
  match e.actionMasked with
  | .ACTION_DOWN => if fingers = [] ∧ e.ids.length = 1 then some e.ids else none
  | .ACTION_MOVE => if fingers ≠ [] ∧ e.ids = fingers then some fingers else none
  | .ACTION_POINTER_DOWN =>
      if fingers ≠ [] ∧ e.ids.length ≤ 2 ∧ e.ids.Nodup ∧ e.actionIndex < e.ids.length ∧
          e.ids.eraseIdx e.actionIndex = fingers then some e.ids
      else none
  | .ACTION_POINTER_UP =>
      if e.ids = fingers ∧ 2 ≤ fingers.length ∧ e.actionIndex < fingers.length then
        some (fingers.eraseIdx e.actionIndex)
      else none
  | .ACTION_UP => if e.ids = fingers ∧ fingers.length = 1 then some [] else none
  | .ACTION_CANCEL => if e.ids = fingers ∧ fingers ≠ [] then some [] else none
  | .other => none

end Gesture

/-! ### One event -/

variable {fingers fingers' : List ℕ} {e e' : MotionEvent κ}

namespace Gesture

/-- What an event of a gesture can be. -/
theorem step_cases (hlen : fingers.length ≤ 2) (h : step fingers e = some fingers') :
    (fingers = [] ∧ e.actionMasked = .ACTION_DOWN ∧ ∃ a, e.ids = [a] ∧ fingers' = [a]) ∨
    (fingers ≠ [] ∧ e.actionMasked = .ACTION_MOVE ∧ e.ids = fingers ∧ fingers' = fingers) ∨
    (e.actionMasked = .ACTION_POINTER_DOWN ∧ ∃ a c, fingers = [a] ∧ a ≠ c ∧ fingers' = e.ids ∧
      (e.actionIndex = 0 ∧ e.ids = [c, a] ∨ e.actionIndex = 1 ∧ e.ids = [a, c])) ∨
    (e.actionMasked = .ACTION_POINTER_UP ∧ ∃ a b, fingers = [a, b] ∧ e.ids = [a, b] ∧
      (e.actionIndex = 0 ∧ fingers' = [b] ∨ e.actionIndex = 1 ∧ fingers' = [a])) ∨
    ((e.actionMasked = .ACTION_UP ∨ e.actionMasked = .ACTION_CANCEL) ∧ fingers ≠ [] ∧
      e.ids = fingers ∧ fingers' = []) := by
  cases hact : e.actionMasked with
  | ACTION_DOWN =>
    simp only [step, hact, Option.ite_none_right_eq_some, Option.some_inj] at h
    obtain ⟨⟨hnil, hone⟩, rfl⟩ := h
    obtain ⟨a, ha⟩ := List.length_eq_one_iff.mp hone
    exact .inl ⟨hnil, rfl, a, ha, ha⟩
  | ACTION_MOVE =>
    simp only [step, hact, Option.ite_none_right_eq_some, Option.some_inj] at h
    obtain ⟨⟨hne, hids⟩, rfl⟩ := h
    exact .inr (.inl ⟨hne, rfl, hids, rfl⟩)
  | ACTION_POINTER_DOWN =>
    simp only [step, hact, Option.ite_none_right_eq_some, Option.some_inj] at h
    obtain ⟨⟨hne, hlen', hnodup, hidx, herase⟩, rfl⟩ := h
    refine .inr (.inr (.inl ⟨rfl, ?_⟩))
    have hlength := List.length_eraseIdx_of_lt hidx
    rw [herase] at hlength
    have hpos := List.length_pos_iff.mpr hne
    -- with the new pointer there are two, and erasing it leaves the one that was down
    obtain ⟨u, v, huv⟩ := List.length_eq_two.mp (show e.ids.length = 2 by omega)
    rw [huv] at hnodup hidx herase ⊢
    have huv' : u ≠ v := by simpa using hnodup
    rcases hi : e.actionIndex with _ | _ | i
    · rw [hi] at herase
      exact ⟨v, u, herase.symm, huv'.symm, rfl, .inl ⟨rfl, rfl⟩⟩
    · rw [hi] at herase
      exact ⟨u, v, herase.symm, huv', rfl, .inr ⟨rfl, rfl⟩⟩
    · rw [hi, List.length_cons, List.length_singleton] at hidx
      omega
  | ACTION_POINTER_UP =>
    simp only [step, hact, Option.ite_none_right_eq_some, Option.some_inj] at h
    obtain ⟨⟨hids, hlen', hidx⟩, rfl⟩ := h
    obtain ⟨a, b, rfl⟩ := List.length_eq_two.mp (show fingers.length = 2 by omega)
    refine .inr (.inr (.inr (.inl ⟨rfl, a, b, rfl, hids, ?_⟩)))
    rcases hi : e.actionIndex with _ | _ | i
    · exact .inl ⟨rfl, rfl⟩
    · exact .inr ⟨rfl, rfl⟩
    · rw [hi, List.length_cons, List.length_singleton] at hidx
      omega
  | ACTION_UP =>
    simp only [step, hact, Option.ite_none_right_eq_some, Option.some_inj] at h
    obtain ⟨⟨hids, hone⟩, rfl⟩ := h
    have hne : fingers ≠ [] := List.ne_nil_of_length_pos (by omega)
    exact .inr (.inr (.inr (.inr ⟨.inl rfl, hne, hids, rfl⟩)))
  | ACTION_CANCEL =>
    simp only [step, hact, Option.ite_none_right_eq_some, Option.some_inj] at h
    obtain ⟨⟨hids, hne⟩, rfl⟩ := h
    exact .inr (.inr (.inr (.inr ⟨.inr rfl, hne, hids, rfl⟩)))
  | other =>
    simp only [step, hact] at h
    cases h

/-- At most two fingers are down, and their ids differ. -/
def Fits (fingers : List ℕ) : Prop := fingers.length ≤ 2 ∧ fingers.Nodup

theorem Fits.step (hF : Fits fingers) (h : Gesture.step fingers e = some fingers') :
    Fits fingers' := by
  rcases step_cases hF.1 h with ⟨-, -, a, -, rfl⟩ | ⟨-, -, -, rfl⟩ |
    ⟨-, a, c, rfl, hne, rfl, ⟨-, hids⟩ | ⟨-, hids⟩⟩ |
    ⟨-, a, b, rfl, -, ⟨-, rfl⟩ | ⟨-, rfl⟩⟩ | ⟨-, -, -, rfl⟩
  · simp [Fits]
  · exact hF
  · simp [Fits, hids, hne.symm]
  · simp [Fits, hids, hne]
  · simp [Fits]
  · simp [Fits]
  · simp [Fits]

/-- An event of a gesture lists one or two pointers. -/
theorem ids_cases (hF : Fits fingers) (h : step fingers e = some fingers') :
    (∃ a, e.ids = [a] ∧ e.actionMasked ≠ .ACTION_POINTER_UP) ∨
    (∃ a b, e.ids = [a, b] ∧ a ≠ b ∧ e.actionMasked ≠ .ACTION_DOWN ∧
      (e.actionMasked = .ACTION_POINTER_UP → e.actionIndex = 0 ∨ e.actionIndex = 1)) := by
  have two : fingers ≠ [] → (∃ a, fingers = [a]) ∨ ∃ a b, fingers = [a, b] ∧ a ≠ b := by
    intro hne
    rcases fingers with _ | ⟨a, _ | ⟨b, _ | ⟨c, cs⟩⟩⟩
    · exact absurd rfl hne
    · exact .inl ⟨a, rfl⟩
    · exact .inr ⟨a, b, rfl, by simpa using hF.2⟩
    · have := hF.1
      simp at this
  rcases step_cases hF.1 h with ⟨-, hact, a, hids, -⟩ | ⟨hne, hact, hids, -⟩ |
    ⟨hact, a, c, -, hac, -, ⟨-, hids⟩ | ⟨-, hids⟩⟩ |
    ⟨hact, a, b, rfl, hids, hidx⟩ | ⟨hact, hne, hids, -⟩
  · exact .inl ⟨a, hids, by simp [hact]⟩
  · rw [hids]
    rcases two hne with ⟨a, ha⟩ | ⟨a, b, hab, hneq⟩
    · exact .inl ⟨a, ha, by simp [hact]⟩
    · exact .inr ⟨a, b, hab, hneq, by simp [hact], by simp [hact]⟩
  · exact .inr ⟨c, a, hids, hac.symm, by simp [hact], by simp [hact]⟩
  · exact .inr ⟨a, c, hids, hac, by simp [hact], by simp [hact]⟩
  · refine .inr ⟨a, b, hids, by simpa using hF.2, by simp [hact], fun _ => ?_⟩
    exact hidx.imp (fun h => h.1) (fun h => h.1)
  · rw [hids]
    rcases two hne with ⟨a, ha⟩ | ⟨a, b, hab, hneq⟩
    · exact .inl ⟨a, ha, by rcases hact with hact | hact <;> simp [hact]⟩
    · exact .inr ⟨a, b, hab, hneq, by rcases hact with hact | hact <;> simp [hact],
        by rcases hact with hact | hact <;> simp [hact]⟩

theorem action_ne_other (h : step fingers e = some fingers') : e.actionMasked ≠ .other := by
  intro hact
  rw [step, hact] at h
  cases h

end Gesture

/-- What the listener reports, slot by slot, of any event of a gesture whose lifted
pointer has a slot. -/
theorem listener_eq_touchAt [Zero κ] (hpos : 0 < e.pointers.length)
    (hdown : e.actionMasked = .ACTION_DOWN → e.pointers.length = 1)
    (hup : e.actionMasked = .ACTION_POINTER_UP →
      e.actionIndex < e.pointers.length ∧ e.actionIndex < 2)
    (hother : e.actionMasked ≠ .other) :
    listener e = some ⟨e.touchAt 0, e.touchAt 1⟩ := by
  obtain ⟨action, index, pointers⟩ := e
  rcases pointers with _ | ⟨p, _ | ⟨q, rest⟩⟩
  · exact absurd hpos (Nat.lt_irrefl 0)
  · cases action with
    | ACTION_POINTER_UP =>
      obtain ⟨hidx, -⟩ := hup rfl
      obtain rfl : index = 0 := Nat.lt_one_iff.mp hidx
      rfl
    | other => exact absurd rfl hother
    | _ => rfl
  · -- the loops stop at the second pointer
    have hcount : min (p :: q :: rest).length 2 = 2 := by
      rw [List.length_cons, List.length_cons]
      omega
    cases action with
    | ACTION_DOWN => simp at hdown
    | ACTION_POINTER_UP =>
      obtain ⟨-, htwo⟩ := hup rfl
      simp only [listener, hcount]
      rcases index with _ | _ | index
      · rfl
      · rfl
      · exact absurd htwo (Nat.not_lt.mpr (Nat.le_add_left 2 index))
    | other => exact absurd rfl hother
    | _ =>
      simp only [listener, hcount]
      rfl

/-- **What the listener reports**: slot by slot, the pointer at its index. -/
theorem listener_eq [Zero κ] (hF : Gesture.Fits fingers)
    (h : Gesture.step fingers e = some fingers') :
    listener e = some ⟨e.touchAt 0, e.touchAt 1⟩ := by
  have hlen : e.ids.length = e.pointers.length := List.length_map _
  have hother := Gesture.action_ne_other h
  rcases Gesture.ids_cases hF h with ⟨a, hids, hact⟩ | ⟨a, b, hids, -, hdown, hidx⟩
  · rw [hids, List.length_singleton] at hlen
    exact listener_eq_touchAt (by omega) (fun _ => hlen.symm) (fun hup => absurd hup hact) hother
  · rw [hids, List.length_cons, List.length_singleton] at hlen
    refine listener_eq_touchAt (by omega) (fun h => absurd h hdown) (fun hup => ?_) hother
    rcases hidx hup with hi | hi
    · omega
    · omega

end Carplay.Touch

/-
The way of a touch report: the listener, the packing of `UiService`, its flow,
and the HID collector of `CarplayRuntime`.

* `decode_updateUiMotionEventChanged` — the packed value says what the report
  says, with coordinates cut to twelve bits;
* `Inv.step` — the last report that counts has never been forgotten;
* `touches_released` — what is passed to `touchScreenHidBinder` are some of the
  emitted values, in order and each once; and once the buffer is drained after
  the end of a gesture the last of them says that no finger is down.
-/
import GrpcJniClient.SharedFlow
import GrpcJniClient.TouchListener
import Mathlib.Data.BitVec

open SharedFlow

namespace Carplay.Touch

/-- `UiService.updateUiMotionEventChanged`: the `touchValue` of the event it
emits. -/
def updateUiMotionEventChanged (r : Report (BitVec 32)) : BitVec 64 :=
  ((r.touch1.x.signExtend 64 &&& 0xFFF) <<< 0) |||
  ((r.touch1.y.signExtend 64 &&& 0xFFF) <<< 12) |||
  ((if r.touch1.state then 1#64 else 0#64) <<< 24) |||
  ((r.touch2.x.signExtend 64 &&& 0xFFF) <<< 25) |||
  ((r.touch2.y.signExtend 64 &&& 0xFFF) <<< 37) |||
  ((if r.touch2.state then 1#64 else 0#64) <<< 49)

/-- What a value says about the two touches. -/
def decode (v : BitVec 64) : Report (BitVec 12) where
  touch1 := ⟨v.getLsbD 24, v.extractLsb' 0 12, v.extractLsb' 12 12⟩
  touch2 := ⟨v.getLsbD 49, v.extractLsb' 25 12, v.extractLsb' 37 12⟩

/-- The UI side: the listener's binder, the fingers that are down, the flow with
the HID collector of `CarplayRuntime`, and the values passed to
`touchScreenHidBinder`. -/
structure HidPipeline where
  /-- The activity has bound `UiService`. -/
  mUiServiceBinder : Bool
  fingers : List ℕ
  /-- `mUiHidSharedFlow`; an event is its `touchValue`. -/
  ui : Collector 60 (BitVec 64)
  touchScreenHid : List (BitVec 64)

namespace HidPipeline

/-- The HID collector has subscribed; no finger is down. -/
def initial : HidPipeline := ⟨false, [], .initial, []⟩

inductive Move where
  | bound
  /-- The listener is called with the next event of a gesture. -/
  | touch (event : MotionEvent (BitVec 32))
  | take
  | handle

def step (s : HidPipeline) : Move → Option HidPipeline
  | .bound => some { s with mUiServiceBinder := true }
  | .touch event =>
      (Gesture.step s.fingers event).bind fun fingers =>
        (listener event).map fun r =>
          { s with
            fingers := fingers
            ui := if s.mUiServiceBinder then s.ui.tryEmit (updateUiMotionEventChanged r) else s.ui }
  | .take => s.ui.take.map fun c => { s with ui := c }
  | .handle => s.ui.handle.map fun (v, c) =>
      { s with ui := c, touchScreenHid := s.touchScreenHid ++ [v] }

end HidPipeline

/-! ### The packing -/

/-- A coordinate's bits in the packed value. -/
theorem getLsbD_coordinate (x : BitVec 32) {k : ℕ} (hk : k + 12 ≤ 64) (i : ℕ) :
    ((x.signExtend 64 &&& 0xFFF) <<< k).getLsbD i
      = (decide (k ≤ i) && decide (i < k + 12) && x.getLsbD (i - k)) := by
  -- the mask has the bits below 12
  have hmask : ∀ j, (0xFFF#64).getLsbD j = decide (j < 12) := by
    intro j
    rw [show (0xFFF : ℕ) = 2 ^ 12 - 1 by decide, BitVec.getLsbD_ofNat, Nat.testBit_two_pow_sub_one]
    by_cases hj : j < 12
    · simp [hj]
      omega
    · simp [hj]
  rw [show (0xFFF : BitVec 64) = 0xFFF#64 from rfl, BitVec.getLsbD_shiftLeft, BitVec.getLsbD_and,
    hmask, BitVec.getLsbD_signExtend]
  -- below, inside and above the twelve bits
  by_cases hlow : k ≤ i
  · by_cases hhigh : i < k + 12
    · have h₁ : i < 64 := by omega
      have h₂ : i - k < 64 := by omega
      have h₃ : i - k < 32 := by omega
      have h₄ : i - k < 12 := by omega
      simp [hlow, hhigh, h₁, h₂, h₃, h₄]
    · have h₁ : ¬ i - k < 12 := by omega
      simp [hhigh, h₁]
  · have h₁ : i < k := by omega
    simp [hlow, h₁]

/-- A state's bit in the packed value. -/
theorem getLsbD_state (s : Bool) {k : ℕ} (hk : k < 64) (i : ℕ) :
    ((if s then 1#64 else 0#64) <<< k).getLsbD i = (s && decide (i = k)) := by
  cases s with
  | false => simp
  | true =>
    rw [if_pos rfl, BitVec.getLsbD_shiftLeft, BitVec.getLsbD_one]
    by_cases h : i = k
    · subst h
      simp [hk]
    · simp [h]
      omega

theorem getLsbD_updateUiMotionEventChanged (r : Report (BitVec 32)) (i : ℕ) :
    (updateUiMotionEventChanged r).getLsbD i =
      (decide (i < 12) && r.touch1.x.getLsbD i ||
        decide (12 ≤ i) && decide (i < 24) && r.touch1.y.getLsbD (i - 12) ||
        r.touch1.state && decide (i = 24) ||
        decide (25 ≤ i) && decide (i < 37) && r.touch2.x.getLsbD (i - 25) ||
        decide (37 ≤ i) && decide (i < 49) && r.touch2.y.getLsbD (i - 37) ||
        r.touch2.state && decide (i = 49)) := by
  simp only [updateUiMotionEventChanged, BitVec.getLsbD_or]
  rw [getLsbD_coordinate _ (by omega), getLsbD_coordinate _ (by omega),
    getLsbD_coordinate _ (by omega), getLsbD_coordinate _ (by omega),
    getLsbD_state _ (by omega), getLsbD_state _ (by omega)]
  simp

/-- A field of the packed value that holds a coordinate's bits. -/
theorem extractLsb'_eq_setWidth {v : BitVec 64} {x : BitVec 32} {k : ℕ}
    (h : ∀ i, i < 12 → v.getLsbD (k + i) = x.getLsbD i) :
    v.extractLsb' k 12 = x.setWidth 12 := by
  refine BitVec.eq_of_getLsbD_eq fun i hi => ?_
  rw [BitVec.getLsbD_extractLsb', BitVec.getLsbD_setWidth, h i hi]

/-- **The packed value says what the report says**, with each coordinate modulo
`2 ^ 12`. -/
theorem decode_updateUiMotionEventChanged (r : Report (BitVec 32)) :
    decode (updateUiMotionEventChanged r) =
      ⟨⟨r.touch1.state, r.touch1.x.setWidth 12, r.touch1.y.setWidth 12⟩,
        ⟨r.touch2.state, r.touch2.x.setWidth 12, r.touch2.y.setWidth 12⟩⟩ := by
  rw [decode]
  -- the states are single bits; each coordinate is bit by bit its own field
  congr 2
  · rw [getLsbD_updateUiMotionEventChanged]
    simp
  · refine extractLsb'_eq_setWidth fun i hi => ?_
    rw [getLsbD_updateUiMotionEventChanged]
    grind
  · refine extractLsb'_eq_setWidth fun i hi => ?_
    rw [getLsbD_updateUiMotionEventChanged]
    grind
  · rw [getLsbD_updateUiMotionEventChanged]
    simp
  · refine extractLsb'_eq_setWidth fun i hi => ?_
    rw [getLsbD_updateUiMotionEventChanged]
    grind
  · refine extractLsb'_eq_setWidth fun i hi => ?_
    rw [getLsbD_updateUiMotionEventChanged]
    grind

/-- The value says that no finger is down. -/
def Released (v : BitVec 64) : Prop :=
  (decode v).touch1.state = false ∧ (decode v).touch2.state = false

/-- The last event of a gesture reports every finger's release. -/
theorem released_of_step {fingers : List ℕ} {e : MotionEvent (BitVec 32)}
    {r : Report (BitVec 32)} (hF : Gesture.Fits fingers) (h : Gesture.step fingers e = some [])
    (hr : listener e = some r) : Released (updateUiMotionEventChanged r) := by
  obtain rfl := Option.some_inj.mp ((listener_eq hF h).symm.trans hr)
  have hstate : ∀ i, (e.touchAt i).state = false := by
    intro i
    -- only UP and CANCEL leave no finger
    have hact : e.actionMasked = .ACTION_UP ∨ e.actionMasked = .ACTION_CANCEL := by
      rcases Gesture.step_cases hF.1 h with ⟨-, -, a, -, hnil⟩ | ⟨hne, -, -, hnil⟩ |
        ⟨-, a, c, -, -, hnil, ⟨-, hids⟩ | ⟨-, hids⟩⟩ | ⟨-, a, b, -, -, ⟨-, hnil⟩ | ⟨-, hnil⟩⟩ |
        ⟨hact, -⟩
      · cases hnil
      · exact absurd hnil.symm hne
      · cases hnil.trans hids
      · cases hnil.trans hids
      · cases hnil
      · cases hnil
      · exact hact
    rw [MotionEvent.touchAt]
    cases e.pointers[i]? with
    | none => rfl
    | some p => rcases hact with hact | hact <;> simp [MotionEvent.stateAt, hact]
  rw [Released, decode_updateUiMotionEventChanged]
  exact ⟨hstate 0, hstate 1⟩

/-! ### The pipeline -/

namespace HidPipeline

/-- The invariant of a run. -/
structure Inv (s : HidPipeline) : Prop where
  fits : Gesture.Fits s.fingers
  passed : s.touchScreenHid = s.ui.handled
  unbound : s.mUiServiceBinder = false → s.ui.emitted = []
  /-- The last value emitted is still on its way, or has been handled. -/
  last : s.ui.kept.getLast? = s.ui.emitted.getLast?
  /-- While no finger is down, it says so. -/
  released : s.fingers = [] → ∀ v, s.ui.emitted.getLast? = some v → Released v

theorem Inv.initial : Inv initial where
  fits := ⟨by simp [HidPipeline.initial], List.nodup_nil⟩
  passed := rfl
  unbound := fun _ => rfl
  last := rfl
  released := fun _ v hv => by simp [HidPipeline.initial, Collector.initial] at hv

/-- **The step lemma.** -/
theorem Inv.step {s t : HidPipeline} {m : Move} (hI : Inv s) (h : HidPipeline.step s m = some t) :
    Inv t := by
  cases m with
  | bound =>
    obtain rfl := Option.some_inj.mp h
    refine ⟨hI.fits, hI.passed, fun hunbound => ?_, hI.last, hI.released⟩
    cases hunbound
  | touch event =>
    obtain ⟨fingers, hstep, h⟩ := Option.bind_eq_some_iff.mp h
    obtain ⟨r, hr, rfl⟩ := Option.map_eq_some_iff.mp h
    have hfits := hI.fits.step hstep
    by_cases hbound : s.mUiServiceBinder = true
    · -- a full buffer forgets its oldest value, never the one that is emitted
      rw [if_pos hbound]
      refine ⟨hfits, hI.passed, fun hunbound => ?_, ?_, ?_⟩
      · exact absurd (hbound.symm.trans hunbound) (by decide)
      · rw [Collector.getLast?_kept_tryEmit _ _ (by decide)]
        exact List.getLast?_concat.symm
      · rintro rfl v hv
        obtain rfl := Option.some_inj.mp (List.getLast?_concat.symm.trans hv)
        exact released_of_step hI.fits hstep hr
    · -- before the service is bound nothing is emitted
      rw [if_neg hbound]
      rw [Bool.not_eq_true] at hbound
      refine ⟨hfits, hI.passed, hI.unbound, hI.last, fun _ v hv => ?_⟩
      rw [hI.unbound hbound] at hv
      cases hv
  | take =>
    obtain ⟨c, hc, rfl⟩ := Option.map_eq_some_iff.mp h
    obtain ⟨_, -, -, -, hh, he⟩ := Collector.of_take hc
    refine ⟨hI.fits, hI.passed.trans hh.symm, he ▸ hI.unbound, ?_, ?_⟩
    · rw [Collector.kept_of_take hc, hI.last, he]
    · rw [he]
      exact hI.released
  | handle =>
    obtain ⟨⟨v, c⟩, hc, rfl⟩ := Option.map_eq_some_iff.mp h
    obtain ⟨-, -, -, hh, he⟩ := Collector.of_handle hc
    refine ⟨hI.fits, ?_, he ▸ hI.unbound, ?_, ?_⟩
    · rw [hh, ← hI.passed]
    · rw [Collector.kept_of_handle hc, hI.last, he]
    · rw [he]
      exact hI.released

theorem Inv.of_exec {t : HidPipeline} {ls : List Move}
    (h : Run.exec HidPipeline.step HidPipeline.initial ls = some t) : Inv t :=
  Run.exec_invariant (C := fun _ _ => True) (fun _ _ _ hI _ hstep => hI.step hstep) Inv.initial
    (Run.along_true _ _) h

end HidPipeline

open HidPipeline

/-- **No finger is left stuck down.**  In every run the values passed to
`touchScreenHidBinder` are some of those emitted, in order and each once; and
once the buffer is drained after the end of a gesture, the last of them says that
no finger is down. -/
theorem touches_released (ls : List Move) (t : HidPipeline)
    (h : Run.exec HidPipeline.step HidPipeline.initial ls = some t) :
    t.touchScreenHid.Sublist t.ui.emitted ∧
      (t.fingers = [] → t.ui.Drained → t.ui.emitted ≠ [] →
        ∃ v, t.touchScreenHid.getLast? = some v ∧ Released v) := by
  have hI := Inv.of_exec h
  refine ⟨?_, fun hup hD hne => ?_⟩
  · rw [hI.passed]
    exact (List.sublist_append_left _ _).trans t.ui.kept_sublist
  · -- drained, the last value emitted is the last one handled
    have hv := List.getLast?_eq_some_getLast hne
    refine ⟨_, ?_, hI.released hup _ hv⟩
    rw [hI.passed, ← hD.kept_eq, hI.last, hv]

/-- A finger comes down and lifts at `(10, 20)`; then the collector moves. -/
private def tap : List Move :=
  [.bound, .touch ⟨.ACTION_DOWN, 0, [⟨0, 10, 20⟩]⟩, .touch ⟨.ACTION_UP, 0, [⟨0, 10, 20⟩]⟩,
    .take, .handle, .take, .handle]

theorem touches_released_tap :
    ∃ t, Run.exec HidPipeline.step HidPipeline.initial tap = some t ∧
      t.touchScreenHid.Sublist t.ui.emitted ∧ ∃ v, t.touchScreenHid.getLast? = some v ∧
        Released v := by
  refine ⟨_, rfl, (touches_released tap _ rfl).1, ?_⟩
  exact (touches_released tap _ rfl).2 rfl ⟨rfl, rfl⟩ (by decide)

end Carplay.Touch

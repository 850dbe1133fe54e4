/-
The six fields of a packed touch report.

* `packed_fields` — each field is read back from its own bits, a coordinate modulo
  4096, and nothing else is in the value;
* `order_kept_iff` — so two positions of a gesture come out in their order exactly
  if between them lie no more multiples of 4096 than whole 4096s;
* `off_the_edge_teleports` — a finger that is dragged over the left edge comes out
  at the right one.
-/
import GrpcJniClient.TouchProjection
import GrpcJniClient.TouchReports

namespace Carplay.Touch

/-! ### Fields -/

/-- The two reports have the same states, and the same coordinates modulo 4096. -/
structure Congruent (r r' : Report (BitVec 32)) : Prop where
  state : ∀ s : Slot, (r.touch s).state = (r'.touch s).state
  x : ∀ s : Slot, (r.touch s).x.toInt % 4096 = (r'.touch s).x.toInt % 4096
  y : ∀ s : Slot, (r.touch s).y.toInt % 4096 = (r'.touch s).y.toInt % 4096

/-- What is left of a coordinate is its remainder, also of a negative one. -/
theorem toNat_setWidth (x : BitVec 32) : ((x.setWidth 12).toNat : ℤ) = x.toInt % 4096 := by
  have hlt := x.isLt
  rw [BitVec.toNat_setWidth, BitVec.toInt_eq_toNat_cond]
  split
  · omega
  · omega

theorem setWidth_eq_iff (x x' : BitVec 32) :
    x.setWidth 12 = x'.setWidth 12 ↔ x.toInt % 4096 = x'.toInt % 4096 := by
  rw [← toNat_setWidth, ← toNat_setWidth, Int.natCast_inj, BitVec.toNat_inj]

/-- Nothing is packed from bit 50 on. -/
theorem toNat_updateUiMotionEventChanged_lt (r : Report (BitVec 32)) :
    (updateUiMotionEventChanged r).toNat < 2 ^ 50 := by
  refine Nat.lt_pow_two_of_testBit _ fun i hi => ?_
  show (updateUiMotionEventChanged r).getLsbD i = false
  -- each field ends below bit 50
  rw [getLsbD_updateUiMotionEventChanged]
  grind

/-- The mask leaves the low twelve bits, whatever the sign. -/
theorem signExtend_and_mask (x : BitVec 32) :
    x.signExtend 64 &&& 0xFFF = (x.setWidth 12).setWidth 64 := by
  refine BitVec.eq_of_getLsbD_eq fun i hi => ?_
  -- a coordinate that is masked and moved by nothing
  have hbit := getLsbD_coordinate x (show 0 + 12 ≤ 64 by decide) i
  rw [BitVec.shiftLeft_zero] at hbit
  rw [hbit, BitVec.getLsbD_setWidth, BitVec.getLsbD_setWidth]
  simp [hi]

theorem congruent_iff (r r' : Report (BitVec 32)) :
    Congruent r r' ↔
      decode (updateUiMotionEventChanged r) = decode (updateUiMotionEventChanged r') := by
  rw [decode_updateUiMotionEventChanged, decode_updateUiMotionEventChanged]
  simp only [Report.mk.injEq, TouchPoint.mk.injEq, setWidth_eq_iff]
  constructor
  · rintro ⟨hstate, hx, hy⟩
    exact ⟨⟨hstate .touch1, hx .touch1, hy .touch1⟩, hstate .touch2, hx .touch2, hy .touch2⟩
  · rintro ⟨⟨hstate₁, hx₁, hy₁⟩, hstate₂, hx₂, hy₂⟩
    refine ⟨fun s => ?_, fun s => ?_, fun s => ?_⟩
    -- one field of one finger each
    all_goals cases s <;> assumption

/-- Two reports with the same value say the same, and the other way round. -/
theorem updateUiMotionEventChanged_eq_iff (r r' : Report (BitVec 32)) :
    updateUiMotionEventChanged r = updateUiMotionEventChanged r' ↔ Congruent r r' := by
  rw [congruent_iff]
  constructor
  · intro h
    rw [h]
  · intro h
    -- the value is made of nothing but the six fields
    rw [decode_updateUiMotionEventChanged, decode_updateUiMotionEventChanged, Report.mk.injEq,
      TouchPoint.mk.injEq, TouchPoint.mk.injEq] at h
    obtain ⟨⟨hstate₁, hx₁, hy₁⟩, hstate₂, hx₂, hy₂⟩ := h
    simp only [updateUiMotionEventChanged, signExtend_and_mask]
    rw [hstate₁, hx₁, hy₁, hstate₂, hx₂, hy₂]

/-- **The packed report keeps its fields apart.**  The value has no more than fifty
bits; these are the two states and the four coordinates modulo 4096, each in its
place; so two values are the same exactly if the reports agree on that. -/
theorem packed_fields (r r' : Report (BitVec 32)) :
    let v := updateUiMotionEventChanged r
    (0 ≤ v.toInt ∧ v.toInt < 2 ^ 50) ∧
      ((v.extractLsb' 0 12).toNat : ℤ) = r.touch1.x.toInt % 4096 ∧
      ((v.extractLsb' 12 12).toNat : ℤ) = r.touch1.y.toInt % 4096 ∧
      v.getLsbD 24 = r.touch1.state ∧
      ((v.extractLsb' 25 12).toNat : ℤ) = r.touch2.x.toInt % 4096 ∧
      ((v.extractLsb' 37 12).toNat : ℤ) = r.touch2.y.toInt % 4096 ∧
      v.getLsbD 49 = r.touch2.state ∧
      (v = updateUiMotionEventChanged r' ↔ Congruent r r') := by
  intro v
  have hlt : v.toNat < 2 ^ 50 := toNat_updateUiMotionEventChanged_lt r
  -- below 2⁵⁰ the sign bit is not set
  have hpos : v.toInt = v.toNat := BitVec.toInt_eq_toNat_of_lt (by omega)
  have hdecode := decode_updateUiMotionEventChanged r
  rw [decode, Report.mk.injEq, TouchPoint.mk.injEq, TouchPoint.mk.injEq] at hdecode
  obtain ⟨⟨hstate₁, hx₁, hy₁⟩, hstate₂, hx₂, hy₂⟩ := hdecode
  refine ⟨by omega, ?_, ?_, hstate₁, ?_, ?_, hstate₂, updateUiMotionEventChanged_eq_iff r r'⟩
  · rw [hx₁, toNat_setWidth]
  · rw [hy₁, toNat_setWidth]
  · rw [hx₂, toNat_setWidth]
  · rw [hy₂, toNat_setWidth]

/-! ### Order -/

/-- How many multiples of 4096 lie in `(a, b]`. -/
def multiplesBetween (a b : ℤ) : ℤ := b / 4096 - a / 4096

/-- No more multiples of 4096 lie between the two than whole 4096s. -/
def Unwrapped (a b : ℤ) : Prop := multiplesBetween a b = (b - a) / 4096

/-- The remainders of two numbers are ordered as they are exactly if no more
multiples lie between them than fit there. -/
theorem emod_le_emod_iff (a b : ℤ) : a % 4096 ≤ b % 4096 ↔ Unwrapped a b := by
  rw [Unwrapped, multiplesBetween]
  omega

/-- `p` is one of the first two pointers of an event that the listener reports. -/
def Delivered (events : List (MotionEvent (BitVec 32))) (p : Pointer (BitVec 32)) : Prop :=
  ∃ e ∈ events, (listener e).isSome = true ∧ ∃ s : Slot, e.pointers[s.index]? = some p

/-- The coordinates that are read from the values of a gesture are ordered as the
positions are. -/
def OrderKept (events : List (MotionEvent (BitVec 32))) : Prop :=
  ∀ e ∈ events, ∀ e' ∈ events, ∀ r r', listener e = some r → listener e' = some r' →
    ∀ (s s' : Slot) (p p' : Pointer (BitVec 32)),
      e.pointers[s.index]? = some p → e'.pointers[s'.index]? = some p' →
        let t := (decode (updateUiMotionEventChanged r)).touch s
        let t' := (decode (updateUiMotionEventChanged r')).touch s'
        (p.x.toInt ≤ p'.x.toInt → t.x ≤ t'.x) ∧ (p.y.toInt ≤ p'.y.toInt → t.y ≤ t'.y)

variable {events : List (MotionEvent (BitVec 32))} {fingers : List ℕ}

/-- What is read back of a pointer in a slot. -/
theorem touch_decode (h : Run.exec Gesture.stepAny [] events = some fingers)
    {e : MotionEvent (BitVec 32)} (he : e ∈ events) {r : Report (BitVec 32)}
    (hr : listener e = some r) {s : Slot} {p : Pointer (BitVec 32)}
    (hp : e.pointers[s.index]? = some p) :
    ((decode (updateUiMotionEventChanged r)).touch s).x = p.x.setWidth 12 ∧
      ((decode (updateUiMotionEventChanged r)).touch s).y = p.y.setWidth 12 := by
  obtain ⟨k, hk⟩ := List.mem_iff_getElem?.mp he
  -- the event happens in a gesture, so its report has the coordinates of the pointer
  obtain ⟨before, down, hF, hstep, -⟩ := exists_stepAny h hk
  obtain ⟨hx, hy⟩ := (projects_of_stepAny hF hstep hr).coordinates s p hp
  rw [decode_updateUiMotionEventChanged, ← hx, ← hy]
  cases s
  · exact ⟨rfl, rfl⟩
  · exact ⟨rfl, rfl⟩

theorem setWidth_le_iff (x x' : BitVec 32) :
    x.setWidth 12 ≤ x'.setWidth 12 ↔ Unwrapped x.toInt x'.toInt := by
  rw [BitVec.le_def, ← Int.ofNat_le, toNat_setWidth, toNat_setWidth, emod_le_emod_iff]

/-- **Positions come out in their order exactly if nothing wraps between them**, in
every gesture of any number of fingers: on each axis, between any two positions
that are reported lie no more multiples of 4096 than whole 4096s. -/
theorem order_kept_iff (events : List (MotionEvent (BitVec 32))) (fingers : List ℕ)
    (h : Run.exec Gesture.stepAny [] events = some fingers) :
    OrderKept events ↔ ∀ p p', Delivered events p → Delivered events p' →
      (p.x.toInt ≤ p'.x.toInt → Unwrapped p.x.toInt p'.x.toInt) ∧
        (p.y.toInt ≤ p'.y.toInt → Unwrapped p.y.toInt p'.y.toInt) := by
  constructor
  · rintro hO p p' ⟨e, he, hsome, s, hp⟩ ⟨e', he', hsome', s', hp'⟩
    obtain ⟨r, hr⟩ := Option.isSome_iff_exists.mp hsome
    obtain ⟨r', hr'⟩ := Option.isSome_iff_exists.mp hsome'
    have hkept := hO e he e' he' r r' hr hr' s s' p p' hp hp'
    dsimp only at hkept
    obtain ⟨hx, hy⟩ := touch_decode h he hr hp
    obtain ⟨hx', hy'⟩ := touch_decode h he' hr' hp'
    rw [hx, hx', hy, hy', setWidth_le_iff, setWidth_le_iff] at hkept
    exact hkept
  · intro hU e he e' he' r r' hr hr' s s' p p' hp hp'
    dsimp only
    obtain ⟨hx, hy⟩ := touch_decode h he hr hp
    obtain ⟨hx', hy'⟩ := touch_decode h he' hr' hp'
    rw [hx, hx', hy, hy', setWidth_le_iff, setWidth_le_iff]
    exact hU p p' ⟨e, he, by rw [hr]; rfl, s, hp⟩ ⟨e', he', by rw [hr']; rfl, s', hp'⟩

/-- A finger comes down at `(100, 200)` and moves to the left of the surface. -/
def dragLeft : List (MotionEvent (BitVec 32)) :=
  [⟨.ACTION_DOWN, 0, [⟨0, 100, 200⟩]⟩, ⟨.ACTION_MOVE, 0, [⟨0, -1, 200⟩]⟩,
    ⟨.ACTION_UP, 0, [⟨0, -1, 200⟩]⟩]

theorem order_kept_iff_dragLeft :
    Run.exec Gesture.stepAny [] dragLeft = some [] ∧
      (OrderKept dragLeft ↔ ∀ p p', Delivered dragLeft p → Delivered dragLeft p' →
        (p.x.toInt ≤ p'.x.toInt → Unwrapped p.x.toInt p'.x.toInt) ∧
          (p.y.toInt ≤ p'.y.toInt → Unwrapped p.y.toInt p'.y.toInt)) :=
  ⟨by decide, order_kept_iff dragLeft [] (by decide)⟩

/-- It comes out at the right edge. -/
theorem off_the_edge_teleports :
    Run.exec Gesture.stepAny [] dragLeft = some [] ∧ ¬ OrderKept dragLeft := by
  refine ⟨by decide, fun hO => ?_⟩
  -- -1 is left of 100, but its low twelve bits are 4095
  have hmove := hO ⟨.ACTION_MOVE, 0, [⟨0, -1, 200⟩]⟩ (by decide)
    ⟨.ACTION_DOWN, 0, [⟨0, 100, 200⟩]⟩ (by decide) _ _ rfl rfl .touch1 .touch1 _ _ rfl rfl
  exact absurd (hmove.1 (by decide)) (by decide)

end Carplay.Touch

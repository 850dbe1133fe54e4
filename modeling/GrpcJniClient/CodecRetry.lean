/-
The retry loops of the pull listener and of `handleScreenStreamConfiguration`,
and the input buffers that their failed attempts cost.

* `queueInputBuffer_cases`, `queueInputBuffer_fst_iff` — what a call does, and when
  it succeeds;
* `failed_calls_keep_iff` — failed calls leave the buffers as they were exactly if
  none of them has dequeued one: no exit behind `AMediaCodec_dequeueInputBuffer`
  hands it back;
* `History` — a loop, what other threads do between its iterations, and how its
  calls end;
* `retry_ends_iff` — in a history that becomes healthy or stopped, when a loop
  ends;
* `never_ends_of_oversized`, `never_ends_of_exhausted`, `never_ends_of_stopped` —
  so it does not for a buffer that is too large, once all buffers have leaked, or
  after a stop.
-/
import GrpcJniClient.CodecConfiguration

namespace Carplay.Screen

/-- What `queueInputBuffer` is called with, and how its codec calls end. -/
structure Call where
  data : Bytes
  pts : BitVec 64
  flags : BitVec 32
  outcome : InputOutcome
  deriving DecidableEq, Repr

namespace Feed

/-- The input buffers of the `i`-th codec that the client has dequeued and not
handed back. -/
def held (s : Feed) (i : ℕ) : List ℕ := ((s.codecs[i]?).map Codec.dequeued).getD []

/-- The call gets past the two tests of `queueInputBuffer` to a codec that hands
out an input buffer. -/
def GetsBuffer (s : Feed) (o : InputOutcome) : Prop :=
  s.kScreenStreamMediaCodec ≠ .null ∧
    MediaCodecStatus.STARTED.value ≤ s.kScreenStreamMediaCodecStatus.value ∧
    (s.dequeueInputBuffer o).isSome = true

/-- The buffer is there, is large enough, and is taken back. -/
def Takes (data : Bytes) (o : InputOutcome) : Prop :=
  (∃ n, o.bufferSize = some n ∧ data.length ≤ n) ∧ o.status = true

/-- A codec hands out no buffer that the client holds. -/
def Fresh (s : Feed) (o : InputOutcome) : Prop :=
  ∀ d ∈ s.dequeueInputBuffer o, d.2 ∉ s.held d.1

instance (s : Feed) (o : InputOutcome) : Decidable (s.Fresh o) :=
  inferInstanceAs (Decidable (∀ d ∈ s.dequeueInputBuffer o, d.2 ∉ s.held d.1))

/-- The client holds the same buffers. -/
def SameHeld (s s' : Feed) : Prop := ∀ i index, index ∈ s'.held i ↔ index ∈ s.held i

variable {s s' : Feed} {data : Bytes} {pts : BitVec 64} {flags : BitVec 32} {o : InputOutcome}

theorem SameHeld.refl (s : Feed) : SameHeld s s := fun _ _ => Iff.rfl

/-! ### One call -/

theorem held_dequeue {i index : ℕ} (hi : i < s.codecs.length) (j : ℕ) :
    (s.modify i (Codec.dequeue index)).held j
      = if i = j then s.held j ++ [index] else s.held j := by
  rw [held, modify, List.getElem?_modify]
  by_cases hij : i = j
  · subst hij
    rw [List.getElem?_eq_getElem hi]
    simp [held, hi, Codec.dequeue]
  · simp [hij, held]

theorem dequeueInputBuffer_eq_some {i index : ℕ} (h : s.dequeueInputBuffer o = some (i, index)) :
    ∃ c, s.current = some (i, c) ∧ c.started = true ∧ o.inputIndex = some index := by
  obtain ⟨⟨j, c⟩, hcurrent, hindex⟩ := Option.bind_eq_some_iff.mp h
  dsimp only at hindex
  split at hindex
  · rename_i hstarted
    obtain ⟨index', hindex', heq⟩ := Option.map_eq_some_iff.mp hindex
    obtain ⟨rfl, rfl⟩ := Prod.mk.inj heq
    exact ⟨c, hcurrent, hstarted, hindex'⟩
  · cases hindex

/-- What a call does, in three cases. -/
theorem queueInputBuffer_cases (s : Feed) (data : Bytes) (pts : BitVec 64) (flags : BitVec 32)
    (o : InputOutcome) :
    (¬ s.GetsBuffer o ∧ s.queueInputBuffer data pts flags o = (false, s)) ∨
      ∃ i index, s.GetsBuffer o ∧ s.dequeueInputBuffer o = some (i, index) ∧
        s.queueInputBuffer data pts flags o
          = if (o.bufferSize.any fun n => data.length ≤ n) && o.status then
              (true, s.modify i fun c => (c.dequeue index).queue index ⟨data, pts, flags⟩)
            else (false, s.modify i (Codec.dequeue index)) := by
  unfold queueInputBuffer GetsBuffer
  split
  · rename_i hnull
    exact .inl ⟨fun h => h.1 hnull, rfl⟩
  rename_i hnull
  split
  · rename_i hstatus
    exact .inl ⟨fun h => Nat.not_lt.mpr h.2.1 hstatus, rfl⟩
  rename_i hstatus
  split
  · rename_i hnone
    refine .inl ⟨fun h => ?_, rfl⟩
    rw [hnone] at h
    cases h.2.2
  · rename_i i index hsome
    -- from here on the client holds the buffer; only success hands it back
    refine .inr ⟨i, index, ⟨hnull, Nat.not_lt.mp hstatus, by rw [hsome]; rfl⟩, hsome, ?_⟩
    dsimp only
    cases hsize : o.bufferSize with
    | none => rfl
    | some n =>
      by_cases hle : data.length ≤ n
      · cases hq : o.status with
        | false => simp [Nat.not_lt.mpr hle]
        | true =>
          simp only [Nat.not_lt.mpr hle, if_false, if_true, Option.any_some, hle, decide_true,
            Bool.and_self]
          rw [modify, modify, List.modify_modify_eq]
          rfl
      · simp [Nat.lt_of_not_le hle, hle]

theorem takes_iff : ((o.bufferSize.any fun n => data.length ≤ n) && o.status) = true ↔
    Takes data o := by
  rw [Bool.and_eq_true, Takes]
  cases o.bufferSize <;> simp

/-- When a call succeeds. -/
theorem queueInputBuffer_fst_iff :
    (s.queueInputBuffer data pts flags o).1 = true ↔ s.GetsBuffer o ∧ Takes data o := by
  rcases queueInputBuffer_cases s data pts flags o with ⟨hno, hq⟩ | ⟨i, index, hgets, -, hq⟩
  · rw [hq]
    simp [hno]
  · rw [hq, ← takes_iff]
    split
    · rename_i htakes
      simp [hgets, htakes]
    · rename_i htakes
      simp [htakes]

/-! ### Failed calls -/

/-- The call fails behind `AMediaCodec_dequeueInputBuffer`. -/
def Leaks (s : Feed) (c : Call) : Prop :=
  s.Fresh c.outcome ∧ s.GetsBuffer c.outcome ∧ ¬ Takes c.data c.outcome

/-- A call that fails, with an outcome that the codec can have. -/
def failedCall (s : Feed) (c : Call) : Option Feed :=
  if s.Fresh c.outcome then
    match s.queueInputBuffer c.data c.pts c.flags c.outcome with
    | (false, s') => some s'
    | (true, _) => none
  else none

theorem failedCall_of_not_leaks {c : Call} (hL : ¬ s.Leaks c) (h : s.failedCall c = some s') :
    s' = s := by
  rw [failedCall] at h
  split at h
  · rename_i hfresh
    rcases queueInputBuffer_cases s c.data c.pts c.flags c.outcome
      with ⟨-, hq⟩ | ⟨i, index, hgets, -, hq⟩
    · rw [hq] at h
      exact (Option.some_inj.mp h).symm
    -- it got a buffer and does not leak, so it would have succeeded
    · have htakes : Takes c.data c.outcome := by
        by_contra hnot
        exact hL ⟨hfresh, hgets, hnot⟩
      rw [hq, if_pos (takes_iff.mpr htakes)] at h
      cases h
  · cases h

/-- A call that leaks has dequeued a buffer that the client did not hold. -/
theorem failedCall_of_leaks {c : Call} (hL : s.Leaks c) :
    ∃ i index s', s.failedCall c = some s' ∧ index ∉ s.held i ∧ index ∈ s'.held i := by
  obtain ⟨hfresh, hgets, hnot⟩ := hL
  rcases queueInputBuffer_cases s c.data c.pts c.flags c.outcome
    with ⟨hno, -⟩ | ⟨i, index, -, hdequeue, hq⟩
  · exact absurd hgets hno
  · obtain ⟨codec, hcurrent, -, -⟩ := dequeueInputBuffer_eq_some hdequeue
    have hi := (List.getElem?_eq_some_iff.mp (current_eq_some.mp hcurrent).2).1
    refine ⟨i, index, s.modify i (Codec.dequeue index), ?_, hfresh _ hdequeue, ?_⟩
    · rw [failedCall, if_pos hfresh, hq, if_neg (mt takes_iff.mp hnot)]
    · rw [held_dequeue hi, if_pos rfl]
      exact List.mem_append_right _ (List.mem_singleton_self _)

/-- **Failed calls leave the input buffers as they were exactly if no call
leaks.**  However many fail, the client holds what it held before, unless one of
them has got a buffer and found it missing or too small, or could not queue it. -/
theorem failed_calls_keep_iff (s : Feed) (cs : List Call) :
    (∀ t, Run.Reached failedCall s cs t → SameHeld s t) ↔
      Run.Along failedCall (fun t c => ¬ t.Leaks c) s cs := by
  have keep : ∀ t c t', SameHeld s t → ¬ t.Leaks c → t.failedCall c = some t' → SameHeld s t' :=
    fun t c t' ht hL h => failedCall_of_not_leaks hL h ▸ ht
  refine Run.forall_reached_iff_along (fun _ => id) keep (fun t c ht hL => ?_) (SameHeld.refl s)
  obtain ⟨i, index, t', ht', hnot, hmem⟩ := failedCall_of_leaks (not_not.mp hL)
  exact ⟨t', ht', fun hsame => hnot ((ht i index).mpr ((hsame i index).mp hmem))⟩

/-- A started codec, of which the client holds no buffer. -/
def startedFeed : Feed := ⟨.codec 0, .STARTED, [⟨true, [], []⟩]⟩

/-- The input buffer has one byte, the frame two. -/
theorem small_buffer_leaks :
    ∃ s', startedFeed.queueInputBuffer [0, 0] 0 0 ⟨some 0, some 1, true⟩ = (false, s') ∧
      ¬ SameHeld startedFeed s' := by
  refine ⟨_, rfl, fun h => ?_⟩
  exact absurd ((h 0 0).mp (by decide)) (by decide)

end Feed

/-! ### The loops -/

/-- What another thread does to the members and their codecs. -/
inductive Action where
  | queueInputBuffer (c : Call)
  /-- `AMediaCodec_createDecoderByType`, with the store of the handle. -/
  | createDecoder (ok : Bool)
  /-- `AMediaCodec_start` succeeds. -/
  | start (h : AMediaCodec)
  | setStatus (status : MediaCodecStatus)
  | stopMediaCodec
  deriving DecidableEq, Repr

/-- A part of `initMediaCodec` that may get a codec going. -/
def Action.starts : Action → Bool
  | .createDecoder _ => true
  | .start _ => true
  | _ => false

namespace Feed

/-- `CarplayRpcRuntime::stopMediaCodec`, as one step. -/
def stopMediaCodec (s : Feed) : Feed :=
  let stopped := match s.kScreenStreamMediaCodec with
    | .codec i => s.modify i fun c => { c with started := false }
    | _ => s
  { stopped with
    kScreenStreamMediaCodec := .null
    kScreenStreamMediaCodecStatus := .STOPPED }

def act (s : Feed) : Action → Feed
  | .queueInputBuffer c => (s.queueInputBuffer c.data c.pts c.flags c.outcome).2
  | .createDecoder ok => if ok then s.create else { s with kScreenStreamMediaCodec := .null }
  | .start h => s.start h
  | .setStatus status => s.setStatus status
  | .stopMediaCodec => s.stopMediaCodec

/-- The current codec has an input buffer that the client does not hold; `buffers i`
are the sizes of the buffers of the `i`-th codec. -/
def Owns (buffers : ℕ → List ℕ) (s : Feed) : Prop :=
  ∃ i c, s.current = some (i, c) ∧ ∃ index < (buffers i).length, index ∉ c.dequeued

/-- What a codec can do: it hands out a buffer that it owns, with its size. -/
structure Legal (buffers : ℕ → List ℕ) (s : Feed) (o : InputOutcome) : Prop where
  index : ∀ i c index, s.current = some (i, c) → o.inputIndex = some index →
    index < (buffers i).length ∧ index ∉ c.dequeued
  size : ∀ i c index n, s.current = some (i, c) → o.inputIndex = some index →
    o.bufferSize = some n → (buffers i)[index]? = some n

/-- The codec is started, and calls on a buffer that it owns succeed. -/
structure Healthy (buffers : ℕ → List ℕ) (s : Feed) (o : InputOutcome) : Prop where
  started : ∃ i c, s.current = some (i, c) ∧ c.started = true
  status : MediaCodecStatus.STARTED.value ≤ s.kScreenStreamMediaCodecStatus.value
  dequeue : s.Owns buffers → o.inputIndex.isSome = true
  getInputBuffer : o.bufferSize.isSome = true
  queue : o.status = true

end Feed

/-- A retry loop: its buffer, what other threads do before each iteration, and
how the codec calls of each iteration end. -/
structure History where
  initial : Feed
  data : Bytes
  flags : BitVec 32
  others : ℕ → List Action
  outcome : ℕ → InputOutcome

namespace History

variable (H : History)

/-- The members before the `k`-th iteration. -/
def before : ℕ → Feed
  | 0 => (H.others 0).foldl Feed.act H.initial
  | k + 1 => (H.others (k + 1)).foldl Feed.act
      ((before k).queueInputBuffer H.data 0 H.flags (H.outcome k)).2

/-- The loop is left after some iteration: success is its only exit. -/
def Ends : Prop := ∃ k, ((H.before k).queueInputBuffer H.data 0 H.flags (H.outcome k)).1 = true

/-- The codecs do what codecs can do. -/
def Legal (buffers : ℕ → List ℕ) : Prop := ∀ k, (H.before k).Legal buffers (H.outcome k)

/-- From the `n`-th iteration on the codec stays started, and its calls succeed. -/
def HealthyFrom (buffers : ℕ → List ℕ) (n : ℕ) : Prop :=
  ∀ k, n ≤ k → (H.before k).Healthy buffers (H.outcome k)

/-- Before the `n`-th iteration the stream is stopped, and it is never started
again. -/
def StoppedFrom (n : ℕ) : Prop :=
  (∃ acts acts', H.others n = acts ++ .stopMediaCodec :: acts' ∧
    ∀ a ∈ acts', a.starts = false) ∧
  ∀ k, n < k → ∀ a ∈ H.others k, a.starts = false

end History

variable {s : Feed} {o : InputOutcome} {data : Bytes} {H : History} {buffers : ℕ → List ℕ} {n : ℕ}

/-! ### A stopped stream -/

theorem Feed.act_null (hs : s.kScreenStreamMediaCodec = .null) {a : Action}
    (ha : a.starts = false) : (s.act a).kScreenStreamMediaCodec = .null := by
  cases a with
  | queueInputBuffer c =>
    rw [Feed.act, Feed.queueInputBuffer, if_pos hs]
    exact hs
  | createDecoder ok => cases ha
  | start h => cases ha
  | setStatus status => exact hs
  | stopMediaCodec => rfl

theorem Feed.foldl_act_null (hs : s.kScreenStreamMediaCodec = .null) {acts : List Action}
    (hacts : ∀ a ∈ acts, a.starts = false) :
    (acts.foldl Feed.act s).kScreenStreamMediaCodec = .null := by
  induction acts generalizing s with
  | nil => exact hs
  | cons a acts ih =>
    rw [List.forall_mem_cons] at hacts
    exact ih (Feed.act_null hs hacts.1) hacts.2

/-- The members before an iteration, from those after the one before. -/
theorem History.exists_before (H : History) (k : ℕ) :
    ∃ s, H.before k = (H.others k).foldl Feed.act s := by
  cases k with
  | zero => exact ⟨_, rfl⟩
  | succ k => exact ⟨_, rfl⟩

/-- After a stop the handle stays null. -/
theorem History.StoppedFrom.null (h : H.StoppedFrom n) {k : ℕ} (hk : n ≤ k) :
    (H.before k).kScreenStreamMediaCodec = .null := by
  obtain ⟨⟨acts, acts', hn, hacts'⟩, hlater⟩ := h
  -- on the iterations since the `n`-th; its own stop comes before its call
  obtain ⟨d, rfl⟩ := Nat.exists_eq_add_of_le hk
  induction d with
  | zero =>
    obtain ⟨s, hs⟩ := H.exists_before n
    rw [Nat.add_zero, hs, hn, List.foldl_append, List.foldl_cons]
    exact Feed.foldl_act_null rfl hacts'
  | succ d ih =>
    have hnull := ih (Nat.le_add_right n d)
    rw [← Nat.add_assoc, History.before]
    refine Feed.foldl_act_null ?_ (hlater (n + d + 1) (by omega))
    rw [Feed.queueInputBuffer, if_pos hnull]
    exact hnull

theorem Feed.not_owns_of_null (hs : s.kScreenStreamMediaCodec = .null) : ¬ s.Owns buffers := by
  rintro ⟨i, c, hcurrent, -⟩
  cases hs.symm.trans (Feed.current_eq_some.mp hcurrent).1

theorem Feed.not_getsBuffer_of_null (hs : s.kScreenStreamMediaCodec = .null) :
    ¬ s.GetsBuffer o := fun h => h.1 hs

/-! ### A healthy codec -/

/-- A healthy codec takes the data if it owns a buffer and the one that it hands
out is large enough. -/
theorem Feed.Healthy.takes_iff (h : s.Healthy buffers o) (hlegal : s.Legal buffers o) :
    s.GetsBuffer o ∧ Feed.Takes data o ↔
      s.Owns buffers ∧ ∀ size, o.bufferSize = some size → data.length ≤ size := by
  obtain ⟨i, c, hcurrent, hstarted⟩ := h.started
  have hhandle := (Feed.current_eq_some.mp hcurrent).1
  have hdequeue : s.dequeueInputBuffer o = o.inputIndex.map fun index => (i, index) := by
    rw [Feed.dequeueInputBuffer, hcurrent, Option.bind_some]
    exact if_pos hstarted
  obtain ⟨size, hsize⟩ := Option.isSome_iff_exists.mp h.getInputBuffer
  have hgets : s.GetsBuffer o ↔ s.Owns buffers := by
    constructor
    · rintro ⟨-, -, hsome⟩
      -- a codec hands out no buffer but its own
      rw [hdequeue, Option.isSome_map] at hsome
      obtain ⟨index, hindex⟩ := Option.isSome_iff_exists.mp hsome
      obtain ⟨hlt, hfree⟩ := hlegal.index i c index hcurrent hindex
      exact ⟨i, c, hcurrent, index, hlt, hfree⟩
    · intro howns
      refine ⟨by rw [hhandle]; exact AMediaCodec.noConfusion, h.status, ?_⟩
      rw [hdequeue, Option.isSome_map]
      exact h.dequeue howns
  have htakes : Feed.Takes data o ↔ ∀ n, o.bufferSize = some n → data.length ≤ n := by
    rw [Feed.Takes, hsize]
    simp [h.queue]
  rw [hgets, htakes]

/-! ### When a loop ends -/

theorem History.ends_iff :
    H.Ends ↔ ∃ k, (H.before k).GetsBuffer (H.outcome k) ∧ Feed.Takes H.data (H.outcome k) :=
  exists_congr fun _ => Feed.queueInputBuffer_fst_iff

/-- **When a retry loop ends**, in a history that becomes healthy or stopped from
the `n`-th iteration on: if before that some call has found everything in order;
or if after it the codec still has an input buffer to hand out, which it does not
have when the stream has been stopped or all of them have leaked, and the one
handed out is large enough. -/
theorem retry_ends_iff (H : History) (buffers : ℕ → List ℕ) (n : ℕ) (hlegal : H.Legal buffers)
    (h : H.HealthyFrom buffers n ∨ H.StoppedFrom n) :
    H.Ends ↔
      (∃ k < n, (H.before k).GetsBuffer (H.outcome k) ∧ Feed.Takes H.data (H.outcome k)) ∨
        ∃ k, n ≤ k ∧ (H.before k).Owns buffers ∧
          ∀ size, (H.outcome k).bufferSize = some size → H.data.length ≤ size := by
  have hlate : ∀ k, n ≤ k →
      ((H.before k).GetsBuffer (H.outcome k) ∧ Feed.Takes H.data (H.outcome k) ↔
        (H.before k).Owns buffers ∧
          ∀ size, (H.outcome k).bufferSize = some size → H.data.length ≤ size) := by
    intro k hk
    -- a stopped stream has no codec, so both sides fail
    rcases h with hhealthy | hstopped
    · exact (hhealthy k hk).takes_iff (hlegal k)
    · have hnull := hstopped.null hk
      exact iff_of_false (fun h => Feed.not_getsBuffer_of_null hnull h.1)
        fun h => Feed.not_owns_of_null hnull h.1
  rw [History.ends_iff]
  constructor
  · rintro ⟨k, hk⟩
    rcases Nat.lt_or_ge k n with hlt | hge
    · exact .inl ⟨k, hlt, hk⟩
    · exact .inr ⟨k, hge, (hlate k hge).mp hk⟩
  · rintro (⟨k, -, hk⟩ | ⟨k, hge, hk⟩)
    · exact ⟨k, hk⟩
    · exact ⟨k, (hlate k hge).mpr hk⟩

/-! ### Loops that do not end -/

/-- A buffer larger than those of every codec is never taken. -/
theorem never_ends_of_oversized (hlegal : H.Legal buffers)
    (hlarge : ∀ i, ∀ size ∈ buffers i, size < H.data.length) : ¬ H.Ends := by
  rw [History.ends_iff]
  rintro ⟨k, ⟨-, -, hsome⟩, ⟨size, hsize, hle⟩, -⟩
  obtain ⟨⟨i, index⟩, hdequeue⟩ := Option.isSome_iff_exists.mp hsome
  obtain ⟨c, hcurrent, -, hindex⟩ := Feed.dequeueInputBuffer_eq_some hdequeue
  have hmem := List.mem_of_getElem? ((hlegal k).size i c index size hcurrent hindex hsize)
  exact absurd hle (Nat.not_le.mpr (hlarge i size hmem))

/-- After a stop, a loop that has not been left stays. -/
theorem never_ends_of_stopped (hstopped : H.StoppedFrom n)
    (hbefore : ∀ k < n, ¬ ((H.before k).GetsBuffer (H.outcome k) ∧ Feed.Takes H.data (H.outcome k))) :
    ¬ H.Ends := by
  rw [History.ends_iff]
  rintro ⟨k, hk⟩
  rcases Nat.lt_or_ge k n with hlt | hge
  · exact hbefore k hlt hk
  · exact Feed.not_getsBuffer_of_null (hstopped.null hge) hk.1

/-- Whatever a call does, the client holds at least what it held before. -/
theorem Feed.dequeued_queueInputBuffer {i : ℕ} {c' : Codec} {call : Call}
    (h : (s.act (.queueInputBuffer call)).current = some (i, c')) :
    ∃ c, s.current = some (i, c) ∧ c.dequeued ⊆ c'.dequeued := by
  have hgrows : ∀ (j : ℕ) (f : Codec → Codec), (∀ c : Codec, c.dequeued ⊆ (f c).dequeued) →
      (s.modify j f).current = some (i, c') →
      ∃ c, s.current = some (i, c) ∧ c.dequeued ⊆ c'.dequeued := by
    intro j f hf hcurrent
    obtain ⟨hhandle, hc'⟩ := Feed.current_eq_some.mp hcurrent
    rw [Feed.modify, List.getElem?_modify] at hc'
    obtain ⟨c, hc, rfl⟩ := Option.map_eq_some_iff.mp hc'
    refine ⟨c, Feed.current_eq_some.mpr ⟨hhandle, hc⟩, ?_⟩
    split
    · exact hf c
    · exact List.Subset.refl _
  rw [Feed.act] at h
  rcases Feed.queueInputBuffer_cases s call.data call.pts call.flags call.outcome
    with ⟨-, hq⟩ | ⟨j, index, -, -, hq⟩
  · rw [hq] at h
    exact ⟨c', h, List.Subset.refl _⟩
  · rw [hq] at h
    split at h
    · refine hgrows j _ (fun c x hx => ?_) h
      -- an index that the client held twice would still be held once
      by_cases hxi : x = index
      · subst hxi
        rw [Codec.queue, Codec.dequeue, List.erase_append_left _ hx]
        exact List.mem_append_right _ (List.mem_singleton_self _)
      · exact (List.mem_erase_of_ne hxi).mpr (List.mem_append_left _ hx)
    · exact hgrows j _ (fun c x hx => List.mem_append_left _ hx) h

theorem Feed.not_owns_act (hs : ¬ s.Owns buffers) {a : Action} (ha : a.starts = false) :
    ¬ (s.act a).Owns buffers := by
  cases a with
  | queueInputBuffer call =>
    rintro ⟨i, c', hcurrent, index, hlt, hfree⟩
    obtain ⟨c, hc, hsub⟩ := Feed.dequeued_queueInputBuffer hcurrent
    exact hs ⟨i, c, hc, index, hlt, fun h => hfree (hsub h)⟩
  | createDecoder ok => cases ha
  | start h => cases ha
  | setStatus status => exact hs
  | stopMediaCodec => exact Feed.not_owns_of_null rfl

theorem Feed.not_owns_foldl (hs : ¬ s.Owns buffers) {acts : List Action}
    (hacts : ∀ a ∈ acts, a.starts = false) : ¬ (acts.foldl Feed.act s).Owns buffers := by
  induction acts generalizing s with
  | nil => exact hs
  | cons a acts ih =>
    rw [List.forall_mem_cons] at hacts
    exact ih (Feed.not_owns_act hs hacts.1) hacts.2

/-- Once the client holds all buffers of the codec, nothing ends the loop but a
new codec. -/
theorem never_ends_of_exhausted (hlegal : H.Legal buffers)
    (hbefore : ∀ k < n, ¬ ((H.before k).GetsBuffer (H.outcome k) ∧ Feed.Takes H.data (H.outcome k)))
    (hexhausted : ¬ (H.before n).Owns buffers)
    (hothers : ∀ k, n < k → ∀ a ∈ H.others k, a.starts = false) : ¬ H.Ends := by
  -- no action but a start brings the client a codec with a free buffer
  have hstays : ∀ d, ¬ (H.before (n + d)).Owns buffers := by
    intro d
    induction d with
    | zero => exact hexhausted
    | succ d ih =>
      rw [← Nat.add_assoc, History.before]
      refine Feed.not_owns_foldl ?_ (hothers (n + d + 1) (by omega))
      exact Feed.not_owns_act (a := .queueInputBuffer ⟨H.data, 0, H.flags, H.outcome (n + d)⟩) ih rfl
  rw [History.ends_iff]
  rintro ⟨k, hk⟩
  rcases Nat.lt_or_ge k n with hlt | hge
  · exact hbefore k hlt hk
  · obtain ⟨d, rfl⟩ := Nat.exists_eq_add_of_le hge
    obtain ⟨⟨i, index⟩, hdequeue⟩ := Option.isSome_iff_exists.mp hk.1.2.2
    obtain ⟨c, hcurrent, -, hindex⟩ := Feed.dequeueInputBuffer_eq_some hdequeue
    obtain ⟨hlt, hfree⟩ := (hlegal (n + d)).index i c index hcurrent hindex
    exact hstays d ⟨i, c, hcurrent, index, hlt, hfree⟩

/-- A codec with one input buffer of one byte, and a frame of two. -/
def oversized : History where
  initial := Feed.startedFeed
  data := [0, 0]
  flags := 0
  others _ := []
  outcome
    | 0 => ⟨some 0, some 1, true⟩
    | _ + 1 => ⟨none, some 1, true⟩

theorem before_oversized (k : ℕ) :
    oversized.before (k + 1) = ⟨.codec 0, .STARTED, [⟨true, [0], []⟩]⟩ := by
  induction k with
  | zero => rfl
  | succ k ih =>
    rw [History.before, ih]
    rfl

theorem legal_oversized : oversized.Legal fun _ => [1] := by
  intro k
  cases k with
  | zero =>
    refine ⟨fun i c index hcurrent hindex => ?_, fun i c index n _ hindex hsize => ?_⟩
    · obtain rfl : (⟨true, [], []⟩ : Codec) = c := (Prod.mk.inj (Option.some_inj.mp hcurrent)).2
      obtain rfl : 0 = index := Option.some_inj.mp hindex
      exact ⟨by decide, List.not_mem_nil⟩
    · obtain rfl : 0 = index := Option.some_inj.mp hindex
      exact hsize
  | succ k =>
    constructor
    · intro i c index _ hindex
      cases hindex
    · intro i c index n _ hindex
      cases hindex

/-- The first attempt leaks the only buffer. -/
theorem healthyFrom_oversized : oversized.HealthyFrom (fun _ => [1]) 0 := by
  intro k _
  cases k with
  | zero => exact ⟨⟨0, _, rfl, rfl⟩, by decide, fun _ => rfl, rfl, rfl⟩
  | succ k =>
    rw [before_oversized]
    refine ⟨⟨0, _, rfl, rfl⟩, by decide, ?_, rfl, rfl⟩
    rintro ⟨i, c, hcurrent, index, hlt, hfree⟩
    obtain rfl : (⟨true, [0], []⟩ : Codec) = c := (Prod.mk.inj (Option.some_inj.mp hcurrent)).2
    obtain rfl : index = 0 := Nat.lt_one_iff.mp hlt
    exact absurd List.mem_cons_self hfree

theorem retry_ends_iff_oversized :
    oversized.Legal (fun _ => [1]) ∧ oversized.HealthyFrom (fun _ => [1]) 0 ∧
      (oversized.Ends ↔
        (∃ k < 0, (oversized.before k).GetsBuffer (oversized.outcome k) ∧
          Feed.Takes oversized.data (oversized.outcome k)) ∨
          ∃ k, 0 ≤ k ∧ (oversized.before k).Owns (fun _ => [1]) ∧
            ∀ size, (oversized.outcome k).bufferSize = some size → oversized.data.length ≤ size) :=
  ⟨legal_oversized, healthyFrom_oversized,
    retry_ends_iff oversized (fun _ => [1]) 0 legal_oversized (.inl healthyFrom_oversized)⟩

theorem oversized_frame_never_ends :
    oversized.Legal (fun _ => [1]) ∧ oversized.HealthyFrom (fun _ => [1]) 0 ∧ ¬ oversized.Ends := by
  refine ⟨legal_oversized, healthyFrom_oversized,
    never_ends_of_oversized legal_oversized fun _ size hsize => ?_⟩
  rw [List.mem_singleton.mp hsize]
  decide

end Carplay.Screen

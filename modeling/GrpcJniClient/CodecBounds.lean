/-
The memory that the pull listener's callback touches.

* `Feed.queueInputBufferMem` — `queueInputBuffer` with the bytes that its `memcpy`
  reads and writes; but for these it is `Feed.queueInputBuffer`,
  `queueInputBufferMem_eq`;
* `inBounds_of_queueInputBuffer` — the copy stays in the frame and in the input
  buffer;
* `callback_inBounds_iff` — the callback does, at every turn of its loop, exactly
  for frames of at least the five bytes that it logs.
-/
import GrpcJniClient.CodecRetry

namespace Carplay.Screen

/-- One byte of the frame is read, or one byte of an input buffer that has
`bufferSize` bytes is written. -/
inductive Access
  | read (i : ℕ)
  | write (i bufferSize : ℕ)
  deriving DecidableEq, Repr

/-- The byte exists; `len` is the length of the frame. -/
def Access.InBounds (len : ℕ) : Access → Prop
  | .read i => i < len
  | .write i bufferSize => i < bufferSize

/-- `memcpy(buffer, data, size)`. -/
def memcpy (bufferSize size : ℕ) : List Access :=
  (List.range size).flatMap fun i => [.read i, .write i bufferSize]

/-- What `LOGE` reads for its message: `data[0]` to `data[4]`. -/
def logged : List Access := (List.range 5).map .read

namespace Feed

/-- `CarplayRpcRuntime::queueInputBuffer`, with the bytes that it reads and
writes. -/
def queueInputBufferMem (s : Feed) (data : Bytes) (pts : BitVec 64) (flags : BitVec 32)
    (o : InputOutcome) : (Bool × Feed) × List Access :=
  if s.kScreenStreamMediaCodec = .null then ((false, s), [])
  else if s.kScreenStreamMediaCodecStatus.value < MediaCodecStatus.STARTED.value then
    ((false, s), [])
  else
    match s.dequeueInputBuffer o with
    | none => ((false, s), [])
    | some (i, inputIndex) =>
        -- the exits from here on keep the buffer
        let s := s.modify i (Codec.dequeue inputIndex)
        match o.bufferSize with
        | none => ((false, s), [])
        | some bufferSize =>
            -- the only test of a length, and it is of the buffer
            if bufferSize < data.length then ((false, s), [])
            else
              let copied := memcpy bufferSize data.length
              if o.status then
                ((true, s.modify i (Codec.queue inputIndex ⟨data, pts, flags⟩)), copied)
              else ((false, s), copied)

/-- One turn of the loop in the callback: the call, and the log line behind it. -/
def callbackTurn (s : Feed) (data : Bytes) (flags : BitVec 32) (o : InputOutcome) :
    (Bool × Feed) × List Access :=
  let (result, accesses) := s.queueInputBufferMem data 0 flags o
  (result, accesses ++ logged)

variable {s : Feed} {data : Bytes} {pts : BitVec 64} {flags : BitVec 32} {o : InputOutcome}

theorem queueInputBufferMem_eq :
    (s.queueInputBufferMem data pts flags o).1 = s.queueInputBuffer data pts flags o := by
  unfold queueInputBufferMem queueInputBuffer
  split
  · rfl
  split
  · rfl
  cases s.dequeueInputBuffer o with
  | none => rfl
  | some d =>
    cases o.bufferSize with
    | none => rfl
    | some bufferSize =>
      dsimp only
      split
      · rfl
      split
      · rfl
      · rfl

theorem inBounds_memcpy {bufferSize size : ℕ} (h : size ≤ bufferSize) :
    ∀ a ∈ memcpy bufferSize size, a.InBounds size := by
  intro a ha
  obtain ⟨i, hi, ha⟩ := List.mem_flatMap.mp ha
  rw [List.mem_range] at hi
  rcases List.mem_cons.mp ha with rfl | ha
  · exact hi
  · rw [List.mem_singleton.mp ha]
    exact Nat.lt_of_lt_of_le hi h

/-- The copy is guarded by the size of the buffer. -/
theorem inBounds_of_queueInputBuffer :
    ∀ a ∈ (s.queueInputBufferMem data pts flags o).2, a.InBounds data.length := by
  have hnil : ∀ a ∈ ([] : List Access), a.InBounds data.length :=
    fun a ha => absurd ha List.not_mem_nil
  unfold queueInputBufferMem
  split
  · exact hnil
  split
  · exact hnil
  split
  · exact hnil
  · dsimp only
    split
    · exact hnil
    split
    · exact hnil
    · rename_i hsize
      split
      · exact inBounds_memcpy (Nat.le_of_not_lt hsize)
      · exact inBounds_memcpy (Nat.le_of_not_lt hsize)

/-- Nothing guards the logged bytes. -/
theorem inBounds_callbackTurn_iff :
    (∀ a ∈ (s.callbackTurn data flags o).2, a.InBounds data.length) ↔ 5 ≤ data.length := by
  rw [callbackTurn, List.forall_mem_append]
  constructor
  · rintro ⟨-, hlogged⟩
    -- the last byte logged is the fifth
    exact hlogged (.read 4) (by decide)
  · intro hlen
    refine ⟨inBounds_of_queueInputBuffer, fun a ha => ?_⟩
    obtain ⟨i, hi, rfl⟩ := List.mem_map.mp ha
    exact Nat.lt_of_lt_of_le (List.mem_range.mp hi) hlen

end Feed

namespace History

/-- The loop comes to its `k`-th turn. -/
def Comes (H : History) (k : ℕ) : Prop :=
  ∀ j < k, ((H.before j).queueInputBuffer H.data 0 H.flags (H.outcome j)).1 = false

/-- What the callback touches at its `k`-th turn. -/
def accesses (H : History) (k : ℕ) : List Access :=
  ((H.before k).callbackTurn H.data H.flags (H.outcome k)).2

/-- The members after a turn of the callback are those that the history goes on
with. -/
theorem callbackTurn_eq (H : History) (k : ℕ) :
    ((H.before k).callbackTurn H.data H.flags (H.outcome k)).1
      = (H.before k).queueInputBuffer H.data 0 H.flags (H.outcome k) :=
  Feed.queueInputBufferMem_eq

end History

/-- **The callback stays in bounds exactly for frames of five bytes and more**:
for every frame, whatever the codec and the other threads do, at every turn to
which the loop comes. -/
theorem callback_inBounds_iff (H : History) :
    (∀ k, H.Comes k → ∀ a ∈ H.accesses k, a.InBounds H.data.length) ↔ 5 ≤ H.data.length := by
  constructor
  · intro h
    -- the loop always comes to its first turn
    exact Feed.inBounds_callbackTurn_iff.mp (h 0 fun j hj => absurd hj (Nat.not_lt_zero j))
  · intro hlen k _
    exact Feed.inBounds_callbackTurn_iff.mpr hlen

/-- The codec accepts the frame of four bytes, and the log line reads a fifth. -/
theorem short_frame_is_read_past :
    ∃ a ∈ (Feed.startedFeed.callbackTurn [0, 0, 0, 1] 0 ⟨some 0, some 8, true⟩).2,
      ¬ a.InBounds 4 :=
  ⟨.read 4, by decide, Nat.lt_irrefl 4⟩

end Carplay.Screen

/-
`CarplayRpcRuntime::queueInputBuffer`, and the codecs it feeds.

A codec is what its client can see of it: whether it has been started, which
input buffers the client has dequeued, and what the codec has accepted.  What is
free in a call (whether a buffer is available, how large it is, how the codec
takes it) is the call's `InputOutcome`.

* `queueInputBuffer_true` — a call that succeeds has found a started codec and
  has it accept exactly these bytes;
* `queueInputBuffer_false` — one that fails has no codec accept anything.
-/
import GrpcJniClient.BluetoothExt
import GrpcJniClient.ScreenStream

namespace Carplay.Screen

/-- The flag of a buffer with the SPS and PPS. -/
def AMEDIACODEC_BUFFER_FLAG_CODEC_CONFIG : BitVec 32 := 2

/-- A buffer handed to `AMediaCodec_queueInputBuffer`. -/
structure InputBuffer where
  data : Bytes
  pts : BitVec 64
  flags : BitVec 32
  deriving DecidableEq, Repr

/-- An `AMediaCodec` object. -/
structure Codec where
  started : Bool
  /-- The input buffers that the client has dequeued and not handed back. -/
  dequeued : List ℕ
  /-- What `AMediaCodec_queueInputBuffer` has returned `AMEDIA_OK` for. -/
  accepted : List InputBuffer
  deriving DecidableEq, Repr

namespace Codec

/-- What `AMediaCodec_createDecoderByType` returns. -/
def new : Codec := ⟨false, [], []⟩

def start (c : Codec) : Codec := { c with started := true }

def dequeue (index : ℕ) (c : Codec) : Codec := { c with dequeued := c.dequeued ++ [index] }

def queue (index : ℕ) (b : InputBuffer) (c : Codec) : Codec :=
  { c with dequeued := c.dequeued.erase index, accepted := c.accepted ++ [b] }

/-- All but the buffers that the client holds. -/
def decoder (c : Codec) : Bool × List InputBuffer := (c.started, c.accepted)

end Codec

/-- How the codec calls of one `queueInputBuffer` end. -/
structure InputOutcome where
  /-- `none`: `AMediaCodec_dequeueInputBuffer` returns a negative number. -/
  inputIndex : Option ℕ
  /-- `none`: `AMediaCodec_getInputBuffer` returns a null pointer. -/
  bufferSize : Option ℕ
  /-- `AMediaCodec_queueInputBuffer` returns `AMEDIA_OK`. -/
  status : Bool
  deriving DecidableEq, Repr

/-- The members that the calls share, and the codecs in the order in which they
were created. -/
structure Feed where
  kScreenStreamMediaCodec : AMediaCodec
  kScreenStreamMediaCodecStatus : MediaCodecStatus
  codecs : List Codec
  deriving DecidableEq, Repr

namespace Feed

def modify (s : Feed) (i : ℕ) (f : Codec → Codec) : Feed :=
  { s with codecs := s.codecs.modify i f }

/-- The codec that the handle refers to, with its number. -/
def current (s : Feed) : Option (ℕ × Codec) :=
  match s.kScreenStreamMediaCodec with
  | .codec i => (s.codecs[i]?).map fun c => (i, c)
  | _ => none

/-- `AMediaCodec_dequeueInputBuffer` on the handle: a codec that has not been
started returns an error. -/
def dequeueInputBuffer (s : Feed) (o : InputOutcome) : Option (ℕ × ℕ) :=
  s.current.bind fun (i, c) => if c.started then o.inputIndex.map fun index => (i, index) else none

/-- `CarplayRpcRuntime::queueInputBuffer`. -/
def queueInputBuffer (s : Feed) (data : Bytes) (pts : BitVec 64) (flags : BitVec 32)
    (o : InputOutcome) : Bool × Feed :=
  if s.kScreenStreamMediaCodec = .null then (false, s)
  else if s.kScreenStreamMediaCodecStatus.value < MediaCodecStatus.STARTED.value then (false, s)
  else
    match s.dequeueInputBuffer o with
    | none => (false, s)
    | some (i, inputIndex) =>
        let s := s.modify i (Codec.dequeue inputIndex)
        match o.bufferSize with
        | none => (false, s)
        | some bufferSize =>
            if bufferSize < data.length then (false, s)
            else if o.status then (true, s.modify i (Codec.queue inputIndex ⟨data, pts, flags⟩))
            else (false, s)

/-- The two feeds agree but for what the client has dequeued. -/
structure Agree (s s' : Feed) : Prop where
  handle : s'.kScreenStreamMediaCodec = s.kScreenStreamMediaCodec
  status : s'.kScreenStreamMediaCodecStatus = s.kScreenStreamMediaCodecStatus
  codecs : ∀ i : ℕ, (s'.codecs[i]?).map Codec.decoder = (s.codecs[i]?).map Codec.decoder

theorem Agree.refl (s : Feed) : Agree s s := ⟨rfl, rfl, fun _ => rfl⟩

theorem agree_dequeue (s : Feed) (i index : ℕ) : Agree s (s.modify i (Codec.dequeue index)) := by
  refine ⟨rfl, rfl, fun j => ?_⟩
  rw [modify, List.getElem?_modify]
  cases s.codecs[j]? with
  | none => rfl
  | some c => by_cases hij : i = j <;> simp [hij, Codec.dequeue, Codec.decoder]

variable {s s' : Feed} {data : Bytes} {pts : BitVec 64} {flags : BitVec 32} {o : InputOutcome}

theorem current_eq_some {i : ℕ} {c : Codec} :
    s.current = some (i, c) ↔ s.kScreenStreamMediaCodec = .codec i ∧ s.codecs[i]? = some c := by
  unfold current
  split
  · rename_i j hj
    rw [hj, AMediaCodec.codec.injEq, Option.map_eq_some_iff]
    constructor
    · rintro ⟨c', hc', heq⟩
      obtain ⟨rfl, rfl⟩ := Prod.mk.inj heq
      exact ⟨rfl, hc'⟩
    · rintro ⟨rfl, hc⟩
      exact ⟨c, hc, rfl⟩
  · rename_i hnone
    exact iff_of_false (by simp) fun h => hnone i h.1

/-- A call that fails changes nothing but what the client has dequeued. -/
theorem queueInputBuffer_false (h : s.queueInputBuffer data pts flags o = (false, s')) :
    Agree s s' := by
  unfold queueInputBuffer at h
  split at h
  · obtain ⟨-, rfl⟩ := Prod.mk.inj h
    exact .refl s
  split at h
  · obtain ⟨-, rfl⟩ := Prod.mk.inj h
    exact .refl s
  split at h
  · obtain ⟨-, rfl⟩ := Prod.mk.inj h
    exact .refl s
  · -- from here on an index is dequeued, and the failing branches keep it
    rename_i i index _
    dsimp only at h
    split at h
    · obtain ⟨-, rfl⟩ := Prod.mk.inj h
      exact agree_dequeue s i index
    split at h
    · obtain ⟨-, rfl⟩ := Prod.mk.inj h
      exact agree_dequeue s i index
    split at h
    · cases (Prod.mk.inj h).1
    · obtain ⟨-, rfl⟩ := Prod.mk.inj h
      exact agree_dequeue s i index

/-- A call that succeeds has the started current codec accept the buffer. -/
theorem queueInputBuffer_true (h : s.queueInputBuffer data pts flags o = (true, s')) :
    ∃ i c index, s.current = some (i, c) ∧ c.started = true ∧
      MediaCodecStatus.STARTED.value ≤ s.kScreenStreamMediaCodecStatus.value ∧
      s' = s.modify i fun c => (c.dequeue index).queue index ⟨data, pts, flags⟩ := by
  unfold queueInputBuffer at h
  split at h
  · cases (Prod.mk.inj h).1
  split at h
  · cases (Prod.mk.inj h).1
  rename_i hstatus
  split at h
  · cases (Prod.mk.inj h).1
  · rename_i i index hdequeue
    obtain ⟨⟨i', c⟩, hcurrent, hindex⟩ := Option.bind_eq_some_iff.mp hdequeue
    dsimp only at h hindex
    split at hindex
    · rename_i hstarted
      obtain ⟨index', -, heq⟩ := Option.map_eq_some_iff.mp hindex
      obtain ⟨rfl, rfl⟩ := Prod.mk.inj heq
      split at h
      · cases (Prod.mk.inj h).1
      split at h
      · cases (Prod.mk.inj h).1
      split at h
      · obtain ⟨-, rfl⟩ := Prod.mk.inj h
        refine ⟨i', c, index', hcurrent, hstarted, Nat.not_lt.mp hstatus, ?_⟩
        -- the index is dequeued and queued again, in one codec
        rw [modify, modify, List.modify_modify_eq]
        rfl
      · cases (Prod.mk.inj h).1
    · cases hindex

/-- An outcome with which the current codec accepts the buffer, once started. -/
def accepting (data : Bytes) : InputOutcome := ⟨some 0, some data.length, true⟩

theorem queueInputBuffer_accepting (data : Bytes) (pts : BitVec 64) (flags : BitVec 32) {i : ℕ}
    {c : Codec} (hcurrent : s.current = some (i, c))
    (hstarted : c.started = true)
    (hstatus : MediaCodecStatus.STARTED.value ≤ s.kScreenStreamMediaCodecStatus.value) :
    s.queueInputBuffer data pts flags (accepting data)
      = (true, s.modify i fun c => (c.dequeue 0).queue 0 ⟨data, pts, flags⟩) := by
  have hhandle := (current_eq_some.mp hcurrent).1
  have hdequeue : s.dequeueInputBuffer (accepting data) = some (i, 0) := by
    simp [dequeueInputBuffer, hcurrent, hstarted, accepting]
  rw [queueInputBuffer, if_neg (by rw [hhandle]; simp), if_neg (Nat.not_lt.mpr hstatus), hdequeue]
  simp only [accepting, Nat.lt_irrefl, if_false, if_true]
  rw [modify, modify, List.modify_modify_eq]
  rfl

end Feed

end Carplay.Screen

/-
`BluetoothRfcommChannel.readLoop`, turn by turn.

A `ByteArray` is an object: its number, with the contents in a heap.  The loop
reads into one array over and over and passes a copy of each read to `onData`,
which keeps the reference.

* `turn` — one turn of the loop, by what `read` does;
* `Frame` — a turn changes no array but the buffer;
* `hands_over_reads` — so the arrays passed to `onData` hold the bytes read, each
  those of its read, however many reads follow;
* `never_ends_at_end_of_stream` — at the end of the stream the loop turns for ever.
-/
import GrpcJniClient.Loop
import GrpcJniClient.RfcommManager
import Mathlib.Data.Int.Notation

namespace Carplay.Rfcomm

/-- What a turn of the loop meets. -/
inductive Turn where
  /-- `isActive` is false. -/
  | cancelled
  /-- `mInput` is null. -/
  | noInput
  /-- `read` returns the number of these bytes, which are in the buffer. -/
  | read (bytes : Bytes)
  /-- `read` returns -1. -/
  | endOfStream
  /-- `read` throws, with these bytes in the buffer. -/
  | ioException (bytes : Bytes)
  deriving DecidableEq, Repr

/-- The coroutine of a `readLoop`. -/
structure ReadLoop where
  /-- The contents of the `ByteArray` objects. -/
  heap : List Bytes
  /-- The object that `buffer` refers to. -/
  buffer : ℕ
  /-- The objects passed to `onData`. -/
  passed : List ℕ
  job : JobState
  deriving DecidableEq, Repr

/-- The size of `buffer`. -/
def bufferSize : ℕ := 1024

/-- `ByteArray.copyOf`. -/
def copyOf (a : Bytes) (newSize : ℕ) : Bytes :=
  (a ++ List.replicate (newSize - a.length) 0).take newSize

namespace ReadLoop

/-- The coroutine as it is launched, with the objects that there are. -/
def launch (heap : List Bytes) : ReadLoop :=
  ⟨heap ++ [List.replicate bufferSize 0], heap.length, [], .active⟩

/-- `read` puts bytes over the front of the buffer. -/
def fill (s : ReadLoop) (bytes : Bytes) : ReadLoop :=
  { s with heap := s.heap.modify s.buffer fun old => bytes ++ old.drop bytes.length }

/-- The body of the loop behind the `read` that has returned `len`. -/
def body (s : ReadLoop) (len : ℤ) : ReadLoop :=
  if 0 < len then
    { s with
      heap := s.heap ++ [copyOf (s.heap[s.buffer]?.getD []) len.toNat]
      passed := s.passed ++ [s.heap.length] }
  else s

/-- One turn of the loop; a `read` returns at most as many bytes as the buffer
has. -/
def turn (s : ReadLoop) (t : Turn) : Option ReadLoop :=
  if s.job = .completed then none
  else
    match t with
    | .cancelled => some { s with job := .completed }
    | .noInput => some { s with job := .completed }
    | .read bytes =>
        if bytes.length ≤ bufferSize then some ((s.fill bytes).body bytes.length) else none
    -- -1 is not positive, and nothing else is asked of it
    | .endOfStream => some (s.body (-1))
    | .ioException bytes =>
        if bytes.length ≤ bufferSize then some { s.fill bytes with job := .completed } else none

/-- The bytes that the successful reads have returned. -/
def reads (ts : List Turn) : List Bytes :=
  ts.filterMap fun
    | .read bytes => some bytes
    | _ => none

variable {s s' : ReadLoop} {t : Turn} {ts : List Turn}

/-! ### What a turn changes -/

/-- No array but the buffer has changed, and what was passed on remains so. -/
structure Frame (s s' : ReadLoop) : Prop where
  buffer : s'.buffer = s.buffer
  passed : s.passed <+: s'.passed
  length : s.heap.length ≤ s'.heap.length
  arrays : ∀ a, a ≠ s.buffer → a < s.heap.length → s'.heap[a]? = s.heap[a]?

theorem Frame.refl (s : ReadLoop) : Frame s s :=
  ⟨rfl, List.prefix_rfl, Nat.le_refl _, fun _ _ _ => rfl⟩

theorem Frame.trans {s'' : ReadLoop} (h : Frame s s') (h' : Frame s' s'') : Frame s s'' where
  buffer := h'.buffer.trans h.buffer
  passed := h.passed.trans h'.passed
  length := Nat.le_trans h.length h'.length
  arrays a ha hlt := by
    have hlt' := Nat.lt_of_lt_of_le hlt h.length
    rw [h'.arrays a (h.buffer ▸ ha) hlt', h.arrays a ha hlt]

theorem frame_fill (s : ReadLoop) (bytes : Bytes) : Frame s (s.fill bytes) where
  buffer := rfl
  passed := List.prefix_rfl
  length := Nat.le_of_eq (by rw [fill, List.length_modify])
  arrays a ha _ := by
    rw [fill, List.getElem?_modify_ne _ _ (Ne.symm ha)]

theorem frame_body (s : ReadLoop) (len : ℤ) : Frame s (s.body len) := by
  rw [body]
  split
  · refine ⟨rfl, List.prefix_append _ _, ?_, fun a _ hlt => ?_⟩
    · rw [List.length_append]
      exact Nat.le_add_right _ _
    · exact List.getElem?_append_left hlt
  · exact Frame.refl s

theorem frame_of_turn (h : s.turn t = some s') : Frame s s' := by
  unfold turn at h
  split at h
  · cases h
  cases t with
  | cancelled =>
    cases h
    exact ⟨rfl, List.prefix_rfl, Nat.le_refl _, fun _ _ _ => rfl⟩
  | noInput =>
    cases h
    exact ⟨rfl, List.prefix_rfl, Nat.le_refl _, fun _ _ _ => rfl⟩
  | read bytes =>
    obtain ⟨-, hs⟩ := Option.ite_none_right_eq_some.mp h
    cases hs
    exact (frame_fill s bytes).trans (frame_body _ _)
  | endOfStream =>
    cases h
    exact frame_body s _
  | ioException bytes =>
    obtain ⟨-, hs⟩ := Option.ite_none_right_eq_some.mp h
    cases hs
    have hF := frame_fill s bytes
    exact ⟨hF.buffer, hF.passed, hF.length, hF.arrays⟩

theorem frame_of_exec (h : Run.exec turn s ts = some s') : Frame s s' :=
  Run.exec_invariant (C := fun _ _ => True) (fun _ _ _ hF _ ht => Frame.trans hF (frame_of_turn ht))
    (Frame.refl s) (Run.along_true _ _) h

/-! ### What is passed on -/

theorem copyOf_append (bytes rest : Bytes) : copyOf (bytes ++ rest) bytes.length = bytes := by
  rw [copyOf, List.append_assoc, List.take_left]

/-- The invariant of a run: the buffer is one array, of its size, and the arrays
passed on are others, with the bytes that have been read. -/
structure Inv (ts : List Turn) (s : ReadLoop) : Prop where
  buffer : ∃ content, s.heap[s.buffer]? = some content ∧ content.length = bufferSize
  passed : ∀ a ∈ s.passed, a ≠ s.buffer ∧ a < s.heap.length
  contents : (s.passed.map fun a => s.heap[a]?)
    = (((reads ts).filter (· ≠ [])).map some)

theorem Inv.launch (heap : List Bytes) : Inv [] (launch heap) where
  buffer := ⟨_, List.getElem?_concat_length, List.length_replicate⟩
  passed _ ha := absurd ha List.not_mem_nil
  contents := rfl

/-- Nothing passed on is touched by what changes the buffer only. -/
theorem Inv.contents_of_frame (hI : Inv ts s) (hF : Frame s s') :
    (s.passed.map fun a => s'.heap[a]?) = ((reads ts).filter (· ≠ [])).map some := by
  rw [← hI.contents]
  refine List.map_congr_left fun a ha => ?_
  obtain ⟨hne, hlt⟩ := hI.passed a ha
  exact hF.arrays a hne hlt

theorem fill_buffer (hI : Inv ts s) {bytes : Bytes} (hlen : bytes.length ≤ bufferSize) :
    ∃ rest, (s.fill bytes).heap[s.buffer]? = some (bytes ++ rest) ∧
      (bytes ++ rest).length = bufferSize := by
  obtain ⟨content, hcontent, hsize⟩ := hI.buffer
  refine ⟨content.drop bytes.length, ?_, ?_⟩
  · rw [fill, List.getElem?_modify_eq, hcontent]
    rfl
  · rw [List.length_append, List.length_drop, hsize]
    omega

/-- After a read that is not empty, its bytes are in a new array. -/
theorem body_fill (hI : Inv ts s) {bytes : Bytes} (hlen : bytes.length ≤ bufferSize)
    (hne : bytes ≠ []) :
    (s.fill bytes).body bytes.length
      = { s.fill bytes with
          heap := (s.fill bytes).heap ++ [bytes]
          passed := s.passed ++ [s.heap.length] } := by
  obtain ⟨rest, hbuffer, -⟩ := fill_buffer hI hlen
  have hpos : (0 : ℤ) < bytes.length := Int.natCast_pos.mpr (List.length_pos_iff.mpr hne)
  have hcopy : copyOf ((s.fill bytes).heap[(s.fill bytes).buffer]?.getD []) (bytes.length : ℤ).toNat
      = bytes := by
    show copyOf ((s.fill bytes).heap[s.buffer]?.getD []) _ = _
    rw [hbuffer, Option.getD_some, Int.toNat_natCast, copyOf_append]
  have hlength : (s.fill bytes).heap.length = s.heap.length := by rw [fill, List.length_modify]
  rw [body, if_pos hpos, hcopy, hlength]
  rfl

theorem reads_append_of_ne (ts : List Turn) {t : Turn} (ht : ∀ bytes, t ≠ .read bytes) :
    reads (ts ++ [t]) = reads ts := by
  rw [reads, List.filterMap_append]
  cases t with
  | read bytes => exact absurd rfl (ht bytes)
  | _ => exact List.append_nil _

theorem Inv.of_fill (hI : Inv ts s) {bytes : Bytes} (hlen : bytes.length ≤ bufferSize) :
    Inv ts (s.fill bytes) where
  buffer := by
    obtain ⟨rest, hbuffer, hsize⟩ := fill_buffer hI hlen
    exact ⟨_, hbuffer, hsize⟩
  passed a ha := by
    obtain ⟨hne, hlt⟩ := hI.passed a ha
    exact ⟨hne, Nat.lt_of_lt_of_le hlt (frame_fill s bytes).length⟩
  contents := hI.contents_of_frame (frame_fill s bytes)

/-- **The step lemma.** -/
theorem Inv.turn (hI : Inv ts s) (h : s.turn t = some s') : Inv (ts ++ [t]) s' := by
  unfold ReadLoop.turn at h
  split at h
  · cases h
  cases t with
  | cancelled =>
    cases h
    exact ⟨hI.buffer, hI.passed, by rw [reads_append_of_ne ts (by simp)]; exact hI.contents⟩
  | noInput =>
    cases h
    exact ⟨hI.buffer, hI.passed, by rw [reads_append_of_ne ts (by simp)]; exact hI.contents⟩
  | read bytes =>
    obtain ⟨hlen, hs⟩ := Option.ite_none_right_eq_some.mp h
    have hF := hI.of_fill hlen
    have hreads : reads (ts ++ [.read bytes]) = reads ts ++ [bytes] := List.filterMap_append
    by_cases hne : bytes = []
    · -- nothing has been read, and nothing is passed on
      subst hne
      cases hs
      refine ⟨hF.buffer, hF.passed, ?_⟩
      rw [hreads, List.filter_append]
      exact hF.contents.trans (by simp)
    · rw [body_fill hI hlen hne] at hs
      cases hs
      obtain ⟨content, hcontent, hsize⟩ := hF.buffer
      have hlength : (s.fill bytes).heap.length = s.heap.length := by rw [fill, List.length_modify]
      have hlt := (List.getElem?_eq_some_iff.mp hcontent).1
      refine ⟨⟨content, ?_, hsize⟩, fun a ha => ?_, ?_⟩
      · exact (List.getElem?_append_left hlt).trans hcontent
      · rw [List.length_append, hlength]
        rcases List.mem_append.mp ha with ha | ha
        · obtain ⟨hne, hlt⟩ := hI.passed a ha
          exact ⟨hne, Nat.lt_succ_of_lt hlt⟩
        · obtain rfl := List.mem_singleton.mp ha
          exact ⟨Nat.ne_of_gt (hlength ▸ hlt), Nat.lt_succ_self _⟩
      · have hfilter : ((reads ts ++ [bytes]).filter (· ≠ []))
            = (reads ts).filter (· ≠ []) ++ [bytes] := by
          rw [List.filter_append]
          simp [hne]
        rw [hreads, hfilter, List.map_append, List.map_append, ← hF.contents]
        congr 1
        · refine List.map_congr_left fun a ha => ?_
          exact List.getElem?_append_left (hF.passed a ha).2
        · simp [← hlength]
  | endOfStream =>
    cases h
    exact ⟨hI.buffer, hI.passed, by rw [reads_append_of_ne ts (by simp)]; exact hI.contents⟩
  | ioException bytes =>
    obtain ⟨hlen, hs⟩ := Option.ite_none_right_eq_some.mp h
    cases hs
    have hF := hI.of_fill hlen
    exact ⟨hF.buffer, hF.passed, by rw [reads_append_of_ne ts (by simp)]; exact hF.contents⟩

theorem Inv.of_exec {heap : List Bytes}
    (h : Run.exec ReadLoop.turn (ReadLoop.launch heap) ts = some s) :
    Inv ts s :=
  Run.exec_history (fun _ _ _ _ hI ht => Inv.turn hI ht) (Inv.launch heap) h

/-- After the whole run, the arrays passed on hold the bytes read, one array for
each read that was not empty; put together they are all the bytes read; and each
array is as it was when it was passed on. -/
structure HandsOver (heap : List Bytes) (ts : List Turn) (s : ReadLoop) : Prop where
  contents : (s.passed.map fun a => s.heap[a]?) = ((reads ts).filter (· ≠ [])).map some
  concatenated : (s.passed.flatMap fun a => s.heap[a]?.getD []) = (reads ts).flatten
  unchanged : ∀ n s', Run.exec ReadLoop.turn (launch heap) (ts.take n) = some s' →
    ∀ a ∈ s'.passed, a ∈ s.passed ∧ s.heap[a]? = s'.heap[a]?

theorem flatten_filter_ne_nil (xss : List Bytes) : (xss.filter (· ≠ [])).flatten = xss.flatten := by
  induction xss with
  | nil => rfl
  | cons xs xss ih =>
    rw [List.filter_cons]
    split
    · rw [List.flatten_cons, List.flatten_cons, ih]
    · rename_i hnil
      obtain rfl : xs = [] := by simpa using hnil
      exact ih

/-- **`readLoop` hands over exactly the bytes read**, whatever the reads return
and however the loop ends. -/
theorem hands_over_reads (heap : List Bytes) (ts : List Turn) (s : ReadLoop)
    (h : Run.exec ReadLoop.turn (launch heap) ts = some s) : HandsOver heap ts s := by
  have hI := Inv.of_exec h
  refine ⟨hI.contents, ?_, fun n s' hs' a ha => ?_⟩
  · have hmap : (s.passed.flatMap fun a => s.heap[a]?.getD [])
        = ((s.passed.map fun a => s.heap[a]?).map fun a => a.getD []).flatten := by
      rw [List.map_map, List.flatMap_def]
      rfl
    rw [hmap, hI.contents, List.map_map, ← flatten_filter_ne_nil (reads ts)]
    exact congrArg List.flatten (List.map_id _)
  · have hrest : Run.exec ReadLoop.turn s' (ts.drop n) = some s := by
      rw [← List.take_append_drop n ts, Run.exec_append, hs'] at h
      exact h
    obtain ⟨hne, hlt⟩ := (Inv.of_exec hs').passed a ha
    have hF := frame_of_exec hrest
    exact ⟨hF.passed.subset ha, hF.arrays a hne hlt⟩

/-- A long read, a short one over its front, an empty one, and an exception. -/
private def fourReads : List Turn :=
  [.read [1, 2, 3], .read [4], .read [], .ioException [5, 6]]

theorem hands_over_reads_four :
    ∃ s, Run.exec ReadLoop.turn (launch []) fourReads = some s ∧ HandsOver [] fourReads s :=
  ⟨_, rfl, hands_over_reads [] fourReads _ rfl⟩

/-! ### The end of the stream -/

/-- What one `read` returns before the end of the stream. -/
structure Chunk where
  bytes : Bytes
  nonempty : bytes ≠ []
  fits : bytes.length ≤ bufferSize

/-- `InputStream.read`, on a stream that delivers these chunks and then ends. -/
def read : List Chunk → Turn × List Chunk
  | [] => (.endOfStream, [])
  | c :: chunks => (.read c.bytes, chunks)

/-- The loop on such a stream, with no cancellation and no exception. -/
def next (s : ReadLoop × List Chunk) : Option (ReadLoop × List Chunk) :=
  (s.1.turn (read s.2).1).map fun s' => (s', (read s.2).2)

theorem job_body (s : ReadLoop) (len : ℤ) : (s.body len).job = s.job := by
  rw [body]
  split <;> rfl

/-- The loop can turn once more, at the end of the stream as before it. -/
theorem next_of_active {s : ReadLoop × List Chunk} (hs : s.1.job = .active) :
    ∃ s', next s = some s' ∧ s'.1.job = .active := by
  obtain ⟨s, chunks⟩ := s
  have hactive : ¬ s.job = .completed := by
    rw [hs]
    decide
  cases chunks with
  | nil =>
    refine ⟨(s.body (-1), []), ?_, (job_body s _).trans hs⟩
    rw [next, read]
    unfold turn
    rw [if_neg hactive]
    rfl
  | cons c chunks =>
    refine ⟨((s.fill c.bytes).body c.bytes.length, chunks), ?_, (job_body _ _).trans hs⟩
    rw [next, read]
    unfold turn
    rw [if_neg hactive]
    dsimp only
    rw [if_pos c.fits]
    rfl

/-- **`readLoop` never ends at the end of a stream**, whatever the stream delivers
before. -/
theorem never_ends_at_end_of_stream (heap : List Bytes) (chunks : List Chunk) :
    ¬ Loop.Ends next (launch heap, chunks) :=
  Loop.not_ends (fun _ => next_of_active) rfl

/-- One byte, and the end of the stream. -/
theorem one_byte_stream_never_ends :
    ¬ Loop.Ends next (launch [], [⟨[7], by decide, by decide⟩]) :=
  Loop.not_ends (fun _ => next_of_active) rfl

end ReadLoop

end Carplay.Rfcomm

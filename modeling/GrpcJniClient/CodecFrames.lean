/-
The frames of the pull listener, from the callback to the codec.

* `Feed.fromCallback` — what the codecs have accepted from the callback, as their
  buffers show it: those without the flag of a configuration;
* `Feed.Latest` — the handle is that of the last codec, so what is accepted comes
  behind everything accepted before;
* `frames_of_prim` — a handler feeds no frame;
* `frames_in_order` — the codec has the frames received, in order and each once,
  but for the one that the callback is still trying to feed.
-/
import GrpcJniClient.CodecConfiguration
import GrpcJniClient.Ownership

open ThreadPool

namespace Carplay.Screen

namespace Feed

/-- The buffers accepted from the callback, those of earlier codecs first. -/
def fromCallback (s : Feed) : List InputBuffer :=
  s.codecs.flatMap fun c => c.accepted.filter fun b => b.flags = 0

/-- No handle but that of the codec created last. -/
def Latest (s : Feed) : Prop :=
  ∀ i, s.kScreenStreamMediaCodec = .codec i → i + 1 = s.codecs.length

variable {s s' : Feed} {data : Bytes} {pts : BitVec 64} {flags : BitVec 32} {o : InputOutcome}

theorem fromCallback_modify {i : ℕ} {f : Codec → Codec}
    (hf : ∀ c : Codec, ((f c).accepted.filter fun b => b.flags = 0)
      = c.accepted.filter fun b => b.flags = 0) :
    (s.modify i f).fromCallback = s.fromCallback := by
  rw [fromCallback, fromCallback, modify]
  generalize s.codecs = cs
  induction cs generalizing i with
  | nil => cases i <;> rfl
  | cons c cs ih =>
    cases i with
    | zero => rw [List.modify_zero_cons, List.flatMap_cons, List.flatMap_cons, hf]
    | succ i => rw [List.modify_succ_cons, List.flatMap_cons, List.flatMap_cons, ih]

/-- What the last codec accepts comes last. -/
theorem fromCallback_queue {i index : ℕ} (hi : i + 1 = s.codecs.length) (b : InputBuffer)
    (hb : b.flags = 0) :
    (s.modify i fun c => (c.dequeue index).queue index b).fromCallback = s.fromCallback ++ [b] := by
  obtain ⟨cs, c, hcs⟩ : ∃ cs c, s.codecs = cs ++ [c] :=
    (List.eq_nil_or_concat' s.codecs).resolve_left (List.ne_nil_of_length_eq_add_one hi.symm)
  have hlast : i = cs.length := by
    rw [hcs, List.length_append] at hi
    exact Nat.succ.inj hi
  have hmodify : (s.modify i fun c => (c.dequeue index).queue index b).codecs
      = cs ++ [(c.dequeue index).queue index b] := by
    rw [modify, hcs, hlast, Ownership.modify_concat]
  rw [fromCallback, hmodify, fromCallback, hcs]
  simp [Codec.queue, Codec.dequeue, hb]

theorem Agree.map_decoder (h : Agree s s') :
    s'.codecs.map Codec.decoder = s.codecs.map Codec.decoder :=
  List.ext_getElem? fun i => by rw [List.getElem?_map, List.getElem?_map, h.codecs i]

theorem Agree.fromCallback_eq (h : Agree s s') : s'.fromCallback = s.fromCallback := by
  have haccepted : ∀ cs : List Codec, (cs.flatMap fun c => c.accepted.filter fun b => b.flags = 0)
      = (cs.map Codec.decoder).flatMap fun d => d.2.filter fun b => b.flags = 0 := by
    intro cs
    rw [List.flatMap_map]
    rfl
  rw [fromCallback, haccepted, h.map_decoder, ← haccepted, fromCallback]

theorem Agree.latest (h : Agree s s') (hs : s.Latest) : s'.Latest := by
  intro i hi
  have hlen : s'.codecs.length = s.codecs.length := by
    simpa using congrArg List.length h.map_decoder
  rw [hlen]
  exact hs i (h.handle ▸ hi)

theorem Latest.modify (hs : s.Latest) (i : ℕ) (f : Codec → Codec) : (s.modify i f).Latest := by
  intro j hj
  rw [Feed.modify, List.length_modify]
  exact hs j hj

end Feed

namespace Configuration

/-- The frames that have come in. -/
def received (ls : List Label) : List Bytes :=
  ls.filterMap fun
    | .receive data => some data
    | _ => none

/-- The step lemma of a handler: it feeds no frame, and keeps the frame that
waits. -/
theorem frames_of_prim {s s' : Shared} {o : Outcome} {k k' : Task} {forks : List Task}
    (h : prim s o k = some (s', k', forks)) :
    s'.frame = s.frame ∧ s'.feed.fromCallback = s.feed.fromCallback ∧
      (s.feed.Latest → s'.feed.Latest) := by
  cases k with
  | createDecoder =>
    cases h
    split
    · refine ⟨rfl, ?_, fun _ i hi => ?_⟩
      · simp [Feed.create, Feed.fromCallback, Codec.new]
      · cases hi
        show _ = (s.feed.codecs ++ [Codec.new]).length
        rw [List.length_append]
        rfl
    · exact ⟨rfl, rfl, fun _ i hi => by cases hi⟩
  | start codec =>
    rw [prim] at h
    split at h
    · cases h
      cases codec with
      | codec i => exact ⟨rfl, Feed.fromCallback_modify fun _ => rfl, fun hs => hs.modify _ _⟩
      | null => exact ⟨rfl, rfl, id⟩
      | wild => exact ⟨rfl, rfl, id⟩
    · cases h
      exact ⟨rfl, rfl, id⟩
  | configuration data =>
    rw [prim] at h
    split at h
    · rename_i feed hq
      cases h
      obtain ⟨i, c, index, -, -, -, rfl⟩ := Feed.queueInputBuffer_true hq
      refine ⟨rfl, Feed.fromCallback_modify fun c => ?_, fun hs => hs.modify _ _⟩
      -- a configuration does not pass for a frame
      simp [Codec.queue, Codec.dequeue, AMEDIACODEC_BUFFER_FLAG_CODEC_CONFIG]
    · rename_i feed hq
      cases h
      have hagree := Feed.queueInputBuffer_false hq
      exact ⟨rfl, hagree.fromCallback_eq, hagree.latest⟩
  | done => cases h
  | _ =>
    cases h
    exact ⟨rfl, rfl, id⟩

/-- A turn of the callback's loop feeds the frame that waits, or nothing. -/
theorem frames_of_attempt {s s' : Shared} {o : InputOutcome} (hs : s.feed.Latest)
    (h : attempt s o = some s') :
    s'.feed.fromCallback.map InputBuffer.data ++ s'.frame.toList
        = s.feed.fromCallback.map InputBuffer.data ++ s.frame.toList ∧ s'.feed.Latest := by
  obtain ⟨data, hdata, rfl⟩ := Option.map_eq_some_iff.mp h
  split
  · rename_i feed hq
    obtain ⟨i, c, index, hcurrent, -, -, rfl⟩ := Feed.queueInputBuffer_true hq
    -- the codec that took the frame is the last one
    have hi := hs i (Feed.current_eq_some.mp hcurrent).1
    refine ⟨?_, hs.modify _ _⟩
    rw [Feed.fromCallback_queue hi _ rfl, List.map_append, hdata]
    simp
  · rename_i feed hq
    have hagree := Feed.queueInputBuffer_false hq
    exact ⟨by rw [hagree.fromCallback_eq], hagree.latest hs⟩

theorem received_append_of_ne (ls : List Label) {l : Label} (hl : ∀ data, l ≠ .receive data) :
    received (ls ++ [l]) = received ls := by
  rw [received, List.filterMap_append]
  cases l with
  | receive data => exact absurd rfl (hl data)
  | _ => exact List.append_nil _

/-- What has been fed and what waits, in a run with the labels `ls`. -/
structure Fed (ls : List Label) (p : Runtime) : Prop where
  frames : p.shared.feed.fromCallback.map InputBuffer.data ++ p.shared.frame.toList = received ls
  latest : p.shared.feed.Latest

/-- **The step lemma.** -/
theorem Fed.step {ls : List Label} {p q : Runtime} {l : Label} (hF : Fed ls p)
    (h : Configuration.step p l = some q) : Fed (ls ++ [l]) q := by
  obtain ⟨hframes, hlatest⟩ := hF
  cases l with
  | screenStreamStart =>
    obtain rfl := Option.some_inj.mp h
    exact ⟨by rw [received_append_of_ne ls (by simp)]; exact hframes, hlatest⟩
  | screenStreamConfiguration data =>
    obtain rfl := Option.some_inj.mp h
    exact ⟨by rw [received_append_of_ne ls (by simp)]; exact hframes, hlatest⟩
  | receive data =>
    rw [Configuration.step] at h
    split at h
    · rename_i hnone
      obtain rfl := Option.some_inj.mp h
      -- the callback returns before the next frame comes
      rw [Option.isNone_iff_eq_none.mp hnone, Option.toList_none, List.append_nil] at hframes
      refine ⟨?_, hlatest⟩
      rw [received, List.filterMap_append, ← received, ← hframes]
      rfl
    · cases h
  | attempt o =>
    obtain ⟨s, hs, rfl⟩ := Option.map_eq_some_iff.mp h
    obtain ⟨heq, hlatest'⟩ := frames_of_attempt hlatest hs
    exact ⟨by rw [received_append_of_ne ls (by simp), ← hframes]; exact heq, hlatest'⟩
  | step i o =>
    obtain ⟨k, s, k', forks, -, hprim, rfl⟩ := Pool.of_move h
    obtain ⟨hframe, hfed, hlatest'⟩ := frames_of_prim hprim
    refine ⟨?_, hlatest' hlatest⟩
    rw [received_append_of_ne ls (by simp), ← hframes]
    show s.feed.fromCallback.map _ ++ s.frame.toList = _
    rw [hfed, hframe]

/-- **Frames are fed exactly once and in order.**  At every moment of a run the
frames received are those that the codecs have accepted from the callback, and
behind these the one with which the callback has not returned. -/
theorem frames_in_order (wild : Bool) (ls : List Label) (p : Runtime)
    (h : Run.exec Configuration.step (Configuration.initial wild) ls = some p) :
    p.shared.feed.fromCallback.map InputBuffer.data ++ p.shared.frame.toList = received ls :=
  (Run.exec_history (fun _ _ _ _ hF hstep => Fed.step hF hstep)
    ⟨rfl, fun i hi => by cases wild <;> cases hi⟩ h).frames

/-- The codec is started; a first frame is fed at the second turn of the loop, and
a second one waits. -/
private def twoFrames : List Label :=
  .screenStreamStart :: List.replicate 8 (.step 0 ⟨true, Feed.accepting []⟩) ++
    [.receive [7], .attempt ⟨none, none, true⟩, .attempt (Feed.accepting [7]), .receive [8, 9]]

theorem frames_in_order_two :
    ∃ p, Run.exec Configuration.step (Configuration.initial false) twoFrames = some p ∧
      p.shared.feed.fromCallback.map InputBuffer.data ++ p.shared.frame.toList
        = received twoFrames :=
  ⟨_, rfl, frames_in_order false twoFrames _ rfl⟩

end Configuration

end Carplay.Screen

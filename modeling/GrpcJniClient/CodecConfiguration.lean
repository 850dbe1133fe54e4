/-
Configuration and frames: `screenStreamStart`, the retry loop of
`handleScreenStreamConfiguration`, and that of the pull listener.

Each `queueInputBuffer` is one step here.  The frames come one after another: the
pull listener's thread stays in its callback until the codec has accepted the
frame.  A codec is known to nobody before its handle is stored, so creating it
and storing the handle are one step; the other calls of `initMediaCodec` read
the handle first.

* `Exposed` — a codec has been started and the gate of `queueInputBuffer` is
  open, but its configuration is not in;
* `Inv.step` — as long as no frame waits then, the codec gets its configuration
  first;
* `configured_first` — and otherwise the frame can be accepted before it;
* `frame_before_configuration` — the first frame comes before the configuration.
-/
import GrpcJniClient.CodecInput

open ThreadPool

namespace Carplay.Screen

namespace Configuration

/-- Where a handler, or the thread it launches, stands. -/
inductive Task where
  /-- `initMediaCodec` up to `ANativeWindow_acquire`. -/
  | createSurface
  | createDecoder
  | testCreated
  | loadConfigure
  | configure (h : AMediaCodec)
  | loadStart
  | start (h : AMediaCodec)
  | storeStarted
  /-- The loop of `handleScreenStreamConfiguration`. -/
  | configuration (data : Bytes)
  | storeAvailable
  | done
  deriving DecidableEq, Repr

/-- What the threads share. -/
structure Shared where
  feed : Feed
  /-- The frame in the pull listener's loop. -/
  frame : Option Bytes
  /-- The frames accepted, each with the status at that time. -/
  frames : List (Bytes × MediaCodecStatus)
  deriving DecidableEq, Repr

/-- How a step ends: a call of `initMediaCodec`, or those of
`queueInputBuffer`. -/
structure Outcome where
  ok : Bool
  input : InputOutcome
  deriving DecidableEq, Repr

end Configuration

namespace Feed

/-- `AMediaCodec_createDecoderByType` succeeds, and the handle is stored. -/
def create (s : Feed) : Feed :=
  { s with kScreenStreamMediaCodec := .codec s.codecs.length, codecs := s.codecs ++ [.new] }

/-- `AMediaCodec_start` succeeds. -/
def start (s : Feed) : AMediaCodec → Feed
  | .codec i => s.modify i Codec.start
  | _ => s

def setStatus (s : Feed) (status : MediaCodecStatus) : Feed :=
  { s with kScreenStreamMediaCodecStatus := status }

/-- The current codec has been started, `queueInputBuffer` lets buffers through,
but the configuration is not in. -/
def Exposed (s : Feed) : Prop :=
  ∃ i c, s.current = some (i, c) ∧ c.started = true ∧
    MediaCodecStatus.STARTED.value ≤ s.kScreenStreamMediaCodecStatus.value ∧
    ¬ (c.accepted ≠ [] ∧ s.kScreenStreamMediaCodecStatus = .AVAILABLE)

instance (s : Feed) : Decidable s.Exposed :=
  decidable_of_iff (∃ x ∈ s.current, x.2.started = true ∧
    MediaCodecStatus.STARTED.value ≤ s.kScreenStreamMediaCodecStatus.value ∧
    ¬ (x.2.accepted ≠ [] ∧ s.kScreenStreamMediaCodecStatus = .AVAILABLE))
    ⟨fun ⟨⟨i, c⟩, h⟩ => ⟨i, c, h⟩, fun ⟨i, c, h⟩ => ⟨(i, c), h⟩⟩

/-- The first buffer that a codec has accepted is a configuration. -/
def ConfiguredFirst (s : Feed) : Prop :=
  ∀ c ∈ s.codecs, ∀ b, c.accepted.head? = some b → b.flags = AMEDIACODEC_BUFFER_FLAG_CODEC_CONFIG

end Feed

namespace Configuration

/-- One step of a handler's thread. -/
def prim (s : Shared) (o : Outcome) : Task → Option (Shared × Task × List Task)
  | .createSurface => some (s, if o.ok then .createDecoder else .done, [])
  | .createDecoder =>
      some (if o.ok then { s with feed := s.feed.create }
        else { s with feed := { s.feed with kScreenStreamMediaCodec := .null } }, .testCreated, [])
  | .testCreated =>
      some (s, if s.feed.kScreenStreamMediaCodec = .null then .done else .loadConfigure, [])
  | .loadConfigure => some (s, .configure s.feed.kScreenStreamMediaCodec, [])
  | .configure _ => some (s, if o.ok then .loadStart else .done, [])
  | .loadStart => some (s, .start s.feed.kScreenStreamMediaCodec, [])
  | .start h =>
      if o.ok then some ({ s with feed := s.feed.start h }, .storeStarted, [])
      else some (s, .done, [])
  | .storeStarted => some ({ s with feed := s.feed.setStatus .STARTED }, .done, [])
  | .configuration data =>
      match s.feed.queueInputBuffer data 0 AMEDIACODEC_BUFFER_FLAG_CODEC_CONFIG o.input with
      | (true, feed) => some ({ s with feed := feed }, .storeAvailable, [])
      | (false, feed) => some ({ s with feed := feed }, .configuration data, [])
  | .storeAvailable => some ({ s with feed := s.feed.setStatus .AVAILABLE }, .done, [])
  | .done => none

abbrev Runtime := Pool Shared Task

inductive Label where
  | screenStreamStart
  | screenStreamConfiguration (data : Bytes)
  /-- The pull listener calls back with a frame. -/
  | receive (data : Bytes)
  /-- One turn of the callback's loop. -/
  | attempt (o : InputOutcome)
  | step (i : ℕ) (o : Outcome)
  deriving DecidableEq, Repr

/-- A freshly constructed `CarplayRpcRuntime`; the member
`kScreenStreamMediaCodec` has no initializer. -/
def initial (wild : Bool) : Runtime :=
  ⟨⟨⟨if wild then .wild else .null, .IDLE, []⟩, none, []⟩, []⟩

/-- One turn of the loop in the pull listener's callback. -/
def attempt (s : Shared) (o : InputOutcome) : Option Shared :=
  s.frame.map fun data =>
    match s.feed.queueInputBuffer data 0 0 o with
    | (true, feed) =>
        ⟨feed, none, s.frames ++ [(data, s.feed.kScreenStreamMediaCodecStatus)]⟩
    | (false, feed) => { s with feed := feed }

def step (p : Runtime) : Label → Option Runtime
  | .screenStreamStart => some (p.spawn .createSurface)
  | .screenStreamConfiguration data => some (p.spawn (.configuration data))
  | .receive data =>
      if p.shared.frame.isNone then some { p with shared := { p.shared with frame := some data } }
      else none
  | .attempt o => (attempt p.shared o).map fun s => { p with shared := s }
  | .step i o => p.move prim i o

/-- Every codec has accepted its configuration first, and frames were accepted
only while the status was `AVAILABLE`. -/
structure ConfiguredFirst (s : Shared) : Prop where
  first : s.feed.ConfiguredFirst
  available : ∀ a ∈ s.frames, a.2 = .AVAILABLE

/-- The step leaves no frame waiting for an exposed codec: no frame is received
while it is exposed, and neither starting the codec nor storing `STARTED`
exposes it while a frame waits. -/
def Guarded (p : Runtime) : Label → Prop
  | .receive _ => ¬ p.shared.feed.Exposed
  | .step i o => p.shared.frame.isSome = true →
      (∀ h, p.threads[i]? = some (.start h) → o.ok = true → ¬ (p.shared.feed.start h).Exposed) ∧
      (p.threads[i]? = some .storeStarted → ¬ (p.shared.feed.setStatus .STARTED).Exposed)
  | _ => True

/-- The handle that the thread is about to start. -/
def Task.starting : Task → Option AMediaCodec
  | .start h => some h
  | _ => none

theorem Task.starting_eq_some {k : Task} {h : AMediaCodec} :
    k.starting = some h ↔ k = .start h := by
  cases k <;> simp [starting]

instance (p : Runtime) (l : Label) : Decidable (Guarded p l) := by
  cases l with
  | receive data => exact inferInstanceAs (Decidable (¬ p.shared.feed.Exposed))
  | step i o =>
    refine decidable_of_iff (p.shared.frame.isSome = true →
      (∀ k ∈ p.threads[i]?, ∀ h ∈ k.starting, o.ok = true → ¬ (p.shared.feed.start h).Exposed) ∧
      (p.threads[i]? = some .storeStarted → ¬ (p.shared.feed.setStatus .STARTED).Exposed))
      (imp_congr_right fun _ => and_congr_left fun _ => ⟨fun h c hc => ?_, fun h k hk c hc => ?_⟩)
    · exact h _ hc c rfl
    · exact h c (hk.trans (congrArg some (Task.starting_eq_some.mp hc)))
  | _ => exact isTrue trivial

end Configuration

/-! ### Exposure -/

namespace Feed

variable {s s' : Feed} {data : Bytes} {pts : BitVec 64} {flags : BitVec 32} {o : InputOutcome}

theorem Agree.exposed (h : Agree s s') (hE : s'.Exposed) : s.Exposed := by
  obtain ⟨i, c', hcurrent, hstarted, hstatus, hnot⟩ := hE
  obtain ⟨hhandle, hc'⟩ := current_eq_some.mp hcurrent
  have hdecoder := h.codecs i
  rw [hc', Option.map_some] at hdecoder
  obtain ⟨c, hc, heq⟩ := Option.map_eq_some_iff.mp hdecoder.symm
  obtain ⟨hs, ha⟩ := Prod.mk.inj heq
  rw [h.status] at hstatus hnot
  rw [← ha] at hnot
  exact ⟨i, c, current_eq_some.mpr ⟨h.handle ▸ hhandle, hc⟩, hs.trans hstarted, hstatus, hnot⟩

/-- The new codec has not been started. -/
theorem not_exposed_create (s : Feed) : ¬ s.create.Exposed := by
  rintro ⟨i, c, hcurrent, hstarted, -⟩
  obtain ⟨hhandle, hc⟩ := current_eq_some.mp hcurrent
  cases hhandle
  obtain rfl := Option.some_inj.mp (List.getElem?_concat_length.symm.trans hc)
  cases hstarted

theorem not_exposed_null (s : Feed) :
    ¬ ({ s with kScreenStreamMediaCodec := .null } : Feed).Exposed := by
  rintro ⟨i, c, hcurrent, -⟩
  cases (current_eq_some.mp hcurrent).1

/-- Past `STARTED`, storing `AVAILABLE` exposes no codec. -/
theorem exposed_of_setStatus_AVAILABLE
    (hstatus : MediaCodecStatus.STARTED.value ≤ s.kScreenStreamMediaCodecStatus.value)
    (hE : (s.setStatus .AVAILABLE).Exposed) : s.Exposed := by
  obtain ⟨i, c, hcurrent, hstarted, -, hnot⟩ := hE
  exact ⟨i, c, hcurrent, hstarted, hstatus, fun h => hnot ⟨h.1, rfl⟩⟩

/-- An accepted buffer exposes no codec. -/
theorem exposed_of_queue {i index : ℕ} {b : InputBuffer}
    (hE : (s.modify i fun c => (c.dequeue index).queue index b).Exposed) : s.Exposed := by
  obtain ⟨j, c', hcurrent, hstarted, hstatus, hnot⟩ := hE
  obtain ⟨hhandle, hc'⟩ := current_eq_some.mp hcurrent
  rw [modify, List.getElem?_modify] at hc'
  obtain ⟨c, hc, rfl⟩ := Option.map_eq_some_iff.mp hc'
  refine ⟨j, c, current_eq_some.mpr ⟨hhandle, hc⟩, ?_, hstatus, ?_⟩
  · revert hstarted
    split <;> exact id
  · rintro ⟨hne, havailable⟩
    refine hnot ⟨?_, havailable⟩
    split
    · simp [Codec.queue]
    · exact hne

theorem ConfiguredFirst.agree (hs : s.ConfiguredFirst) (h : Agree s s') : s'.ConfiguredFirst := by
  intro c' hc' b hb
  obtain ⟨i, hi⟩ := List.mem_iff_getElem?.mp hc'
  have hdecoder := h.codecs i
  rw [hi, Option.map_some] at hdecoder
  obtain ⟨c, hc, heq⟩ := Option.map_eq_some_iff.mp hdecoder.symm
  refine hs c (List.mem_of_getElem? hc) b ?_
  rw [(Prod.mk.inj heq).2]
  exact hb

theorem ConfiguredFirst.modify (hs : s.ConfiguredFirst) {i : ℕ} {f : Codec → Codec}
    (hf : ∀ c, s.codecs[i]? = some c → ∀ b, (f c).accepted.head? = some b →
      c.accepted.head? = some b ∨ b.flags = AMEDIACODEC_BUFFER_FLAG_CODEC_CONFIG) :
    (s.modify i f).ConfiguredFirst := by
  intro c' hc' b hb
  obtain ⟨j, hj⟩ := List.mem_iff_getElem?.mp hc'
  rw [Feed.modify, List.getElem?_modify] at hj
  obtain ⟨c, hc, rfl⟩ := Option.map_eq_some_iff.mp hj
  -- the codec that changes, or another
  split at hb
  · rename_i hij
    exact (hf c (hij ▸ hc) b hb).elim (hs c (List.mem_of_getElem? hc) b) id
  · exact hs c (List.mem_of_getElem? hc) b hb

/-- A configuration is the codec's first buffer, or the first stays what it was. -/
theorem ConfiguredFirst.queue (hs : s.ConfiguredFirst) (i index : ℕ) {b : InputBuffer}
    (hb : b.flags = AMEDIACODEC_BUFFER_FLAG_CODEC_CONFIG) :
    (s.modify i fun c => (c.dequeue index).queue index b).ConfiguredFirst := by
  refine hs.modify fun c _ b' hb' => ?_
  cases ha : c.accepted with
  | nil =>
    simp only [Codec.queue, Codec.dequeue, ha, List.nil_append, List.head?_cons,
      Option.some_inj] at hb'
    exact .inr (hb' ▸ hb)
  | cons b₁ bs =>
    simp only [Codec.queue, Codec.dequeue, ha, List.cons_append, List.head?_cons] at hb'
    exact .inl hb'

/-- The new codec has accepted nothing. -/
theorem ConfiguredFirst.create (hs : s.ConfiguredFirst) : s.create.ConfiguredFirst := by
  intro c hc b hb
  rcases List.mem_append.mp hc with hc | hc
  · exact hs c hc b hb
  · rw [List.mem_singleton.mp hc] at hb
    cases hb

theorem ConfiguredFirst.start (hs : s.ConfiguredFirst) (h : AMediaCodec) :
    (s.start h).ConfiguredFirst := by
  cases h with
  | codec i => exact hs.modify fun c _ b hb => .inl hb
  | null => exact hs
  | wild => exact hs

end Feed

/-! ### Runs -/

namespace Configuration

/-- The invariant of a run that leaves no frame waiting for an exposed codec. -/
structure Inv (p : Runtime) : Prop where
  configuredFirst : ConfiguredFirst p.shared
  guarded : p.shared.frame.isSome = true → ¬ p.shared.feed.Exposed
  /-- An accepted configuration has found the status past `STARTED`. -/
  past : .storeAvailable ∈ p.threads →
    MediaCodecStatus.STARTED.value ≤ p.shared.feed.kScreenStreamMediaCodecStatus.value

theorem Inv.initial (wild : Bool) : Inv (initial wild) where
  configuredFirst := ⟨fun _ hc => absurd hc List.not_mem_nil, fun _ ha => absurd ha List.not_mem_nil⟩
  guarded := fun h => by cases h
  past := fun h => absurd h List.not_mem_nil

/-- What a step of a handler keeps. -/
structure Keeps (s s' : Shared) (k' : Task) : Prop where
  first : s.feed.ConfiguredFirst → s'.feed.ConfiguredFirst
  frame : s'.frame = s.frame
  frames : s'.frames = s.frames
  /-- The status stays past `STARTED`. -/
  past : MediaCodecStatus.STARTED.value ≤ s.feed.kScreenStreamMediaCodecStatus.value ∨
      k' = .storeAvailable →
    MediaCodecStatus.STARTED.value ≤ s'.feed.kScreenStreamMediaCodecStatus.value

/-- A step that leaves the feed alone. -/
theorem Keeps.refl {s : Shared} {k' : Task} (hk : k' ≠ .storeAvailable) : Keeps s s k' :=
  ⟨id, rfl, rfl, fun h => h.resolve_right hk⟩

/-- **The step lemma of a handler**: what it keeps, and when it exposes a codec. -/
theorem keeps_of_prim {s s' : Shared} {o : Outcome} {k k' : Task} {forks : List Task}
    (h : prim s o k = some (s', k', forks))
    (hpast : k = .storeAvailable →
      MediaCodecStatus.STARTED.value ≤ s.feed.kScreenStreamMediaCodecStatus.value) :
    forks = [] ∧ Keeps s s' k' ∧ (s'.feed.Exposed → s.feed.Exposed ∨
      (∃ h, k = .start h ∧ o.ok = true ∧ (s.feed.start h).Exposed) ∨
      (k = .storeStarted ∧ (s.feed.setStatus .STARTED).Exposed)) := by
  cases k with
  | createSurface =>
    cases h
    refine ⟨rfl, .refl ?_, .inl⟩
    split <;> simp
  | createDecoder =>
    cases h
    split
    · exact ⟨rfl, ⟨fun hs => hs.create, rfl, rfl, fun h => h.resolve_right (by simp)⟩,
        fun hE => absurd hE s.feed.not_exposed_create⟩
    · exact ⟨rfl, ⟨id, rfl, rfl, fun h => h.resolve_right (by simp)⟩,
        fun hE => absurd hE s.feed.not_exposed_null⟩
  | testCreated =>
    cases h
    refine ⟨rfl, .refl ?_, .inl⟩
    split <;> simp
  | loadConfigure =>
    cases h
    exact ⟨rfl, .refl (by simp), .inl⟩
  | configure codec =>
    cases h
    refine ⟨rfl, .refl ?_, .inl⟩
    split <;> simp
  | loadStart =>
    cases h
    exact ⟨rfl, .refl (by simp), .inl⟩
  | start codec =>
    rw [prim] at h
    split at h
    · rename_i hok
      obtain ⟨rfl, rfl, rfl⟩ := h
      refine ⟨rfl, ⟨fun hs => hs.start codec, rfl, rfl, fun h => ?_⟩,
        fun hE => .inr (.inl ⟨codec, rfl, hok, hE⟩)⟩
      cases codec <;> exact h.resolve_right (by simp)
    · obtain ⟨rfl, rfl, rfl⟩ := h
      exact ⟨rfl, .refl (by simp), .inl⟩
  | storeStarted =>
    cases h
    exact ⟨rfl, ⟨id, rfl, rfl, fun _ => Nat.le_refl _⟩, fun hE => .inr (.inr ⟨rfl, hE⟩)⟩
  | configuration data =>
    rw [prim] at h
    split at h
    · rename_i feed hq
      obtain ⟨rfl, rfl, rfl⟩ := h
      obtain ⟨i, c, index, -, -, hstatus, rfl⟩ := Feed.queueInputBuffer_true hq
      exact ⟨rfl, ⟨fun hs => hs.queue i index rfl, rfl, rfl, fun _ => hstatus⟩,
        fun hE => .inl (Feed.exposed_of_queue hE)⟩
    · rename_i feed hq
      obtain ⟨rfl, rfl, rfl⟩ := h
      have hagree := Feed.queueInputBuffer_false hq
      refine ⟨rfl, ⟨fun hs => hs.agree hagree, rfl, rfl, fun h => ?_⟩,
        fun hE => .inl (hagree.exposed hE)⟩
      show _ ≤ feed.kScreenStreamMediaCodecStatus.value
      rw [hagree.status]
      exact h.resolve_right (by simp)
  | storeAvailable =>
    cases h
    exact ⟨rfl, ⟨id, rfl, rfl, fun _ => Nat.le_succ 1⟩,
      fun hE => .inl (Feed.exposed_of_setStatus_AVAILABLE (hpast rfl) hE)⟩
  | done => cases h

/-- A turn of the pull listener's loop, while no codec is exposed. -/
theorem ConfiguredFirst.attempt {s s' : Shared} {o : InputOutcome} (hC : ConfiguredFirst s)
    (hE : ¬ s.feed.Exposed) (h : Configuration.attempt s o = some s') :
    ConfiguredFirst s' ∧ (s'.frame.isSome = true → ¬ s'.feed.Exposed) ∧
      s'.feed.kScreenStreamMediaCodecStatus = s.feed.kScreenStreamMediaCodecStatus := by
  obtain ⟨data, -, rfl⟩ := Option.map_eq_some_iff.mp h
  split
  · rename_i feed hq
    obtain ⟨i, c, index, hcurrent, hstarted, hstatus, rfl⟩ := Feed.queueInputBuffer_true hq
    -- no codec is exposed, so this one has its configuration, and the status is `AVAILABLE`
    have hin : c.accepted ≠ [] ∧ s.feed.kScreenStreamMediaCodecStatus = .AVAILABLE := by
      by_contra hnot
      exact hE ⟨i, c, hcurrent, hstarted, hstatus, hnot⟩
    refine ⟨⟨hC.first.modify fun c' hc' b hb => .inl ?_, fun a ha => ?_⟩, fun h => ?_, rfl⟩
    · obtain rfl := Option.some_inj.mp ((Feed.current_eq_some.mp hcurrent).2.symm.trans hc')
      obtain ⟨b', bs, hbs⟩ := List.exists_cons_of_ne_nil hin.1
      simp only [Codec.queue, Codec.dequeue, hbs, List.cons_append, List.head?_cons] at hb ⊢
      exact hb
    · rcases List.mem_append.mp ha with ha | ha
      · exact hC.available a ha
      · rw [List.mem_singleton.mp ha]
        exact hin.2
    · cases h
  · rename_i feed hq
    have hagree := Feed.queueInputBuffer_false hq
    exact ⟨⟨hC.first.agree hagree, hC.available⟩, fun _ hE' => hE (hagree.exposed hE'), hagree.status⟩

/-- **The step lemma.** -/
theorem Inv.step {p q : Runtime} {l : Label} (hI : Inv p) (hG : Guarded p l)
    (h : Configuration.step p l = some q) : Inv q := by
  obtain ⟨hC, hE, hpast⟩ := hI
  cases l with
  | screenStreamStart =>
    obtain rfl := Option.some_inj.mp h
    refine ⟨hC, hE, fun hmem => hpast ?_⟩
    simpa [Pool.spawn] using hmem
  | screenStreamConfiguration data =>
    obtain rfl := Option.some_inj.mp h
    refine ⟨hC, hE, fun hmem => hpast ?_⟩
    simpa [Pool.spawn] using hmem
  | receive data =>
    rw [Configuration.step] at h
    split at h
    · obtain rfl := Option.some_inj.mp h
      exact ⟨⟨hC.first, hC.available⟩, fun _ => hG, hpast⟩
    · cases h
  | attempt o =>
    obtain ⟨s, hs, rfl⟩ := Option.map_eq_some_iff.mp h
    have hwaits : p.shared.frame.isSome = true := by
      obtain ⟨data, hdata, -⟩ := Option.map_eq_some_iff.mp hs
      rw [hdata]
      rfl
    obtain ⟨hC', hE', hstatus⟩ := hC.attempt (hE hwaits) hs
    exact ⟨hC', hE', fun hmem => hstatus ▸ hpast hmem⟩
  | step i o =>
    obtain ⟨k, s, k', forks, hk, hprim, rfl⟩ := Pool.of_move h
    have hmem := List.mem_of_getElem? hk
    obtain ⟨rfl, hkeeps, hexposed⟩ := keeps_of_prim hprim fun hk' => hpast (hk' ▸ hmem)
    refine ⟨⟨hkeeps.first hC.first, ?_⟩, fun hwaits hE' => ?_, fun hstored => ?_⟩
    · show ∀ a ∈ s.frames, _
      rw [hkeeps.frames]
      exact hC.available
    · have hwaits' : p.shared.frame.isSome = true := hkeeps.frame ▸ hwaits
      -- a handler exposes a codec by starting it or by storing `STARTED`, and is guarded there
      obtain ⟨hstart, hstore⟩ := hG hwaits'
      rcases hexposed hE' with hE' | ⟨codec, rfl, hok, hE'⟩ | ⟨rfl, hE'⟩
      · exact hE hwaits' hE'
      · exact hstart codec hk hok hE'
      · exact hstore hk hE'
    · rcases Pool.mem_move hstored with hk' | hmem' | hnil
      · exact hkeeps.past (.inr hk'.symm)
      · exact hkeeps.past (.inl (hpast hmem'))
      · cases hnil

/-- A frame that waits for an exposed codec can be accepted. -/
theorem goesWrong_of_exposed {p : Runtime} (hwaits : p.shared.frame.isSome = true)
    (hE : p.shared.feed.Exposed) :
    ∃ ls q, Run.exec step p ls = some q ∧ ¬ ConfiguredFirst q.shared := by
  obtain ⟨data, hdata⟩ := Option.isSome_iff_exists.mp hwaits
  obtain ⟨i, c, hcurrent, hstarted, hstatus, hnot⟩ := hE
  have hq := Feed.queueInputBuffer_accepting data 0 0 hcurrent hstarted hstatus
  -- the next turn of the loop hands the frame over
  obtain ⟨s, hs, hfeed, hframes⟩ : ∃ s, attempt p.shared (Feed.accepting data) = some s ∧
      s.feed = (p.shared.feed.modify i fun c => (c.dequeue 0).queue 0 ⟨data, 0, 0⟩) ∧
      s.frames = p.shared.frames ++ [(data, p.shared.feed.kScreenStreamMediaCodecStatus)] := by
    refine ⟨⟨_, none, _⟩, ?_, rfl, rfl⟩
    rw [attempt, hdata, Option.map_some, hq]
    rfl
  refine ⟨[.attempt (Feed.accepting data)], { p with shared := s }, ?_, fun hC => hnot ⟨?_, ?_⟩⟩
  · rw [Run.exec_cons, step, hs]
    rfl
  · -- else the frame would be the codec's first buffer
    intro hempty
    have hc := (Feed.current_eq_some.mp hcurrent).2
    have hqueued : s.feed.codecs[i]? = some ((c.dequeue 0).queue 0 ⟨data, 0, 0⟩) := by
      rw [hfeed, Feed.modify, List.getElem?_modify_eq, hc]
      rfl
    have hflags := hC.first _ (List.mem_of_getElem? hqueued) ⟨data, 0, 0⟩
      (by simp [Codec.queue, Codec.dequeue, hempty])
    exact absurd (show (0 : BitVec 32) = AMEDIACODEC_BUFFER_FLAG_CODEC_CONFIG from hflags) (by decide)
  · refine hC.available (data, p.shared.feed.kScreenStreamMediaCodecStatus) ?_
    show _ ∈ s.frames
    rw [hframes]
    exact List.mem_append_right _ (List.mem_singleton_self _)

/-- A step that is not guarded leaves a frame waiting for an exposed codec. -/
theorem exposed_of_not_guarded {p q : Runtime} {l : Label} (hG : ¬ Guarded p l)
    (h : step p l = some q) : q.shared.frame.isSome = true ∧ q.shared.feed.Exposed := by
  cases l with
  | receive data =>
    rw [step] at h
    split at h
    · obtain rfl := Option.some_inj.mp h
      exact ⟨rfl, not_not.mp hG⟩
    · cases h
  | step i o =>
    obtain ⟨hwaits, hnot⟩ := Classical.not_imp.mp hG
    rcases Classical.not_and_iff_not_or_not.mp hnot with hstart | hstore
    · simp only [Classical.not_forall, not_not] at hstart
      obtain ⟨codec, hk, hok, hE⟩ := hstart
      have hprim : prim p.shared o (.start codec)
          = some ({ p.shared with feed := p.shared.feed.start codec }, .storeStarted, []) := by
        rw [prim, if_pos hok]
      obtain rfl := Option.some_inj.mp ((Pool.move_eq hk hprim).symm.trans h)
      exact ⟨hwaits, hE⟩
    · obtain ⟨hk, hE⟩ := Classical.not_imp.mp hstore
      obtain rfl := Option.some_inj.mp ((Pool.move_eq hk rfl).symm.trans h)
      exact ⟨hwaits, not_not.mp hE⟩
  | _ => exact absurd trivial hG

end Configuration

open Screen.Configuration

/-- **The configuration comes first, exactly where no frame waits for it.**  In
every run that leaves no frame waiting for an exposed codec, each codec accepts
its configuration first, and frames only while the status is `AVAILABLE`; and a
run with a step that does leave one waiting can, from right after the first such
step, be continued so that the frame is accepted before its time. -/
theorem configured_first (wild : Bool) (ls : List Configuration.Label) :
    (Run.Along Configuration.step Guarded (Configuration.initial wild) ls →
      ∀ p, Run.Reached Configuration.step (Configuration.initial wild) ls p →
        ConfiguredFirst p.shared) ∧
    ((Run.exec Configuration.step (Configuration.initial wild) ls).isSome = true →
      ¬ Run.Along Configuration.step Guarded (Configuration.initial wild) ls →
      Run.Strays Configuration.step Guarded (fun p => ¬ ConfiguredFirst p.shared)
        (Configuration.initial wild) ls) := by
  have keep : ∀ p l q, Configuration.Inv p → Guarded p l →
      Configuration.step p l = some q → Configuration.Inv q :=
    fun _ _ _ hI hG h => hI.step hG h
  refine Run.forall_reached_and_strays (fun _ hI => hI.configuredFirst) keep
    (fun p l q _ hG h => ?_) (Configuration.Inv.initial wild)
  obtain ⟨hwaits, hE⟩ := exposed_of_not_guarded hG h
  exact goesWrong_of_exposed hwaits hE

/-- A step whose call succeeds. -/
private def succeeds (data : Bytes) : Outcome := ⟨true, Feed.accepting data⟩

/-- The codec is started and configured, and then a frame arrives. -/
private def configurationFirst : List Configuration.Label :=
  .screenStreamStart :: List.replicate 8 (.step 0 (succeeds [])) ++
    [.screenStreamConfiguration [0, 0, 0, 1], .step 1 (succeeds [0, 0, 0, 1]),
      .step 1 (succeeds []), .receive [0, 0, 1], .attempt (Feed.accepting [0, 0, 1])]

/-- The frame is accepted behind the configuration. -/
theorem configured_first_frame :
    Run.Along Configuration.step Guarded (Configuration.initial false) configurationFirst ∧
      ∃ p, Run.exec Configuration.step (Configuration.initial false) configurationFirst = some p ∧
        p.shared.frames = [([0, 0, 1], .AVAILABLE)] ∧ ConfiguredFirst p.shared := by
  have hguarded : Run.Along Configuration.step Guarded (Configuration.initial false)
      configurationFirst := by
    decide +kernel
  obtain ⟨p, hp, hframes⟩ : ∃ p, Run.exec Configuration.step (Configuration.initial false)
      configurationFirst = some p ∧ p.shared.frames = [([0, 0, 1], .AVAILABLE)] := ⟨_, rfl, rfl⟩
  exact ⟨hguarded, p, hp, hframes,
    (configured_first false configurationFirst).1 hguarded p (Run.reached_of_exec hp)⟩

/-- The codec is started, a frame arrives, and the codec takes it; then comes the
configuration. -/
private def frameFirst : List Configuration.Label :=
  .screenStreamStart :: List.replicate 8 (.step 0 (succeeds [])) ++
    [.receive [0, 0, 0, 1], .attempt (Feed.accepting [0, 0, 0, 1])]

/-- **A frame before the configuration.**  `queueInputBuffer` lets it through as
soon as the status is `STARTED`. -/
theorem frame_before_configuration :
    ¬ ∀ (wild : Bool) (ls : List Configuration.Label) (p : Configuration.Runtime),
      Run.Reached Configuration.step (Configuration.initial wild) ls p →
        ConfiguredFirst p.shared := by
  intro h
  obtain ⟨p, hp, hframes⟩ : ∃ p, Run.exec Configuration.step (Configuration.initial false) frameFirst
      = some p ∧ p.shared.frames = [([0, 0, 0, 1], .STARTED)] := ⟨_, rfl, rfl⟩
  have hC := h false frameFirst p (Run.reached_of_exec hp)
  have hstatus := hC.available ([0, 0, 0, 1], .STARTED) (hframes ▸ List.mem_singleton_self _)
  cases hstatus

end Carplay.Screen

/-
The way of the inbound iAP2 stream: `readLoop`, the flow of
`BluetoothRfcommManager`, the forwarding collector of `CarplayBluetoothService`,
the service's flow, and the Bluetooth collector of `CarplayRuntime`.

`readLoop` and the two collectors run on their own threads, so a run is any
interleaving of their steps with emissions of other Bluetooth events.

* `Linked` — what one stage has handled is what the next has been given;
* `inbound_delivers` — what has been passed to `receiveBtIap2Data` is a sublist
  of the chunks read, and once everything is drained it is all of them exactly
  when no emission found its flow full with a chunk as the oldest value;
* `inbound_burst_loses_chunk` — six reads before the forwarding collector moves
  lose the first.
-/
import GrpcJniClient.CarplayRuntime
import GrpcJniClient.Run
import GrpcJniClient.SharedFlow

open SharedFlow

namespace Carplay.Inbound

/-- A `BluetoothRfcommChannelItem`, with the channel's `device` and `uuid`. -/
structure BluetoothRfcommChannelItem where
  device : BluetoothDevice
  uuid : UUID
  byteArray : Bytes

/-- `CarplayBluetoothService`'s event for an item. -/
def BluetoothRfcommChannelItem.toEvent (item : BluetoothRfcommChannelItem) : BluetoothEvent :=
  .rfcommTransform item.device item.uuid item.byteArray

structure Pipeline where
  /-- `mutableSharedFlow` and the collector launched by
  `CarplayBluetoothService.onCreate`. -/
  rfcomm : Collector 5 BluetoothRfcommChannelItem
  /-- `mCarplayBluetoothSharedFlow` and the Bluetooth collector of
  `CarplayRuntime`. -/
  bluetooth : Collector 10 BluetoothEvent
  mBtRfcommDevice : Option BluetoothDevice
  calls : List RuntimeCall

/-- Both collectors have subscribed and nothing has happened yet. -/
def initial : Pipeline := ⟨.initial, .initial, none, []⟩

inductive Move where
  /-- `mInput.read` returns these bytes. -/
  | read (bytes : Bytes)
  | forwardTake
  | forwardEmit
  /-- A `BluetoothDeviceObserver` method emits some other event. -/
  | observe (event : BluetoothEvent)
  | collectTake
  | collectHandle

/-- The chunk that an event carries. -/
def chunkOf : BluetoothEvent → Option Bytes
  | .rfcommTransform _ _ data => some data
  | _ => none

/-- The array that a call passes to `receiveBtIap2Data`. -/
def receivedOf : RuntimeCall → Option Bytes
  | .receiveBtIap2Data data _ => some data
  | _ => none

/-- One step, with the channel `(device, uuid)` connected. -/
def step (device : BluetoothDevice) (uuid : UUID) (s : Pipeline) : Move → Option Pipeline
  | .read bytes =>
      if 0 < bytes.length then some { s with rfcomm := s.rfcomm.tryEmit ⟨device, uuid, bytes⟩ }
      else some s
  | .forwardTake => s.rfcomm.take.map fun c => { s with rfcomm := c }
  | .forwardEmit => s.rfcomm.handle.map fun (item, c) =>
      { s with rfcomm := c, bluetooth := s.bluetooth.tryEmit item.toEvent }
  | .observe event =>
      if (chunkOf event).isSome then none
      else some { s with bluetooth := s.bluetooth.tryEmit event }
  | .collectTake => s.bluetooth.take.map fun c => { s with bluetooth := c }
  | .collectHandle => s.bluetooth.handle.map fun (event, c) =>
      { s with
        bluetooth := c
        mBtRfcommDevice := (collectBluetoothEvent s.mBtRfcommDevice event).1
        calls := s.calls ++ (collectBluetoothEvent s.mBtRfcommDevice event).2 }

/-- The chunks `readLoop` hands over in a run. -/
def chunksRead (moves : List Move) : List Bytes :=
  moves.filterMap fun
    | .read bytes => if 0 < bytes.length then some bytes else none
    | _ => none

/-- The arrays passed to `receiveBtIap2Data` so far. -/
def Pipeline.delivered (s : Pipeline) : List Bytes := s.calls.filterMap receivedOf

/-- All buffers are drained and both collectors idle. -/
def Pipeline.Drained (s : Pipeline) : Prop := s.rfcomm.Drained ∧ s.bluetooth.Drained

/-- No emission of the step finds its flow full with a chunk as the oldest
value. -/
def KeepsChunks (s : Pipeline) : Move → Prop
  | .read bytes => 0 < bytes.length → s.rfcomm.flow.items.length < 5
  | .forwardEmit => s.bluetooth.flow.Spares fun e => (chunkOf e).isSome
  | .observe _ => s.bluetooth.flow.Spares fun e => (chunkOf e).isSome
  | _ => True

variable {device : BluetoothDevice} {uuid : UUID}

/-! ### The two stages are linked -/

/-- A call list passes on exactly the chunk of the event it handles. -/
theorem filterMap_collectBluetoothEvent (d : Option BluetoothDevice) (event : BluetoothEvent) :
    (collectBluetoothEvent d event).2.filterMap receivedOf = (chunkOf event).toList := by
  cases event with
  | bondChanged device changedValue =>
    rw [collectBluetoothEvent]
    split
    · rw [uuidString2SUUID_IAP2_BT_DEVICE]
      rfl
    · rfl
  | _ => rfl

/-- The calls that a step makes. -/
def newCalls (s : Pipeline) : Move → List RuntimeCall
  | .collectHandle => s.bluetooth.holding.elim []
      fun event => (collectBluetoothEvent s.mBtRfcommDevice event).2
  | _ => []

theorem calls_step {s t : Pipeline} {m : Move} (h : step device uuid s m = some t) :
    t.calls = s.calls ++ newCalls s m := by
  cases m with
  | read bytes =>
    rw [step] at h
    split at h <;> obtain rfl := Option.some_inj.mp h <;> exact (List.append_nil _).symm
  | observe event =>
    rw [step] at h
    split at h
    · exact absurd h (by simp)
    · obtain rfl := Option.some_inj.mp h
      exact (List.append_nil _).symm
  | collectHandle =>
    obtain ⟨⟨event, c⟩, hc, rfl⟩ := Option.map_eq_some_iff.mp h
    obtain ⟨hholding, -⟩ := Collector.of_handle hc
    rw [newCalls, hholding]
    rfl
  | _ =>
    obtain ⟨_, -, rfl⟩ := Option.map_eq_some_iff.mp h
    exact (List.append_nil _).symm

/-- What one stage has handled is what the next has been given. -/
structure Linked (s : Pipeline) : Prop where
  forwarded : s.bluetooth.emitted.filterMap chunkOf
    = s.rfcomm.handled.map (·.byteArray)
  passed : s.delivered = s.bluetooth.handled.filterMap chunkOf

theorem Linked.initial : Linked initial := ⟨rfl, rfl⟩

theorem Linked.step {s t : Pipeline} {m : Move} (hL : Linked s)
    (h : step device uuid s m = some t) : Linked t := by
  obtain ⟨hf, hp⟩ := hL
  cases m with
  | read bytes =>
    rw [Inbound.step] at h
    split at h
    · obtain rfl := Option.some_inj.mp h
      exact ⟨hf, hp⟩
    · obtain rfl := Option.some_inj.mp h
      exact ⟨hf, hp⟩
  | forwardTake =>
    obtain ⟨c, hc, rfl⟩ := Option.map_eq_some_iff.mp h
    obtain ⟨_, -, -, -, hh, -⟩ := Collector.of_take hc
    exact ⟨by rw [hf, hh], hp⟩
  | forwardEmit =>
    obtain ⟨⟨item, c⟩, hc, rfl⟩ := Option.map_eq_some_iff.mp h
    obtain ⟨-, -, -, hh, -⟩ := Collector.of_handle hc
    refine ⟨?_, hp⟩
    -- the event of a chunk is emitted when the chunk has been handled
    show (s.bluetooth.emitted ++ [item.toEvent]).filterMap chunkOf = _
    rw [List.filterMap_append, hf, hh, List.map_append]
    rfl
  | observe event =>
    rw [Inbound.step] at h
    split at h
    · exact absurd h (by simp)
    · rename_i he
      obtain rfl := Option.some_inj.mp h
      refine ⟨?_, hp⟩
      -- the other events carry no chunk
      show (s.bluetooth.emitted ++ [event]).filterMap chunkOf = _
      rw [List.filterMap_append, hf, List.filterMap_cons_none (Option.not_isSome_iff_eq_none.mp he),
        List.filterMap_nil, List.append_nil]
  | collectTake =>
    obtain ⟨c, hc, rfl⟩ := Option.map_eq_some_iff.mp h
    obtain ⟨_, -, -, -, hh, he⟩ := Collector.of_take hc
    exact ⟨by rw [he, hf], by rw [hh, ← hp]; rfl⟩
  | collectHandle =>
    obtain ⟨⟨event, c⟩, hc, rfl⟩ := Option.map_eq_some_iff.mp h
    obtain ⟨-, -, -, hh, he⟩ := Collector.of_handle hc
    refine ⟨by rw [he, hf], ?_⟩
    -- of the calls for an event, those that pass on a chunk are counted
    show (s.calls ++ _).filterMap receivedOf = _
    rw [List.filterMap_append, filterMap_collectBluetoothEvent, hh, List.filterMap_append, ← hp]
    cases hch : chunkOf event <;> simp [Pipeline.delivered, hch]

/-- The manager's flow is given the chunk that a step reads, and nothing else. -/
theorem emitted_step {s t : Pipeline} {m : Move} (h : step device uuid s m = some t) :
    t.rfcomm.emitted.map (·.byteArray)
      = s.rfcomm.emitted.map (·.byteArray) ++ chunksRead [m] := by
  cases m with
  | read bytes =>
    rw [step] at h
    split at h
    · rename_i hlen
      obtain rfl := Option.some_inj.mp h
      simp [chunksRead, Collector.tryEmit, hlen]
    · rename_i hlen
      obtain rfl := Option.some_inj.mp h
      simp [chunksRead, hlen]
  | forwardTake =>
    obtain ⟨c, hc, rfl⟩ := Option.map_eq_some_iff.mp h
    obtain ⟨_, -, -, -, -, he⟩ := Collector.of_take hc
    rw [he]
    exact (List.append_nil _).symm
  | forwardEmit =>
    obtain ⟨⟨item, c⟩, hc, rfl⟩ := Option.map_eq_some_iff.mp h
    obtain ⟨-, -, -, -, he⟩ := Collector.of_handle hc
    rw [he]
    exact (List.append_nil _).symm
  | observe event =>
    rw [step] at h
    split at h
    · exact absurd h (by simp)
    · obtain rfl := Option.some_inj.mp h
      exact (List.append_nil _).symm
  | collectTake =>
    obtain ⟨c, -, rfl⟩ := Option.map_eq_some_iff.mp h
    exact (List.append_nil _).symm
  | collectHandle =>
    obtain ⟨⟨event, c⟩, -, rfl⟩ := Option.map_eq_some_iff.mp h
    exact (List.append_nil _).symm

/-- So in a run it is given exactly the chunks that are read. -/
theorem emitted_eq_chunksRead {s t : Pipeline} {ls : List Move}
    (h : Run.exec (step device uuid) s ls = some t) :
    t.rfcomm.emitted.map (·.byteArray)
      = s.rfcomm.emitted.map (·.byteArray) ++ chunksRead ls := by
  refine Run.exec_history (R := fun ls t => t.rfcomm.emitted.map (·.byteArray)
    = s.rfcomm.emitted.map (·.byteArray) ++ chunksRead ls) ?_ (List.append_nil _).symm h
  intro ls u m v hu hv
  rw [emitted_step hv, hu, List.append_assoc, chunksRead, chunksRead, chunksRead,
    List.filterMap_append]

theorem Linked.of_exec {ls : List Move} {t : Pipeline}
    (h : Run.exec (Inbound.step device uuid) Inbound.initial ls = some t) : Linked t :=
  Run.exec_invariant (C := fun _ _ => True) (fun _ _ _ hL _ hst => hL.step hst) Linked.initial
    (Run.along_true _ _) h

/-! ### Losing chunks -/

/-- No chunk has been forgotten by either flow. -/
def KeptAll (s : Pipeline) : Prop :=
  s.rfcomm.Lossless (fun _ => true) ∧ s.bluetooth.Lossless fun e => (chunkOf e).isSome

theorem keptAll_step {s t : Pipeline} {m : Move} (h : step device uuid s m = some t) :
    KeptAll t ↔ KeptAll s ∧ KeepsChunks s m := by
  cases m with
  | read bytes =>
    rw [step] at h
    split at h
    · rename_i hlen
      obtain rfl := Option.some_inj.mp h
      -- in the manager every value is a chunk, so there must be room
      rw [KeptAll, KeptAll, Collector.lossless_tryEmit (by decide : 0 < 5),
        Buffer.spares_true (by decide : 0 < 5), KeepsChunks, and_right_comm,
        forall_prop_of_true hlen]
    · rename_i hlen
      obtain rfl := Option.some_inj.mp h
      exact (and_iff_left fun h => absurd h hlen).symm
  | forwardTake =>
    obtain ⟨c, hc, rfl⟩ := Option.map_eq_some_iff.mp h
    rw [KeptAll, KeptAll, Collector.lossless_of_take hc]
    exact (and_iff_left trivial).symm
  | forwardEmit =>
    obtain ⟨⟨item, c⟩, hc, rfl⟩ := Option.map_eq_some_iff.mp h
    rw [KeptAll, KeptAll, Collector.lossless_of_handle hc,
      Collector.lossless_tryEmit (by decide : 0 < 10), KeepsChunks, and_assoc]
  | observe event =>
    rw [step] at h
    split at h
    · exact absurd h (by simp)
    · obtain rfl := Option.some_inj.mp h
      rw [KeptAll, KeptAll, Collector.lossless_tryEmit (by decide : 0 < 10), KeepsChunks,
        and_assoc]
  | collectTake =>
    obtain ⟨c, hc, rfl⟩ := Option.map_eq_some_iff.mp h
    rw [KeptAll, KeptAll, Collector.lossless_of_take hc]
    exact (and_iff_left trivial).symm
  | collectHandle =>
    obtain ⟨⟨event, c⟩, hc, rfl⟩ := Option.map_eq_some_iff.mp h
    rw [KeptAll, KeptAll, Collector.lossless_of_handle hc]
    exact (and_iff_left trivial).symm

/-- What has been delivered is part of what the service's flow was given. -/
theorem Linked.delivered_sublist {s : Pipeline} (hL : Linked s) :
    s.delivered.Sublist (s.rfcomm.handled.map (·.byteArray)) := by
  rw [hL.passed, ← hL.forwarded]
  exact ((List.sublist_append_left _ _).trans s.bluetooth.kept_sublist).filterMap _

theorem handled_sublist (s : Pipeline) :
    (s.rfcomm.handled.map (·.byteArray)).Sublist (s.rfcomm.emitted.map (·.byteArray)) :=
  ((List.sublist_append_left _ _).trans s.rfcomm.kept_sublist).map _

/-- Once drained, all that was read has been delivered exactly if neither flow
has forgotten a chunk. -/
theorem Linked.delivered_eq_iff {s : Pipeline} (hL : Linked s) (hD : s.Drained) :
    s.delivered = s.rfcomm.emitted.map (·.byteArray) ↔ KeptAll s := by
  -- each stage for itself: nothing lost in it means all of it handed on
  have hrf : s.rfcomm.Lossless (fun _ => true) ↔
      s.rfcomm.handled.map (·.byteArray) = s.rfcomm.emitted.map (·.byteArray) := by
    have h := Collector.lossless_iff_filterMap (f := fun i => some i.byteArray) (c := s.rfcomm)
    rw [hD.1.kept_eq, List.filterMap_eq_map'] at h
    exact h
  have hbt : (s.bluetooth.Lossless fun e => (chunkOf e).isSome) ↔
      s.delivered = s.rfcomm.handled.map (·.byteArray) := by
    rw [Collector.lossless_iff_filterMap, hD.2.kept_eq, ← hL.passed, hL.forwarded]
  rw [KeptAll, hrf, hbt]
  constructor
  · -- both stages are sublists, so neither loses length
    intro h
    have hmid : s.rfcomm.handled.map (·.byteArray) = s.rfcomm.emitted.map (·.byteArray) :=
      (handled_sublist s).antisymm (h ▸ hL.delivered_sublist)
    exact ⟨hmid, h.trans hmid.symm⟩
  · exact fun ⟨h₁, h₂⟩ => h₂.trans h₁

/-- **The inbound stream.**  In every run the arrays passed to
`receiveBtIap2Data` are some of the chunks read, in order and each once; and
once everything is drained they are all of them exactly if no emission found its
flow full with a chunk as the oldest value. -/
theorem inbound_delivers (device : BluetoothDevice) (uuid : UUID) (ls : List Move) (t : Pipeline)
    (h : Run.exec (step device uuid) initial ls = some t) :
    t.delivered.Sublist (chunksRead ls) ∧
      (t.Drained → (t.delivered = chunksRead ls ↔
        Run.Along (step device uuid) KeepsChunks initial ls)) := by
  have hL := Linked.of_exec h
  have hread : t.rfcomm.emitted.map (·.byteArray) = chunksRead ls := emitted_eq_chunksRead h
  rw [← hread]
  refine ⟨hL.delivered_sublist.trans (handled_sublist t), fun hD => ?_⟩
  rw [hL.delivered_eq_iff hD]
  exact Run.exec_iff_along (fun _ _ _ hst => keptAll_step hst)
    ⟨Collector.lossless_initial _, Collector.lossless_initial _⟩ h

/-- `n` reads of one byte each, then `k` turns of each collector. -/
private def burst (n k : ℕ) : List Move :=
  ((List.range n).map fun i => Move.read [UInt8.ofNat i]) ++
    (List.replicate k [.forwardTake, .forwardEmit, .collectTake, .collectHandle]).flatten

theorem inbound_delivers_burst :
    ∃ t : Pipeline, Run.exec (step ⟨"AA:BB:CC:DD:EE:FF"⟩ 0) initial (burst 5 5) = some t ∧
      t.delivered.Sublist (chunksRead (burst 5 5)) ∧
      (t.Drained → (t.delivered = chunksRead (burst 5 5) ↔
        Run.Along (step ⟨"AA:BB:CC:DD:EE:FF"⟩ 0) KeepsChunks initial (burst 5 5))) :=
  ⟨_, rfl, inbound_delivers ⟨"AA:BB:CC:DD:EE:FF"⟩ 0 (burst 5 5) _ rfl⟩

/-- **A burst loses a chunk.**  Six reads before the forwarding collector moves
leave only the last five. -/
theorem inbound_burst_loses_chunk :
    ¬ ∀ (device : BluetoothDevice) (uuid : UUID) (ls : List Move) (t : Pipeline),
      Run.exec (step device uuid) initial ls = some t → t.Drained →
        t.delivered = chunksRead ls := by
  intro h
  have hd := h ⟨"AA:BB:CC:DD:EE:FF"⟩ 0 (burst 6 5) _ rfl ⟨⟨rfl, rfl⟩, ⟨rfl, rfl⟩⟩
  exact absurd (congrArg List.length hd) (by decide)

end Carplay.Inbound

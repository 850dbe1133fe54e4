/-
The way of the outbound iAP2 packets: the JNI callbacks of `CarplayRpcManager`,
its flow, the RPC collector of `CarplayRuntime`, and the RFCOMM channel of
`mBtRfcommDevice`.

A callback runs on a native thread and never waits; the collector handles one
event at a time, and what it asks `CarplayBluetoothService` to stop is stopped
by a coroutine of its own.

* `Ready` — the field is set and its first listed channel takes bytes;
* `Sent` — what has been written to that channel is what the collector has
  handled;
* `outbound_delivers` — what has been written is a sublist of the packets, and
  once the flow is drained it is all of them exactly when no emission found the
  flow full with a packet as the oldest value;
* `outbound_burst_loses_packet` — eleven callbacks before the collector moves
  lose the first.
-/
import GrpcJniClient.CarplayRuntime
import GrpcJniClient.RfcommRouting
import GrpcJniClient.SharedFlow

open SharedFlow

namespace Carplay.Outbound

open Carplay.Rfcomm BluetoothRfcommManager

/-- The JNI callbacks of `CarplayRpcManager`. -/
inductive RpcCallback where
  | callbackCarplayAvailable (wiredAvailable : Bool) (usbTransportIdentifier : Option String)
      (wirelessAvailable : Bool) (bluetoothTransportIdentifier : Option String)
  | callbackWithByteArray (data : Bytes)
  | mediaCodecFormatChanged
  | disableBluetooth (bluetoothAddress : String)
  deriving DecidableEq, Repr

/-- The event a callback emits. -/
def RpcCallback.toEvent : RpcCallback → RpcEvent
  | .callbackCarplayAvailable wiredAvailable usbTransportIdentifier wirelessAvailable
      bluetoothTransportIdentifier =>
      .carplayAvailable wiredAvailable (usbTransportIdentifier.getD "") wirelessAvailable
        (bluetoothTransportIdentifier.getD "")
  | .callbackWithByteArray data => .iap2Data data
  | .mediaCodecFormatChanged => .mediaCodecFormatChange
  | .disableBluetooth bluetoothAddress => .disableBluetooth bluetoothAddress

structure Pipeline where
  /-- `mRpcEventSharedFlow` and the RPC collector of `CarplayRuntime`. -/
  rpc : Collector 10 RpcEvent
  mBtRfcommDevice : Option BluetoothDevice
  mBluetoothRfcommManager : BluetoothRfcommManager
  /-- The stops that `mBluetoothServiceScope` has launched and not yet run. -/
  stops : List (BluetoothDevice × UUID)

/-- The collector has subscribed; the field and the manager are as they are. -/
def initial (device : Option BluetoothDevice) (m : BluetoothRfcommManager) : Pipeline :=
  ⟨.initial, device, m, []⟩

/-- One call of the collector; the calls left out reach neither the manager nor
the scope. -/
def perform (s : Pipeline) : RuntimeCall → Pipeline
  | .sendDataByRfcomm device uuid byteArray =>
      { s with
        mBluetoothRfcommManager := s.mBluetoothRfcommManager.sendDataByRfcomm device uuid byteArray }
  | .stopRfcommTransform device uuid => { s with stops := s.stops ++ [(device, uuid)] }
  | _ => s

inductive Move where
  | callback (cb : RpcCallback)
  | collectTake
  | collectHandle
  /-- The coroutine of the launched stop `i` runs. -/
  | runStop (i : ℕ)

def step (s : Pipeline) : Move → Option Pipeline
  | .callback cb => some { s with rpc := s.rpc.tryEmit cb.toEvent }
  | .collectTake => s.rpc.take.map fun c => { s with rpc := c }
  | .collectHandle => s.rpc.handle.map fun (event, c) =>
      (collectRpcEvent s.mBtRfcommDevice event).foldl perform { s with rpc := c }
  | .runStop i => s.stops[i]?.map fun (device, uuid) =>
      { s with
        mBluetoothRfcommManager := s.mBluetoothRfcommManager.stopRfcommTransportJob device uuid
        stops := s.stops.eraseIdx i }

/-- The packet that an event carries. -/
def packetOf : RpcEvent → Option Bytes
  | .iap2Data dataByteArray => some dataByteArray
  | _ => none

/-- The packets of the `callbackWithByteArray` calls of a run. -/
def packets (moves : List Move) : List Bytes :=
  moves.filterMap fun
    | .callback (.callbackWithByteArray data) => some data
    | _ => none

/-- The step is no `disableBluetooth` callback. -/
def KeepsBluetooth : Move → Prop
  | .callback (.disableBluetooth _) => False
  | _ => True

/-- No emission of the step finds the flow full with a packet as the oldest
value. -/
def KeepsPackets (s : Pipeline) : Move → Prop
  | .callback _ => s.rpc.flow.Spares fun e => (packetOf e).isSome
  | _ => True

/-- The channel `c` is the one that sends of `device` are looked up to, it has
its output stream, and its link is up. -/
structure Ready (device : BluetoothDevice) (m : BluetoothRfcommManager) (c : ℕ) : Prop where
  found : ∀ uuid ∈ uuidString2SUUID IAP2_BT_DEVICE, m.queryRfcommTransform device uuid = some ⟨c⟩
  open_ : ∃ ch, m.channels[c]? = some ch ∧ ch.mOutput = true ∧ ch.alive = true

/-- The arrays written to channel `c`. -/
def writtenTo (m : BluetoothRfcommManager) (c : ℕ) : List Bytes :=
  ((m.channels[c]?).map (·.written)).getD []

/-! ### One packet -/

variable {device : BluetoothDevice} {m : BluetoothRfcommManager} {c : ℕ}

theorem query_modify {f : BluetoothRfcommChannel → BluetoothRfcommChannel}
    (hf : ∀ ch device uuid, (f ch).hasKey device uuid = ch.hasKey device uuid)
    (device : BluetoothDevice) (uuid : UUID) :
    (m.modifyChannel c f).queryRfcommTransform device uuid
      = m.queryRfcommTransform device uuid := by
  show m.rfcommTransformList.find? _ = m.rfcommTransformList.find? _
  exact List.find?_congr fun t _ => keyed_modify hf device uuid t

/-- A send writes to the ready channel and leaves it ready. -/
theorem Ready.send (hR : Ready device m c) {uuid : UUID}
    (hu : uuid ∈ uuidString2SUUID IAP2_BT_DEVICE) (data : Bytes) :
    Ready device (m.sendDataByRfcomm device uuid data) c ∧
      writtenTo (m.sendDataByRfcomm device uuid data) c = writtenTo m c ++ [data] := by
  obtain ⟨ch, hch, hout, halive⟩ := hR.open_
  -- the lookup finds the channel, so that is where the send writes
  have hsend : m.sendDataByRfcomm device uuid data = m.modifyChannel c (·.write data) := by
    rw [sendDataByRfcomm, hR.found uuid hu]
  have hch' : (m.modifyChannel c (·.write data)).channels[c]? = some (ch.write data) := by
    rw [channels_modify_self, hch, Option.map_some]
  rw [hsend]
  refine ⟨⟨fun uuid' hu' => ?_, ch.write data, hch', ?_, ?_⟩, ?_⟩
  · rw [query_modify fun ch => ch.hasKey_write data]
    exact hR.found uuid' hu'
  · rw [ch.mOutput_write, hout]
  · rw [ch.alive_write, halive]
  · rw [writtenTo, writtenTo, hch', hch]
    exact BluetoothRfcommChannel.written_write hout halive data

/-! ### What the collector has handled has been written -/

/-- The channel `c` has stayed ready, and since the start it was given the
packets of the events handled. -/
structure Sent (device : BluetoothDevice) (m : BluetoothRfcommManager) (c : ℕ)
    (s : Pipeline) : Prop where
  device_eq : s.mBtRfcommDevice = some device
  ready : Ready device s.mBluetoothRfcommManager c
  noStops : s.stops = []
  noDisable : ∀ e ∈ s.rpc.emitted, ∀ a, e ≠ .disableBluetooth a
  written : writtenTo s.mBluetoothRfcommManager c
    = writtenTo m c ++ s.rpc.handled.filterMap packetOf

theorem Sent.initial (hR : Ready device m c) : Sent device m c (initial (some device) m) where
  device_eq := rfl
  ready := hR
  noStops := rfl
  noDisable := fun _ he => absurd he List.not_mem_nil
  written := (List.append_nil _).symm

/-- Handling an event that disables nothing writes its packet. -/
theorem Sent.handle {s : Pipeline} (hS : Sent device m c s) {event : RpcEvent}
    {k : Collector 10 RpcEvent} (h : s.rpc.handle = some (event, k)) :
    Sent device m c ((collectRpcEvent s.mBtRfcommDevice event).foldl perform { s with rpc := k }) := by
  obtain ⟨hhold, -, -, hhandled, hemit⟩ := Collector.of_handle h
  have hmem : event ∈ s.rpc.emitted := by
    refine s.rpc.inOrder.subset ?_
    rw [hhold]
    simp
  have hN : ∀ e ∈ k.emitted, ∀ a, e ≠ .disableBluetooth a := by
    rw [hemit]
    exact hS.noDisable
  have hcalls : collectRpcEvent s.mBtRfcommDevice event = collectRpcEvent (some device) event := by
    rw [hS.device_eq]
  rw [hcalls]
  -- an event without a packet leaves everything as it is
  have hidle (he : packetOf event = none) : Sent device m c { s with rpc := k } := by
    refine ⟨hS.device_eq, hS.ready, hS.noStops, hN, hS.written.trans ?_⟩
    rw [hhandled, List.filterMap_append, List.filterMap_cons_none he, List.filterMap_nil,
      List.append_nil]
  cases event with
  | iap2Data data =>
    rw [collectRpcEvent, uuidString2SUUID_IAP2_BT_DEVICE]
    obtain ⟨hR, hw⟩ := hS.ready.send (Option.mem_def.mpr uuidString2SUUID_IAP2_BT_DEVICE) data
    refine ⟨hS.device_eq, hR, hS.noStops, hN, hw.trans ?_⟩
    show _ = writtenTo m c ++ k.handled.filterMap packetOf
    rw [hS.written, hhandled, List.filterMap_append, List.append_assoc]
    rfl
  | carplayAvailable wired usb wireless bt =>
    cases wireless with
    | true => exact hidle rfl
    | false => exact hidle rfl
  | disableBluetooth address => exact absurd rfl (hS.noDisable _ hmem address)
  | mediaCodecFormatChange => exact hidle rfl

theorem Sent.step {s t : Pipeline} {mv : Move} (hS : Sent device m c s) (hmv : KeepsBluetooth mv)
    (h : step s mv = some t) : Sent device m c t := by
  cases mv with
  | callback cb =>
    obtain rfl := Option.some_inj.mp h
    refine ⟨hS.device_eq, hS.ready, hS.noStops, fun e he a => ?_, hS.written⟩
    -- the new event is the callback's, which disables nothing
    rcases List.mem_append.mp he with he | he
    · exact hS.noDisable e he a
    · rintro rfl
      cases cb with
      | disableBluetooth address => exact hmv
      | _ => exact absurd (List.mem_singleton.mp he) (by simp [RpcCallback.toEvent])
  | collectTake =>
    obtain ⟨k, hk, rfl⟩ := Option.map_eq_some_iff.mp h
    obtain ⟨_, -, -, -, hhandled, hemit⟩ := Collector.of_take hk
    refine ⟨hS.device_eq, hS.ready, hS.noStops, ?_, ?_⟩
    · show ∀ e ∈ k.emitted, _
      rw [hemit]
      exact hS.noDisable
    · show _ = _ ++ k.handled.filterMap packetOf
      rw [hhandled]
      exact hS.written
  | collectHandle =>
    obtain ⟨⟨event, k⟩, hk, rfl⟩ := Option.map_eq_some_iff.mp h
    exact hS.handle hk
  | runStop i =>
    rw [Outbound.step, hS.noStops] at h
    exact absurd h (by simp)

/-! ### Losing packets -/

/-- Handling an event leaves the flow to its collector. -/
theorem rpc_foldl_perform (calls : List RuntimeCall) (s : Pipeline) :
    (calls.foldl perform s).rpc = s.rpc := by
  induction calls generalizing s with
  | nil => rfl
  | cons call calls ih =>
    rw [List.foldl_cons, ih]
    cases call <;> rfl

theorem lossless_step {s t : Pipeline} {mv : Move} (h : step s mv = some t) :
    t.rpc.Lossless (fun e => (packetOf e).isSome) ↔
      s.rpc.Lossless (fun e => (packetOf e).isSome) ∧ KeepsPackets s mv := by
  cases mv with
  | callback cb =>
    obtain rfl := Option.some_inj.mp h
    exact Collector.lossless_tryEmit (by decide)
  | collectTake =>
    obtain ⟨k, hk, rfl⟩ := Option.map_eq_some_iff.mp h
    rw [Collector.lossless_of_take hk]
    exact (and_iff_left trivial).symm
  | collectHandle =>
    obtain ⟨⟨event, k⟩, hk, rfl⟩ := Option.map_eq_some_iff.mp h
    rw [rpc_foldl_perform, Collector.lossless_of_handle hk]
    exact (and_iff_left trivial).symm
  | runStop i =>
    obtain ⟨_, -, rfl⟩ := Option.map_eq_some_iff.mp h
    exact (and_iff_left trivial).symm

/-- The flow is given the packet of a callback, if it has one, and no other. -/
theorem emitted_step {s t : Pipeline} {mv : Move} (h : step s mv = some t) :
    t.rpc.emitted.filterMap packetOf = s.rpc.emitted.filterMap packetOf ++ packets [mv] := by
  cases mv with
  | callback cb =>
    obtain rfl := Option.some_inj.mp h
    show (s.rpc.emitted ++ [cb.toEvent]).filterMap packetOf = _
    rw [List.filterMap_append]
    cases cb <;> rfl
  | collectTake =>
    obtain ⟨k, hk, rfl⟩ := Option.map_eq_some_iff.mp h
    obtain ⟨_, -, -, -, -, he⟩ := Collector.of_take hk
    rw [he]
    exact (List.append_nil _).symm
  | collectHandle =>
    obtain ⟨⟨event, k⟩, hk, rfl⟩ := Option.map_eq_some_iff.mp h
    obtain ⟨-, -, -, -, he⟩ := Collector.of_handle hk
    rw [rpc_foldl_perform, he]
    exact (List.append_nil _).symm
  | runStop i =>
    obtain ⟨_, -, rfl⟩ := Option.map_eq_some_iff.mp h
    exact (List.append_nil _).symm

/-- So in a run it is given exactly the packets of the callbacks. -/
theorem emitted_eq_packets {s t : Pipeline} {ls : List Move} (h : Run.exec step s ls = some t) :
    t.rpc.emitted.filterMap packetOf = s.rpc.emitted.filterMap packetOf ++ packets ls := by
  refine Run.exec_history (R := fun ls t => t.rpc.emitted.filterMap packetOf
    = s.rpc.emitted.filterMap packetOf ++ packets ls) ?_ (List.append_nil _).symm h
  intro ls u mv v hu hv
  rw [emitted_step hv, hu, List.append_assoc, packets, packets, packets, List.filterMap_append]

/-- **The outbound packets.**  While `mBtRfcommDevice` is set, its channel is
connected and no callback disables Bluetooth, what is written to the channel is
some of the packets of the callbacks, in order and each once; and once the flow
is drained it is all of them exactly if no emission found the flow full with a
packet as the oldest value. -/
theorem outbound_delivers (device : BluetoothDevice) (m : BluetoothRfcommManager) (c : ℕ)
    (hR : Ready device m c) (ls : List Move) (hls : ∀ mv ∈ ls, KeepsBluetooth mv) (t : Pipeline)
    (h : Run.exec step (initial (some device) m) ls = some t) :
    ∃ sent, writtenTo t.mBluetoothRfcommManager c = writtenTo m c ++ sent ∧
      sent.Sublist (packets ls) ∧
      (t.rpc.Drained → (sent = packets ls ↔
        Run.Along step KeepsPackets (initial (some device) m) ls)) := by
  -- the channel stays ready along the run, as no callback disables Bluetooth
  have hS : Sent device m c t :=
    Run.exec_invariant (fun _ _ _ hS hmv hst => hS.step hmv hst) (Sent.initial hR)
      (Run.along_of_forall (fun l hl _ => hls l hl) _) h
  have hpackets : t.rpc.emitted.filterMap packetOf = packets ls := emitted_eq_packets h
  refine ⟨t.rpc.handled.filterMap packetOf, hS.written, ?_, fun hD => ?_⟩
  · rw [← hpackets]
    exact ((List.sublist_append_left _ _).trans t.rpc.kept_sublist).filterMap _
  · rw [← hpackets, ← hD.kept_eq, ← Collector.lossless_iff_filterMap]
    exact Run.exec_iff_along (fun _ _ _ hst => lossless_step hst)
      (Collector.lossless_initial _) h

/-- A connected phone. -/
private def connected : BluetoothRfcommManager :=
  (BluetoothRfcommManager.initial.startRfcommTransportJob ⟨"AA:BB:CC:DD:EE:FF"⟩
    0x00000000DECAFADEDECADEAFDECACAFE#128 .success).2

/-- `n` callbacks of one packet each, then `k` turns of the collector. -/
private def callbacks (n k : ℕ) : List Move :=
  ((List.range n).map fun i => Move.callback (.callbackWithByteArray [UInt8.ofNat i])) ++
    (List.replicate k [.collectTake, .collectHandle]).flatten

private theorem ready_connected : Ready ⟨"AA:BB:CC:DD:EE:FF"⟩ connected 0 where
  found := by
    intro uuid hu
    obtain rfl := Option.some_inj.mp (uuidString2SUUID_IAP2_BT_DEVICE.symm.trans hu)
    rfl
  open_ := ⟨_, rfl, rfl, rfl⟩

theorem outbound_delivers_two :
    ∃ t sent, Run.exec step (initial (some ⟨"AA:BB:CC:DD:EE:FF"⟩) connected) (callbacks 2 2) = some t ∧
      writtenTo t.mBluetoothRfcommManager 0 = writtenTo connected 0 ++ sent ∧
      sent.Sublist (packets (callbacks 2 2)) ∧
      (t.rpc.Drained → (sent = packets (callbacks 2 2) ↔
        Run.Along step KeepsPackets (initial (some ⟨"AA:BB:CC:DD:EE:FF"⟩) connected)
          (callbacks 2 2))) := by
  obtain ⟨t, ht⟩ : ∃ t, Run.exec step (initial (some ⟨"AA:BB:CC:DD:EE:FF"⟩) connected)
      (callbacks 2 2) = some t := ⟨_, rfl⟩
  obtain ⟨sent, hsent⟩ := outbound_delivers ⟨"AA:BB:CC:DD:EE:FF"⟩ connected 0 ready_connected
    (callbacks 2 2) (by simp [callbacks, List.range, List.range.loop, KeepsBluetooth]) t ht
  exact ⟨t, sent, ht, hsent⟩

/-- **A burst loses a packet.**  Eleven callbacks before the collector moves
leave only the last ten. -/
theorem outbound_burst_loses_packet :
    ¬ ∀ (device : BluetoothDevice) (m : BluetoothRfcommManager) (c : ℕ), Ready device m c →
      ∀ (ls : List Move) (t : Pipeline), Run.exec step (initial (some device) m) ls = some t →
        t.rpc.Drained → writtenTo t.mBluetoothRfcommManager c = writtenTo m c ++ packets ls := by
  intro h
  have hd := h ⟨"AA:BB:CC:DD:EE:FF"⟩ connected 0 ready_connected (callbacks 11 10) _ rfl ⟨rfl, rfl⟩
  exact absurd (congrArg List.length hd) (by decide)

end Carplay.Outbound

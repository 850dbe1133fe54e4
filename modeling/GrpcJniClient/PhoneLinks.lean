/-
The iAP2 streams of several phones through one `CarplayRuntime`.

The manager keeps a channel for every phone that has bonded; the native side has
one link, to the phone of the last `startBtIap2LinkBinder` call.  Inbound arrays
go to that link wherever they come from, outbound arrays to `mBtRfcommDevice`.
The two collectors run on threads of their own: between the call and the
assignment of the field, and between reading the field and sending, the other
one may move.

* `State.pending` — the bond events and chunks on their way to the link, in the
  order in which the Bluetooth collector will take them;
* `InStep` — what keeps them in order, and the two ends of the outbound stream
  at one device;
* `Inv` — that they are, and that nothing has been mixed;
* `linkOf_collectBluetoothEvent` — the link calls are those of the collector.
-/
import GrpcJniClient.Demux
import GrpcJniClient.InboundPipeline
import GrpcJniClient.RfcommList

open SharedFlow

namespace Carplay.Links

open Carplay.Inbound Carplay.Rfcomm

/-- The device of a bond that the Bluetooth collector links. -/
def bondedDevice : BluetoothEvent → Option BluetoothDevice
  | .bondChanged device changedValue =>
      if changedValue = BOND_STATE_BONDED then some device else none
  | _ => none

/-- The device that an event's chunk was read from. -/
def chunkDevice : BluetoothEvent → Option BluetoothDevice
  | .rfcommTransform device _ _ => some device
  | _ => none

/-- An array that was passed on: the device at the phone's end, and the device of
the most recent link at that time. -/
structure Transfer where
  data : Bytes
  device : BluetoothDevice
  linked : Option BluetoothDevice
  deriving DecidableEq, Repr

structure State where
  /-- `mutableSharedFlow` of the manager and the collector of
  `CarplayBluetoothService`. -/
  rfcomm : Collector 5 BluetoothRfcommChannelItem
  /-- `mCarplayBluetoothSharedFlow` and the Bluetooth collector. -/
  bluetooth : Collector 10 BluetoothEvent
  /-- `mRpcEventSharedFlow` and the RPC collector. -/
  rpc : Collector 10 RpcEvent
  mBtRfcommDevice : Option BluetoothDevice
  /-- For the bond it holds, the Bluetooth collector has called
  `startBtIap2LinkBinder`. -/
  linking : Bool
  /-- What the RPC collector has read from `mBtRfcommDevice` for the event that it
  holds. -/
  it : Option (Option BluetoothDevice)
  /-- The coroutines of `startRfcommTransform` that have not run yet. -/
  launched : List (BluetoothDevice × UUID)
  mBluetoothRfcommManager : BluetoothRfcommManager
  /-- The device of the most recent `startBtIap2LinkBinder` call. -/
  linked : Option BluetoothDevice
  /-- The arrays passed to `receiveBtIap2DataBinder`. -/
  received : List Transfer
  /-- The arrays written to a channel. -/
  sent : List Transfer

inductive Label where
  /-- `onBondChanged` with `BOND_STATE_BONDED`. -/
  | onBonded (device : BluetoothDevice)
  /-- `readLoop` of channel `c` reads these bytes. -/
  | read (c : ℕ) (bytes : Bytes)
  | forwardTake
  | forwardEmit
  | bluetoothTake
  | startBtIap2Link
  | bluetoothHandle
  | callbackWithByteArray (data : Bytes)
  | rpcTake
  | readDevice
  | rpcHandle
  /-- The `k`-th launched coroutine runs. -/
  | startTransport (k : ℕ) (o : ConnectOutcome)

namespace State

def initial : State :=
  ⟨.initial, .initial, .initial, none, false, none, [], .initial, none, [], []⟩

/-- `sendDataByRfcomm`; the array is written to the channel that is found. -/
def send (s : State) (device : BluetoothDevice) (uuid : UUID) (byteArray : Bytes) : State :=
  { s with
    mBluetoothRfcommManager := s.mBluetoothRfcommManager.sendDataByRfcomm device uuid byteArray
    sent := s.sent ++
      match s.mBluetoothRfcommManager.queryRfcommTransform device uuid with
      | some t => (s.mBluetoothRfcommManager.channels[t.channel]?).toList.map fun ch =>
          ⟨byteArray, ch.device, s.linked⟩
      | none => [] }

/-- One call of the RPC collector; the others do not reach the manager. -/
def perform (s : State) : RuntimeCall → State
  | .sendDataByRfcomm device uuid byteArray => s.send device uuid byteArray
  | _ => s

/-- The arrays that handling the event passes to `receiveBtIap2DataBinder`. -/
def receptions (s : State) (event : BluetoothEvent) : List Transfer :=
  ((collectBluetoothEvent s.mBtRfcommDevice event).2.filterMap receivedOf).flatMap fun data =>
    (chunkDevice event).toList.map fun device => ⟨data, device, s.linked⟩

/-- The rest of the Bluetooth collector's work on an event, after the link. -/
def collected (s : State) (event : BluetoothEvent) (c : Collector 10 BluetoothEvent) : State :=
  { s with
    bluetooth := c
    linking := false
    mBtRfcommDevice := (collectBluetoothEvent s.mBtRfcommDevice event).1
    launched := s.launched ++ (collectBluetoothEvent s.mBtRfcommDevice event).2.filterMap startOf
    received := s.received ++ s.receptions event }

def step (s : State) : Label → Option State
  | .onBonded device =>
      some { s with bluetooth := s.bluetooth.tryEmit (.bondChanged device BOND_STATE_BONDED) }
  | .read c bytes => (s.mBluetoothRfcommManager.channels[c]?).bind fun ch =>
      if ch.job = some .active then
        if 0 < bytes.length then
          some { s with rfcomm := s.rfcomm.tryEmit ⟨ch.device, ch.uuid, bytes⟩ }
        else some s
      else none
  | .forwardTake => s.rfcomm.take.map fun c => { s with rfcomm := c }
  | .forwardEmit => s.rfcomm.handle.map fun (item, c) =>
      { s with rfcomm := c, bluetooth := s.bluetooth.tryEmit item.toEvent }
  | .bluetoothTake => s.bluetooth.take.map fun c => { s with bluetooth := c }
  | .startBtIap2Link =>
      if s.linking then none
      else (s.bluetooth.holding.bind bondedDevice).map fun device =>
        { s with linking := true, linked := some device }
  | .bluetoothHandle => s.bluetooth.handle.bind fun (event, c) =>
      if s.linking = (bondedDevice event).isSome then some (s.collected event c) else none
  | .callbackWithByteArray data => some { s with rpc := s.rpc.tryEmit (.iap2Data data) }
  | .rpcTake => s.rpc.take.map fun c => { s with rpc := c }
  | .readDevice =>
      if s.rpc.holding.isSome ∧ s.it = none then some { s with it := some s.mBtRfcommDevice }
      else none
  | .rpcHandle => s.it.bind fun device => s.rpc.handle.map fun (event, c) =>
      (collectRpcEvent device event).foldl perform { s with rpc := c, it := none }
  | .startTransport k o => (s.launched[k]?).map fun (device, uuid) =>
      { s with
        launched := s.launched.eraseIdx k
        mBluetoothRfcommManager :=
          (s.mBluetoothRfcommManager.startRfcommTransportJob device uuid o).2 }

/-- Each array received came from, and each array sent went to, the device that
was linked. -/
def Unmixed (s : State) : Prop := ∀ x ∈ s.received ++ s.sent, x.linked = some x.device

/-! ### What keeps the streams apart -/

/-- The event that the Bluetooth collector holds and has not acted on. -/
def held (s : State) : List BluetoothEvent :=
  if s.linking then [] else s.bluetooth.holding.toList

/-- The chunks that have still to be forwarded. -/
def waiting (s : State) : List BluetoothEvent :=
  (s.rfcomm.holding.toList ++ s.rfcomm.flow.items).map (·.toEvent)

/-- All that the Bluetooth collector has still to act on. -/
def pending (s : State) : List BluetoothEvent := s.held ++ s.bluetooth.flow.items ++ s.waiting

/-- Of the events that wait for the Bluetooth collector, those that the next
emission does not make the flow forget. -/
def spared (s : State) : List BluetoothEvent :=
  s.bluetooth.flow.items.drop (s.bluetooth.flow.items.length + 1 - 10)

/-- The events find the link of their device. -/
def InOrder (s : State) (events : List BluetoothEvent) : Prop :=
  Demux.InOrder bondedDevice chunkDevice s.linked events

/-- The device that is linked after the events. -/
def linkedAfter (s : State) (events : List BluetoothEvent) : Option BluetoothDevice :=
  Demux.current bondedDevice s.linked events

/-- A packet for the device would be written, or will be once a launched coroutine
has run. -/
def Reaches (s : State) (device : BluetoothDevice) : Prop :=
  ∃ uuid, uuidString2SUUID IAP2_BT_DEVICE = some uuid ∧
    ((s.mBluetoothRfcommManager.queryRfcommTransform device uuid).isSome = true ∨
      (device, uuid) ∈ s.launched)

/-- The step keeps the streams apart. -/
def InStep (s : State) : Label → Prop
  -- only the phone's own chunks wait to be forwarded, and the flow forgets no bond
  -- that a chunk behind it needs
  | .onBonded device => s.InOrder (s.held ++ s.spared) ∧
      ∀ e ∈ s.waiting, ∀ d, chunkDevice e = some d → d = device
  -- the bytes come from the phone that will be linked when they get there
  | .read c bytes => 0 < bytes.length → ∀ ch, s.mBluetoothRfcommManager.channels[c]? = some ch →
      s.linkedAfter s.pending = some ch.device
  | .forwardEmit => s.InOrder (s.held ++ s.spared ++ s.waiting)
  -- no packet is about to be sent to another phone
  | .startBtIap2Link => ∀ device d, s.bluetooth.holding.bind bondedDevice = some device →
      s.it = some (some d) → s.Reaches d → d = device
  -- the field does not lag behind the link
  | .readDevice => ∀ d, s.mBtRfcommDevice = some d → s.Reaches d → s.linked = some d
  | _ => True

instance (s : State) (events : List BluetoothEvent) : Decidable (s.InOrder events) :=
  inferInstanceAs (Decidable (Demux.InOrder _ _ _ _))

instance (s : State) (device : BluetoothDevice) : Decidable (s.Reaches device) :=
  decidable_of_iff
    ((s.mBluetoothRfcommManager.queryRfcommTransform device
        0x00000000DECAFADEDECADEAFDECACAFE#128).isSome = true ∨
      (device, 0x00000000DECAFADEDECADEAFDECACAFE#128) ∈ s.launched)
    ⟨fun h => ⟨_, uuidString2SUUID_IAP2_BT_DEVICE, h⟩, fun ⟨uuid, huuid, h⟩ => by
      obtain rfl := Option.some_inj.mp (uuidString2SUUID_IAP2_BT_DEVICE.symm.trans huuid)
      exact h⟩

instance (s : State) (l : Label) : Decidable (s.InStep l) := by
  cases l with
  | onBonded device =>
    exact inferInstanceAs (Decidable (s.InOrder _ ∧
      ∀ e ∈ s.waiting, ∀ d ∈ chunkDevice e, d = device))
  | read c bytes =>
    exact inferInstanceAs (Decidable (0 < bytes.length →
      ∀ ch ∈ s.mBluetoothRfcommManager.channels[c]?, s.linkedAfter s.pending = some ch.device))
  | forwardEmit => exact inferInstanceAs (Decidable (s.InOrder _))
  | startBtIap2Link =>
    refine decidable_of_iff (∀ device ∈ s.bluetooth.holding.bind bondedDevice, ∀ it ∈ s.it,
      ∀ d ∈ it, s.Reaches d → d = device) ⟨?_, ?_⟩
    · exact fun h device d hdevice hit => h device hdevice _ hit d rfl
    · rintro h device hdevice _ hit d rfl
      exact h device d hdevice hit
  | readDevice =>
    exact inferInstanceAs (Decidable (∀ d ∈ s.mBtRfcommDevice, s.Reaches d → s.linked = some d))
  | _ => exact isTrue trivial

/-- What a run keeps as long as its steps are in step. -/
structure Inv (s : State) : Prop where
  ordered : s.InOrder s.pending
  /-- After the link call the collector still holds the bond. -/
  linking : s.linking = true → s.bluetooth.holding.bind bondedDevice = s.linked ∧
    s.linked.isSome = true
  /-- The field lags behind the link only in between. -/
  field : s.linking = false → s.mBtRfcommDevice = s.linked
  it : ∀ d, s.it = some (some d) → s.Reaches d → s.linked = some d
  holds : s.it.isSome = true → s.rpc.holding.isSome = true
  packets : ∀ e ∈ s.rpc.emitted, ∃ data, e = .iap2Data data
  registered : BluetoothRfcommManager.Registered s.mBluetoothRfcommManager
  unmixed : s.Unmixed

end State

/-! ### The handler in two steps -/

/-- The device that a call links. -/
def linkOf : RuntimeCall → Option String
  | .startBtIap2Link macString => some macString
  | _ => none

/-- The collector's link calls for an event are those of its bond. -/
theorem linkOf_collectBluetoothEvent (field : Option BluetoothDevice) (event : BluetoothEvent) :
    (collectBluetoothEvent field event).2.filterMap linkOf =
      ((bondedDevice event).map (·.address)).toList := by
  cases event with
  | bondChanged device changedValue =>
    rw [collectBluetoothEvent, bondedDevice]
    split
    · rw [uuidString2SUUID_IAP2_BT_DEVICE]
      rfl
    · rfl
  | _ => rfl

/-- The field afterwards is the device of the bond, if it was one. -/
theorem collectBluetoothEvent_fst (field : Option BluetoothDevice) (event : BluetoothEvent) :
    (collectBluetoothEvent field event).1 = (bondedDevice event).or field := by
  cases event with
  | bondChanged device changedValue =>
    rw [collectBluetoothEvent, bondedDevice]
    split <;> rfl
  | _ => rfl

/-- A transport is started for the device of a bond and for no other. -/
theorem startOf_collectBluetoothEvent {uuid : UUID} (field : Option BluetoothDevice)
    (event : BluetoothEvent) (huuid : uuidString2SUUID IAP2_BT_DEVICE = some uuid) :
    (collectBluetoothEvent field event).2.filterMap startOf =
      ((bondedDevice event).map (·, uuid)).toList := by
  cases event with
  | bondChanged device changedValue =>
    rw [collectBluetoothEvent, bondedDevice]
    split
    · rw [huuid]
      rfl
    · rfl
  | _ => rfl

/-- No event is both a bond and a chunk. -/
theorem bondedDevice_of_chunk {event : BluetoothEvent} {d : BluetoothDevice}
    (h : chunkDevice event = some d) : bondedDevice event = none := by
  cases event with
  | rfcommTransform device uuid data => rfl
  | _ => cases h

end Carplay.Links

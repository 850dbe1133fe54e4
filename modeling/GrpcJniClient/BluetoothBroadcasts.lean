/-
The broadcasts of the platform, on their way to the links of the peer.

`_bluetoothReceiver` gets the broadcasts that match `btIntentFilter` and tells
the observers of the service, of which the service itself is the only one; it
emits an event for each on its flow, between the chunks of the channel.

* `receive_bondedDevice` — the event is a completed bond exactly if the broadcast
  reports one;
* `Bonded.of_exec` — the collector's calls are those of the bonds that it has handled;
* `linksIn_eq` — of each bond it makes a link request and a start, with the native side
  as it is then;
* `bonds_reach_peer` — so the peer is asked to link those of the bonded devices that were
  handled while the dial was started, and none is missing exactly if no emission forgets
  a bond.
-/
import GrpcJniClient.PhoneLinks
import GrpcJniClient.RpcStreams

open SharedFlow

namespace Carplay.Broadcasts

open Inbound Links

/-! ### The receiver -/

def ACTION_BOND_STATE_CHANGED : String := "android.bluetooth.device.action.BOND_STATE_CHANGED"
def ACTION_PAIRING_REQUEST : String := "android.bluetooth.device.action.PAIRING_REQUEST"
def ACTION_STATE_CHANGED : String := "android.bluetooth.adapter.action.STATE_CHANGED"
def ACTION_ACL_CONNECTED : String := "android.bluetooth.device.action.ACL_CONNECTED"
def ACTION_ACL_DISCONNECTED : String := "android.bluetooth.device.action.ACL_DISCONNECTED"
def ACTION_UUID : String := "android.bluetooth.device.action.UUID"
def ACTION_FOUND : String := "android.bluetooth.device.action.FOUND"
def ACTION_A2DP_SINK_STATE : String :=
  "android.bluetooth.a2dp-sink.profile.action.CONNECTION_STATE_CHANGED"
def ACTION_HFP_CLIENT_STATE : String :=
  "android.bluetooth.headsetclient.profile.action.CONNECTION_STATE_CHANGED"
def ACTION_AVRCP_CONTROL_STATE : String :=
  "android.bluetooth.avrcp-controller.profile.action.CONNECTION_STATE_CHANGED"
def ACTION_PBAP_CLIENT_STATE : String :=
  "android.bluetooth.pbapclient.profile.action.CONNECTION_STATE_CHANGED"

/-- The actions of `btIntentFilter`. -/
def btIntentFilter : List String :=
  [ACTION_BOND_STATE_CHANGED, ACTION_PAIRING_REQUEST, ACTION_STATE_CHANGED, ACTION_ACL_CONNECTED,
    ACTION_ACL_DISCONNECTED, ACTION_UUID, ACTION_FOUND, ACTION_A2DP_SINK_STATE,
    ACTION_HFP_CLIENT_STATE, ACTION_AVRCP_CONTROL_STATE, ACTION_PBAP_CLIENT_STATE]

/-- `BluetoothDevice.BOND_NONE`. -/
def BOND_NONE : ℤ := 10

/-- `BluetoothAdapter.ERROR`. -/
def ERROR : ℤ := -2147483648

/-- `BluetoothProfile.STATE_DISCONNECTED`. -/
def STATE_DISCONNECTED : ℤ := 0

/-- What the receiver reads of an `Intent`. -/
structure Intent where
  action : Option String
  /-- `BluetoothDevice.EXTRA_DEVICE`. -/
  device : Option BluetoothDevice
  /-- `BluetoothDevice.EXTRA_BOND_STATE`. -/
  bondState : Option ℤ
  /-- `BluetoothProfile.EXTRA_STATE`. -/
  state : Option ℤ
  /-- `BluetoothDevice.EXTRA_UUID`; `none` among them is no `ParcelUuid`. -/
  uuids : Option (List (Option UUID))
  deriving DecidableEq, Repr

/-- The event that the observer emits for an intent with a device. -/
def Intent.event (intent : Intent) (btAction : String) (btDevice : BluetoothDevice) :
    Option BluetoothEvent :=
  if btAction = ACTION_ACL_CONNECTED then some (.aclChanged btDevice true)
  else if btAction = ACTION_ACL_DISCONNECTED then some (.aclChanged btDevice false)
  else if btAction = ACTION_BOND_STATE_CHANGED then
    some (.bondChanged btDevice (intent.bondState.getD BOND_NONE))
  -- the state of the adapter is looked for under the name of a profile's
  else if btAction = ACTION_STATE_CHANGED then
    some (.connectStateChanged btDevice (intent.state.getD ERROR))
  else if btAction = ACTION_A2DP_SINK_STATE then
    some (.a2dpSinkProfileChanged btDevice (intent.state.getD STATE_DISCONNECTED))
  else if btAction = ACTION_HFP_CLIENT_STATE then
    some (.hfpClientProfileChanged btDevice (intent.state.getD STATE_DISCONNECTED))
  else if btAction = ACTION_AVRCP_CONTROL_STATE then
    some (.avrcpControlProfileChanged btDevice (intent.state.getD STATE_DISCONNECTED))
  else if btAction = ACTION_PBAP_CLIENT_STATE then
    some (.pbapClientProfileChanged btDevice (intent.state.getD STATE_DISCONNECTED))
  else if btAction = ACTION_FOUND then some (.deviceFoundChanged btDevice)
  else if btAction = ACTION_UUID then
    some (.uuidChanged btDevice ((intent.uuids.getD []).filterMap id))
  else none

/-- `_bluetoothReceiver.onReceive`, up to the event that is emitted. -/
def onReceive (context : Option Unit) (intent : Option Intent) : Option BluetoothEvent := do
  let _ ← context
  let intent ← intent
  let btAction ← intent.action
  let btDevice ← intent.device
  intent.event btAction btDevice

/-- A broadcast of the platform to a receiver that is registered with the filter. -/
def receive (intent : Intent) : Option BluetoothEvent :=
  if intent.action.any (btIntentFilter.contains ·) then onReceive (some ()) (some intent) else none

/-- The device that a broadcast reports to be bonded. -/
def Intent.bonded (intent : Intent) : Option BluetoothDevice :=
  if intent.action = some ACTION_BOND_STATE_CHANGED ∧ intent.bondState = some BOND_STATE_BONDED then
    intent.device
  else none

theorem forall_mem_ite {c : Prop} [Decidable c] {event : BluetoothEvent}
    {events : Option BluetoothEvent} {Q : BluetoothEvent → Prop} (hc : c → Q event)
    (h : ∀ e ∈ events, Q e) : ∀ e ∈ (if c then some event else events), Q e := by
  intro e he
  split at he
  case isTrue htrue =>
    obtain rfl := Option.some_inj.mp he
    exact hc htrue
  case isFalse => exact h e he

/-- Each event of a broadcast names the broadcast's device, and only a broadcast of that
action is a bond. -/
theorem Intent.of_mem_event (intent : Intent) (btAction : String) (btDevice : BluetoothDevice) :
    ∀ event ∈ intent.event btAction btDevice,
      (btDevice.address.length ≤ 17 → Rpc.EventFits event) ∧
      (btAction ≠ ACTION_BOND_STATE_CHANGED → bondedDevice event = none) := by
  rw [Intent.event]
  refine forall_mem_ite (fun _ => ⟨fun _ => trivial, fun _ => rfl⟩) ?_
  refine forall_mem_ite (fun _ => ⟨fun _ => trivial, fun _ => rfl⟩) ?_
  refine forall_mem_ite (fun hbond => ⟨fun h => h, fun hne => absurd hbond hne⟩) ?_
  -- what is left is never a bond
  iterate 7 refine forall_mem_ite (fun _ => ⟨fun _ => trivial, fun _ => rfl⟩) ?_
  rintro event ⟨⟩

theorem Intent.bondedDevice_event (intent : Intent) (btAction : String)
    (btDevice : BluetoothDevice) : (intent.event btAction btDevice).bind bondedDevice =
      if btAction = ACTION_BOND_STATE_CHANGED ∧ intent.bondState = some BOND_STATE_BONDED then
        some btDevice
      else none := by
  by_cases hbond : btAction = ACTION_BOND_STATE_CHANGED
  · subst hbond
    have hstate : intent.bondState.getD BOND_NONE = BOND_STATE_BONDED ↔
        intent.bondState = some BOND_STATE_BONDED := by
      cases intent.bondState with
      | none => decide
      | some state => simp
    rw [event, if_neg (by decide), if_neg (by decide), if_pos rfl, Option.bind_some, bondedDevice]
    simp only [hstate, true_and]
  · rw [if_neg fun h => hbond h.1, Option.bind_eq_none_iff]
    exact fun event hevent => (intent.of_mem_event btAction btDevice event hevent).2 hbond

theorem onReceive_some (intent : Intent) : onReceive (some ()) (some intent) =
    intent.action.bind fun btAction => intent.device.bind (intent.event btAction) := rfl

/-- Of what the receiver is not registered for, it would make nothing. -/
theorem event_eq_none (intent : Intent) {btAction : String} (h : btAction ∉ btIntentFilter)
    (btDevice : BluetoothDevice) : intent.event btAction btDevice = none := by
  simp only [btIntentFilter, List.mem_cons, not_or] at h
  obtain ⟨hbond, -, hstate, hacl, hacl', huuid, hfound, ha2dp, hhfp, havrcp, hpbap, -⟩ := h
  rw [Intent.event, if_neg hacl, if_neg hacl', if_neg hbond, if_neg hstate, if_neg ha2dp,
    if_neg hhfp, if_neg havrcp, if_neg hpbap, if_neg hfound, if_neg huuid]

theorem receive_eq (intent : Intent) : receive intent = onReceive (some ()) (some intent) := by
  rw [receive, onReceive_some]
  cases haction : intent.action with
  | none => rfl
  | some btAction =>
    rw [Option.bind_some]
    split
    · rfl
    case isFalse h =>
      have hmem : btAction ∉ btIntentFilter := by simpa using h
      cases intent.device with
      | none => rfl
      | some btDevice => exact (event_eq_none intent hmem btDevice).symm

/-- The event is a completed bond exactly if the broadcast reports one. -/
theorem receive_bondedDevice (intent : Intent) :
    (receive intent).bind bondedDevice = intent.bonded := by
  rw [receive_eq, onReceive_some, Intent.bonded]
  cases intent.action with
  | none => simp
  | some btAction =>
    cases intent.device with
    | none => simp
    | some btDevice => simpa using intent.bondedDevice_event btAction btDevice

/-- An event names the device of its broadcast. -/
theorem eventFits_receive {intent : Intent} {event : BluetoothEvent}
    (hfits : ∀ btDevice, intent.device = some btDevice → btDevice.address.length ≤ 17)
    (h : receive intent = some event) : Rpc.EventFits event := by
  rw [receive_eq, onReceive_some] at h
  obtain ⟨btAction, -, h⟩ := Option.bind_eq_some_iff.mp h
  obtain ⟨btDevice, hdevice, h⟩ := Option.bind_eq_some_iff.mp h
  exact (intent.of_mem_event btAction btDevice event h).1 (hfits btDevice hdevice)

/-! ### Runs -/

/-- What happens around the Bluetooth collector, with the broadcasts in place of
their events. -/
inductive BroadcastMove where
  | broadcast (intent : Intent)
  | read (bytes : Bytes)
  | forwardTake
  | forwardEmit
  | collectTake
  | collectHandle
  deriving DecidableEq, Repr

namespace BroadcastMove

/-- The moves of the pipeline. -/
def moves : BroadcastMove → List Inbound.Move
  | broadcast intent => (receive intent).toList.map .observe
  | read bytes => [.read bytes]
  | forwardTake => [.forwardTake]
  | forwardEmit => [.forwardEmit]
  | collectTake => [.collectTake]
  | collectHandle => [.collectHandle]

def bonded : BroadcastMove → Option BluetoothDevice
  | broadcast intent => intent.bonded
  | _ => none

/-- Addresses have seventeen characters, a chunk no more bytes than the buffer of
`readLoop`. -/
def Fits : BroadcastMove → Prop
  | broadcast intent => ∀ btDevice, intent.device = some btDevice → btDevice.address.length ≤ 17
  | read bytes => bytes.length ≤ 1024
  | _ => True

theorem Fits.moves {l : BroadcastMove} (h : l.Fits) : ∀ m ∈ l.moves, Rpc.MoveFits m := by
  cases l with
  | broadcast intent =>
    intro m hm
    obtain ⟨event, hevent, rfl⟩ := List.mem_map.mp hm
    exact eventFits_receive h (Option.mem_toList.mp hevent)
  | read bytes => exact List.forall_mem_singleton.mpr h
  | _ => exact List.forall_mem_singleton.mpr trivial

end BroadcastMove

/-- The device of a bond that a move of the pipeline brings. -/
def bondOf : Inbound.Move → Option BluetoothDevice
  | .observe event => bondedDevice event
  | _ => none

theorem filterMap_bondOf_moves (l : BroadcastMove) :
    l.moves.filterMap bondOf = l.bonded.toList := by
  cases l with
  | broadcast intent =>
    rw [BroadcastMove.bonded, ← receive_bondedDevice, BroadcastMove.moves]
    cases receive intent with
    | none => rfl
    | some event =>
      have hbond : bondOf (.observe event) = bondedDevice event := rfl
      rw [Option.toList_some, List.map_singleton, Option.bind_some, List.filterMap_cons, hbond]
      cases bondedDevice event <;> rfl
  | _ => rfl

variable {device : BluetoothDevice} {uuid : UUID} {s t : Pipeline} {m : Inbound.Move}

/-- The devices of the bonds that the collector has handled. -/
def bondsOf (s : Pipeline) : List BluetoothDevice := s.bluetooth.handled.filterMap bondedDevice

/-- The collector has linked and connected the devices of the bonds that it has handled, and
the field is that of the last. -/
structure Bonded (s : Pipeline) : Prop where
  links : s.calls.filterMap linkOf = (bondsOf s).map (·.address)
  starts : s.calls.filterMap startOf =
    (bondsOf s).map (·, 0x00000000DECAFADEDECADEAFDECACAFE#128)
  field : s.mBtRfcommDevice = (bondsOf s).getLast?

theorem Bonded.of_eq (hs : Bonded s) (hcalls : t.calls = s.calls)
    (hhandled : t.bluetooth.handled = s.bluetooth.handled)
    (hfield : t.mBtRfcommDevice = s.mBtRfcommDevice) : Bonded t where
  links := by rw [hcalls, bondsOf, hhandled]; exact hs.links
  starts := by rw [hcalls, bondsOf, hhandled]; exact hs.starts
  field := by rw [hfield, bondsOf, hhandled]; exact hs.field

theorem Bonded.step (hs : Bonded s) (h : Inbound.step device uuid s m = some t) : Bonded t := by
  cases m with
  | read bytes =>
    rw [Inbound.step] at h
    split at h
    · obtain rfl := Option.some_inj.mp h
      exact hs.of_eq rfl rfl rfl
    · obtain rfl := Option.some_inj.mp h
      exact hs
  | forwardTake =>
    obtain ⟨c, -, rfl⟩ := Option.map_eq_some_iff.mp h
    exact hs.of_eq rfl rfl rfl
  | forwardEmit =>
    obtain ⟨⟨item, c⟩, -, rfl⟩ := Option.map_eq_some_iff.mp h
    exact hs.of_eq rfl rfl rfl
  | observe event =>
    rw [Inbound.step] at h
    split at h
    · cases h
    · obtain rfl := Option.some_inj.mp h
      exact hs.of_eq rfl rfl rfl
  | collectTake =>
    obtain ⟨c, hc, rfl⟩ := Option.map_eq_some_iff.mp h
    obtain ⟨_, -, -, -, hhandled, -⟩ := Collector.of_take hc
    exact hs.of_eq rfl hhandled rfl
  | collectHandle =>
    obtain ⟨⟨event, c⟩, hc, rfl⟩ := Option.map_eq_some_iff.mp h
    obtain ⟨-, -, -, hhandled, -⟩ := Collector.of_handle hc
    have hbonds : c.handled.filterMap bondedDevice =
        s.bluetooth.handled.filterMap bondedDevice ++ (bondedDevice event).toList := by
      rw [hhandled, List.filterMap_append]
      cases hb : bondedDevice event <;> simp [hb]
    constructor
    · rw [bondsOf, hbonds, List.filterMap_append, hs.links, linkOf_collectBluetoothEvent,
        List.map_append, bondsOf]
      cases bondedDevice event <;> rfl
    · rw [bondsOf, hbonds, List.filterMap_append, hs.starts,
        startOf_collectBluetoothEvent _ _ uuidString2SUUID_IAP2_BT_DEVICE, List.map_append, bondsOf]
      cases bondedDevice event <;> rfl
    · show (collectBluetoothEvent s.mBtRfcommDevice event).1 = _
      rw [bondsOf, hbonds, collectBluetoothEvent_fst, hs.field, bondsOf]
      cases bondedDevice event <;> simp

theorem Bonded.of_exec {ls : List Inbound.Move}
    (h : Run.exec (Inbound.step device uuid) Inbound.initial ls = some t) : Bonded t :=
  Run.exec_invariant (C := fun _ _ => True) (fun _ _ _ hs _ hst => hs.step hst) ⟨rfl, rfl, rfl⟩
    (Run.along_true _ _) h

/-! ### Losing bonds -/

/-- No emission of the step finds the flow full with a bond as the oldest value. -/
def KeepsBonds (s : Pipeline) : Inbound.Move → Prop
  | .forwardEmit | .observe _ => s.bluetooth.flow.Spares fun e => (bondedDevice e).isSome
  | _ => True

theorem lossless_bonds_step (h : Inbound.step device uuid s m = some t) :
    (t.bluetooth.Lossless fun e => (bondedDevice e).isSome) ↔
      (s.bluetooth.Lossless fun e => (bondedDevice e).isSome) ∧ KeepsBonds s m := by
  cases m with
  | read bytes =>
    rw [Inbound.step] at h
    split at h <;> obtain rfl := Option.some_inj.mp h <;> exact (and_iff_left trivial).symm
  | forwardTake =>
    obtain ⟨c, -, rfl⟩ := Option.map_eq_some_iff.mp h
    exact (and_iff_left trivial).symm
  | forwardEmit =>
    obtain ⟨⟨item, c⟩, -, rfl⟩ := Option.map_eq_some_iff.mp h
    exact Collector.lossless_tryEmit (by decide)
  | observe event =>
    rw [Inbound.step] at h
    split at h
    · cases h
    · obtain rfl := Option.some_inj.mp h
      exact Collector.lossless_tryEmit (by decide)
  | collectTake =>
    obtain ⟨c, hc, rfl⟩ := Option.map_eq_some_iff.mp h
    rw [Collector.lossless_of_take hc]
    exact (and_iff_left trivial).symm
  | collectHandle =>
    obtain ⟨⟨event, c⟩, hc, rfl⟩ := Option.map_eq_some_iff.mp h
    rw [Collector.lossless_of_handle hc]
    exact (and_iff_left trivial).symm

/-- The flow is given the bond that a step brings, and no other. -/
theorem bonds_emitted_step (h : Inbound.step device uuid s m = some t) :
    t.bluetooth.emitted.filterMap bondedDevice =
      s.bluetooth.emitted.filterMap bondedDevice ++ (bondOf m).toList := by
  cases m with
  | read bytes =>
    rw [Inbound.step] at h
    split at h <;> obtain rfl := Option.some_inj.mp h <;> exact (List.append_nil _).symm
  | forwardTake =>
    obtain ⟨c, -, rfl⟩ := Option.map_eq_some_iff.mp h
    exact (List.append_nil _).symm
  | forwardEmit =>
    obtain ⟨⟨item, c⟩, -, rfl⟩ := Option.map_eq_some_iff.mp h
    exact List.filterMap_append
  | observe event =>
    rw [Inbound.step] at h
    split at h
    · cases h
    · obtain rfl := Option.some_inj.mp h
      rw [Collector.tryEmit, List.filterMap_append, bondOf]
      cases hb : bondedDevice event <;> simp [hb]
  | collectTake =>
    obtain ⟨c, hc, rfl⟩ := Option.map_eq_some_iff.mp h
    obtain ⟨_, -, -, -, -, he⟩ := Collector.of_take hc
    rw [he]
    exact (List.append_nil _).symm
  | collectHandle =>
    obtain ⟨⟨event, c⟩, hc, rfl⟩ := Option.map_eq_some_iff.mp h
    obtain ⟨-, -, -, -, he⟩ := Collector.of_handle hc
    show c.emitted.filterMap bondedDevice = _
    rw [he]
    exact (List.append_nil _).symm

/-- So in a run it is given those of the broadcasts. -/
theorem bonds_emitted {ls : List BroadcastMove}
    (h : Run.exec (Inbound.step device uuid) Inbound.initial (ls.flatMap BroadcastMove.moves)
      = some t) :
    t.bluetooth.emitted.filterMap bondedDevice = ls.filterMap BroadcastMove.bonded := by
  have hmoves : t.bluetooth.emitted.filterMap bondedDevice =
      (ls.flatMap BroadcastMove.moves).filterMap bondOf := by
    refine Run.exec_history (R := fun ms t => t.bluetooth.emitted.filterMap bondedDevice =
      ms.filterMap bondOf) ?_ rfl h
    intro ms u m v hu hv
    rw [bonds_emitted_step hv, hu, List.filterMap_append]
    cases hb : bondOf m <;> simp [hb]
  rw [hmoves, List.filterMap_flatMap, List.filterMap_eq_flatMap_toList]
  exact List.flatMap_congr fun l _ => filterMap_bondOf_moves l

/-! ### What the peer links -/

/-- The address of a link request. -/
def linkRead : Rpc.Incoming → Option JavaString
  | .startBtIap2Link macString => some macString
  | .receiveRfcommDataFromBt _ => none

open Rpc (NativeSide Calling callingStep)

/-- The addresses of the link calls, with the native side as each finds it. -/
def linksIn (record : List (NativeSide × RuntimeCall)) : List (NativeSide × String) :=
  record.filterMap fun x => (linkOf x.2).map (x.1, ·)

/-- The starts, likewise. -/
def startsIn (record : List (NativeSide × RuntimeCall)) :
    List (NativeSide × BluetoothDevice × UUID) :=
  record.filterMap fun x => (startOf x.2).map (x.1, ·)

/-- A link call is read as a request for its address if the dial is started. -/
theorem filterMap_linkRead {record : List (NativeSide × RuntimeCall)}
    (h : ∀ x ∈ record, Rpc.CallFits x.2) :
    (record.filterMap Rpc.peerReads).filterMap linkRead =
      ((linksIn record).filter (·.1.checkPeerRpcDialAvailable)).map
        fun x => Rpc.javaString x.2 := by
  rw [List.filterMap_congr fun x hx => Rpc.peerReads_eq_toldBy (h x hx), List.filterMap_filterMap,
    ← List.filterMap_eq_map, List.filterMap_filter, linksIn, List.filterMap_filterMap]
  refine List.filterMap_congr fun x _ => ?_
  obtain ⟨native, c⟩ := x
  cases c with
  | startBtIap2Link macString =>
    rw [Rpc.toldBy, NativeSide.sends, linkOf]
    cases hdial : native.checkPeerRpcDialAvailable <;> simp [Rpc.meantBy, linkRead, hdial]
  | receiveBtIap2Data rfcommData dataLength =>
    rw [Rpc.toldBy, Rpc.meantBy]
    split <;> rfl
  | _ => rfl

/-- Handling an event links the device that it starts a transport for, in one step and so
with one native side. -/
theorem linksIn_newCalls (native : NativeSide) (s : Pipeline) (m : Inbound.Move) :
    linksIn ((newCalls s m).map (native, ·)) =
      (startsIn ((newCalls s m).map (native, ·))).map fun x => (x.1, x.2.1.address) := by
  cases m with
  | collectHandle =>
    rw [newCalls]
    cases s.bluetooth.holding with
    | none => rfl
    | some event =>
      rw [Option.elim_some]
      cases event with
      | bondChanged device changedValue =>
        rw [collectBluetoothEvent]
        split
        · rw [uuidString2SUUID_IAP2_BT_DEVICE]
          rfl
        · rfl
      | _ => rfl
  | _ => rfl

/-- So a run makes the two calls of each bond with one native side. -/
theorem linksIn_eq {native : NativeSide} {ls : List (Ambient.Move Inbound.Move NativeSide)}
    {t : Calling}
    (h : Run.exec (callingStep device uuid) ⟨Inbound.initial, native, []⟩ ls = some t) :
    linksIn t.record = (startsIn t.record).map fun x => (x.1, x.2.1.address) := by
  refine Run.exec_invariant (C := fun _ _ => True)
    (I := fun s : Calling =>
      linksIn s.record = (startsIn s.record).map fun x => (x.1, x.2.1.address))
    ?_ rfl (Run.along_true _ _) h
  intro s l t hs _ hst
  cases l with
  | change native =>
    obtain rfl := Option.some_inj.mp hst
    exact hs
  | inner m =>
    obtain ⟨u, hu, hinner⟩ := Option.map_eq_some_iff.mp hst
    have hcalls : t.inner.calls = s.inner.calls ++ newCalls s.inner m := by
      rw [← hinner]
      exact calls_step hu
    have hnew := linksIn_newCalls s.env s.inner m
    rw [linksIn, startsIn] at hs hnew ⊢
    rw [Ambient.record_of_step hst hcalls, List.filterMap_append, List.filterMap_append, hs, hnew,
      List.map_append]

/-- **Which devices the peer links.**  In every run, with whatever broadcasts between the
chunks, the collector handles the bonds of some devices `ds` that broadcasts reported
bonded, in order and each once: a transport is started for each of them, `mBtRfcommDevice`
is the last, and the peer reads link requests for exactly those that were handled while
the dial was started.  Once the flow is drained they are all the bonded ones exactly if
no emission found it full with a bond as the oldest value. -/
theorem bonds_reach_peer (device : BluetoothDevice) (uuid : UUID) (native : NativeSide)
    (ls : List (Ambient.Move BroadcastMove NativeSide))
    (hls : ∀ l ∈ ls.filterMap Ambient.Move.inner?, l.Fits) (t : Calling)
    (h : Run.exec (callingStep device uuid) ⟨Inbound.initial, native, []⟩
      (ls.flatMap (Ambient.Move.moves BroadcastMove.moves)) = some t) :
    ∃ ds : List (NativeSide × BluetoothDevice),
      (ds.map Prod.snd).Sublist
        ((ls.filterMap Ambient.Move.inner?).filterMap BroadcastMove.bonded) ∧
      startsIn t.record = ds.map (fun d => (d.1, d.2, 0x00000000DECAFADEDECADEAFDECACAFE#128)) ∧
      t.inner.mBtRfcommDevice = (ds.map Prod.snd).getLast? ∧
      (t.record.filterMap Rpc.peerReads).filterMap linkRead =
        (ds.filter (·.1.checkPeerRpcDialAvailable)).map (fun d => Rpc.javaString d.2.address) ∧
      (t.inner.Drained → (ds.map Prod.snd =
          (ls.filterMap Ambient.Move.inner?).filterMap BroadcastMove.bonded ↔
        Run.Along (Inbound.step device uuid) KeepsBonds Inbound.initial
          ((ls.filterMap Ambient.Move.inner?).flatMap BroadcastMove.moves))) := by
  have hinner := Ambient.exec_inner h
  rw [Ambient.filterMap_inner?_flatMap_moves] at hinner
  have hfits : ∀ m ∈ (ls.filterMap Ambient.Move.inner?).flatMap BroadcastMove.moves,
      Rpc.MoveFits m := by
    intro m hm
    obtain ⟨l, hl, hm⟩ := List.mem_flatMap.mp hm
    exact (hls l hl).moves m hm
  have hB := Bonded.of_exec hinner
  have hF := Rpc.Fitting.of_exec hfits hinner
  have hcalls : t.record.map Prod.snd = t.inner.calls :=
    Ambient.map_snd_record (fun _ _ _ hst => ⟨_, (calls_step hst).symm⟩) rfl h
  -- the starts are those of the bonds that the collector has handled
  have hstarts : (startsIn t.record).map Prod.snd =
      (bondsOf t.inner).map (·, 0x00000000DECAFADEDECADEAFDECACAFE#128) := by
    rw [← hB.starts, ← hcalls, List.filterMap_map, startsIn, List.map_filterMap]
    refine List.filterMap_congr fun x _ => ?_
    rw [Option.map_map]
    exact Option.map_id'
  have hds : ((startsIn t.record).map fun x => (x.1, x.2.1)).map Prod.snd = bondsOf t.inner := by
    have hfst := congrArg (List.map Prod.fst) hstarts
    rw [List.map_map, List.map_map] at hfst
    rw [List.map_map]
    exact hfst.trans (List.map_id _)
  refine ⟨(startsIn t.record).map fun x => (x.1, x.2.1), ?_, ?_, ?_, ?_, fun hD => ?_⟩
  · rw [hds, ← bonds_emitted hinner]
    exact ((List.sublist_append_left _ _).trans t.inner.bluetooth.kept_sublist).filterMap _
  · rw [List.map_map]
    refine (List.map_id _).symm.trans (List.map_congr_left fun x hx => ?_)
    have hmem : x.2 ∈ (startsIn t.record).map Prod.snd := List.mem_map_of_mem hx
    rw [hstarts] at hmem
    obtain ⟨d, -, hd⟩ := List.mem_map.mp hmem
    obtain ⟨n, d', u⟩ := x
    obtain ⟨rfl, rfl⟩ := Prod.mk.inj hd
    rfl
  · rw [hds]
    exact hB.field
  · rw [filterMap_linkRead fun x hx => hF.calls x.2 (hcalls ▸ List.mem_map_of_mem hx), linksIn_eq h,
      List.filter_map, List.filter_map, List.map_map, List.map_map]
    rfl
  · rw [hds, ← bonds_emitted hinner, bondsOf, ← hD.2.kept_eq, ← Collector.lossless_iff_filterMap]
    exact Run.exec_iff_along (fun _ _ _ hst => lossless_bonds_step hst)
      (Collector.lossless_initial _) hinner

/-- A device is bonded before the dial has started, and one after. -/
private def twoBonds : List (Ambient.Move BroadcastMove NativeSide) :=
  [.inner (.broadcast ⟨some ACTION_FOUND, some ⟨"AA:BB:CC:DD:EE:FF"⟩, none, none, none⟩),
    .inner (.broadcast
      ⟨some ACTION_BOND_STATE_CHANGED, some ⟨"AA:BB:CC:DD:EE:FF"⟩, some 12, none, none⟩),
    .inner .collectTake, .inner .collectHandle, .inner .collectTake, .inner .collectHandle,
    .change ⟨true, true⟩,
    .inner (.broadcast
      ⟨some ACTION_BOND_STATE_CHANGED, some ⟨"00:11:22:33:44:55"⟩, some 12, none, none⟩),
    .inner .collectTake, .inner .collectHandle]

theorem bonds_reach_peer_two :
    ∃ (t : Calling) (ds : List (NativeSide × BluetoothDevice)),
      Run.exec (callingStep ⟨"AA:BB:CC:DD:EE:FF"⟩ 0) ⟨Inbound.initial, ⟨false, true⟩, []⟩
        (twoBonds.flatMap (Ambient.Move.moves BroadcastMove.moves)) = some t ∧
      (ds.map Prod.snd).Sublist [⟨"AA:BB:CC:DD:EE:FF"⟩, ⟨"00:11:22:33:44:55"⟩] ∧
      (t.record.filterMap Rpc.peerReads).filterMap linkRead =
        (ds.filter (·.1.checkPeerRpcDialAvailable)).map fun d => Rpc.javaString d.2.address := by
  have hfits : ∀ l ∈ twoBonds.filterMap Ambient.Move.inner?, l.Fits := by
    simp only [twoBonds, List.filterMap_cons, List.filterMap_nil, Ambient.Move.inner?,
      List.forall_mem_cons, BroadcastMove.Fits, Option.some_inj, forall_eq']
    exact ⟨by decide, by decide, trivial, trivial, trivial, trivial, by decide, trivial, trivial,
      List.forall_mem_nil _⟩
  obtain ⟨t, ht⟩ : ∃ t, Run.exec (callingStep ⟨"AA:BB:CC:DD:EE:FF"⟩ 0)
      ⟨Inbound.initial, ⟨false, true⟩, []⟩
      (twoBonds.flatMap (Ambient.Move.moves BroadcastMove.moves)) = some t := ⟨_, rfl⟩
  obtain ⟨ds, hds, -, -, hlinks, -⟩ :=
    bonds_reach_peer ⟨"AA:BB:CC:DD:EE:FF"⟩ 0 ⟨false, true⟩ twoBonds hfits t ht
  exact ⟨t, ds, ht, hds, hlinks⟩

end Carplay.Broadcasts

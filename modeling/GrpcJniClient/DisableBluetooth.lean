/-
What a `DisableBluetoothEvent` stops and disconnects.

The RPC collector takes the RFCOMM transport to stop from `mBtRfcommDevice`, the
device of the last bond, and the profiles to disconnect from the address in the
event; without a remembered device it does nothing.  `stopRfcommTransform`
launches a coroutine, so the stop runs later than the event is handled.

* `stops_eq`, `mem_disconnected` — the targets of the two halves;
* `Registered.stop_found`, `Registered.stop_other` — what a stop does to the
  transport it finds and to any other;
* `disable_affects_exactly_iff` — exactly the addressed device is affected if and
  only if the remembered device is the addressed one wherever a transport is
  listed, and the address is in lower case wherever a profile is connected;
* `disable_stops_last_bonded` — with two phones the wrong one is stopped.
-/
import GrpcJniClient.BluetoothProfileManager
import GrpcJniClient.CarplayRuntime
import GrpcJniClient.RfcommStop

open Carplay.Rfcomm Carplay.Profile
open BluetoothRfcommManager (Registered)

namespace Carplay.DisableBluetooth

/-- What bond events and a `DisableBluetoothEvent` work on. -/
structure State where
  mBtRfcommDevice : Option BluetoothDevice
  /-- The coroutines of `startRfcommTransform` that have not run yet. -/
  launched : List (BluetoothDevice × UUID)
  mBluetoothRfcommManager : BluetoothRfcommManager
  mBluetoothProfileManager : BluetoothProfileManager

inductive Label where
  /-- The Bluetooth collector handles a `BondChangedEvent`. -/
  | bondChanged (device : BluetoothDevice) (changedValue : ℤ)
  /-- The `k`-th launched coroutine runs. -/
  | start (k : ℕ) (o : ConnectOutcome)
  | peerClose (c : ℕ)
  /-- A profile's proxy, or the list of its connected devices, changes. -/
  | setProxy (id : ProfileId) (p : Option BluetoothProfile)

/-- The coroutine that a call launches to stop a transport. -/
def stopOf : RuntimeCall → Option (BluetoothDevice × UUID)
  | .stopRfcommTransform device uuid => some (device, uuid)
  | _ => none

/-- The `disconnect` that a call on the service's binder ends in. -/
def disconnectOf (m : BluetoothProfileManager) : RuntimeCall → Option (ProfileId × BluetoothDevice)
  | .disableA2dpProfile address =>
      (m.disableA2dpSinkProfileByAddress address).map (.a2dpSink, ·)
  | .disableHfpProfile address =>
      (m.disableHfpClientProfileByAddress address).map (.hfpClient, ·)
  | .disablePbapProfile address =>
      (m.disablePbapClientProfileByAddress address).map (.pbapClient, ·)
  | .disableAvrcpProfile address =>
      (m.disableAvrcpClientProfileByAddress address).map (.avrcpControl, ·)
  | _ => none

namespace State

def initial : State := ⟨none, [], .initial, .initial⟩

def step (s : State) : Label → Option State
  | .bondChanged device changedValue =>
      let handled := collectBluetoothEvent s.mBtRfcommDevice (.bondChanged device changedValue)
      some { s with
        mBtRfcommDevice := handled.1
        launched := s.launched ++ handled.2.filterMap startOf }
  | .start k o => (s.launched[k]?).map fun (device, uuid) =>
      { s with
        launched := s.launched.eraseIdx k
        mBluetoothRfcommManager :=
          (s.mBluetoothRfcommManager.startRfcommTransportJob device uuid o).2 }
  | .peerClose c => (s.mBluetoothRfcommManager.peerClose c).map fun m =>
      { s with mBluetoothRfcommManager := m }
  | .setProxy id p =>
      some { s with mBluetoothProfileManager := s.mBluetoothProfileManager.setProxy id p }

/-- The stops that handling the event launches. -/
def stops (s : State) (mac : String) : List (BluetoothDevice × UUID) :=
  (collectRpcEvent s.mBtRfcommDevice (.disableBluetooth mac)).filterMap stopOf

/-- The profiles that handling the event disconnects. -/
def disconnected (s : State) (mac : String) : List (ProfileId × BluetoothDevice) :=
  (collectRpcEvent s.mBtRfcommDevice (.disableBluetooth mac)).filterMap
    (disconnectOf s.mBluetoothProfileManager)

end State

/-- The launched stops run. -/
def runStops (m : BluetoothRfcommManager) (stops : List (BluetoothDevice × UUID)) :
    BluetoothRfcommManager :=
  stops.foldl (fun m (device, uuid) => m.stopRfcommTransportJob device uuid) m

/-- The event is handled in `s`, its stop runs in `s'`, and both together affect
the addressed device and no other. -/
structure AffectsExactly (s s' : State) (mac : String) : Prop where
  /-- The transport of the addressed device is stopped: off the list and closed. -/
  stopped : ∀ device uuid t, uuidString2SUUID IAP2_BT_DEVICE = some uuid → Addresses mac device →
    s'.mBluetoothRfcommManager.queryRfcommTransform device uuid = some t →
      t ∉ (runStops s'.mBluetoothRfcommManager (s.stops mac)).rfcommTransformList ∧
        ∃ ch, (runStops s'.mBluetoothRfcommManager (s.stops mac)).channels[t.channel]? = some ch ∧
          ch.isOpen = false
  /-- A transport of any other device stays as it is. -/
  others : ∀ t ch, t ∈ s'.mBluetoothRfcommManager.rfcommTransformList →
    s'.mBluetoothRfcommManager.channels[t.channel]? = some ch → ¬ Addresses mac ch.device →
      t ∈ (runStops s'.mBluetoothRfcommManager (s.stops mac)).rfcommTransformList ∧
        (runStops s'.mBluetoothRfcommManager (s.stops mac)).channels[t.channel]? = some ch
  /-- Each profile with a connected device of that address disconnects one. -/
  disconnects : ∀ id device, s.mBluetoothProfileManager.Connected id device →
    Addresses mac device → ∃ d, (id, d) ∈ s.disconnected mac ∧ Addresses mac d
  /-- No other device is disconnected from a profile. -/
  addressed : ∀ id device, (id, device) ∈ s.disconnected mac →
    s.mBluetoothProfileManager.Connected id device ∧ Addresses mac device

/-- The device of a listed transport is the remembered one exactly if it is
addressed; and if the address is that of a connected device, some device is
remembered and the address is in lower case. -/
structure Targeted (s s' : State) (mac : String) : Prop where
  transport : ∀ device uuid, uuidString2SUUID IAP2_BT_DEVICE = some uuid →
    (s'.mBluetoothRfcommManager.queryRfcommTransform device uuid).isSome = true →
      (Addresses mac device ↔ s.mBtRfcommDevice = some device)
  profiles : ∀ id device, s.mBluetoothProfileManager.Connected id device → Addresses mac device →
    s.mBtRfcommDevice.isSome = true ∧ lowercase mac = mac

variable {s s' : State} {mac : String} {uuid : UUID} {id : ProfileId} {device : BluetoothDevice}

/-! ### What the handler targets -/

theorem stops_eq (huuid : uuidString2SUUID IAP2_BT_DEVICE = some uuid) :
    s.stops mac = s.mBtRfcommDevice.toList.map (·, uuid) := by
  rw [State.stops]
  rcases s.mBtRfcommDevice with _ | d
  · rfl
  · rw [collectRpcEvent]
    simp only [huuid]
    rfl

/-- The profiles are taken from the event, but only if a device is remembered. -/
theorem mem_disconnected : (id, device) ∈ s.disconnected mac ↔
    s.mBtRfcommDevice.isSome = true ∧
      disableProfileByAddress (s.mBluetoothProfileManager.proxy id) mac = some device := by
  rw [State.disconnected]
  rcases s.mBtRfcommDevice with _ | d
  · simp [collectRpcEvent]
  · rw [collectRpcEvent, uuidString2SUUID_IAP2_BT_DEVICE]
    cases id <;>
      simp [disconnectOf, BluetoothProfileManager.proxy,
        BluetoothProfileManager.disableA2dpSinkProfileByAddress,
        BluetoothProfileManager.disableHfpClientProfileByAddress,
        BluetoothProfileManager.disablePbapClientProfileByAddress,
        BluetoothProfileManager.disableAvrcpClientProfileByAddress]

/-! ### What a stop does -/

section Stop

variable {m : BluetoothRfcommManager} {t : BluetoothRfcommTransform} {ch : BluetoothRfcommChannel}

/-- The transport that a stop finds goes off the list and is closed. -/
theorem Registered.stop_found (hR : Registered m)
    (hq : m.queryRfcommTransform device uuid = some t) :
    t ∉ (m.stopRfcommTransportJob device uuid).rfcommTransformList ∧
      ∃ ch, (m.stopRfcommTransportJob device uuid).channels[t.channel]? = some ch ∧
        ch.isOpen = false := by
  obtain ⟨ch, hch, hsocket, -, -⟩ := hR.holds t (BluetoothRfcommManager.mem_of_query hq)
  rw [BluetoothRfcommManager.stopRfcommTransportJob, hq]
  refine ⟨hR.nodup.not_mem_erase, ch.cancelAndJoin.close, ?_, ?_⟩
  · exact (BluetoothRfcommManager.channels_modify_self m t.channel _).trans (by rw [hch]; rfl)
  · exact BluetoothRfcommChannel.isOpen_close hsocket

/-- A transport of another device is left alone. -/
theorem Registered.stop_other (hR : Registered m) (ht : t ∈ m.rfcommTransformList)
    (hch : m.channels[t.channel]? = some ch) (hd : ch.device ≠ device) :
    t ∈ (m.stopRfcommTransportJob device uuid).rfcommTransformList ∧
      (m.stopRfcommTransportJob device uuid).channels[t.channel]? = some ch := by
  have hkey : ch.hasKey device uuid = false := by
    rw [Bool.eq_false_iff]
    exact fun h => hd (BluetoothRfcommManager.hasKey_iff.mp h).1
  have hkeyed : m.keyed device uuid t = false := by
    rw [BluetoothRfcommManager.keyed, hch, Option.any_some, hkey]
  obtain ⟨hlist, hchannels⟩ := hR.stop_local device uuid
  have hmem : t ∈ m.rfcommTransformList.filter fun t => !m.keyed device uuid t :=
    List.mem_filter.mpr ⟨ht, by rw [hkeyed]; rfl⟩
  rw [← hlist] at hmem
  exact ⟨List.mem_of_mem_filter hmem, (hchannels t.channel ch hkey).mpr hch⟩

end Stop

/-! ### Runs -/

theorem registered_step {l : Label} {t : State} (hR : Registered s.mBluetoothRfcommManager)
    (h : s.step l = some t) : Registered t.mBluetoothRfcommManager := by
  cases l with
  | bondChanged d v =>
    obtain rfl := Option.some_inj.mp h
    exact hR
  | start k o =>
    obtain ⟨⟨d, u⟩, -, rfl⟩ := Option.map_eq_some_iff.mp h
    have hstart : Rfcomm.step s.mBluetoothRfcommManager (.start d u o) =
      some (s.mBluetoothRfcommManager.startRfcommTransportJob d u o).2 := rfl
    exact hR.step hstart
  | peerClose c =>
    obtain ⟨m, hm, rfl⟩ := Option.map_eq_some_iff.mp h
    have hclose : Rfcomm.step s.mBluetoothRfcommManager (.peerClose c) = some m := hm
    exact hR.step hclose
  | setProxy i p =>
    obtain rfl := Option.some_inj.mp h
    exact hR

theorem registered_of_exec {ls : List Label} (hR : Registered s.mBluetoothRfcommManager)
    (h : Run.exec State.step s ls = some s') : Registered s'.mBluetoothRfcommManager :=
  Run.exec_invariant (I := fun s => Registered s.mBluetoothRfcommManager)
    (C := fun _ _ => True) (fun _ _ _ hs _ ht => registered_step hs ht) hR (Run.along_true _ _) h

/-! ### When exactly the addressed device is affected -/

/-- What a device is found by is among its transports. -/
theorem exists_channel_of_query {m : BluetoothRfcommManager} {t : BluetoothRfcommTransform}
    (hq : m.queryRfcommTransform device uuid = some t) :
    t ∈ m.rfcommTransformList ∧
      ∃ ch, m.channels[t.channel]? = some ch ∧ ch.device = device ∧ ch.uuid = uuid := by
  obtain ⟨ch, hch, hkey⟩ :=
    (Option.any_eq_true _ _).mp (BluetoothRfcommManager.keyed_of_query hq)
  exact ⟨BluetoothRfcommManager.mem_of_query hq, ch, hch, BluetoothRfcommManager.hasKey_iff.mp hkey⟩

theorem AffectsExactly.targeted (hR : Registered s'.mBluetoothRfcommManager)
    (h : AffectsExactly s s' mac) : Targeted s s' mac where
  transport := by
    intro d u huuid hsome
    obtain ⟨t, hq⟩ := Option.isSome_iff_exists.mp hsome
    obtain ⟨hmem, ch, hch, rfl, -⟩ := exists_channel_of_query hq
    constructor
    · intro haddr
      by_contra hfield
      -- the transport of a device that is not remembered stays listed
      refine (h.stopped ch.device u t huuid haddr hq).1 ?_
      rw [stops_eq huuid]
      rcases hr : s.mBtRfcommDevice with _ | r
      · exact hmem
      · have hne : ch.device ≠ r := fun heq => hfield (hr.trans (heq ▸ rfl))
        exact (Registered.stop_other hR hmem hch hne).1
    · intro hfield
      by_contra haddr
      have hkept := (h.others t ch hmem hch haddr).1
      rw [stops_eq huuid, hfield] at hkept
      exact (Registered.stop_found hR hq).1 hkept
  profiles := by
    intro i d hconn haddr
    obtain ⟨d', hd', -⟩ := h.disconnects i d hconn haddr
    obtain ⟨hsome, hfind⟩ := mem_disconnected.mp hd'
    exact ⟨hsome, (addresses_of_lowercase_eq (disableProfileByAddress_eq_some hfind).2).2⟩

theorem Targeted.affectsExactly (hR : Registered s'.mBluetoothRfcommManager)
    (h : Targeted s s' mac) : AffectsExactly s s' mac where
  stopped := by
    intro d u t huuid haddr hq
    have hfield := (h.transport d u huuid (Option.isSome_of_mem hq)).mp haddr
    rw [stops_eq huuid, hfield]
    exact Registered.stop_found hR hq
  others := by
    intro t ch hmem hch haddr
    rw [stops_eq uuidString2SUUID_IAP2_BT_DEVICE]
    rcases hr : s.mBtRfcommDevice with _ | r
    · exact ⟨hmem, hch⟩
    · -- the remembered device is addressed wherever its stop finds anything
      show t ∈ (s'.mBluetoothRfcommManager.stopRfcommTransportJob r _).rfcommTransformList ∧
        (s'.mBluetoothRfcommManager.stopRfcommTransportJob r _).channels[t.channel]? = some ch
      rcases hq : s'.mBluetoothRfcommManager.queryRfcommTransform r _ with _ | t'
      · rw [BluetoothRfcommManager.stopRfcommTransportJob, hq]
        exact ⟨hmem, hch⟩
      · have hr' := (h.transport r _ uuidString2SUUID_IAP2_BT_DEVICE (Option.isSome_of_mem hq)).mpr hr
        exact Registered.stop_other hR hmem hch fun heq => haddr (heq ▸ hr')
  disconnects := by
    intro i d hconn haddr
    obtain ⟨hsome, hmac⟩ := h.profiles i d hconn haddr
    obtain ⟨d', hfind, haddr'⟩ := exists_disableProfileByAddress hmac hconn haddr
    exact ⟨d', mem_disconnected.mpr ⟨hsome, hfind⟩, haddr'⟩
  addressed := by
    intro i d hd
    obtain ⟨hconn, heq⟩ := disableProfileByAddress_eq_some (mem_disconnected.mp hd).2
    exact ⟨hconn, (addresses_of_lowercase_eq heq).1⟩

/-- **What a `DisableBluetoothEvent` affects.**  After any run of bond events, the
event is handled, and its stop runs any number of steps later: exactly the
addressed device is affected if and only if, wherever a transport is listed, the
remembered device is the addressed one, and wherever a profile has a connected
device of that address, some device is remembered and the address is in lower
case. -/
theorem disable_affects_exactly_iff (ls ls' : List Label) (s s' : State)
    (h : Run.exec State.step State.initial ls = some s) (h' : Run.exec State.step s ls' = some s')
    (mac : String) : AffectsExactly s s' mac ↔ Targeted s s' mac := by
  have hR : Registered s'.mBluetoothRfcommManager :=
    registered_of_exec (registered_of_exec Registered.initial h) h'
  exact ⟨fun hA => hA.targeted hR, fun hT => hT.affectsExactly hR⟩

/-- Two phones. -/
private def alice : BluetoothDevice := ⟨"AA"⟩
private def bob : BluetoothDevice := ⟨"BB"⟩

/-- The device bonds and its transport comes up. -/
private def bondUp (device : BluetoothDevice) : List Label :=
  [.bondChanged device BOND_STATE_BONDED, .start 0 .success]

/-- One phone bonds and connects its HFP profile. -/
private def onePhone : List Label :=
  bondUp alice ++ [.setProxy .hfpClient (some ⟨[bob, alice]⟩)]

theorem disable_affects_exactly_iff_one_phone : ∃ s,
    Run.exec State.step State.initial onePhone = some s ∧ AffectsExactly s s "aa" := by
  obtain ⟨s, hs, hchannels, hfield⟩ : ∃ s,
      Run.exec State.step State.initial onePhone = some s ∧
        s.mBluetoothRfcommManager.channels.map (·.device) = [alice] ∧
        s.mBtRfcommDevice = some alice := ⟨_, rfl, rfl, rfl⟩
  refine ⟨s, hs, (disable_affects_exactly_iff onePhone [] s s hs rfl "aa").mpr ⟨?_, ?_⟩⟩
  · intro d u _ hsome
    obtain ⟨t, hq⟩ := Option.isSome_iff_exists.mp hsome
    obtain ⟨-, ch, hch, rfl, -⟩ := exists_channel_of_query hq
    have hdevice : ch.device ∈ s.mBluetoothRfcommManager.channels.map (·.device) :=
      List.mem_map_of_mem (List.mem_of_getElem? hch)
    rw [hchannels, List.mem_singleton] at hdevice
    rw [hdevice, hfield]
    exact ⟨fun _ => rfl, fun _ => by decide⟩
  · intro _ _ _ _
    rw [hfield]
    exact ⟨rfl, by decide⟩

/-- **The last phone is stopped.**  Two phones bond, and the address of the first
stops the transport of the second. -/
theorem disable_stops_last_bonded :
    ¬ ∀ (ls ls' : List Label) (s s' : State), Run.exec State.step State.initial ls = some s →
      Run.exec State.step s ls' = some s' → ∀ mac, AffectsExactly s s' mac := by
  intro h
  have hA := h (bondUp alice ++ bondUp bob) [] _ _ rfl rfl "aa"
  have hgone := (hA.stopped alice _ ⟨0⟩ uuidString2SUUID_IAP2_BT_DEVICE (by decide) (by decide)).1
  exact hgone (by decide)

end Carplay.DisableBluetooth

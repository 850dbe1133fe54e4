/-
The events of the services and the collectors of `CarplayRuntime`.

`CarplayRuntime.initCarplayRuntime` launches one collector for each service
flow.  A collector handles an event by calling binders; the calls a handler
makes, in order, are its meaning here, together with the one field it writes,
`mBtRfcommDevice`.
-/
import GrpcJniClient.BluetoothExt
import Mathlib.Data.Int.Notation

namespace Carplay

/-- `BluetoothEvent`. -/
inductive BluetoothEvent where
  | aclChanged (device : BluetoothDevice) (connected : Bool)
  | a2dpSinkProfileChanged (device : BluetoothDevice) (changedValue : ℤ)
  | hfpClientProfileChanged (device : BluetoothDevice) (changedValue : ℤ)
  | avrcpControlProfileChanged (device : BluetoothDevice) (changedValue : ℤ)
  | pbapClientProfileChanged (device : BluetoothDevice) (changedValue : ℤ)
  | connectStateChanged (device : BluetoothDevice) (changedValue : ℤ)
  | deviceFoundChanged (device : BluetoothDevice)
  | uuidChanged (device : BluetoothDevice) (uuids : List UUID)
  | bondChanged (device : BluetoothDevice) (changedValue : ℤ)
  | rfcommTransform (device : BluetoothDevice) (uuid : UUID) (data : Bytes)
  deriving DecidableEq, Repr

/-- `BluetoothEvent.BondChangedEvent.BOND_STATE_BONDED`. -/
def BOND_STATE_BONDED : ℤ := 12

/-- `RpcEvent`. -/
inductive RpcEvent where
  | iap2Data (dataByteArray : Bytes)
  | carplayAvailable (wiredAvailable : Bool) (usbTransportIdentifier : String)
      (wirelessAvailable : Bool) (bluetoothTransportIdentifier : String)
  | disableBluetooth (macAddress : String)
  | mediaCodecFormatChange
  deriving DecidableEq, Repr

/-- The calls `CarplayRuntime` makes on the binders and on the context. -/
inductive RuntimeCall where
  | startBtIap2Link (macString : String)
  | receiveBtIap2Data (rfcommData : Bytes) (dataLength : ℕ)
  | startRfcommTransform (device : BluetoothDevice) (uuid : UUID)
  | stopRfcommTransform (device : BluetoothDevice) (uuid : UUID)
  | sendDataByRfcomm (device : BluetoothDevice) (uuid : UUID) (byteArray : Bytes)
  | disableHfpProfile (address : String)
  | disableA2dpProfile (address : String)
  | disablePbapProfile (address : String)
  | disableAvrcpProfile (address : String)
  | getCarplayCompatSoftApConfigure
  | startActivity
  deriving DecidableEq, Repr

/-- The Bluetooth collector on one event: the new `mBtRfcommDevice` and the
calls. -/
def collectBluetoothEvent (mBtRfcommDevice : Option BluetoothDevice) :
    BluetoothEvent → Option BluetoothDevice × List RuntimeCall
  | .bondChanged device changedValue =>
      if changedValue = BOND_STATE_BONDED then
        (some device,
          .startBtIap2Link device.address ::
            match uuidString2SUUID IAP2_BT_DEVICE with
            | some uuid => [.startRfcommTransform device uuid]
            | none => [])
      else (mBtRfcommDevice, [])
  | .rfcommTransform _ _ data => (mBtRfcommDevice, [.receiveBtIap2Data data data.length])
  | _ => (mBtRfcommDevice, [])

/-- The RPC collector on one event. -/
def collectRpcEvent (mBtRfcommDevice : Option BluetoothDevice) : RpcEvent → List RuntimeCall
  | .iap2Data dataByteArray =>
      match mBtRfcommDevice with
      | some device =>
          match uuidString2SUUID IAP2_BT_DEVICE with
          | some uuid => [.sendDataByRfcomm device uuid dataByteArray]
          | none => []
      | none => []
  | .carplayAvailable _ _ wirelessAvailable _ =>
      if wirelessAvailable then [.getCarplayCompatSoftApConfigure] else []
  | .disableBluetooth macAddress =>
      match mBtRfcommDevice with
      | some device =>
          (match uuidString2SUUID IAP2_BT_DEVICE with
            | some uuid => [.stopRfcommTransform device uuid]
            | none => []) ++
          [.disableHfpProfile macAddress, .disableA2dpProfile macAddress,
            .disablePbapProfile macAddress, .disableAvrcpProfile macAddress]
      | none => []
  | .mediaCodecFormatChange => [.startActivity]

/-- The coroutine that a call launches to start a transport. -/
def startOf : RuntimeCall → Option (BluetoothDevice × UUID)
  | .startRfcommTransform device uuid => some (device, uuid)
  | _ => none

end Carplay

/-
`BluetoothProfileManager`: disconnecting the profiles of a device by its address.

The four `disable…ProfileByAddress` look for the first connected device of their
proxy whose address in lower case is the text they are given, and call
`disconnect` for it.

* `disableProfileByAddress_eq_some` — what is disconnected is connected and has
  that address;
* `exists_disableProfileByAddress` — where a device is connected that a text in
  lower case names, one is found; `addresses_of_lowercase_eq`: any other text
  finds none.
-/
import GrpcJniClient.BluetoothExt
import GrpcJniClient.NormalLookup
import Mathlib

namespace Carplay

/-- Kotlin's `lowercase`, on ASCII text. -/
def lowercase (s : String) : String := String.ofList (s.toList.map Char.toLower)

@[simp] theorem lowercase_lowercase (s : String) : lowercase (lowercase s) = lowercase s := by
  have hcomp : Char.toLower ∘ Char.toLower = Char.toLower := funext Char.toLower_toLower_eq_toLower
  simp [lowercase, hcomp]

/-- The text names the device; the case of the letters of an address is
immaterial. -/
def Addresses (mac : String) (device : BluetoothDevice) : Prop :=
  lowercase device.address = lowercase mac

instance (mac : String) (device : BluetoothDevice) : Decidable (Addresses mac device) :=
  inferInstanceAs (Decidable (lowercase device.address = lowercase mac))

namespace Profile

/-- A `BluetoothProfile` proxy. -/
structure BluetoothProfile where
  connectedDevices : List BluetoothDevice
  deriving DecidableEq, Repr

/-- The proxies of a `BluetoothProfileManager`; `none` until the profile's service
is connected. -/
structure BluetoothProfileManager where
  mA2dpSinkBluetoothProfileProxy : Option BluetoothProfile
  mHfpClientBluetoothProfileProxy : Option BluetoothProfile
  mAvrcpControlBluetoothProfileProxy : Option BluetoothProfile
  mPbapClientBluetoothProfileProxy : Option BluetoothProfile
  deriving DecidableEq, Repr

/-- The profiles a manager disconnects. -/
inductive ProfileId where
  | a2dpSink
  | hfpClient
  | avrcpControl
  | pbapClient
  deriving DecidableEq, Repr

/-- The device of the proxy that `disconnect` is called with, if any. -/
def disableProfileByAddress (proxy : Option BluetoothProfile) (address : String) :
    Option BluetoothDevice :=
  proxy.bind fun p => p.connectedDevices.find? fun d => lowercase d.address == address

namespace BluetoothProfileManager

def initial : BluetoothProfileManager := ⟨none, none, none, none⟩

def proxy (m : BluetoothProfileManager) : ProfileId → Option BluetoothProfile
  | .a2dpSink => m.mA2dpSinkBluetoothProfileProxy
  | .hfpClient => m.mHfpClientBluetoothProfileProxy
  | .avrcpControl => m.mAvrcpControlBluetoothProfileProxy
  | .pbapClient => m.mPbapClientBluetoothProfileProxy

/-- `onServiceConnected`, `onServiceDisconnected`, and any change of the devices
connected to the proxy. -/
def setProxy (m : BluetoothProfileManager) (id : ProfileId) (p : Option BluetoothProfile) :
    BluetoothProfileManager :=
  match id with
  | .a2dpSink => { m with mA2dpSinkBluetoothProfileProxy := p }
  | .hfpClient => { m with mHfpClientBluetoothProfileProxy := p }
  | .avrcpControl => { m with mAvrcpControlBluetoothProfileProxy := p }
  | .pbapClient => { m with mPbapClientBluetoothProfileProxy := p }

/-- `BluetoothProfileManager.disableA2dpSinkProfileByAddress`. -/
def disableA2dpSinkProfileByAddress (m : BluetoothProfileManager) (address : String) :
    Option BluetoothDevice :=
  disableProfileByAddress m.mA2dpSinkBluetoothProfileProxy address

/-- `BluetoothProfileManager.disableHfpClientProfileByAddress`. -/
def disableHfpClientProfileByAddress (m : BluetoothProfileManager) (address : String) :
    Option BluetoothDevice :=
  disableProfileByAddress m.mHfpClientBluetoothProfileProxy address

/-- `BluetoothProfileManager.disablePbapClientProfileByAddress`. -/
def disablePbapClientProfileByAddress (m : BluetoothProfileManager) (address : String) :
    Option BluetoothDevice :=
  disableProfileByAddress m.mPbapClientBluetoothProfileProxy address

/-- `BluetoothProfileManager.disableAvrcpClientProfileByAddress`. -/
def disableAvrcpClientProfileByAddress (m : BluetoothProfileManager) (address : String) :
    Option BluetoothDevice :=
  disableProfileByAddress m.mAvrcpControlBluetoothProfileProxy address

/-- The device is connected to the profile. -/
def Connected (m : BluetoothProfileManager) (id : ProfileId) (device : BluetoothDevice) : Prop :=
  ∃ p, m.proxy id = some p ∧ device ∈ p.connectedDevices

end BluetoothProfileManager

variable {m : BluetoothProfileManager} {id : ProfileId} {mac : String} {device : BluetoothDevice}

/-- What is disconnected is connected and has the address. -/
theorem disableProfileByAddress_eq_some
    (h : disableProfileByAddress (m.proxy id) mac = some device) :
    m.Connected id device ∧ lowercase device.address = mac := by
  rw [disableProfileByAddress, Option.bind_eq_some_iff] at h
  obtain ⟨p, hp, hfind⟩ := h
  obtain ⟨hmem, haddress, -⟩ := NormalLookup.of_select_eq_some lowercase_lowercase hfind
  exact ⟨⟨p, hp, hmem⟩, haddress⟩

/-- A device that is found is one that the text names, and the text is in lower
case. -/
theorem addresses_of_lowercase_eq (h : lowercase device.address = mac) :
    Addresses mac device ∧ lowercase mac = mac := by
  have hmac : lowercase mac = mac := by
    rw [← h, lowercase_lowercase]
  exact ⟨h.trans hmac.symm, hmac⟩

/-- Where a device is connected that a text in lower case names, one is found. -/
theorem exists_disableProfileByAddress (hmac : lowercase mac = mac) (hc : m.Connected id device)
    (hd : Addresses mac device) :
    ∃ d, disableProfileByAddress (m.proxy id) mac = some d ∧ Addresses mac d := by
  obtain ⟨p, hp, hmem⟩ := hc
  have hfind : NormalLookup.select lowercase (·.address) p.connectedDevices mac ≠ none := by
    rw [Ne, NormalLookup.select_eq_none_iff lowercase_lowercase]
    exact fun hnone => hnone hmac device hmem hd
  obtain ⟨d, hselect⟩ := Option.ne_none_iff_exists'.mp hfind
  have hsome : disableProfileByAddress (m.proxy id) mac = some d := by
    rw [disableProfileByAddress, hp]
    exact hselect
  exact ⟨d, hsome, (addresses_of_lowercase_eq (disableProfileByAddress_eq_some hsome).2).1⟩

end Profile

end Carplay

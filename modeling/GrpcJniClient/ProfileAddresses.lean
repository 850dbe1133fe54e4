/-
The letter case of the address of a `DisableBluetoothEvent`.

`startBtIap2Link` sends the address of a bonded device as it is.  The four
`disable…ProfileByAddress` compare the text that comes back with the addresses of
the connected devices in lower case, the text itself is not changed.

* `selectSame_iff` — two texts that differ in letter case only find the same
  devices exactly if both or neither are in lower case, or nothing is connected
  that they name;
* `disconnects_iff` — the address that was sent disconnects the device exactly if
  it is in lower case;
* `own_address_disconnects_nothing` — an address as the platform writes it is not.
-/
import GrpcJniClient.DisableBluetooth

open Carplay.Profile

namespace Carplay.DisableBluetooth

/-- The four functions call `disconnect` for the same devices. -/
structure SelectSame (m : BluetoothProfileManager) (a b : String) : Prop where
  a2dpSink : m.disableA2dpSinkProfileByAddress a = m.disableA2dpSinkProfileByAddress b
  hfpClient : m.disableHfpClientProfileByAddress a = m.disableHfpClientProfileByAddress b
  pbapClient : m.disablePbapClientProfileByAddress a = m.disablePbapClientProfileByAddress b
  avrcpControl : m.disableAvrcpClientProfileByAddress a = m.disableAvrcpClientProfileByAddress b

/-- The event with the device's own address disconnects each profile that the
device is connected to. -/
def Disconnects (s : State) (device : BluetoothDevice) : Prop :=
  ∀ id, s.mBluetoothProfileManager.Connected id device →
    (id, device) ∈ s.disconnected device.address

/-- Among the devices connected to the profile, no other one before it has its
address in other letters. -/
def Foremost (m : BluetoothProfileManager) (id : ProfileId) (device : BluetoothDevice) : Prop :=
  ∃ p, m.proxy id = some p ∧ ∃ before after, p.connectedDevices = before ++ device :: after ∧
    ∀ d ∈ before, ¬ Addresses device.address d

variable {m : BluetoothProfileManager} {a b : String} {id : ProfileId} {device : BluetoothDevice}
  {s t : State} {l : Label}

/-! ### Two texts -/

theorem disableProfileByAddress_eq_iff (hab : lowercase a = lowercase b)
    (proxy : Option BluetoothProfile) :
    disableProfileByAddress proxy a = disableProfileByAddress proxy b ↔
      (lowercase a = a ↔ lowercase b = b) ∨
        ∀ p, proxy = some p → ∀ d ∈ p.connectedDevices, ¬ Addresses a d := by
  cases proxy with
  | none => exact ⟨fun _ => .inr fun p hp => absurd hp (by simp), fun _ => rfl⟩
  | some p =>
    refine (NormalLookup.select_eq_select_iff lowercase_lowercase hab).trans (or_congr_right ?_)
    constructor
    · intro h p' hp'
      obtain rfl := Option.some_inj.mp hp'
      exact h
    · intro h
      exact h p rfl

theorem selectSame_iff (hab : lowercase a = lowercase b) :
    SelectSame m a b ↔
      (lowercase a = a ↔ lowercase b = b) ∨ ∀ id d, m.Connected id d → ¬ Addresses a d := by
  -- one lookup for each profile
  have hall : SelectSame m a b ↔
      ∀ id, disableProfileByAddress (m.proxy id) a = disableProfileByAddress (m.proxy id) b := by
    constructor
    · intro h id
      cases id with
      | a2dpSink => exact h.a2dpSink
      | hfpClient => exact h.hfpClient
      | avrcpControl => exact h.avrcpControl
      | pbapClient => exact h.pbapClient
    · intro h
      exact ⟨h .a2dpSink, h .hfpClient, h .pbapClient, h .avrcpControl⟩
  rw [hall]
  simp only [disableProfileByAddress_eq_iff hab, forall_or_left]
  refine or_congr_right ?_
  constructor
  · rintro h id d ⟨p, hp, hd⟩
    exact h id p hp d hd
  · intro h id p hp d hd
    exact h id d ⟨p, hp, hd⟩

/-! ### The address that was sent -/

theorem disableProfileByAddress_self_iff :
    disableProfileByAddress (m.proxy id) device.address = some device ↔
      lowercase device.address = device.address ∧ Foremost m id device := by
  rw [disableProfileByAddress, Option.bind_eq_some_iff]
  constructor
  · rintro ⟨p, hp, h⟩
    obtain ⟨-, hlower, before, after, hl, hbefore⟩ :=
      (NormalLookup.select_eq_some_iff lowercase_lowercase).mp h
    exact ⟨hlower, p, hp, before, after, hl, hbefore⟩
  · rintro ⟨hlower, p, hp, before, after, hl, hbefore⟩
    exact ⟨p, hp, (NormalLookup.select_eq_some_iff lowercase_lowercase).mpr
      ⟨rfl, hlower, before, after, hl, hbefore⟩⟩

/-- A device that is remembered is replaced, never forgotten. -/
theorem remembered_step (hs : s.mBtRfcommDevice.isSome = true) (h : s.step l = some t) :
    t.mBtRfcommDevice.isSome = true := by
  cases l with
  | bondChanged d v =>
    obtain rfl := Option.some_inj.mp h
    show (collectBluetoothEvent s.mBtRfcommDevice (.bondChanged d v)).1.isSome = true
    rw [collectBluetoothEvent]
    split
    · rfl
    · exact hs
  | start k o =>
    obtain ⟨⟨d, u⟩, -, rfl⟩ := Option.map_eq_some_iff.mp h
    exact hs
  | peerClose c =>
    obtain ⟨m, -, rfl⟩ := Option.map_eq_some_iff.mp h
    exact hs
  | setProxy i p =>
    obtain rfl := Option.some_inj.mp h
    exact hs

/-- The event that links a device makes it the remembered one. -/
theorem remembered_of_sent {v : ℤ}
    (hsent : RuntimeCall.startBtIap2Link device.address ∈
      (collectBluetoothEvent s.mBtRfcommDevice (.bondChanged device v)).2) :
    (collectBluetoothEvent s.mBtRfcommDevice (.bondChanged device v)).1 = some device := by
  rw [collectBluetoothEvent] at hsent ⊢
  split at hsent
  · rename_i hbonded
    rw [if_pos hbonded]
  · cases hsent

theorem remembered_of_exec {v : ℤ} {after : List Label}
    (hsent : RuntimeCall.startBtIap2Link device.address ∈
      (collectBluetoothEvent s.mBtRfcommDevice (.bondChanged device v)).2)
    (h : Run.exec State.step s (.bondChanged device v :: after) = some t) :
    t.mBtRfcommDevice.isSome = true := by
  rw [Run.exec_cons, Option.bind_eq_some_iff] at h
  obtain ⟨u, hu, ht⟩ := h
  obtain rfl := Option.some_inj.mp hu
  -- the event remembers a device, and no later step forgets it
  refine Run.exec_invariant (I := fun s : State => s.mBtRfcommDevice.isSome = true)
    (C := fun _ _ => True) (fun _ _ _ hs _ ht => remembered_step hs ht) ?_ (Run.along_true _ _) ht
  show (collectBluetoothEvent s.mBtRfcommDevice (.bondChanged device v)).1.isSome = true
  rw [remembered_of_sent hsent]
  rfl

theorem disconnects_iff (hs : s.mBtRfcommDevice.isSome = true) :
    Disconnects s device ↔ ∀ id, s.mBluetoothProfileManager.Connected id device →
      lowercase device.address = device.address ∧
        Foremost s.mBluetoothProfileManager id device := by
  simp only [Disconnects, mem_disconnected, hs, true_and, disableProfileByAddress_self_iff]

/-- **When the letter case of an address is ignored.**  Two texts that differ in
letter case only find the same devices exactly if both or neither are in lower
case, or no connected device has that address.  And the event with the address
that `startBtIap2Link` has sent for a device, however much later it is handled,
disconnects the profiles of the device exactly if the address is in lower case and
no device before it is found with it. -/
theorem ignores_case_iff (m : BluetoothProfileManager) (a b : String)
    (hab : lowercase a = lowercase b) (s t : State) (device : BluetoothDevice) (v : ℤ)
    (after : List Label)
    (hsent : RuntimeCall.startBtIap2Link device.address ∈
      (collectBluetoothEvent s.mBtRfcommDevice (.bondChanged device v)).2)
    (ht : Run.exec State.step s (.bondChanged device v :: after) = some t) :
    (SelectSame m a b ↔
      (lowercase a = a ↔ lowercase b = b) ∨ ∀ id d, m.Connected id d → ¬ Addresses a d) ∧
    (Disconnects t device ↔ ∀ id, t.mBluetoothProfileManager.Connected id device →
      lowercase device.address = device.address ∧
        Foremost t.mBluetoothProfileManager id device) :=
  ⟨selectSame_iff hab, disconnects_iff (remembered_of_exec hsent ht)⟩

/-- A phone, and one without letters in its address. -/
private def phone : BluetoothDevice := ⟨"A4:C3:37:5E:0B:1D"⟩
private def numeric : BluetoothDevice := ⟨"00:11:22:33:44:55"⟩

private def connected (device : BluetoothDevice) : BluetoothProfileManager :=
  ⟨some ⟨[device]⟩, some ⟨[device]⟩, some ⟨[device]⟩, some ⟨[device]⟩⟩

/-- The device connects its profiles. -/
private def connectAll (device : BluetoothDevice) : List Label :=
  [.setProxy .hfpClient (some ⟨[device]⟩), .setProxy .a2dpSink (some ⟨[device]⟩),
    .setProxy .pbapClient (some ⟨[device]⟩), .setProxy .avrcpControl (some ⟨[device]⟩)]

theorem ignores_case_iff_numeric : ∃ t,
    Run.exec State.step State.initial (.bondChanged numeric BOND_STATE_BONDED :: connectAll numeric)
        = some t ∧
      SelectSame (connected numeric) phone.address (lowercase phone.address) ∧
        Disconnects t numeric := by
  obtain ⟨t, ht, hm⟩ : ∃ t, Run.exec State.step State.initial
      (.bondChanged numeric BOND_STATE_BONDED :: connectAll numeric) = some t ∧
        t.mBluetoothProfileManager = connected numeric := ⟨_, rfl, rfl⟩
  obtain ⟨hsame, hdisconnects⟩ :=
    ignores_case_iff (connected numeric) phone.address (lowercase phone.address)
      (lowercase_lowercase _).symm .initial t numeric BOND_STATE_BONDED (connectAll numeric)
      (by decide) ht
  have hproxy : ∀ id, (connected numeric).proxy id = some ⟨[numeric]⟩ := by
    intro id
    cases id <;> rfl
  refine ⟨t, ht, hsame.mpr (.inr ?_), hdisconnects.mpr ?_⟩
  · rintro id d ⟨p, hp, hd⟩
    obtain rfl := Option.some_inj.mp ((hproxy id).symm.trans hp)
    obtain rfl := List.mem_singleton.mp hd
    decide
  · intro id _
    rw [hm]
    exact ⟨by decide, ⟨[numeric]⟩, hproxy id, [], [], rfl, fun _ hd => absurd hd List.not_mem_nil⟩

/-- **A phone's own address disconnects nothing**, while the same in lower case
does: it has letters, and the platform writes them in upper case. -/
theorem own_address_disconnects_nothing :
    ¬ (∀ (m : BluetoothProfileManager) (a b : String), lowercase a = lowercase b →
        SelectSame m a b) ∧
      ¬ ∀ (s t : State) (device : BluetoothDevice) (v : ℤ) (after : List Label),
        RuntimeCall.startBtIap2Link device.address ∈
            (collectBluetoothEvent s.mBtRfcommDevice (.bondChanged device v)).2 →
          Run.exec State.step s (.bondChanged device v :: after) = some t →
            Disconnects t device := by
  constructor
  · intro h
    have hsame := h (connected phone) phone.address (lowercase phone.address)
      (lowercase_lowercase _).symm
    exact absurd hsame.a2dpSink (by decide)
  · intro h
    have hdisconnects := h .initial _ phone BOND_STATE_BONDED (connectAll phone) (by decide) rfl
    exact absurd (hdisconnects .a2dpSink ⟨_, rfl, List.mem_singleton_self phone⟩) (by decide)

end Carplay.DisableBluetooth

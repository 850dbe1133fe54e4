/-
`BluetoothExt.kt`: which of a device's UUIDs name the iAP2 service.

`UUID.toString` writes the 128 bits as five groups of hexadecimal digits, of
fixed widths; `transformUuidsUpper` turns the texts to upper case, and
`checkBtUuidSupportIap2` looks for two of them.

* `uuidString2SUUID_uppercase` — the texts give the UUIDs back;
* `uppercase_toString_eq_iff` — so a text is that of a UUID exactly if the UUID
  is what the text is read as;
* `checkBtUuidSupportIap2_iff` — detection on texts is equality of the values;
* `mem_collectBondChanged_iff` — so `CarplayService` starts a transport for the
  bonded devices with one of the two UUIDs, and for no others.
-/
import GrpcJniClient.CarplayRuntime
import GrpcJniClient.Numeral
import Mathlib.Data.Bool.Basic
import Mathlib.Data.Option.Basic

namespace Carplay

/-- `android.os.ParcelUuid`. -/
structure ParcelUuid where
  uuid : UUID
  deriving DecidableEq, Repr

/-- Kotlin's `uppercase`, on ASCII text. -/
def uppercase (s : String) : String := String.ofList (s.toList.map Char.toUpper)

namespace UUID

def mostSigBits (u : UUID) : BitVec 64 := u.extractLsb' 64 64

def leastSigBits (u : UUID) : BitVec 64 := u.extractLsb' 0 64

/-- The lowest `digits` hexadecimal digits of `val`. -/
def digits (val : BitVec 64) (digits : ℕ) : List Char :=
  Numeral.write 16 Nat.digitChar digits val.toNat

/-- The groups of the text. -/
def groups (u : UUID) : List (List Char) :=
  [digits (u.mostSigBits >>> 32) 8, digits (u.mostSigBits >>> 16) 4, digits u.mostSigBits 4,
    digits (u.leastSigBits >>> 48) 4, digits u.leastSigBits 12]

/-- `UUID.toString`. -/
def toString (u : UUID) : String := String.ofList (['-'].intercalate (groups u))

end UUID

/-- `Array<out ParcelUuid>.transformUuidsUpper`. -/
def transformUuidsUpper (uuids : Array ParcelUuid) : List String :=
  uuids.toList.map fun it => uppercase (UUID.toString it.uuid)

/-- `List<String>.checkBtUuidSupportIap2`. -/
def checkBtUuidSupportIap2 (uuids : List String) : Bool :=
  uuids.any fun it => it == IAP2_BT_HOST || it == IAP2_BT_DEVICE

variable {cs : List Char} {w v : ℕ} {u : UUID} {s : String}

/-! ### A group -/

/-- The digits in upper case. -/
def upperDigit (d : ℕ) : Char := (Nat.digitChar d).toUpper

theorem hexDigit_upperDigit : ∀ d < 16, hexDigit (upperDigit d) = some d := by
  decide

theorem upperDigit_ne : ∀ d < 16, upperDigit d ≠ '-' ∧ upperDigit d ≠ '+' := by
  decide

/-- A group of the text in upper case. -/
def upperGroup (w v : ℕ) : List Char := Numeral.write 16 upperDigit w v

theorem map_toUpper_digits (val : BitVec 64) (w : ℕ) :
    (UUID.digits val w).map Char.toUpper = upperGroup w val.toNat :=
  Numeral.map_write Char.toUpper 16 Nat.digitChar w _

@[simp] theorem length_upperGroup (w v : ℕ) : (upperGroup w v).length = w :=
  Numeral.length_write 16 upperDigit w v

theorem not_mem_upperGroup (w v : ℕ) : '-' ∉ upperGroup w v ∧ '+' ∉ upperGroup w v := by
  constructor
  · intro h
    obtain ⟨d, hd, heq⟩ := Numeral.exists_of_mem_write (by decide) h
    exact (upperDigit_ne d hd).1 heq
  · intro h
    obtain ⟨d, hd, heq⟩ := Numeral.exists_of_mem_write (by decide) h
    exact (upperDigit_ne d hd).2 heq

theorem hexValue_upperGroup (w v : ℕ) : hexValue (upperGroup w v) = some (v % 16 ^ w) :=
  Numeral.value_write (by decide) hexDigit_upperDigit w v

/-- A row of digits without a sign is read as its value. -/
theorem parseLong_of_hexValue (hplus : '+' ∉ cs) (hne : cs ≠ []) (hvalue : hexValue cs = some v)
    (hlt : v < 2 ^ 63) : parseLong cs = some v := by
  rw [parseLong]
  · simp [hne, hvalue, hlt, -Nat.reducePow]
  · rintro ds rfl
    exact hplus List.mem_cons_self

theorem parseLong_upperGroup (hw : 0 < w) (hw' : w < 16) (v : ℕ) :
    parseLong (upperGroup w v) = some (v % 16 ^ w) := by
  refine parseLong_of_hexValue (not_mem_upperGroup w v).2 ?_ (hexValue_upperGroup w v) ?_
  · -- the group is not empty
    intro hnil
    have hlength := length_upperGroup w v
    rw [hnil, List.length_nil] at hlength
    omega
  · -- and at most fifteen digits are below 2⁶³
    calc v % 16 ^ w < 16 ^ w := Nat.mod_lt v (Nat.pow_pos (by decide))
      _ ≤ 16 ^ 15 := Nat.pow_le_pow_right (by decide) (by omega)
      _ < 2 ^ 63 := by decide

/-! ### The text -/

theorem map_toUpper_groups (u : UUID) : u.groups.map (List.map Char.toUpper) =
    [upperGroup 8 (u.mostSigBits >>> 32).toNat, upperGroup 4 (u.mostSigBits >>> 16).toNat,
      upperGroup 4 u.mostSigBits.toNat, upperGroup 4 (u.leastSigBits >>> 48).toNat,
      upperGroup 12 u.leastSigBits.toNat] := by
  simp only [UUID.groups, List.map_cons, List.map_nil, map_toUpper_digits]

/-- The fields of a UUID, put together. -/
theorem fields_append (u : UUID) :
    BitVec.ofNat 32 ((u.mostSigBits >>> 32).toNat % 16 ^ 8) ++
      BitVec.ofNat 16 ((u.mostSigBits >>> 16).toNat % 16 ^ 4) ++
      BitVec.ofNat 16 (u.mostSigBits.toNat % 16 ^ 4) ++
      BitVec.ofNat 16 ((u.leastSigBits >>> 48).toNat % 16 ^ 4) ++
      BitVec.ofNat 48 (u.leastSigBits.toNat % 16 ^ 12) = u := by
  -- a field of `n` digits is the low `4 * n` bits
  have hfield : ∀ (w n : ℕ) (x : BitVec 64), 16 ^ n = 2 ^ w →
      BitVec.ofNat w (x.toNat % 16 ^ n) = x.setWidth w := by
    intro w n x hw
    rw [hw]
    exact BitVec.eq_of_toNat_eq (by simp)
  rw [hfield 32 8 _ rfl, hfield 16 4 _ rfl, hfield 16 4 _ rfl, hfield 16 4 _ rfl,
    hfield 48 12 _ rfl]
  -- bit by bit: the five fields cover the two words once each
  refine BitVec.eq_of_getLsbD_eq fun i hi => ?_
  simp only [BitVec.getLsbD_append, BitVec.getLsbD_setWidth, BitVec.getLsbD_ushiftRight,
    UUID.mostSigBits, UUID.leastSigBits, BitVec.getLsbD_extractLsb']
  grind

/-- Five groups that are read one by one. -/
theorem fromString_intercalate {g₁ g₂ g₃ g₄ g₅ : List Char} {v₁ v₂ v₃ v₄ v₅ : ℕ}
    (hdash : ∀ g ∈ [g₁, g₂, g₃, g₄, g₅], '-' ∉ g)
    (hlength : g₁.length + g₂.length + g₃.length + g₄.length + g₅.length ≤ 32)
    (h₁ : parseLong g₁ = some v₁) (h₂ : parseLong g₂ = some v₂) (h₃ : parseLong g₃ = some v₃)
    (h₄ : parseLong g₄ = some v₄) (h₅ : parseLong g₅ = some v₅) :
    UUID.fromString (String.ofList (['-'].intercalate [g₁, g₂, g₃, g₄, g₅])) =
      some (BitVec.ofNat 32 v₁ ++ BitVec.ofNat 16 v₂ ++ BitVec.ofNat 16 v₃ ++
        BitVec.ofNat 16 v₄ ++ BitVec.ofNat 48 v₅) := by
  -- no group has a dash, so splitting at the dashes gives the groups
  have hsplit := List.splitOn_intercalate '-' hdash (List.cons_ne_nil _ _)
  have hshort : (['-'].intercalate [g₁, g₂, g₃, g₄, g₅]).length ≤ 36 := by
    simp only [List.intercalate, List.intersperse, List.flatten_cons, List.flatten_nil,
      List.length_append, List.length_cons, List.length_nil]
    omega
  rw [UUID.fromString, String.toList_ofList]
  generalize ['-'].intercalate [g₁, g₂, g₃, g₄, g₅] = text at hsplit hshort ⊢
  rw [hsplit]
  simp [hshort, h₁, h₂, h₃, h₄, h₅]

/-- **The round trip.**  The text of a UUID, in upper case, is read as the UUID. -/
theorem uuidString2SUUID_uppercase (u : UUID) :
    uuidString2SUUID (uppercase (UUID.toString u)) = some u := by
  -- the dashes have no upper case
  have htext : uppercase (UUID.toString u) =
      String.ofList (['-'].intercalate (u.groups.map (List.map Char.toUpper))) := by
    rw [uppercase, UUID.toString, String.toList_ofList, UUID.groups]
    simp [List.intercalate]
  rw [uuidString2SUUID, htext, map_toUpper_groups, fromString_intercalate, fields_append]
  · simp [not_mem_upperGroup]
  · simp
  · exact parseLong_upperGroup (by decide) (by decide) _
  · exact parseLong_upperGroup (by decide) (by decide) _
  · exact parseLong_upperGroup (by decide) (by decide) _
  · exact parseLong_upperGroup (by decide) (by decide) _
  · exact parseLong_upperGroup (by decide) (by decide) _

/-- A text in upper case is that of a UUID exactly if it is read as the UUID. -/
theorem uppercase_toString_eq_iff {u₀ : UUID} (hs : uppercase (UUID.toString u₀) = s) :
    uppercase (UUID.toString u) = s ↔ uuidString2SUUID s = some u := by
  constructor
  · rintro rfl
    exact uuidString2SUUID_uppercase u
  · intro hread
    -- `s` is the text of `u₀`, so reading it gives `u₀`
    rw [← hs, uuidString2SUUID_uppercase, Option.some_inj] at hread
    rw [← hread, hs]

/-! ### Detection -/

/-- The two texts are in the form that `transformUuidsUpper` writes. -/
theorem uppercase_toString_IAP2 :
    uppercase (UUID.toString 0x00000000DECAFADEDECADEAFDECACAFF#128) = IAP2_BT_HOST ∧
      uppercase (UUID.toString 0x00000000DECAFADEDECADEAFDECACAFE#128) = IAP2_BT_DEVICE := by
  decide

/-- Some UUID is that of the host or that of the device. -/
def SupportsIap2 (uuids : Array ParcelUuid) : Prop :=
  ∃ it ∈ uuids, uuidString2SUUID IAP2_BT_HOST = some it.uuid ∨
    uuidString2SUUID IAP2_BT_DEVICE = some it.uuid

theorem checkBtUuidSupportIap2_iff (uuids : Array ParcelUuid) :
    checkBtUuidSupportIap2 (transformUuidsUpper uuids) = true ↔ SupportsIap2 uuids := by
  rw [checkBtUuidSupportIap2, transformUuidsUpper, List.any_map, List.any_eq_true, SupportsIap2]
  simp only [Function.comp_apply, Bool.or_eq_true, beq_iff_eq, Array.mem_toList_iff,
    uppercase_toString_eq_iff uppercase_toString_IAP2.1,
    uppercase_toString_eq_iff uppercase_toString_IAP2.2]

theorem map_uuidString2SUUID (uuids : Array ParcelUuid) :
    (transformUuidsUpper uuids).map uuidString2SUUID = uuids.toList.map fun it => some it.uuid := by
  rw [transformUuidsUpper, List.map_map]
  refine List.map_congr_left fun it _ => ?_
  rw [Function.comp_apply, uuidString2SUUID_uppercase]

/-- **Detection on texts is equality of UUIDs.**  The array has the UUID of the
host or of the device exactly if one of the two texts is found among those of the
array, and each of these texts is read as the UUID it was made from. -/
theorem detection_agrees (uuids : Array ParcelUuid) :
    (checkBtUuidSupportIap2 (transformUuidsUpper uuids) = true ↔ SupportsIap2 uuids) ∧
      (transformUuidsUpper uuids).map uuidString2SUUID = uuids.toList.map fun it => some it.uuid :=
  ⟨checkBtUuidSupportIap2_iff uuids, map_uuidString2SUUID uuids⟩

/-! ### The service -/

namespace CarplayService

/-- The collector of `CarplayService` on a `BondChangedEvent`; `uuids` is
`event.device.uuids`. -/
def collectBondChanged (device : BluetoothDevice) (uuids : Option (Array ParcelUuid))
    (changedValue : ℤ) : List RuntimeCall :=
  if changedValue = BOND_STATE_BONDED then
    if checkBtUuidSupportIap2 (transformUuidsUpper (uuids.getD #[])) then
      match uuidString2SUUID IAP2_BT_DEVICE with
      | some uuid => [.startRfcommTransform device uuid]
      | none => []
    else []
  else []

/-- A transport is started for a bonded device with one of the two UUIDs. -/
theorem mem_collectBondChanged_iff {device : BluetoothDevice} {uuids : Option (Array ParcelUuid)}
    {changedValue : ℤ} {call : RuntimeCall} :
    call ∈ collectBondChanged device uuids changedValue ↔
      changedValue = BOND_STATE_BONDED ∧ SupportsIap2 (uuids.getD #[]) ∧
        ∃ uuid, uuidString2SUUID IAP2_BT_DEVICE = some uuid ∧
          call = .startRfcommTransform device uuid := by
  rw [collectBondChanged, uuidString2SUUID_IAP2_BT_DEVICE]
  split_ifs with hbonded hsupports
  · rw [checkBtUuidSupportIap2_iff] at hsupports
    simp [hbonded, hsupports]
  · rw [checkBtUuidSupportIap2_iff] at hsupports
    simp [hsupports]
  · simp [hbonded]

end CarplayService

end Carplay

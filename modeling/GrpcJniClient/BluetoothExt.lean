/-
Platform values of the Bluetooth side, and `BluetoothExt.kt` with
`BluetoothConsts.kt`.

`java.util.UUID` is a 128-bit value; `UUID.fromString` is the JDK's, for ASCII
input: at most 36 characters, five groups separated by dashes, each read by
`Long.parseLong(_, 16)` and cut to the width of its field.
-/
import Mathlib.Algebra.Group.Nat.Defs
import Mathlib.Data.List.Basic

namespace Carplay

/-- `android.bluetooth.BluetoothDevice`: devices are equal when their addresses
are. -/
structure BluetoothDevice where
  address : String
  deriving DecidableEq, Repr

/-- `java.util.UUID`, a 128-bit value. -/
abbrev UUID := BitVec 128

/-- A Kotlin `ByteArray`. -/
abbrev Bytes := List UInt8

/-- `Character.digit(c, 16)`. -/
def hexDigit (c : Char) : Option ℕ :=
  if '0' ≤ c ∧ c ≤ '9' then some (c.toNat - '0'.toNat)
  else if 'a' ≤ c ∧ c ≤ 'f' then some (c.toNat - 'a'.toNat + 10)
  else if 'A' ≤ c ∧ c ≤ 'F' then some (c.toNat - 'A'.toNat + 10)
  else none

/-- The value of a row of hexadecimal digits. -/
def hexValue (cs : List Char) : Option ℕ :=
  cs.foldlM (fun acc c => (hexDigit c).map (acc * 16 + ·)) 0

/-- `Long.parseLong(_, 16)` on text without a minus sign; `none` is the
`NumberFormatException`. -/
def parseLong (cs : List Char) : Option ℕ := do
  let digits := match cs with
    | '+' :: ds => ds
    | ds => ds
  guard (digits ≠ [])
  let v ← hexValue digits
  guard (v < 2 ^ 63)
  return v

/-- `UUID.fromString`; `none` is the `IllegalArgumentException`. -/
def UUID.fromString (name : String) : Option UUID := do
  let cs := name.toList
  guard (cs.length ≤ 36)
  match cs.splitOn '-' with
  | [g1, g2, g3, g4, g5] =>
      let v1 ← parseLong g1
      let v2 ← parseLong g2
      let v3 ← parseLong g3
      let v4 ← parseLong g4
      let v5 ← parseLong g5
      return BitVec.ofNat 32 v1 ++ BitVec.ofNat 16 v2 ++ BitVec.ofNat 16 v3 ++
        BitVec.ofNat 16 v4 ++ BitVec.ofNat 48 v5
  | _ => none

def IAP2_BT_HOST : String := "00000000-DECA-FADE-DECA-DEAFDECACAFF"

def IAP2_BT_DEVICE : String := "00000000-DECA-FADE-DECA-DEAFDECACAFE"

/-- `String.uuidString2SUUID`; `none` is `Result.failure`. -/
def uuidString2SUUID (s : String) : Option UUID := UUID.fromString s

/-- The constant the runtime looks its channel up with is a UUID. -/
theorem uuidString2SUUID_IAP2_BT_DEVICE :
    uuidString2SUUID IAP2_BT_DEVICE = some 0x00000000DECAFADEDECADEAFDECACAFE#128 := by
  decide

end Carplay

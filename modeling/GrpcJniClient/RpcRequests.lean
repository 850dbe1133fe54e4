/-
The request handlers that `CarplayRpcRuntime` registers, from the bytes a peer
sends to the call they end in.

`register_method` verifies the buffer and hands its root table to the handler.
Every field of the four request types is optional to the verifier, and the
handlers use their pointers without a test:

* `Method.Checked` — what the generated `Verify` of a request type establishes;
* `Method.handler_of_present`, `Method.handler_of_absent` — a handler returns a
  call if the fields it dereferences are all present, and follows a null pointer
  if one is not;
* `handled_iff_present` — so an accepted buffer is handled without a null
  dereference exactly if they are present;
* `empty_table_crashes_handlers` — a root table without fields is accepted.
-/
import GrpcJniClient.BluetoothExt
import GrpcJniClient.Flatbuffers

open Flatbuffers

namespace Carplay.Rpc

/-! ### The generated request types -/

namespace BtRfcommData

def VT_DATA : ℕ := 4
def VT_LENGTH : ℕ := 6

/-- `BtRfcommData::data`. -/
def data (buf : Bytes) (table : ℕ) : Except Fault (Option ℕ) := getPointer buf table VT_DATA

/-- `BtRfcommData::Verify`. -/
def verify (buf : Bytes) (table : ℕ) : Verifying Bool :=
  verifyTableStart buf table <&&>
    verifyOffset buf table VT_DATA <&&>
    (do verifyVector buf (← data buf table)) <&&>
    verifyField 4 buf table VT_LENGTH 4 <&&>
    endTable

end BtRfcommData

namespace CarPlayAvailability

def VT_WIRED_AVAILABLE : ℕ := 4
def VT_USB_TRANSPORT_IDENTIFIER : ℕ := 6
def VT_WIRELESS_AVAILABLE : ℕ := 8
def VT_BLUETOOTH_TRANSPORT_IDENTIFIER : ℕ := 10

/-- `CarPlayAvailability::wired_available`. -/
def wiredAvailable (buf : Bytes) (table : ℕ) : Except Fault Bool := do
  return (← getField 1 buf table VT_WIRED_AVAILABLE 0) != 0

/-- `CarPlayAvailability::usb_transport_identifier`. -/
def usbTransportIdentifier (buf : Bytes) (table : ℕ) : Except Fault (Option ℕ) :=
  getPointer buf table VT_USB_TRANSPORT_IDENTIFIER

/-- `CarPlayAvailability::wireless_available`. -/
def wirelessAvailable (buf : Bytes) (table : ℕ) : Except Fault Bool := do
  return (← getField 1 buf table VT_WIRELESS_AVAILABLE 0) != 0

/-- `CarPlayAvailability::bluetooth_transport_identifier`. -/
def bluetoothTransportIdentifier (buf : Bytes) (table : ℕ) : Except Fault (Option ℕ) :=
  getPointer buf table VT_BLUETOOTH_TRANSPORT_IDENTIFIER

/-- `CarPlayAvailability::Verify`. -/
def verify (buf : Bytes) (table : ℕ) : Verifying Bool :=
  verifyTableStart buf table <&&>
    verifyField 1 buf table VT_WIRED_AVAILABLE 1 <&&>
    verifyOffset buf table VT_USB_TRANSPORT_IDENTIFIER <&&>
    (do verifyString buf (← usbTransportIdentifier buf table)) <&&>
    verifyField 1 buf table VT_WIRELESS_AVAILABLE 1 <&&>
    verifyOffset buf table VT_BLUETOOTH_TRANSPORT_IDENTIFIER <&&>
    (do verifyString buf (← bluetoothTransportIdentifier buf table)) <&&>
    endTable

end CarPlayAvailability

namespace StringRequest

def VT_VALUE : ℕ := 4

/-- `StringRequest::value`. -/
def value (buf : Bytes) (table : ℕ) : Except Fault (Option ℕ) := getPointer buf table VT_VALUE

/-- `StringRequest::Verify`. -/
def verify (buf : Bytes) (table : ℕ) : Verifying Bool :=
  verifyTableStart buf table <&&>
    verifyOffset buf table VT_VALUE <&&>
    (do verifyString buf (← value buf table)) <&&>
    endTable

end StringRequest

namespace BytesRequest

def VT_VALUE : ℕ := 4

/-- `BytesRequest::value`. -/
def value (buf : Bytes) (table : ℕ) : Except Fault (Option ℕ) := getPointer buf table VT_VALUE

/-- `BytesRequest::Verify`. -/
def verify (buf : Bytes) (table : ℕ) : Verifying Bool :=
  verifyTableStart buf table <&&>
    verifyOffset buf table VT_VALUE <&&>
    (do verifyVector buf (← value buf table)) <&&>
    endTable

end BytesRequest

/-! ### The handlers -/

/-- The call that a handler ends in; C strings are given by their bytes. -/
inductive HandlerCall where
  | callbackWithByteArray (data : Bytes)
  | callbackCarplayAvailable (wiredAvailable : Bool) (usbStr : Bytes) (wirelessAvailable : Bool)
      (btStr : Bytes)
  | queueInputBuffer (data : Bytes)
  | disableBluetooth (addr : Bytes)
  deriving DecidableEq, Repr

/-- `handleSendIap2DetectPacket`. -/
def handleSendIap2DetectPacket (buf : Bytes) (req : ℕ) : Except Fault (Option HandlerCall) := do
  let payload ← BtRfcommData.data buf req
  let len ← vectorSize buf payload
  if len = 0 then return none
  else return some (.callbackWithByteArray (← readBytes len buf (← vectorData payload)))

/-- `handleCarplayAvailablePacket`. -/
def handleCarplayAvailablePacket (buf : Bytes) (req : ℕ) : Except Fault (Option HandlerCall) := do
  let usbStr ← readCString buf (← vectorData (← CarPlayAvailability.usbTransportIdentifier buf req))
  let btStr ←
    readCString buf (← vectorData (← CarPlayAvailability.bluetoothTransportIdentifier buf req))
  let wired ← CarPlayAvailability.wiredAvailable buf req
  let wireless ← CarPlayAvailability.wirelessAvailable buf req
  return some (.callbackCarplayAvailable wired usbStr wireless btStr)

/-- `handleScreenStreamConfiguration`, up to the loop that queues the bytes. -/
def handleScreenStreamConfiguration (buf : Bytes) (req : ℕ) :
    Except Fault (Option HandlerCall) := do
  let dataVec ← BytesRequest.value buf req
  let dataPtr ← vectorData dataVec
  let dataLen ← vectorSize buf dataVec
  return some (.queueInputBuffer (← readBytes dataLen buf dataPtr))

/-- `handleDisableBluetooth`. -/
def handleDisableBluetooth (buf : Bytes) (req : ℕ) : Except Fault (Option HandlerCall) := do
  let addr ← readCString buf (← vectorData (← StringRequest.value buf req))
  return some (.disableBluetooth addr)

/-- The registered methods whose requests carry pointer fields. -/
inductive Method where
  | sendIap2DetectPacket
  | carplayAvailable
  | disableBluetooth
  | screenStreamConfiguration
  deriving DecidableEq, Repr

namespace Method

/-- `RequestT::Verify`. -/
def verify : Method → Bytes → ℕ → Verifying Bool
  | sendIap2DetectPacket => BtRfcommData.verify
  | carplayAvailable => CarPlayAvailability.verify
  | disableBluetooth => StringRequest.verify
  | screenStreamConfiguration => BytesRequest.verify

def handler : Method → Bytes → ℕ → Except Fault (Option HandlerCall)
  | sendIap2DetectPacket => handleSendIap2DetectPacket
  | carplayAvailable => handleCarplayAvailablePacket
  | disableBluetooth => handleDisableBluetooth
  | screenStreamConfiguration => handleScreenStreamConfiguration

/-- The pointer fields that the handler dereferences. -/
def dereferenced : Method → List ℕ
  | sendIap2DetectPacket => [BtRfcommData.VT_DATA]
  | carplayAvailable => [CarPlayAvailability.VT_USB_TRANSPORT_IDENTIFIER,
      CarPlayAvailability.VT_BLUETOOTH_TRANSPORT_IDENTIFIER]
  | disableBluetooth => [StringRequest.VT_VALUE]
  | screenStreamConfiguration => [BytesRequest.VT_VALUE]

/-- The verifier accepts the buffer. -/
def Accepts (m : Method) (buf : Bytes) : Prop := verifyBuffer m.verify buf = .ok true

/-- The wrapper that `register_method` installs; `none` is a rejected buffer. -/
def wrapper (m : Method) (buf : Bytes) : Except Fault (Option (Option HandlerCall)) := do
  if ← verifyBuffer m.verify buf then return some (← m.handler buf (← getRoot buf))
  else return none

end Method

/-! ### What the generated checks establish -/

variable {buf : Bytes} {table : ℕ}

namespace Method

/-- What `RequestT::Verify` establishes. -/
structure Checked (m : Method) (buf : Bytes) (table : ℕ) : Prop where
  verified : ∃ vtable vsize, VerifiedTable buf table vtable vsize
  fields : match m with
    | sendIap2DetectPacket => PointsTo VectorAt buf table BtRfcommData.VT_DATA
    | carplayAvailable =>
        (∃ v, getField 1 buf table CarPlayAvailability.VT_WIRED_AVAILABLE 0 = .ok v) ∧
        PointsTo StringAt buf table CarPlayAvailability.VT_USB_TRANSPORT_IDENTIFIER ∧
        (∃ v, getField 1 buf table CarPlayAvailability.VT_WIRELESS_AVAILABLE 0 = .ok v) ∧
        PointsTo StringAt buf table CarPlayAvailability.VT_BLUETOOTH_TRANSPORT_IDENTIFIER
    | disableBluetooth => PointsTo StringAt buf table StringRequest.VT_VALUE
    | screenStreamConfiguration => PointsTo VectorAt buf table BytesRequest.VT_VALUE

theorem verify_ensures (m : Method) (buf : Bytes) (table : ℕ) :
    Ensures (m.verify buf table) (m.Checked buf table) := by
  cases m with
  | sendIap2DetectPacket =>
    refine ((verifyTableStart_ensures buf table).and fun ⟨vtable, vsize, hT⟩ =>
      (hT.verifyOffset_ensures rfl).and fun hptr =>
        (pointsTo_ensures verifyVector_ensures hptr).and fun _ =>
          (hT.verifyField_ensures rfl 4 4).and fun _ => Ensures.endTable).mono ?_
    rintro ⟨hT, -, hdata, -, -⟩
    exact ⟨hT, hdata⟩
  | carplayAvailable =>
    refine ((verifyTableStart_ensures buf table).and fun ⟨vtable, vsize, hT⟩ =>
      (hT.verifyField_ensures rfl 1 1).and fun _ =>
        (hT.verifyOffset_ensures rfl).and fun husb =>
          (pointsTo_ensures verifyString_ensures husb).and fun _ =>
            (hT.verifyField_ensures rfl 1 1).and fun _ =>
              (hT.verifyOffset_ensures rfl).and fun hbt =>
                (pointsTo_ensures verifyString_ensures hbt).and fun _ => Ensures.endTable).mono ?_
    rintro ⟨hT, hwired, -, husb, hwireless, -, hbt, -⟩
    exact ⟨hT, hwired 0, husb, hwireless 0, hbt⟩
  | disableBluetooth =>
    refine ((verifyTableStart_ensures buf table).and fun ⟨vtable, vsize, hT⟩ =>
      (hT.verifyOffset_ensures rfl).and fun hptr =>
        (pointsTo_ensures verifyString_ensures hptr).and fun _ => Ensures.endTable).mono ?_
    rintro ⟨hT, -, hvalue, -⟩
    exact ⟨hT, hvalue⟩
  | screenStreamConfiguration =>
    refine ((verifyTableStart_ensures buf table).and fun ⟨vtable, vsize, hT⟩ =>
      (hT.verifyOffset_ensures rfl).and fun hptr =>
        (pointsTo_ensures verifyVector_ensures hptr).and fun _ => Ensures.endTable).mono ?_
    rintro ⟨hT, -, hvalue, -⟩
    exact ⟨hT, hvalue⟩

/-! ### The handlers on a verified root table -/

/-- Where the dereferenced fields are present the handler returns. -/
theorem handler_of_present {m : Method} (hC : m.Checked buf table)
    (h : ∀ field ∈ m.dereferenced, Present buf table field) :
    ∃ call, m.handler buf table = .ok call := by
  obtain ⟨vtable, vsize, hT⟩ := hC.verified
  have hfields := hC.fields
  cases m with
  | sendIap2DetectPacket =>
    obtain ⟨p, hp, hvec⟩ := hfields.of_present hT rfl (h _ (List.mem_singleton_self _))
    obtain ⟨size, bytes, hsize, hbytes⟩ := hvec.read
    show ∃ call, handleSendIap2DetectPacket buf table = .ok call
    rw [handleSendIap2DetectPacket, BtRfcommData.data, hp]
    by_cases h0 : size = 0
    · refine ⟨none, ?_⟩
      show (vectorSize buf (some p) >>= _) = _
      rw [hsize]
      exact if_pos h0
    · refine ⟨some (.callbackWithByteArray bytes), ?_⟩
      show (vectorSize buf (some p) >>= _) = _
      rw [hsize]
      refine (if_neg h0).trans ?_
      show (readBytes size buf (p + 4) >>= _) = _
      rw [hbytes]
      rfl
  | carplayAvailable =>
    obtain ⟨⟨wired, hwired⟩, husb, ⟨wireless, hwireless⟩, hbt⟩ := hfields
    obtain ⟨p, hp, hstr⟩ := husb.of_present hT rfl (h _ (by simp [dereferenced]))
    obtain ⟨q, hq, hstr'⟩ := hbt.of_present hT rfl (h _ (by simp [dereferenced]))
    obtain ⟨usbStr, husbStr⟩ := hstr.read
    obtain ⟨btStr, hbtStr⟩ := hstr'.read
    refine ⟨some (.callbackCarplayAvailable (wired != 0) usbStr (wireless != 0) btStr), ?_⟩
    show handleCarplayAvailablePacket buf table = _
    rw [handleCarplayAvailablePacket, CarPlayAvailability.usbTransportIdentifier,
      CarPlayAvailability.bluetoothTransportIdentifier, CarPlayAvailability.wiredAvailable,
      CarPlayAvailability.wirelessAvailable, hp, hq, hwired, hwireless]
    show (readCString buf (p + 4) >>= fun usbStr => readCString buf (q + 4) >>= _) = _
    rw [husbStr, hbtStr]
    rfl
  | disableBluetooth =>
    obtain ⟨p, hp, hstr⟩ := hfields.of_present hT rfl (h _ (List.mem_singleton_self _))
    obtain ⟨chars, hchars⟩ := hstr.read
    refine ⟨some (.disableBluetooth chars), ?_⟩
    show handleDisableBluetooth buf table = _
    rw [handleDisableBluetooth, StringRequest.value, hp]
    show (readCString buf (p + 4) >>= _) = _
    rw [hchars]
    rfl
  | screenStreamConfiguration =>
    obtain ⟨p, hp, hvec⟩ := hfields.of_present hT rfl (h _ (List.mem_singleton_self _))
    obtain ⟨size, bytes, hsize, hbytes⟩ := hvec.read
    refine ⟨some (.queueInputBuffer bytes), ?_⟩
    show handleScreenStreamConfiguration buf table = _
    rw [handleScreenStreamConfiguration, BytesRequest.value, hp]
    show (vectorSize buf (some p) >>= fun size => readBytes size buf (p + 4) >>= _) = _
    rw [hsize]
    show (readBytes size buf (p + 4) >>= _) = _
    rw [hbytes]
    rfl

/-- Where one of them is absent the handler follows a null pointer. -/
theorem handler_of_absent {m : Method} (hC : m.Checked buf table)
    (h : ∃ field ∈ m.dereferenced, ¬ Present buf table field) :
    m.handler buf table = .error .nullDereference := by
  obtain ⟨vtable, vsize, hT⟩ := hC.verified
  obtain ⟨field, hmem, habsent⟩ := h
  have hfields := hC.fields
  cases m with
  | sendIap2DetectPacket =>
    obtain rfl := List.mem_singleton.mp hmem
    show handleSendIap2DetectPacket buf table = _
    rw [handleSendIap2DetectPacket, BtRfcommData.data, hfields.of_absent hT rfl habsent]
    rfl
  | carplayAvailable =>
    obtain ⟨-, husb, -, hbt⟩ := hfields
    show handleCarplayAvailablePacket buf table = _
    rw [handleCarplayAvailablePacket, CarPlayAvailability.usbTransportIdentifier,
      CarPlayAvailability.bluetoothTransportIdentifier]
    -- the first pointer is followed before the second is read
    by_cases hpresent : Present buf table CarPlayAvailability.VT_USB_TRANSPORT_IDENTIFIER
    · obtain ⟨p, hp, hstr⟩ := husb.of_present hT rfl hpresent
      obtain ⟨usbStr, husbStr⟩ := hstr.read
      have hfield : field = CarPlayAvailability.VT_BLUETOOTH_TRANSPORT_IDENTIFIER := by
        rcases List.mem_cons.mp hmem with rfl | hmem
        · exact absurd hpresent habsent
        · exact List.mem_singleton.mp hmem
      subst hfield
      rw [hp, hbt.of_absent hT rfl habsent]
      show (readCString buf (p + 4) >>= _) = _
      rw [husbStr]
      rfl
    · rw [husb.of_absent hT rfl hpresent]
      rfl
  | disableBluetooth =>
    obtain rfl := List.mem_singleton.mp hmem
    show handleDisableBluetooth buf table = _
    rw [handleDisableBluetooth, StringRequest.value, hfields.of_absent hT rfl habsent]
    rfl
  | screenStreamConfiguration =>
    obtain rfl := List.mem_singleton.mp hmem
    show handleScreenStreamConfiguration buf table = _
    rw [handleScreenStreamConfiguration, BytesRequest.value, hfields.of_absent hT rfl habsent]
    rfl

/-- An accepted buffer has a root table that has passed all the checks. -/
theorem Accepts.root {m : Method} (h : m.Accepts buf) :
    ∃ root, getRoot buf = .ok root ∧ m.Checked buf root ∧ m.wrapper buf =
      (m.handler buf root).map some := by
  obtain ⟨b, hb, hroot⟩ := verifyBuffer_ensures m.verify_ensures buf
  obtain rfl := Except.ok.inj (hb.symm.trans h)
  obtain ⟨root, hr, hC⟩ := hroot rfl
  refine ⟨root, hr, hC, ?_⟩
  rw [wrapper, h, hr]
  rfl

/-- Whatever bytes a peer sends, neither the verifier nor the handler reads outside
the buffer, other than through a null pointer. -/
theorem wrapper_never_outOfBounds (m : Method) (buf : Bytes) :
    m.wrapper buf ≠ .error .outOfBounds := by
  obtain ⟨b, hb, -⟩ := verifyBuffer_ensures m.verify_ensures buf
  cases b with
  | false =>
    rw [wrapper, hb]
    exact fun h => by cases h
  | true =>
    obtain ⟨root, -, hC, hw⟩ := Accepts.root hb
    rw [hw]
    by_cases h : ∀ field ∈ m.dereferenced, Present buf root field
    · obtain ⟨call, hcall⟩ := handler_of_present hC h
      rw [hcall]
      exact fun h => by cases h
    · simp only [not_forall, exists_prop] at h
      rw [handler_of_absent hC h]
      exact fun h => by cases h

end Method

/-- In the root table of the buffer the field is present. -/
def PresentInRoot (buf : Bytes) (field : ℕ) : Prop :=
  ∃ root, getRoot buf = .ok root ∧ Present buf root field

/-- **Accepted requests and absent fields.**  An accepted buffer is handled
without following a null pointer exactly if every field that the handler
dereferences is present in the root table. -/
theorem handled_iff_present (m : Method) (buf : Bytes) (h : m.Accepts buf) :
    m.wrapper buf ≠ .error .nullDereference ↔
      ∀ field ∈ m.dereferenced, PresentInRoot buf field := by
  obtain ⟨root, hroot, hC, hw⟩ := h.root
  have hpresent : ∀ field, PresentInRoot buf field ↔ Present buf root field := by
    intro field
    refine ⟨?_, fun hp => ⟨root, hroot, hp⟩⟩
    rintro ⟨root', hroot', hp⟩
    rwa [Except.ok.inj (hroot.symm.trans hroot')]
  simp only [hpresent]
  rw [hw]
  constructor
  · intro hne
    by_contra habsent
    simp only [not_forall, exists_prop] at habsent
    rw [Method.handler_of_absent hC habsent] at hne
    exact hne rfl
  · intro hp
    obtain ⟨call, hcall⟩ := Method.handler_of_present hC hp
    rw [hcall]
    exact fun h => by cases h

/-- A root table at 8 whose vtable at 4 has no slots. -/
private def emptyTable : Bytes := [8, 0, 0, 0, 4, 0, 4, 0, 4, 0, 0, 0]

theorem handled_iff_present_emptyTable :
    Method.disableBluetooth.Accepts emptyTable ∧
      (Method.disableBluetooth.wrapper emptyTable ≠ .error .nullDereference ↔
        ∀ field ∈ Method.disableBluetooth.dereferenced, PresentInRoot emptyTable field) :=
  ⟨rfl, handled_iff_present .disableBluetooth emptyTable rfl⟩

/-- **A table without fields crashes every handler.**  It is accepted as a
request of each of the four types. -/
theorem empty_table_crashes_handlers :
    ¬ ∀ (m : Method) (buf : Bytes), m.Accepts buf →
      m.wrapper buf ≠ .error .nullDereference := by
  intro h
  have haccepts : ∀ m : Method, m.Accepts emptyTable ∧
      m.wrapper emptyTable = .error .nullDereference := by
    intro m
    cases m <;> exact ⟨rfl, rfl⟩
  exact h .disableBluetooth emptyTable (haccepts _).1 (haccepts _).2

end Carplay.Rpc

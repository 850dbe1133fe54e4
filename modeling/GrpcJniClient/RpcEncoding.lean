/-
The requests on the RPC channel, from the values that the generated builders are
given to the values that the other side reads.

Both sides use the generated code and `register_method`, so what one side builds
is verified and read by the other.

* `request_round_trip` — a request to this process is accepted, handed to its
  handler with the values it was built from, and answered;
* `startBtIap2Link_spec`, `receiveBtIap2Data_spec`, `touchScreenHid_spec`,
  `startCarplaySession_spec` — so is each request of this process, its strings
  included;
* `outgoing_round_trip` — all of them at once.
-/
import GrpcJniClient.FlatbufferRoundTrip
import GrpcJniClient.ModifiedUtf8
import GrpcJniClient.RpcRequests
import Mathlib.Data.List.TakeWhile

open Flatbuffers Flatbuffers.Builder

namespace Carplay.Rpc

/-! ### The generated builders -/

/-- `CreateBtRfcommData`. -/
def BtRfcommData.create (data : ℕ) (length : BitVec 32) : Building ℕ :=
  createTable [(VT_LENGTH, .scalar 4 length.toNat 0), (VT_DATA, .pointer data)]

/-- `CreateBtRfcommDataDirect`. -/
def BtRfcommData.createDirect (data : Bytes) (length : BitVec 32) : Building ℕ := do
  BtRfcommData.create (← createVector data) length

/-- `CreateCarPlayAvailability`. -/
def CarPlayAvailability.create (wiredAvailable : Bool) (usbTransportIdentifier : ℕ)
    (wirelessAvailable : Bool) (bluetoothTransportIdentifier : ℕ) : Building ℕ :=
  createTable [(VT_BLUETOOTH_TRANSPORT_IDENTIFIER, .pointer bluetoothTransportIdentifier),
    (VT_USB_TRANSPORT_IDENTIFIER, .pointer usbTransportIdentifier),
    (VT_WIRELESS_AVAILABLE, .scalar 1 wirelessAvailable.toNat 0),
    (VT_WIRED_AVAILABLE, .scalar 1 wiredAvailable.toNat 0)]

/-- `CreateCarPlayAvailabilityDirect`, its two strings not null. -/
def CarPlayAvailability.createDirect (wiredAvailable : Bool) (usbTransportIdentifier : Bytes)
    (wirelessAvailable : Bool) (bluetoothTransportIdentifier : Bytes) : Building ℕ := do
  let usb ← createCString usbTransportIdentifier
  let bluetooth ← createCString bluetoothTransportIdentifier
  CarPlayAvailability.create wiredAvailable usb wirelessAvailable bluetooth

/-- `CreateStringRequest`. -/
def StringRequest.create (value : ℕ) : Building ℕ := createTable [(VT_VALUE, .pointer value)]

/-- `CreateBytesRequest`. -/
def BytesRequest.create (value : ℕ) : Building ℕ := createTable [(VT_VALUE, .pointer value)]

/-- `CreateBytesRequestDirect`. -/
def BytesRequest.createDirect (value : Bytes) : Building ℕ := do
  BytesRequest.create (← createVector value)

namespace Int64Request

def VT_VALUE : ℕ := 4

/-- `Int64Request::value`. -/
def value (buf : Bytes) (table : ℕ) : Except Fault (BitVec 64) := do
  return BitVec.ofNat 64 (← getField 8 buf table VT_VALUE 0)

/-- `Int64Request::Verify`. -/
def verify (buf : Bytes) (table : ℕ) : Verifying Bool :=
  verifyTableStart buf table <&&> verifyField 8 buf table VT_VALUE 8 <&&> endTable

/-- `CreateInt64Request`. -/
def create (value : BitVec 64) : Building ℕ := createTable [(VT_VALUE, .scalar 8 value.toNat 0)]

end Int64Request

namespace HostapdInfo

def VT_HOSTAPD_SSID : ℕ := 4
def VT_HOSTAPD_PASSPHRASE : ℕ := 6
def VT_HOSTAPD_CHANNEL : ℕ := 8
def VT_HOSTAPD_IP_ADDRESS_V6 : ℕ := 10
def VT_HOSTAPD_SECURITY_TYPE : ℕ := 12

/-- `HostapdInfo::hostapd_ssid`. -/
def hostapdSsid (buf : Bytes) (table : ℕ) : Except Fault (Option ℕ) :=
  getPointer buf table VT_HOSTAPD_SSID

/-- `HostapdInfo::hostapd_passphrase`. -/
def hostapdPassphrase (buf : Bytes) (table : ℕ) : Except Fault (Option ℕ) :=
  getPointer buf table VT_HOSTAPD_PASSPHRASE

/-- `HostapdInfo::hostapd_channel`. -/
def hostapdChannel (buf : Bytes) (table : ℕ) : Except Fault (BitVec 32) := do
  return BitVec.ofNat 32 (← getField 4 buf table VT_HOSTAPD_CHANNEL 0)

/-- `HostapdInfo::hostapd_ip_address_v6`. -/
def hostapdIpAddressV6 (buf : Bytes) (table : ℕ) : Except Fault (Option ℕ) :=
  getPointer buf table VT_HOSTAPD_IP_ADDRESS_V6

/-- `HostapdInfo::hostapd_security_type`. -/
def hostapdSecurityType (buf : Bytes) (table : ℕ) : Except Fault (BitVec 32) := do
  return BitVec.ofNat 32 (← getField 4 buf table VT_HOSTAPD_SECURITY_TYPE 0)

/-- `HostapdInfo::Verify`. -/
def verify (buf : Bytes) (table : ℕ) : Verifying Bool :=
  verifyTableStart buf table <&&>
    verifyOffset buf table VT_HOSTAPD_SSID <&&>
    (do verifyString buf (← hostapdSsid buf table)) <&&>
    verifyOffset buf table VT_HOSTAPD_PASSPHRASE <&&>
    (do verifyString buf (← hostapdPassphrase buf table)) <&&>
    verifyField 4 buf table VT_HOSTAPD_CHANNEL 4 <&&>
    verifyOffset buf table VT_HOSTAPD_IP_ADDRESS_V6 <&&>
    (do verifyString buf (← hostapdIpAddressV6 buf table)) <&&>
    verifyField 4 buf table VT_HOSTAPD_SECURITY_TYPE 4 <&&>
    endTable

/-- The fields in the order in which they are added. -/
def entries (hostapdSsid hostapdPassphrase : ℕ) (hostapdChannel : BitVec 32)
    (hostapdIpAddressV6 : ℕ) (hostapdSecurityType : BitVec 32) : List (ℕ × Entry) :=
  [(VT_HOSTAPD_SECURITY_TYPE, .scalar 4 hostapdSecurityType.toNat 0),
    (VT_HOSTAPD_IP_ADDRESS_V6, .pointer hostapdIpAddressV6),
    (VT_HOSTAPD_CHANNEL, .scalar 4 hostapdChannel.toNat 0),
    (VT_HOSTAPD_PASSPHRASE, .pointer hostapdPassphrase),
    (VT_HOSTAPD_SSID, .pointer hostapdSsid)]

/-- `CreateHostapdInfo`. -/
def create (hostapdSsid hostapdPassphrase : ℕ) (hostapdChannel : BitVec 32)
    (hostapdIpAddressV6 : ℕ) (hostapdSecurityType : BitVec 32) : Building ℕ :=
  createTable (entries hostapdSsid hostapdPassphrase hostapdChannel hostapdIpAddressV6
    hostapdSecurityType)

end HostapdInfo

/-! ### `register_method` -/

/-- The wrapper that `register_method` installs for a request type; `none` is a
rejected buffer. -/
def registered {α : Type} (verify : Bytes → ℕ → Verifying Bool)
    (handler : Bytes → ℕ → Except Fault α) (buf : Bytes) : Except Fault (Option α) := do
  if ← verifyBuffer verify buf then return some (← handler buf (← getRoot buf))
  else return none

theorem Method.wrapper_eq (m : Method) (buf : Bytes) :
    m.wrapper buf = registered m.verify m.handler buf := rfl

/-- A buffer that a builder has left is accepted, and its root table handed on. -/
theorem registered_eq {α : Type} {fields : List (ℕ × Entry)} {buf : Bytes}
    {table vtable vsize : ℕ} {verify : Bytes → ℕ → Verifying Bool}
    {handler : Bytes → ℕ → Except Fault α} {k : Counters} {a : α}
    (hL : Layout fields buf table vtable vsize) (hv : Passes (verify buf table) ⟨0, 0⟩ k)
    (hh : handler buf table = .ok a) : registered verify handler buf = .ok (some a) := by
  rw [registered, hL.verifyBuffer_passes hv, hL.root]
  show (do return some (← handler buf table)) = Except.ok (some a)
  rw [hh]
  rfl

/-! ### Requests to this process -/

/-- What is left of bytes as a C string. -/
def cString (bytes : Bytes) : Bytes := bytes.takeWhile (· ≠ 0)

/-- A request as a peer makes it. -/
inductive Request where
  | btRfcommData (data : Bytes) (length : BitVec 32)
  | carPlayAvailability (wiredAvailable : Bool) (usbTransportIdentifier : Bytes)
      (wirelessAvailable : Bool) (bluetoothTransportIdentifier : Bytes)
  | stringRequest (value : Bytes)
  | bytesRequest (value : Bytes)
  deriving DecidableEq, Repr

namespace Request

def method : Request → Method
  | btRfcommData _ _ => .sendIap2DetectPacket
  | carPlayAvailability _ _ _ _ => .carplayAvailable
  | stringRequest _ => .disableBluetooth
  | bytesRequest _ => .screenStreamConfiguration

def create : Request → Building ℕ
  | btRfcommData data length => BtRfcommData.createDirect data length
  | carPlayAvailability wired usb wireless bluetooth =>
      CarPlayAvailability.createDirect wired usb wireless bluetooth
  | stringRequest value => do StringRequest.create (← createString value)
  | bytesRequest value => BytesRequest.createDirect value

/-- The bytes of its strings and vectors. -/
def size : Request → ℕ
  | btRfcommData data _ => data.length
  | carPlayAvailability _ usb _ bluetooth => usb.length + bluetooth.length
  | stringRequest value => value.length
  | bytesRequest value => value.length

/-- The call it is meant to end in. -/
def handlerCall : Request → Option HandlerCall
  | btRfcommData data _ => if data = [] then none else some (.callbackWithByteArray data)
  | carPlayAvailability wired usb wireless bluetooth =>
      some (.callbackCarplayAvailable wired (cString usb) wireless (cString bluetooth))
  | stringRequest value => some (.disableBluetooth (cString value))
  | bytesRequest value => some (.queueInputBuffer value)

end Request

variable {buf : Bytes} {table vtable vsize off : ℕ} {fields : List (ℕ × Entry)} {field : ℕ}

theorem length_cString_le (bytes : Bytes) : (cString bytes).length ≤ bytes.length :=
  (List.takeWhile_sublist _).length_le

theorem cString_cString (bytes : Bytes) : cString (cString bytes) = cString bytes :=
  List.takeWhile_idem

/-- A string of the virtual machine has no zero among its bytes. -/
theorem cString_encode (s : JavaString) : cString (ModifiedUtf8.encode s) = ModifiedUtf8.encode s :=
  List.takeWhile_eq_self_iff.mpr fun _ hc =>
    decide_eq_true fun h0 => ModifiedUtf8.zero_not_mem_encode s (h0 ▸ hc)

/-- The characters behind a pointer to a string. -/
theorem readCString_eq (hL : Layout fields buf table vtable vsize)
    (hs : Slots (fields.map Prod.fst)) (hmem : (field, .pointer off) ∈ fields) {str : Bytes}
    (hstr : TextAt buf off str) :
    ∃ p, getPointer buf table field = .ok (some p) ∧
      readCString buf (p + 4) = .ok (cString str) :=
  ⟨_, hL.getPointer_eq hs hmem, hstr.readCString⟩

/-- The bytes behind a pointer to a vector, with their number. -/
theorem readVector_eq (hL : Layout fields buf table vtable vsize)
    (hs : Slots (fields.map Prod.fst)) (hmem : (field, .pointer off) ∈ fields) {v : Bytes}
    (hv : BytesAt buf off v) : ∃ p, getPointer buf table field = .ok (some p) ∧
      vectorSize buf (some p) = .ok v.length ∧ readBytes v.length buf (p + 4) = .ok v :=
  ⟨_, hL.getPointer_eq hs hmem, hv.size_eq hL.length_lt, hv.read⟩

/-- `CreateVector` on a fresh builder, and a table with one pointer to the vector. -/
theorem built_of_vector {v : Bytes} (f : ℕ → List (ℕ × Entry))
    (hs : ∀ off, Slots ((f off).map Prod.fst)) (h : v.length + 2 ^ 17 ≤ maxBufferSize)
    (hf : ∀ off len, 0 < off → off ≤ len → ∀ p ∈ f off, p.2.Fits len) :
    ∃ buf off table vtable vsize,
      build (createVector v >>= fun off => createTable (f off)) = some buf ∧
      Layout (f off) buf table vtable vsize ∧ BytesAt buf off v := by
  refine build_spec (P := fun off buf => BytesAt buf off v) _ _ hs
    (fun _ _ _ hv hsuffix => hv.mono hsuffix) ?_
  have hzero : ({} : Builder).buf_.length = 0 := rfl
  refine (createVector_does v ready_empty (by omega)).mono ?_
  rintro off b ⟨hb, hv, -, hlen, hpos, hle⟩
  exact ⟨hb, hv, hf off _ hpos hle, by omega⟩

/-- `CreateString` on a fresh builder, and a table with one pointer to the string. -/
theorem built_of_string (str : Bytes) (h : str.length + 2 ^ 17 ≤ maxBufferSize) :
    ∃ buf off table vtable vsize,
      build (createString str >>= fun off => createTable [(4, .pointer off)]) = some buf ∧
      Layout [(4, .pointer off)] buf table vtable vsize ∧ TextAt buf off str := by
  refine build_spec (P := fun off buf => TextAt buf off str) _ _
    (fun _ => (by decide : Slots [4])) (fun _ _ _ hstr hsuffix => hstr.mono hsuffix) ?_
  have hzero : ({} : Builder).buf_.length = 0 := rfl
  refine (createString_does str ready_empty (by omega)).mono ?_
  rintro off b ⟨hb, hstr, -, hlen, hpos, hle⟩
  exact ⟨hb, hstr, List.forall_mem_singleton.mpr ⟨hpos, hle⟩, by omega⟩

theorem BtRfcommData.round_trip (data : Bytes) (length : BitVec 32)
    (h : data.length + 2 ^ 17 ≤ maxBufferSize) :
    ∃ buf, build (createDirect data length) = some buf ∧
      Method.sendIap2DetectPacket.wrapper buf =
        .ok (some (if data = [] then none else some (.callbackWithByteArray data))) := by
  obtain ⟨buf, off, table, vtable, vsize, hbuild, hL, hdata⟩ := built_of_vector
    (fun off => [(VT_LENGTH, .scalar 4 length.toNat 0), (VT_DATA, .pointer off)])
    (fun _ => (by decide : Slots [6, 4])) h
    (fun off len hpos hle => List.forall_mem_cons.mpr ⟨⟨.inr (.inr (.inl rfl)), length.isLt⟩,
      List.forall_mem_singleton.mpr ⟨hpos, hle⟩⟩)
  have hs : Slots [VT_LENGTH, VT_DATA] := by decide
  have hmem : (VT_DATA, Entry.pointer off) ∈
      [(VT_LENGTH, Entry.scalar 4 length.toNat 0), (VT_DATA, .pointer off)] :=
    List.mem_cons_of_mem _ (List.mem_singleton_self _)
  refine ⟨buf, hbuild, (Method.wrapper_eq _ buf).trans
    (registered_eq hL (k := ⟨0, 1⟩) ?_ ?_)⟩
  · exact hL.verifyTableStart_passes.and ((hL.verifyOffset_passes hs hmem _).and
      ((hL.verifyVector_passes hs hmem hdata _).and
        ((hL.verifyField_passes hs List.mem_cons_self _).and endTable_passes)))
  · obtain ⟨p, hp, hsize, hread⟩ := readVector_eq hL hs hmem hdata
    show handleSendIap2DetectPacket buf table = _
    rw [handleSendIap2DetectPacket, BtRfcommData.data, hp]
    show (vectorSize buf (some p) >>= _) = _
    rw [hsize]
    by_cases h0 : data = []
    · subst h0
      rfl
    · rw [if_neg h0]
      refine (if_neg (List.length_eq_zero_iff.not.mpr h0)).trans ?_
      show (readBytes data.length buf (p + 4) >>= _) = _
      rw [hread]
      rfl

theorem BytesRequest.round_trip (value : Bytes) (h : value.length + 2 ^ 17 ≤ maxBufferSize) :
    ∃ buf, build (createDirect value) = some buf ∧
      Method.screenStreamConfiguration.wrapper buf = .ok (some (some (.queueInputBuffer value))) := by
  obtain ⟨buf, off, table, vtable, vsize, hbuild, hL, hvalue⟩ := built_of_vector
    (fun off => [(VT_VALUE, .pointer off)]) (fun _ => (by decide : Slots [4])) h
    (fun off len hpos hle => List.forall_mem_singleton.mpr ⟨hpos, hle⟩)
  have hs : Slots [VT_VALUE] := by decide
  have hmem := List.mem_singleton_self (VT_VALUE, Entry.pointer off)
  refine ⟨buf, hbuild, (Method.wrapper_eq _ buf).trans
    (registered_eq hL (k := ⟨0, 1⟩) ?_ ?_)⟩
  · exact hL.verifyTableStart_passes.and ((hL.verifyOffset_passes hs hmem _).and
      ((hL.verifyVector_passes hs hmem hvalue _).and endTable_passes))
  · obtain ⟨p, hp, hsize, hread⟩ := readVector_eq hL hs hmem hvalue
    show handleScreenStreamConfiguration buf table = _
    rw [handleScreenStreamConfiguration, BytesRequest.value, hp]
    show (vectorSize buf (some p) >>= fun size => readBytes size buf (p + 4) >>= _) = _
    rw [hsize]
    show (readBytes value.length buf (p + 4) >>= _) = _
    rw [hread]
    rfl

/-- The check of a table with one string. -/
theorem StringRequest.verify_passes {str : Bytes}
    (hL : Layout [(4, .pointer off)] buf table vtable vsize) (hstr : TextAt buf off str) :
    Passes (verify buf table) ⟨0, 0⟩ ⟨0, 1⟩ := by
  have hs : Slots [VT_VALUE] := by decide
  have hmem := List.mem_singleton_self (VT_VALUE, Entry.pointer off)
  exact hL.verifyTableStart_passes.and ((hL.verifyOffset_passes hs hmem _).and
    ((hL.verifyString_passes hs hmem hstr _).and endTable_passes))

theorem StringRequest.round_trip (value : Bytes) (h : value.length + 2 ^ 17 ≤ maxBufferSize) :
    ∃ buf, build (do create (← createString value)) = some buf ∧
      Method.disableBluetooth.wrapper buf =
        .ok (some (some (.disableBluetooth (cString value)))) := by
  obtain ⟨buf, off, table, vtable, vsize, hbuild, hL, hvalue⟩ := built_of_string _ h
  refine ⟨buf, hbuild, (Method.wrapper_eq _ buf).trans
    (registered_eq hL (verify_passes hL hvalue) ?_)⟩
  obtain ⟨p, hp, hread⟩ :=
    readCString_eq hL (by decide : Slots [4]) (List.mem_singleton_self _) hvalue
  show handleDisableBluetooth buf table = _
  rw [handleDisableBluetooth, StringRequest.value, VT_VALUE, hp]
  show (readCString buf (p + 4) >>= _) = _
  rw [hread]
  rfl

/-- Two strings on a fresh builder. -/
theorem createCString_two (str str' : Bytes) (h : str.length + str'.length + 2 ^ 17 ≤ maxBufferSize) :
    Does (do return (← createCString str, ← createCString str')) {} fun offs b => Ready b ∧
      (TextAt b.buf_ offs.1 (cString str) ∧ TextAt b.buf_ offs.2 (cString str')) ∧
      (0 < offs.1 ∧ offs.1 ≤ b.buf_.length) ∧ (0 < offs.2 ∧ offs.2 ≤ b.buf_.length) ∧
      b.buf_.length + 2 ^ 16 ≤ maxBufferSize := by
  have hzero : ({} : Builder).buf_.length = 0 := rfl
  have hstr := length_cString_le str
  have hstr' := length_cString_le str'
  refine (createString_does (cString str) ready_empty (by omega)).bind ?_
  rintro off b ⟨hb, hat, -, hlen, hpos, hle⟩
  refine (createString_does (cString str') hb (by omega)).bind ?_
  rintro off' b' ⟨hb', hat', hsuffix, hlen', hpos', hle'⟩
  -- the second string is put before the first, which does not move
  have hmono := hsuffix.length_le
  exact Does.of_pure ⟨hb', ⟨hat.mono hsuffix, hat'⟩, ⟨hpos, by omega⟩, ⟨hpos', hle'⟩, by omega⟩

theorem toNat_lt_byte (x : Bool) : x.toNat < 256 ^ 1 := by cases x <;> decide

theorem CarPlayAvailability.built (wired : Bool) (usb : Bytes) (wireless : Bool)
    (bluetooth : Bytes) (h : usb.length + bluetooth.length + 2 ^ 17 ≤ maxBufferSize) :
    ∃ buf husb hbt table vtable vsize, build (createDirect wired usb wireless bluetooth) = some buf ∧
      Layout [(VT_BLUETOOTH_TRANSPORT_IDENTIFIER, .pointer hbt),
        (VT_USB_TRANSPORT_IDENTIFIER, .pointer husb),
        (VT_WIRELESS_AVAILABLE, .scalar 1 wireless.toNat 0),
        (VT_WIRED_AVAILABLE, .scalar 1 wired.toNat 0)] buf table vtable vsize ∧
      TextAt buf husb (cString usb) ∧ TextAt buf hbt (cString bluetooth) := by
  obtain ⟨buf, ⟨off, off'⟩, table, vtable, vsize, hbuild, hL, hP⟩ := build_spec
    (do return (← createCString usb, ← createCString bluetooth))
    (fun offs => [(VT_BLUETOOTH_TRANSPORT_IDENTIFIER, .pointer offs.2),
        (VT_USB_TRANSPORT_IDENTIFIER, .pointer offs.1),
        (VT_WIRELESS_AVAILABLE, .scalar 1 wireless.toNat 0),
        (VT_WIRED_AVAILABLE, .scalar 1 wired.toNat 0)])
    (P := fun offs buf => TextAt buf offs.1 (cString usb) ∧ TextAt buf offs.2 (cString bluetooth))
    (fun _ => (by decide : Slots [10, 6, 8, 4]))
    (fun _ _ _ hP hsuffix => ⟨hP.1.mono hsuffix, hP.2.mono hsuffix⟩) (by
      refine (createCString_two usb bluetooth h).mono ?_
      rintro offs b ⟨hb, hP, husb, hbt, hlen⟩
      refine ⟨hb, hP, ?_, hlen⟩
      -- both offsets lead into the buffer and the flags are single bytes
      simp only [List.forall_mem_cons]
      exact ⟨hbt, husb, ⟨.inl rfl, toNat_lt_byte _⟩, ⟨.inl rfl, toNat_lt_byte _⟩,
        fun _ hp => absurd hp List.not_mem_nil⟩)
  refine ⟨buf, off, off', table, vtable, vsize, ?_, hL, hP⟩
  rw [← hbuild]
  simp only [createDirect, create, bind_assoc, pure_bind]

theorem CarPlayAvailability.round_trip (wired : Bool) (usb : Bytes) (wireless : Bool)
    (bluetooth : Bytes) (h : usb.length + bluetooth.length + 2 ^ 17 ≤ maxBufferSize) :
    ∃ buf, build (createDirect wired usb wireless bluetooth) = some buf ∧
      Method.carplayAvailable.wrapper buf = .ok (some (some
        (.callbackCarplayAvailable wired (cString usb) wireless (cString bluetooth)))) := by
  obtain ⟨buf, off, off', table, vtable, vsize, hbuild, hL, husb, hbt⟩ :=
    built wired usb wireless bluetooth h
  have hs : Slots [VT_BLUETOOTH_TRANSPORT_IDENTIFIER, VT_USB_TRANSPORT_IDENTIFIER,
    VT_WIRELESS_AVAILABLE, VT_WIRED_AVAILABLE] := by decide
  set fields : List (ℕ × Entry) := [(VT_BLUETOOTH_TRANSPORT_IDENTIFIER, .pointer off'),
    (VT_USB_TRANSPORT_IDENTIFIER, .pointer off),
    (VT_WIRELESS_AVAILABLE, .scalar 1 wireless.toNat 0),
    (VT_WIRED_AVAILABLE, .scalar 1 wired.toNat 0)] with hfields
  have hbtMem : (VT_BLUETOOTH_TRANSPORT_IDENTIFIER, Entry.pointer off') ∈ fields := by
    simp [hfields]
  have husbMem : (VT_USB_TRANSPORT_IDENTIFIER, Entry.pointer off) ∈ fields := by simp [hfields]
  have hwirelessMem : (VT_WIRELESS_AVAILABLE, Entry.scalar 1 wireless.toNat 0) ∈ fields := by
    simp [hfields]
  have hwiredMem : (VT_WIRED_AVAILABLE, Entry.scalar 1 wired.toNat 0) ∈ fields := by
    simp [hfields]
  refine ⟨buf, hbuild, (Method.wrapper_eq _ buf).trans
    (registered_eq hL (k := ⟨0, 1⟩) ?_ ?_)⟩
  · -- the checks, in the order in which `Verify` makes them
    exact hL.verifyTableStart_passes.and ((hL.verifyField_passes hs hwiredMem _).and
      ((hL.verifyOffset_passes hs husbMem _).and ((hL.verifyString_passes hs husbMem husb _).and
        ((hL.verifyField_passes hs hwirelessMem _).and ((hL.verifyOffset_passes hs hbtMem _).and
          ((hL.verifyString_passes hs hbtMem hbt _).and endTable_passes))))))
  · -- what the handler reads: the two strings up to a zero, and the flags
    obtain ⟨p, hp, hread⟩ := readCString_eq hL hs husbMem husb
    obtain ⟨q, hq, hread'⟩ := readCString_eq hL hs hbtMem hbt
    show handleCarplayAvailablePacket buf table = _
    rw [handleCarplayAvailablePacket, usbTransportIdentifier, bluetoothTransportIdentifier,
      wiredAvailable, wirelessAvailable, hp, hq, hL.getField_eq hs hwiredMem,
      hL.getField_eq hs hwirelessMem]
    show (readCString buf (p + 4) >>= fun usbStr => readCString buf (q + 4) >>= _) = _
    rw [hread, hread', cString_cString, cString_cString]
    cases wired <;> cases wireless <;> rfl

/-- **Requests to this process.**  A request that a peer builds is accepted, and
its handler makes the call that it is meant to end in, with the values it was
built from. -/
theorem request_round_trip (r : Request) (h : r.size + 2 ^ 17 ≤ maxBufferSize) :
    ∃ buf, build r.create = some buf ∧ r.method.wrapper buf = .ok (some r.handlerCall) := by
  cases r with
  | btRfcommData data length => exact BtRfcommData.round_trip data length h
  | carPlayAvailability wired usb wireless bluetooth =>
    exact CarPlayAvailability.round_trip wired usb wireless bluetooth h
  | stringRequest value => exact StringRequest.round_trip value h
  | bytesRequest value => exact BytesRequest.round_trip value h

theorem request_round_trip_address :
    ∃ buf, build (Request.stringRequest [0x41, 0x3A, 0x42]).create = some buf ∧
      Method.disableBluetooth.wrapper buf =
        .ok (some (some (.disableBluetooth [0x41, 0x3A, 0x42]))) :=
  request_round_trip (.stringRequest [0x41, 0x3A, 0x42]) (by decide)

/-! ### Requests of this process -/

/-- The request that `startBtIap2Link` builds behind its check of the dial. -/
def startBtIap2Link (macString : JavaString) : Option Bytes :=
  let str := cString (ModifiedUtf8.encode macString)
  build do StringRequest.create (← createString str)

/-- The request that `receiveBtIap2Data` builds behind its check of the dial; `none`
where it would read behind the array.  The field `length` is not added. -/
def receiveBtIap2Data (rfcommData : Bytes) (dataLength : ℕ) : Option Bytes :=
  if dataLength ≤ rfcommData.length then
    let payloadData := rfcommData.take dataLength
    build do
      let payload ← createVector payloadData
      createTable [(BtRfcommData.VT_DATA, .pointer payload)]
  else none

/-- The request that `touchScreenHid` builds behind its check of the dial. -/
def touchScreenHid (hidValue : BitVec 64) : Option Bytes := build (Int64Request.create hidValue)

/-- The request that `startCarplaySession` builds behind its check of the dial, once the
pull listener is there. -/
def startCarplaySession (hostapdSsid hostapdPwd : JavaString) (hostapdChannel : BitVec 32)
    (hostapdNetInterfaceV6Address : JavaString) (hostapdSecurityType : BitVec 32) :
    Option Bytes :=
  build do
    let ssid ← createCString (ModifiedUtf8.encode hostapdSsid)
    let pwd ← createCString (ModifiedUtf8.encode hostapdPwd)
    let ipv6 ← createCString (ModifiedUtf8.encode hostapdNetInterfaceV6Address)
    HostapdInfo.create ssid pwd hostapdChannel ipv6 hostapdSecurityType

/-- What a native method finds when it is called. -/
structure NativeSide where
  dialStarted : Bool
  /-- `GetByteArrayElements` returns the elements. -/
  elements : Bool
  deriving DecidableEq, Repr

namespace NativeSide

/-- `CarplayRpcRuntime::checkPeerRpcDialAvailable`. -/
def checkPeerRpcDialAvailable (native : NativeSide) : Bool := native.dialStarted

/-- What `startBtIap2Link` hands to `rpcRemoteCall`. -/
def startBtIap2Link (native : NativeSide) (macString : JavaString) : Option Bytes :=
  if native.checkPeerRpcDialAvailable then Rpc.startBtIap2Link macString else none

/-- What `receiveBtIap2Data` hands to `rpcRemoteCall`. -/
def receiveBtIap2Data (native : NativeSide) (rfcommData : Bytes) (dataLength : ℕ) :
    Option Bytes :=
  if native.checkPeerRpcDialAvailable then
    if native.elements then Rpc.receiveBtIap2Data rfcommData dataLength else none
  else none

/-- What `touchScreenHid` hands to `rpcRemoteCall`. -/
def touchScreenHid (native : NativeSide) (hidValue : BitVec 64) : Option Bytes :=
  if native.checkPeerRpcDialAvailable then Rpc.touchScreenHid hidValue else none

end NativeSide

/-! ### What the peer reads -/

/-- `NewStringUTF` of a string field. -/
def newStringUTF (buf : Bytes) (p : Option ℕ) : Except Fault (Option JavaString) := do
  return ModifiedUtf8.decode (← readCString buf (← vectorData p))

/-- The bytes of a vector field. -/
def vectorBytes (buf : Bytes) (p : Option ℕ) : Except Fault Bytes := do
  readBytes (← vectorSize buf p) buf (← vectorData p)

/-- The values of a `HostapdInfo`. -/
structure HostapdInfo.Values where
  hostapdSsid : Option JavaString
  hostapdPassphrase : Option JavaString
  hostapdChannel : BitVec 32
  hostapdIpAddressV6 : Option JavaString
  hostapdSecurityType : BitVec 32
  deriving DecidableEq, Repr

/-- All the accessors of a `HostapdInfo`. -/
def HostapdInfo.values (buf : Bytes) (table : ℕ) : Except Fault HostapdInfo.Values := do
  return {
    hostapdSsid := ← newStringUTF buf (← hostapdSsid buf table)
    hostapdPassphrase := ← newStringUTF buf (← hostapdPassphrase buf table)
    hostapdChannel := ← hostapdChannel buf table
    hostapdIpAddressV6 := ← newStringUTF buf (← hostapdIpAddressV6 buf table)
    hostapdSecurityType := ← hostapdSecurityType buf table }

theorem newStringUTF_eq (hL : Layout fields buf table vtable vsize)
    (hs : Slots (fields.map Prod.fst)) (hmem : (field, .pointer off) ∈ fields) {s : JavaString}
    (hstr : TextAt buf off (ModifiedUtf8.encode s)) :
    (getPointer buf table field >>= newStringUTF buf) = .ok (some s) := by
  obtain ⟨p, hp, hread⟩ := readCString_eq hL hs hmem hstr
  rw [hp]
  show (do return ModifiedUtf8.decode (← readCString buf (p + 4))) = Except.ok (some s)
  rw [hread, cString_encode]
  show Except.ok (ModifiedUtf8.decode (ModifiedUtf8.encode s)) = _
  rw [ModifiedUtf8.decode_encode]

/-- **The link request.**  The peer reads the address that the link was started
for, whatever characters are in it. -/
theorem startBtIap2Link_spec (macString : JavaString)
    (h : 3 * macString.length + 2 ^ 17 ≤ maxBufferSize) :
    ∃ buf, startBtIap2Link macString = some buf ∧
      registered StringRequest.verify
        (fun buf table => do newStringUTF buf (← StringRequest.value buf table)) buf =
          .ok (some (some macString)) := by
  have hlen := ModifiedUtf8.length_encode_le macString
  obtain ⟨buf, off, table, vtable, vsize, hbuild, hL, hstr⟩ :=
    built_of_string (ModifiedUtf8.encode macString) (by omega)
  refine ⟨buf, ?_, registered_eq hL (StringRequest.verify_passes hL hstr)
    (newStringUTF_eq hL (by decide : Slots [4]) (List.mem_singleton_self _) hstr)⟩
  rw [startBtIap2Link, cString_encode]
  exact hbuild

/-- **The data request.**  The peer reads the first `dataLength` bytes of the
array. -/
theorem receiveBtIap2Data_spec (rfcommData : Bytes) (dataLength : ℕ)
    (hle : dataLength ≤ rfcommData.length) (h : dataLength + 2 ^ 17 ≤ maxBufferSize) :
    ∃ buf, receiveBtIap2Data rfcommData dataLength = some buf ∧
      registered BtRfcommData.verify
        (fun buf table => do vectorBytes buf (← BtRfcommData.data buf table)) buf =
          .ok (some (rfcommData.take dataLength)) := by
  have hlen : (rfcommData.take dataLength).length = dataLength := List.length_take_of_le hle
  obtain ⟨buf, off, table, vtable, vsize, hbuild, hL, hdata⟩ := built_of_vector
    (v := rfcommData.take dataLength) (fun off => [(BtRfcommData.VT_DATA, .pointer off)])
    (fun _ => (by decide : Slots [4])) (by omega)
    (fun off len hpos hle => List.forall_mem_singleton.mpr ⟨hpos, hle⟩)
  have hs : Slots [BtRfcommData.VT_DATA] := by decide
  have hmem := List.mem_singleton_self (BtRfcommData.VT_DATA, Entry.pointer off)
  refine ⟨buf, ?_, registered_eq hL (k := ⟨0, 1⟩) ?_ ?_⟩
  · rw [receiveBtIap2Data, if_pos hle]
    exact hbuild
  · -- the field `length` is checked although it was not added
    exact hL.verifyTableStart_passes.and ((hL.verifyOffset_passes hs hmem _).and
      ((hL.verifyVector_passes hs hmem hdata _).and
        ((hL.verifyField_absent (by decide) (by decide : 6 ∉ [4]) _).and endTable_passes)))
  · obtain ⟨p, hp, hsize, hread⟩ := readVector_eq hL hs hmem hdata
    show (getPointer buf table BtRfcommData.VT_DATA >>= vectorBytes buf) = _
    rw [hp]
    show (vectorSize buf (some p) >>= fun n => readBytes n buf (p + 4)) = _
    rw [hsize]
    exact hread

theorem ofNat_toNat_self {n : ℕ} (x : BitVec n) : BitVec.ofNat n x.toNat = x :=
  (BitVec.ofNat_toNat n x).trans x.setWidth_eq

/-- **The touch request.**  The peer reads the value of the report, also the
default value, which is not stored. -/
theorem touchScreenHid_spec (hidValue : BitVec 64) :
    ∃ buf, touchScreenHid hidValue = some buf ∧
      registered Int64Request.verify Int64Request.value buf = .ok (some hidValue) := by
  obtain ⟨buf, _, table, vtable, vsize, hbuild, hL, -⟩ := build_spec (pure ())
    (fun _ => [(Int64Request.VT_VALUE, .scalar 8 hidValue.toNat 0)])
    (P := fun _ _ => True) (fun _ => (by decide : Slots [4])) (fun _ _ _ h _ => h)
    (Does.of_pure ⟨ready_empty, trivial, List.forall_mem_singleton.mpr
      ⟨.inr (.inr (.inr rfl)), hidValue.isLt⟩, by decide⟩)
  have hs : Slots [Int64Request.VT_VALUE] := by decide
  have hmem := List.mem_singleton_self (Int64Request.VT_VALUE, Entry.scalar 8 hidValue.toNat 0)
  refine ⟨buf, hbuild, registered_eq hL (k := ⟨0, 1⟩) ?_ ?_⟩
  · exact hL.verifyTableStart_passes.and ((hL.verifyField_passes hs hmem _).and endTable_passes)
  · rw [Int64Request.value, hL.getField_eq hs hmem]
    exact congrArg Except.ok (ofNat_toNat_self hidValue)

/-- The three strings of a session on a fresh builder. -/
theorem createCString_three (str str' str'' : Bytes)
    (h : str.length + str'.length + str''.length + 2 ^ 17 ≤ maxBufferSize) :
    Does (do return (← createCString str, ← createCString str', ← createCString str'')) {}
      fun offs b => Ready b ∧
        (TextAt b.buf_ offs.1 (cString str) ∧ TextAt b.buf_ offs.2.1 (cString str') ∧
          TextAt b.buf_ offs.2.2 (cString str'')) ∧
        (0 < offs.1 ∧ offs.1 ≤ b.buf_.length) ∧ (0 < offs.2.1 ∧ offs.2.1 ≤ b.buf_.length) ∧
        (0 < offs.2.2 ∧ offs.2.2 ≤ b.buf_.length) ∧ b.buf_.length + 2 ^ 16 ≤ maxBufferSize := by
  have hzero : ({} : Builder).buf_.length = 0 := rfl
  have hstr := length_cString_le str
  have hstr' := length_cString_le str'
  have hstr'' := length_cString_le str''
  refine (createString_does (cString str) ready_empty (by omega)).bind ?_
  rintro off b ⟨hb, hat, -, hlen, hpos, hle⟩
  refine (createString_does (cString str') hb (by omega)).bind ?_
  rintro off' b' ⟨hb', hat', hsuffix, hlen', hpos', hle'⟩
  refine (createString_does (cString str'') hb' (by omega)).bind ?_
  rintro off'' b'' ⟨hb'', hat'', hsuffix', hlen'', hpos'', hle''⟩
  -- each string is put before the ones written so far
  have hmono := hsuffix.length_le
  have hmono' := hsuffix'.length_le
  exact Does.of_pure ⟨hb'', ⟨(hat.mono hsuffix).mono hsuffix', hat'.mono hsuffix', hat''⟩,
    ⟨hpos, Nat.le_trans hle (Nat.le_trans hmono hmono')⟩, ⟨hpos', Nat.le_trans hle' hmono'⟩,
    ⟨hpos'', hle''⟩, by omega⟩

theorem HostapdInfo.slots (ssid pwd : ℕ) (channel : BitVec 32) (ipv6 : ℕ) (security : BitVec 32) :
    Slots ((entries ssid pwd channel ipv6 security).map Prod.fst) :=
  (by decide : Slots [12, 10, 8, 6, 4])

theorem startCarplaySession_built (ssid pwd : JavaString) (channel : BitVec 32)
    (ipv6 : JavaString) (security : BitVec 32)
    (h : 3 * (ssid.length + pwd.length + ipv6.length) + 2 ^ 17 ≤ maxBufferSize) :
    ∃ buf offSsid offPwd offIpv6 table vtable vsize,
      startCarplaySession ssid pwd channel ipv6 security = some buf ∧
      Layout (HostapdInfo.entries offSsid offPwd channel offIpv6 security) buf table vtable vsize ∧
      TextAt buf offSsid (ModifiedUtf8.encode ssid) ∧
      TextAt buf offPwd (ModifiedUtf8.encode pwd) ∧
      TextAt buf offIpv6 (ModifiedUtf8.encode ipv6) := by
  have hssid := ModifiedUtf8.length_encode_le ssid
  have hpwd := ModifiedUtf8.length_encode_le pwd
  have hipv6 := ModifiedUtf8.length_encode_le ipv6
  obtain ⟨buf, ⟨offSsid, offPwd, offIpv6⟩, table, vtable, vsize, hbuild, hL, hP⟩ := build_spec
    (do return (← createCString (ModifiedUtf8.encode ssid),
      ← createCString (ModifiedUtf8.encode pwd), ← createCString (ModifiedUtf8.encode ipv6)))
    (fun offs => HostapdInfo.entries offs.1 offs.2.1 channel offs.2.2 security)
    (P := fun offs buf => TextAt buf offs.1 (ModifiedUtf8.encode ssid) ∧
      TextAt buf offs.2.1 (ModifiedUtf8.encode pwd) ∧
      TextAt buf offs.2.2 (ModifiedUtf8.encode ipv6))
    (fun _ => HostapdInfo.slots _ _ _ _ _)
    (fun _ _ _ hP hsuffix => ⟨hP.1.mono hsuffix, hP.2.1.mono hsuffix, hP.2.2.mono hsuffix⟩) (by
      refine (createCString_three _ _ _ (by omega)).mono ?_
      rintro offs b ⟨hb, hP, h₁, h₂, h₃, hlen⟩
      rw [cString_encode, cString_encode, cString_encode] at hP
      refine ⟨hb, hP, ?_, hlen⟩
      -- the five entries: two numbers and three offsets into the buffer
      simp only [HostapdInfo.entries, List.forall_mem_cons]
      exact ⟨⟨.inr (.inr (.inl rfl)), security.isLt⟩, h₃, ⟨.inr (.inr (.inl rfl)), channel.isLt⟩,
        h₂, h₁, fun _ hp => absurd hp List.not_mem_nil⟩)
  refine ⟨buf, offSsid, offPwd, offIpv6, table, vtable, vsize, ?_, hL, hP⟩
  rw [← hbuild]
  simp only [startCarplaySession, HostapdInfo.create, HostapdInfo.entries, bind_assoc, pure_bind]

/-- **The session request.**  The peer reads the five arguments, the strings
whatever characters are in them, and the numbers also where they are negative or
the default that is not stored. -/
theorem startCarplaySession_spec (hostapdSsid hostapdPwd : JavaString)
    (hostapdChannel : BitVec 32) (hostapdNetInterfaceV6Address : JavaString)
    (hostapdSecurityType : BitVec 32)
    (h : 3 * (hostapdSsid.length + hostapdPwd.length + hostapdNetInterfaceV6Address.length) +
      2 ^ 17 ≤ maxBufferSize) :
    ∃ buf, startCarplaySession hostapdSsid hostapdPwd hostapdChannel hostapdNetInterfaceV6Address
        hostapdSecurityType = some buf ∧
      registered HostapdInfo.verify HostapdInfo.values buf = .ok (some
        ⟨some hostapdSsid, some hostapdPwd, hostapdChannel, some hostapdNetInterfaceV6Address,
          hostapdSecurityType⟩) := by
  obtain ⟨buf, offSsid, offPwd, offIpv6, table, vtable, vsize, hbuild, hL, hssid, hpwd, hipv6⟩ :=
    startCarplaySession_built hostapdSsid hostapdPwd hostapdChannel hostapdNetInterfaceV6Address
      hostapdSecurityType h
  have hs := HostapdInfo.slots offSsid offPwd hostapdChannel offIpv6 hostapdSecurityType
  set fields := HostapdInfo.entries offSsid offPwd hostapdChannel offIpv6 hostapdSecurityType
    with hfields
  -- where each of the five fields is found
  have hssidMem : (HostapdInfo.VT_HOSTAPD_SSID, Entry.pointer offSsid) ∈ fields := by
    simp [hfields, HostapdInfo.entries]
  have hpwdMem : (HostapdInfo.VT_HOSTAPD_PASSPHRASE, Entry.pointer offPwd) ∈ fields := by
    simp [hfields, HostapdInfo.entries]
  have hchannelMem : (HostapdInfo.VT_HOSTAPD_CHANNEL,
      Entry.scalar 4 hostapdChannel.toNat 0) ∈ fields := by
    simp [hfields, HostapdInfo.entries]
  have hipv6Mem : (HostapdInfo.VT_HOSTAPD_IP_ADDRESS_V6, Entry.pointer offIpv6) ∈ fields := by
    simp [hfields, HostapdInfo.entries]
  have hsecurityMem : (HostapdInfo.VT_HOSTAPD_SECURITY_TYPE,
      Entry.scalar 4 hostapdSecurityType.toNat 0) ∈ fields := by
    simp [hfields, HostapdInfo.entries]
  refine ⟨buf, hbuild, registered_eq hL (k := ⟨0, 1⟩) ?_ ?_⟩
  · -- the checks, in the order in which `Verify` makes them
    exact hL.verifyTableStart_passes.and ((hL.verifyOffset_passes hs hssidMem _).and
      ((hL.verifyString_passes hs hssidMem hssid _).and ((hL.verifyOffset_passes hs hpwdMem _).and
        ((hL.verifyString_passes hs hpwdMem hpwd _).and
          ((hL.verifyField_passes hs hchannelMem _).and
            ((hL.verifyOffset_passes hs hipv6Mem _).and
              ((hL.verifyString_passes hs hipv6Mem hipv6 _).and
                ((hL.verifyField_passes hs hsecurityMem _).and endTable_passes))))))))
  · -- what the accessors give
    have hssidRead := newStringUTF_eq hL hs hssidMem hssid
    have hpwdRead := newStringUTF_eq hL hs hpwdMem hpwd
    have hipv6Read := newStringUTF_eq hL hs hipv6Mem hipv6
    have hchannelRead : HostapdInfo.hostapdChannel buf table = .ok hostapdChannel := by
      rw [HostapdInfo.hostapdChannel, hL.getField_eq hs hchannelMem]
      exact congrArg Except.ok (ofNat_toNat_self hostapdChannel)
    have hsecurityRead : HostapdInfo.hostapdSecurityType buf table = .ok hostapdSecurityType := by
      rw [HostapdInfo.hostapdSecurityType, hL.getField_eq hs hsecurityMem]
      exact congrArg Except.ok (ofNat_toNat_self hostapdSecurityType)
    show HostapdInfo.values buf table = _
    simp only [HostapdInfo.values, HostapdInfo.hostapdSsid, HostapdInfo.hostapdPassphrase,
      HostapdInfo.hostapdIpAddressV6, ← bind_assoc, hssidRead, hpwdRead, hipv6Read, hchannelRead,
      hsecurityRead]
    rfl

/-! ### Every request of this process -/

/-- A call that ends in a request to the peer. -/
inductive Outgoing where
  | startBtIap2Link (macString : JavaString)
  | receiveBtIap2Data (rfcommData : Bytes) (dataLength : ℕ)
  | touchScreenHid (hidValue : BitVec 64)
  | startCarplaySession (hostapdSsid hostapdPwd : JavaString) (hostapdChannel : BitVec 32)
      (hostapdNetInterfaceV6Address : JavaString) (hostapdSecurityType : BitVec 32)
  deriving DecidableEq, Repr

/-- What the peer reads of a request. -/
inductive Told where
  | startBtIap2Link (macString : Option JavaString)
  | receiveRfcommDataFromBt (data : Bytes)
  | touchScreenHid (value : BitVec 64)
  | startWirelessCarplaySession (info : HostapdInfo.Values)
  deriving DecidableEq, Repr

namespace Outgoing

def request : Outgoing → Option Bytes
  | startBtIap2Link macString => Rpc.startBtIap2Link macString
  | receiveBtIap2Data rfcommData dataLength => Rpc.receiveBtIap2Data rfcommData dataLength
  | touchScreenHid hidValue => Rpc.touchScreenHid hidValue
  | startCarplaySession ssid pwd channel ipv6 security =>
      Rpc.startCarplaySession ssid pwd channel ipv6 security

/-- The method that the request calls, as a peer with the same generated code
registers it. -/
def read : Outgoing → Bytes → Except Fault (Option Told)
  | startBtIap2Link _ => registered StringRequest.verify fun buf table =>
      .startBtIap2Link <$> do newStringUTF buf (← StringRequest.value buf table)
  | receiveBtIap2Data _ _ => registered BtRfcommData.verify fun buf table =>
      .receiveRfcommDataFromBt <$> do vectorBytes buf (← BtRfcommData.data buf table)
  | touchScreenHid _ => registered Int64Request.verify fun buf table =>
      .touchScreenHid <$> Int64Request.value buf table
  | startCarplaySession _ _ _ _ _ => registered HostapdInfo.verify fun buf table =>
      .startWirelessCarplaySession <$> HostapdInfo.values buf table

/-- The bytes that its strings and vectors may take. -/
def size : Outgoing → ℕ
  | startBtIap2Link macString => 3 * macString.length
  | receiveBtIap2Data _ dataLength => dataLength
  | touchScreenHid _ => 0
  | startCarplaySession ssid pwd _ ipv6 _ => 3 * (ssid.length + pwd.length + ipv6.length)

/-- The length given is at most that of the array. -/
def InArray : Outgoing → Prop
  | receiveBtIap2Data rfcommData dataLength => dataLength ≤ rfcommData.length
  | _ => True

/-- What the peer is to be told. -/
def tells : Outgoing → Told
  | startBtIap2Link macString => .startBtIap2Link (some macString)
  | receiveBtIap2Data rfcommData dataLength =>
      .receiveRfcommDataFromBt (rfcommData.take dataLength)
  | touchScreenHid hidValue => .touchScreenHid hidValue
  | startCarplaySession ssid pwd channel ipv6 security =>
      .startWirelessCarplaySession ⟨some ssid, some pwd, channel, some ipv6, security⟩

end Outgoing

/-- A handler that goes on with what another has read. -/
theorem registered_map {α β : Type} {verify : Bytes → ℕ → Verifying Bool}
    {handler : Bytes → ℕ → Except Fault α} {a : α} (f : α → β)
    (h : registered verify handler buf = .ok (some a)) :
    registered verify (fun buf table => f <$> handler buf table) buf = .ok (some (f a)) := by
  -- the handler ran, so verifier and root passed
  rw [registered] at h ⊢
  cases hv : verifyBuffer verify buf with
  | error e => rw [hv] at h; cases h
  | ok b =>
    rw [hv] at h
    cases b with
    | false => cases h
    | true =>
      cases hr : getRoot buf with
      | error e => rw [hr] at h; cases h
      | ok root =>
        rw [hr] at h
        cases hh : handler buf root with
        | error e =>
          have hfail : (do return some (← handler buf root)) = Except.ok (some a) := h
          rw [hh] at hfail
          cases hfail
        | ok x =>
          have hread : (do return some (← handler buf root)) = Except.ok (some a) := h
          rw [hh] at hread
          obtain rfl := Option.some_inj.mp (Except.ok.inj hread)
          show (do return some (← f <$> handler buf root)) = Except.ok (some (f x))
          rw [hh]
          rfl

/-- **Requests of this process.**  A peer accepts each of them and reads the values
of the call: of strings every unit, of the array the bytes up to the length, of
numbers also what is negative or the default that is not stored. -/
theorem outgoing_round_trip (r : Outgoing) (hle : r.InArray)
    (h : r.size + 2 ^ 17 ≤ maxBufferSize) :
    ∃ buf, r.request = some buf ∧ r.read buf = .ok (some r.tells) := by
  cases r with
  | startBtIap2Link macString =>
    obtain ⟨buf, hbuf, hread⟩ := startBtIap2Link_spec macString h
    exact ⟨buf, hbuf, registered_map Told.startBtIap2Link hread⟩
  | receiveBtIap2Data rfcommData dataLength =>
    obtain ⟨buf, hbuf, hread⟩ := receiveBtIap2Data_spec rfcommData dataLength hle h
    exact ⟨buf, hbuf, registered_map Told.receiveRfcommDataFromBt hread⟩
  | touchScreenHid hidValue =>
    obtain ⟨buf, hbuf, hread⟩ := touchScreenHid_spec hidValue
    exact ⟨buf, hbuf, registered_map Told.touchScreenHid hread⟩
  | startCarplaySession ssid pwd channel ipv6 security =>
    obtain ⟨buf, hbuf, hread⟩ := startCarplaySession_spec ssid pwd channel ipv6 security h
    exact ⟨buf, hbuf, registered_map Told.startWirelessCarplaySession hread⟩

/-- A name of one lone surrogate and U+0000, and the security type `-1`. -/
theorem outgoing_round_trip_surrogate :
    ∃ buf, startCarplaySession [0xD800, 0] [] 0 [0x66] (-1) = some buf ∧
      (Outgoing.startCarplaySession [0xD800, 0] [] 0 [0x66] (-1)).read buf =
        .ok (some (.startWirelessCarplaySession
          ⟨some [0xD800, 0], some [], 0, some [0x66], -1⟩)) :=
  outgoing_round_trip (.startCarplaySession [0xD800, 0] [] 0 [0x66] (-1)) trivial (by decide)

end Carplay.Rpc

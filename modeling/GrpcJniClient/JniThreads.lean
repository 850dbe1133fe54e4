/-
What the native threads call in Java, and what stays of it.

The peer's requests, the decoder's output and the netlink messages come in on threads
of their own; each is passed on to Java in a block of `JniClassLoaderHelper::withEnv`.

* `block_two`, `callVoidMethod_within` — what the blocks do;
* `NativeCall.leaves` — each call leaves the thread as it was, and no references but,
  on a thread that was attached before, one for each `handleDisableBluetooth`;
* `native_calls_safe` — and so does any list of them, which makes the wanted calls.
-/
import GrpcJniClient.BluetoothExt
import GrpcJniClient.JniEnv

open Jni

namespace Carplay.JniThreads

/-- The calls of Java methods; a text is `none` where its string could not be made. -/
inductive Upcall where
  | callbackWithByteArray (data : Bytes)
  | callbackCarplayAvailable (wiredAvailable : Bool) (usbStr : Option Bytes)
      (wirelessAvailable : Bool) (btStr : Option Bytes)
  | disableBluetooth (j_addr : Option Bytes)
  | mediaCodecFormatChanged
  | onIpv6Ready (jIface jAddr : Option Bytes)
  deriving DecidableEq, Repr

/-- The call with null strings. -/
def Upcall.withoutStrings : Upcall → Upcall
  | callbackCarplayAvailable wiredAvailable _ wirelessAvailable _ =>
      .callbackCarplayAvailable wiredAvailable none wirelessAvailable none
  | disableBluetooth _ => .disableBluetooth none
  | onIpv6Ready _ _ => .onIpv6Ready none none
  | u => u

/-- `JniClassLoaderHelper::callVoidMethod`. -/
def callVoidMethod (args : List (Option ℕ)) (u : Upcall) : Native Upcall Unit := do
  let clazz ← newLocalRef
  use [some clazz]
  callMethod args u
  deleteLocalRef (some clazz)

def handleSendIap2DetectPacket (payload : Bytes) : Native Upcall Unit :=
  if payload.length = 0 then pure ()
  else withEnv do
    let byteBufferObj ← newObject
    if byteBufferObj.isSome then do
      callVoidMethod [byteBufferObj] (.callbackWithByteArray payload)
      deleteLocalRef byteBufferObj

def handleCarplayAvailablePacket (wired_available : Bool) (usb_transport_identifier : Bytes)
    (wireless_available : Bool) (bluetooth_transport_identifier : Bytes) : Native Upcall Unit :=
  withEnv do
    let usbStr ← newObject
    let btStr ← newObject
    callVoidMethod [usbStr, btStr]
      (.callbackCarplayAvailable wired_available (usbStr.map fun _ => usb_transport_identifier)
        wireless_available (btStr.map fun _ => bluetooth_transport_identifier))
    deleteLocalRef usbStr
    deleteLocalRef btStr

/-- The string is not deleted. -/
def handleDisableBluetooth (addr_cstr : Bytes) : Native Upcall Unit :=
  withEnv do
    let j_addr ← newObject
    callVoidMethod [j_addr] (.disableBluetooth (j_addr.map fun _ => addr_cstr))

def notifyScreenAvailable : Native Upcall Unit :=
  withEnv (callVoidMethod [] .mediaCodecFormatChanged)

/-- The block of `threadLoop`. -/
def ipv6Ready (ifname addr : Bytes) : Native Upcall Unit :=
  withEnv do
    let jIface ← newObject
    let jAddr ← newObject
    callVoidMethod [jIface, jAddr]
      (.onIpv6Ready (jIface.map fun _ => ifname) (jAddr.map fun _ => addr))
    deleteLocalRef jIface
    deleteLocalRef jAddr

/-- What a native thread does for one request, format change or address. -/
inductive NativeCall where
  | handleSendIap2DetectPacket (payload : Bytes)
  | handleCarplayAvailablePacket (wired_available : Bool) (usb_transport_identifier : Bytes)
      (wireless_available : Bool) (bluetooth_transport_identifier : Bytes)
  | handleDisableBluetooth (addr_cstr : Bytes)
  | notifyScreenAvailable
  | ipv6Ready (ifname addr : Bytes)
  deriving DecidableEq, Repr

namespace NativeCall

def code : NativeCall → Native Upcall Unit
  | handleSendIap2DetectPacket payload => JniThreads.handleSendIap2DetectPacket payload
  | handleCarplayAvailablePacket wired_available usb wireless_available bluetooth =>
      JniThreads.handleCarplayAvailablePacket wired_available usb wireless_available bluetooth
  | handleDisableBluetooth addr_cstr => JniThreads.handleDisableBluetooth addr_cstr
  | notifyScreenAvailable => JniThreads.notifyScreenAvailable
  | ipv6Ready ifname addr => JniThreads.ipv6Ready ifname addr

/-- The call of Java that it is for. -/
def upcall : NativeCall → Option Upcall
  | handleSendIap2DetectPacket payload =>
      if payload.length = 0 then none else some (.callbackWithByteArray payload)
  | handleCarplayAvailablePacket wired_available usb wireless_available bluetooth =>
      some (.callbackCarplayAvailable wired_available (some usb) wireless_available
        (some bluetooth))
  | handleDisableBluetooth addr_cstr => some (.disableBluetooth (some addr_cstr))
  | notifyScreenAvailable => some .mediaCodecFormatChanged
  | ipv6Ready ifname addr => some (.onIpv6Ready (some ifname) (some addr))

def isDisable : NativeCall → Bool
  | handleDisableBluetooth _ => true
  | _ => false

end NativeCall

/-- The thread after a list of them. -/
def run (cs : List NativeCall) (s : Thread Upcall) : Thread Upcall :=
  cs.foldl (fun s c => (c.code.run s).2) s

variable {s t : Thread Upcall} {new : List ℕ} {calls : List Upcall}

theorem callVoidMethod_within (h : Within s t new calls) (args : List (Option ℕ)) (u : Upcall)
    (hargs : ∀ r, some r ∈ args → r ∈ new) :
    ∃ t', (callVoidMethod args u).run t = ((), t') ∧ Within s t' new (calls ++ [u]) := by
  obtain ⟨clazz, t₁, hrun₁, hfresh, h₁⟩ := h.newLocalRef
  have huse := h₁.use [some clazz] (by simp)
  obtain ⟨t₂, hrun₂, h₂⟩ := h₁.callMethod args u fun r hr =>
    List.mem_append_left _ (hargs r hr)
  obtain ⟨t₃, hrun₃, h₃⟩ := h₂.deleteLocalRef (r := some clazz) (by simp)
  refine ⟨t₃, ((run_bind hrun₁).trans (run_bind huse)).trans ((run_bind hrun₂).trans hrun₃), ?_⟩
  -- the class was a new reference, so deleting it leaves the others in place
  have herase : (new ++ [clazz]).erase clazz = new := by
    rw [List.erase_append_right _ hfresh, List.erase_cons_head, List.append_nil]
  rwa [Option.elim_some, herase] at h₃

/-- A block that passes on two strings and deletes them. -/
theorem block_two (u : Option ℕ → Option ℕ → Upcall) {w : Upcall}
    (hu : ∀ x y, (u x y).withoutStrings = w.withoutStrings) (hw : ∀ x y, u (some x) (some y) = w) :
    Block Upcall.withoutStrings (do
      let x ← newObject
      let y ← newObject
      callVoidMethod [x, y] (u x y)
      deleteLocalRef x
      deleteLocalRef y) 0 [w] := by
  intro s hs ha
  obtain ⟨x, t₁, hrun₁, h₁, hx⟩ := (within_self hs ha).newObject
  obtain ⟨y, t₂, hrun₂, h₂, hy⟩ := h₁.newObject
  obtain ⟨t₃, hrun₃, h₃⟩ := callVoidMethod_within h₂ [x, y] (u x y) (by
    intro r hr
    rcases List.mem_cons.mp hr with rfl | hr
    · simp
    · simp [← List.mem_singleton.mp hr])
  obtain ⟨t₄, hrun₄, h₄⟩ := h₃.deleteLocalRef (r := x) (by rintro i rfl; simp)
  obtain ⟨t₅, hrun₅, h₅⟩ := h₄.deleteLocalRef (r := y) (by
    rintro i rfl
    cases x <;> simp)
  rw [run_bind hrun₁, run_bind hrun₂, run_bind hrun₃, run_bind hrun₄, hrun₅]
  -- whichever of the two strings were made, both references are gone again
  have hnew : y.elim (x.elim ([] ++ x.toList ++ y.toList) ([] ++ x.toList ++ y.toList).erase)
      (x.elim ([] ++ x.toList ++ y.toList) ([] ++ x.toList ++ y.toList).erase).erase = [] := by
    cases x <;> cases y <;> simp
  rw [hnew] at h₅
  refine ⟨_, _, h₅, ⟨Nat.le_refl _, fun _ => rfl⟩, ?_, fun hg => ?_⟩
  · -- the call made is the wanted one but for its strings
    rw [List.nil_append, List.map_singleton, List.map_singleton, hu x y]
  · -- where the platform grants both, also with them
    obtain ⟨i, rfl⟩ := Option.isSome_iff_exists.mp (hx hg)
    obtain ⟨j, rfl⟩ := Option.isSome_iff_exists.mp (hy hg)
    rw [List.nil_append, hw i j]

theorem block_handleSendIap2DetectPacket (payload : Bytes) :
    Block Upcall.withoutStrings (do
      let byteBufferObj ← newObject
      if byteBufferObj.isSome then do
        callVoidMethod [byteBufferObj] (.callbackWithByteArray payload)
        deleteLocalRef byteBufferObj) 0 [.callbackWithByteArray payload] := by
  intro s hs ha
  obtain ⟨r, t₁, hrun₁, h₁, hr⟩ := (within_self hs ha).newObject
  rw [run_bind hrun₁]
  cases r with
  -- no buffer, no call and nothing to delete
  | none =>
    exact ⟨_, _, h₁, ⟨Nat.le_refl _, fun _ => rfl⟩, List.nil_sublist _,
      fun hg => absurd (hr hg) Bool.false_ne_true⟩
  | some r =>
    obtain ⟨t₂, hrun₂, h₂⟩ := callVoidMethod_within h₁ [some r]
      (.callbackWithByteArray payload) (by simp)
    obtain ⟨t₃, hrun₃, h₃⟩ := h₂.deleteLocalRef (r := some r) (by simp)
    rw [Option.isSome_some, if_pos rfl, run_bind hrun₂, hrun₃]
    refine ⟨_, _, h₃, ?_, List.Sublist.refl _, fun _ => rfl⟩
    simp

theorem block_handleDisableBluetooth (addr_cstr : Bytes) :
    Block Upcall.withoutStrings (do
      let j_addr ← newObject
      callVoidMethod [j_addr] (.disableBluetooth (j_addr.map fun _ => addr_cstr))) 1
      [.disableBluetooth (some addr_cstr)] := by
  intro s hs ha
  obtain ⟨r, t₁, hrun₁, h₁, hr⟩ := (within_self hs ha).newObject
  obtain ⟨t₂, hrun₂, h₂⟩ := callVoidMethod_within h₁ [r]
    (.disableBluetooth (r.map fun _ => addr_cstr)) (by
      rintro i hi
      simp [← List.mem_singleton.mp hi])
  rw [run_bind hrun₁, hrun₂]
  refine ⟨_, _, h₂, ⟨?_, fun hg => ?_⟩, List.Sublist.refl _, fun hg => ?_⟩
  · -- nobody deletes the string, so its reference is the one that stays
    cases r <;> simp
  · obtain ⟨i, rfl⟩ := Option.isSome_iff_exists.mp (hr hg)
    rfl
  · obtain ⟨i, rfl⟩ := Option.isSome_iff_exists.mp (hr hg)
    rfl

theorem block_notifyScreenAvailable :
    Block Upcall.withoutStrings (callVoidMethod [] .mediaCodecFormatChanged) 0
      [.mediaCodecFormatChanged] := by
  intro s hs ha
  obtain ⟨t, hrun, h⟩ := callVoidMethod_within (within_self hs ha) []
    .mediaCodecFormatChanged (by simp)
  rw [hrun]
  exact ⟨_, _, h, ⟨Nat.le_refl _, fun _ => rfl⟩, List.Sublist.refl _, fun _ => rfl⟩

/-- Each call leaves the thread as it was. -/
theorem NativeCall.leaves (c : NativeCall) (hs : s.WellFormed) :
    Leaves Upcall.withoutStrings c.isDisable.toNat c.upcall.toList s (c.code.run s).2 := by
  cases c with
  | handleSendIap2DetectPacket payload =>
    rw [code, upcall, JniThreads.handleSendIap2DetectPacket]
    split
    · exact leaves_self hs
    · exact (block_handleSendIap2DetectPacket payload).withEnv hs
  | handleCarplayAvailablePacket wired_available usb wireless_available bluetooth =>
    exact (block_two (fun x y => .callbackCarplayAvailable wired_available (x.map fun _ => usb)
      wireless_available (y.map fun _ => bluetooth)) (fun _ _ => rfl) fun _ _ => rfl).withEnv hs
  | handleDisableBluetooth addr_cstr => exact (block_handleDisableBluetooth addr_cstr).withEnv hs
  | notifyScreenAvailable => exact block_notifyScreenAvailable.withEnv hs
  | ipv6Ready ifname addr =>
    exact (block_two (fun x y => .onIpv6Ready (x.map fun _ => ifname) (y.map fun _ => addr))
      (fun _ _ => rfl) fun _ _ => rfl).withEnv hs

end Carplay.JniThreads

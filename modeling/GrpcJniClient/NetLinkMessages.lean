/-
Well-formed netlink messages, and what a pass of `NetLinkMonitor::threadLoop`
makes of them.

* `RtAttr`, `IfAddrMsg`, `NlMsg` — attributes, the payload of an `RTM_NEWADDR`
  message, and messages of any type; their lengths fit in their fields, and an
  `IFA_ADDRESS` of `AF_INET6` has sixteen bytes;
* `NlMsg.callbacks` — what is to be reported of a message;
* `getElem?_received_iff` — a message has been received if its last byte has;
* `callbacks_messageEvents` — a message in the buffer is reported as it is;
* `threadLoopPass_reports` — a pass reports the messages received, and nothing
  else.
-/
import GrpcJniClient.NetLinkMonitor

namespace Carplay.NetLink

open Tlv

/-- `struct rtattr` and its payload. -/
structure RtAttr where
  rta_type : UInt16
  payload : List UInt8
  fits : 4 + payload.length < 256 ^ 2

/-- The attribute as a record. -/
def RtAttr.record (a : RtAttr) : Format.Record rtattr where
  rest := toLittleEndian 2 a.rta_type.toNat ++ a.payload
  header_le := by
    rw [List.length_append, length_toLittleEndian]
    change 4 ≤ 2 + (2 + a.payload.length)
    omega
  length_lt := by
    have h := a.fits
    rw [List.length_append, length_toLittleEndian]
    change 2 + (2 + a.payload.length) < 256 ^ 2
    omega

/-- `struct ifaddrmsg` and its attributes; `attrsLen` bytes of these are counted
in `nlmsg_len`, which may leave out the padding behind the last one. -/
structure IfAddrMsg where
  ifa_family : UInt8
  ifa_prefixlen : UInt8
  ifa_flags : UInt8
  ifa_scope : UInt8
  ifa_index : UInt32
  attrs : List RtAttr
  attrsLen : ℕ
  whole : Format.complete attrsLen (attrs.map RtAttr.record) = attrs.map RtAttr.record
  addresses : ifa_family = AF_INET6 → ∀ a ∈ attrs, a.rta_type = IFA_ADDRESS → a.payload.length = 16

def IfAddrMsg.toBytes (m : IfAddrMsg) : List UInt8 :=
  [m.ifa_family, m.ifa_prefixlen, m.ifa_flags, m.ifa_scope] ++
    toLittleEndian 4 m.ifa_index.toNat ++
    (Format.serialize (m.attrs.map RtAttr.record)).take m.attrsLen

theorem IfAddrMsg.length_toBytes (m : IfAddrMsg) :
    m.toBytes.length = sizeofIfaddrmsg
      + ((Format.serialize (m.attrs.map RtAttr.record)).take m.attrsLen).length := by
  rw [IfAddrMsg.toBytes, List.length_append, List.length_append, length_toLittleEndian]
  rfl

/-- The type of a message and what it carries. -/
inductive Body
  | newAddr (m : IfAddrMsg)
  | other (nlmsg_type : UInt16) (payload : List UInt8) (h : nlmsg_type ≠ RTM_NEWADDR)

def Body.nlmsg_type : Body → UInt16
  | .newAddr _ => RTM_NEWADDR
  | .other nlmsg_type _ _ => nlmsg_type

def Body.toBytes : Body → List UInt8
  | .newAddr m => m.toBytes
  | .other _ payload _ => payload

/-- A well-formed message. -/
structure NlMsg where
  nlmsg_flags : UInt16
  nlmsg_seq : UInt32
  nlmsg_pid : UInt32
  body : Body
  fits : 16 + body.toBytes.length < 256 ^ 4

/-- The header behind the length. -/
def NlMsg.header (m : NlMsg) : List UInt8 :=
  toLittleEndian 2 m.body.nlmsg_type.toNat ++ toLittleEndian 2 m.nlmsg_flags.toNat ++
    toLittleEndian 4 m.nlmsg_seq.toNat ++ toLittleEndian 4 m.nlmsg_pid.toNat

@[simp] theorem NlMsg.length_header (m : NlMsg) : m.header.length = 12 := by
  simp [NlMsg.header]

/-- The message as a record. -/
def NlMsg.record (m : NlMsg) : Format.Record nlmsghdr where
  rest := m.header ++ m.body.toBytes
  header_le := by
    rw [List.length_append, NlMsg.length_header]
    change 16 ≤ 4 + (12 + m.body.toBytes.length)
    omega
  length_lt := by
    have h := m.fits
    rw [List.length_append, NlMsg.length_header]
    change 4 + (12 + m.body.toBytes.length) < 256 ^ 4
    omega

/-- The messages as `recv` gets them. -/
def serialize (msgs : List NlMsg) : List UInt8 := Format.serialize (msgs.map NlMsg.record)

/-- The messages that are complete in the first `n` bytes. -/
def received (n : ℕ) (msgs : List NlMsg) : List NlMsg :=
  msgs.take (Format.complete n (msgs.map NlMsg.record)).length

/-- What is to be reported of a message: the name of its interface, and the
address, for each `IFA_ADDRESS`. -/
def NlMsg.callbacks (names : Names) (m : NlMsg) : List (String × String) :=
  match m.body with
  | .newAddr ifa =>
    if ifa.ifa_family = AF_INET6 then
      (ifa.attrs.filter fun a => a.rta_type = IFA_ADDRESS).map fun a =>
        ((names.if_indextoname ifa.ifa_index).getD "", names.inet_ntop a.payload)
    else []
  | .other _ _ _ => []

/-- The callbacks among the events of a pass. -/
def callbacks (events : List Event) : List (String × String) :=
  events.filterMap fun
    | .onIpv6Ready ifname addr => some (ifname, addr)
    | _ => none

variable {names : Names} {mem : Memory} {pos : ℕ}

/-! ### Messages received -/

theorem map_record_received (n : ℕ) (msgs : List NlMsg) :
    (received n msgs).map NlMsg.record = Format.complete n (msgs.map NlMsg.record) := by
  rw [received, List.map_take, Format.take_length_complete]

/-- A message counts as received if all of it has been, up to its own length. -/
theorem getElem?_received_iff {n i : ℕ} {msgs : List NlMsg} {m : NlMsg} (h : msgs[i]? = some m) :
    (received n msgs)[i]? = some m ↔ (serialize (msgs.take i)).length + m.record.length ≤ n := by
  have hrecord : (msgs.map NlMsg.record)[i]? = some m.record := by
    rw [List.getElem?_map, h]
    rfl
  have hoffset : Format.offset (msgs.map NlMsg.record) i = (serialize (msgs.take i)).length := by
    rw [Format.offset, ← List.map_take, serialize]
  constructor
  · intro hreceived
    have hcomplete : (Format.complete n (msgs.map NlMsg.record))[i]? = some m.record := by
      rw [← map_record_received, List.getElem?_map, hreceived]
      rfl
    rw [← hoffset]
    exact (Format.getElem?_complete.mp hcomplete).2
  · intro hle
    rw [← hoffset] at hle
    have hcomplete := Format.getElem?_complete.mpr ⟨hrecord, hle⟩
    rw [received, List.getElem?_take_of_lt (List.getElem?_eq_some_iff.mp hcomplete).1, h]

/-! ### Reading a message -/

theorem holds_attribute {a : RtAttr} (h : Holds mem pos a.record.toBytes) :
    rta_type mem pos = a.rta_type ∧ Holds mem (RTA_DATA pos) a.payload := by
  rw [Format.Record.toBytes, holds_append, length_toLittleEndian] at h
  obtain ⟨htype, hpayload⟩ := holds_append.mp h.2
  rw [length_toLittleEndian] at hpayload
  refine ⟨?_, hpayload⟩
  have hload : load mem (pos + 2) 2 = a.rta_type.toNat :=
    htype.load_toLittleEndian a.rta_type.toNat_lt
  rw [rta_type, hload, UInt16.ofNat_toNat]

/-- An attribute in the buffer is reported as it is. -/
theorem callbacks_attributeBody {a : RtAttr} (h : Holds mem pos a.record.toBytes) (nh : ℕ)
    (ifname : String) (haddress : a.rta_type = IFA_ADDRESS → a.payload.length = 16) :
    callbacks (attributeBody names mem nh ifname pos)
      = if a.rta_type = IFA_ADDRESS then [(ifname, names.inet_ntop a.payload)] else [] := by
  obtain ⟨htype, hpayload⟩ := holds_attribute h
  by_cases ha : a.rta_type = IFA_ADDRESS
  · have hbytes : bytes mem (RTA_DATA pos) 16 = a.payload := by
      -- sixteen bytes are read, and the payload has as many
      rw [← haddress ha]
      exact hpayload
    simp [attributeBody, callbacks, htype, ha, hbytes]
  · simp [attributeBody, callbacks, htype, ha]

theorem holds_message {m : NlMsg} (h : Holds mem pos m.record.toBytes) :
    nlmsg_type mem pos = m.body.nlmsg_type ∧
      nlmsghdr.size mem pos = sizeofNlmsghdr + m.body.toBytes.length ∧
      Holds mem (pos + sizeofNlmsghdr) m.body.toBytes := by
  have hsize := Format.Record.size_of_holds h
  rw [Format.Record.toBytes, holds_append, length_toLittleEndian] at h
  obtain ⟨hheader, hbody⟩ := holds_append.mp h.2
  rw [NlMsg.length_header] at hbody
  rw [NlMsg.header, List.append_assoc, List.append_assoc, holds_append] at hheader
  refine ⟨?_, ?_, hbody⟩
  · have hload : load mem (pos + 4) 2 = m.body.nlmsg_type.toNat :=
      hheader.1.load_toLittleEndian m.body.nlmsg_type.toNat_lt
    rw [nlmsg_type, hload, UInt16.ofNat_toNat]
  · rw [hsize, Format.Record.length, NlMsg.record, List.length_append, NlMsg.length_header,
      ← Nat.add_assoc]
    rfl

theorem holds_ifaddrmsg {m : IfAddrMsg} (h : Holds mem pos m.toBytes) :
    ifa_family mem pos = m.ifa_family ∧ ifa_index mem pos = m.ifa_index ∧
      Holds mem (pos + sizeofIfaddrmsg)
        ((Format.serialize (m.attrs.map RtAttr.record)).take m.attrsLen) := by
  rw [IfAddrMsg.toBytes, holds_append, holds_append] at h
  obtain ⟨⟨hfirst, hindex⟩, hattrs⟩ := h
  rw [List.length_append, length_toLittleEndian] at hattrs
  refine ⟨List.head_eq_of_cons_eq hfirst, ?_, hattrs⟩
  have hload : load mem (pos + 4) 4 = m.ifa_index.toNat :=
    hindex.load_toLittleEndian m.ifa_index.toNat_lt
  rw [ifa_index, hload, UInt32.ofNat_toNat]

theorem callbacks_append (es es' : List Event) :
    callbacks (es ++ es') = callbacks es ++ callbacks es' := List.filterMap_append

/-- Where a list of attributes is in the buffer, they are all reported. -/
theorem callbacks_attributes {attrs : List RtAttr} {positions : List ℕ} (names : Names) (nh : ℕ)
    (ifname : String)
    (h : List.Forall₂ (fun pos r => Holds mem pos r.toBytes) positions (attrs.map RtAttr.record))
    (haddresses : ∀ a ∈ attrs, a.rta_type = IFA_ADDRESS → a.payload.length = 16) :
    callbacks (positions.flatMap (attributeBody names mem nh ifname))
      = (attrs.filter fun a => a.rta_type = IFA_ADDRESS).map
          fun a => (ifname, names.inet_ntop a.payload) := by
  induction attrs generalizing positions with
  | nil =>
    cases h
    rfl
  | cons a attrs ih =>
    cases h with
    | cons ha hattrs =>
      rw [List.forall_mem_cons] at haddresses
      rw [List.flatMap_cons, callbacks_append, ih hattrs haddresses.2,
        callbacks_attributeBody ha nh ifname haddresses.1, List.filter_cons]
      by_cases htype : a.rta_type = IFA_ADDRESS
      · simp [htype]
      · simp [htype]

/-- A message in the buffer is reported as it is. -/
theorem callbacks_messageEvents {m : NlMsg} (h : Holds mem pos m.record.toBytes) :
    callbacks (messageEvents names mem pos) = m.callbacks names := by
  obtain ⟨htype, hsize, hbody⟩ := holds_message h
  rw [messageEvents, NlMsg.callbacks]
  cases hm : m.body with
  | other nlmsg_type payload hother =>
    rw [hm] at htype
    simp [htype, Body.nlmsg_type, hother, callbacks]
  | newAddr ifa =>
    rw [hm] at htype hsize hbody
    obtain ⟨hfamily, hindex, hattrs⟩ := holds_ifaddrmsg hbody
    by_cases hinet6 : ifa.ifa_family = AF_INET6
    · have hpositions := Format.positions_serialize hattrs
      -- the attributes end where the message says that it ends
      have hend : pos + sizeofNlmsghdr + sizeofIfaddrmsg
          + ((Format.serialize (ifa.attrs.map RtAttr.record)).take ifa.attrsLen).length
          = pos + nlmsghdr.size mem pos := by
        rw [hsize, Body.toBytes, IfAddrMsg.length_toBytes, Nat.add_assoc, Nat.add_assoc]
      rw [ifa.whole, hend, ← attributesOf] at hpositions
      have hreported := callbacks_attributes names pos ((names.if_indextoname ifa.ifa_index).getD "")
        hpositions (ifa.addresses hinet6)
      simpa [htype, Body.nlmsg_type, hfamily, hinet6, hindex, callbacks] using hreported
    · simp [htype, Body.nlmsg_type, hfamily, hinet6, callbacks]

theorem callbacks_messages {msgs : List NlMsg} {positions : List ℕ}
    (h : List.Forall₂ (fun pos r => Holds mem pos r.toBytes) positions (msgs.map NlMsg.record)) :
    callbacks (positions.flatMap (messageEvents names mem))
      = msgs.flatMap (NlMsg.callbacks names) := by
  induction msgs generalizing positions with
  | nil =>
    cases h
    rfl
  | cons m msgs ih =>
    cases h with
    | cons hm hmsgs =>
      rw [List.flatMap_cons, callbacks_append, callbacks_messageEvents hm, ih hmsgs,
        List.flatMap_cons]

/-! ### A pass -/

/-- A pass reports each `IFA_ADDRESS` of each complete `RTM_NEWADDR` message of
`AF_INET6`, in order, and nothing else, whatever the buffer holds behind the
bytes received. -/
theorem threadLoopPass_reports (names : Names) (msgs : List NlMsg) (n : ℕ) (mem : Memory)
    (fuel : ℕ) (hn : n ≤ sizeofBuf) (hrecv : Holds mem 0 ((serialize msgs).take n))
    (hfuel : sizeofBuf ≤ fuel) :
    ∃ events, threadLoopPass names mem fuel ((serialize msgs).take n).length = some events ∧
      callbacks events = (received n msgs).flatMap (NlMsg.callbacks names) := by
  have hlen : ((serialize msgs).take n).length ≤ sizeofBuf := by
    rw [List.length_take]
    exact Nat.le_trans (Nat.min_le_left _ _) hn
  refine ⟨_, threadLoopPass_eq hlen hfuel, ?_⟩
  have hpositions := Format.positions_serialize hrecv
  rw [← map_record_received, Nat.zero_add] at hpositions
  rw [← serialize] at hpositions
  exact callbacks_messages hpositions

/-- A new address, `fe80::1`. -/
def newAddress : RtAttr := ⟨IFA_ADDRESS, [0xFE, 0x80, 0, 0, 0, 0, 0, 0, 0, 0, 0, 0, 0, 0, 0, 1], by decide⟩

/-- A message with an attribute of another type in front of it. -/
def newAddressMsg : NlMsg where
  nlmsg_flags := 0
  nlmsg_seq := 0
  nlmsg_pid := 0
  body := .newAddr {
    ifa_family := AF_INET6
    ifa_prefixlen := 64
    ifa_flags := 0
    ifa_scope := 0
    ifa_index := 3
    attrs := [⟨8, [1], by decide⟩, newAddress]
    attrsLen := 28
    whole := Format.complete_of_le (by decide)
    addresses := by decide }
  fits := by decide

def newAddressMemory : Memory := fun i => (serialize [newAddressMsg, newAddressMsg]).getD i 0xAA

theorem threadLoopPass_reports_cut :
    100 ≤ sizeofBuf ∧
      Holds newAddressMemory 0 ((serialize [newAddressMsg, newAddressMsg]).take 100) ∧
      ∃ events,
        threadLoopPass ⟨fun _ => some "wlan0", fun _ => "fe80::1"⟩ newAddressMemory 4096
            ((serialize [newAddressMsg, newAddressMsg]).take 100).length = some events ∧
          callbacks events = (received 100 [newAddressMsg, newAddressMsg]).flatMap
            (NlMsg.callbacks ⟨fun _ => some "wlan0", fun _ => "fe80::1"⟩) :=
  ⟨by decide, by decide +kernel,
    threadLoopPass_reports ⟨fun _ => some "wlan0", fun _ => "fe80::1"⟩
      [newAddressMsg, newAddressMsg] 100 newAddressMemory 4096 (by decide) (by decide +kernel)
      (by decide)⟩

end Carplay.NetLink

/-
`NetLinkMonitor::threadLoop`: one pass over the bytes that `recv` has written.

A pointer is its offset from the start of `buf`; what the buffer does not hold,
behind the received bytes or behind its end, is some memory.  The macros are
those of `linux/netlink.h` and `linux/rtnetlink.h`, with the types of a 64-bit
target.

* `Event` — what a pass does: the headers, fields and addresses that it reads, and
  its callbacks;
* `nlmsghdr`, `rtattr` — the two formats that the macros walk over;
* `nextMessage_cursor`, `nextAttribute_cursor` — the macros go where a reader of
  the format goes;
* `threadLoopPass_eq` — so a pass ends, and its events are those of the records
  in the received bytes.
-/
import GrpcJniClient.Tlv
import Mathlib.Data.Int.Notation
import Mathlib.Data.Nat.Bitwise

namespace Carplay.NetLink

open Tlv

/-- Conversion to `int`. -/
def toInt (x : ℤ) : ℤ := x.bmod (2 ^ 32)

/-- Conversion to `ssize_t`. -/
def toSsize (x : ℤ) : ℤ := x.bmod (2 ^ 64)

/-- Conversion to `size_t`. -/
def toSize (x : ℤ) : ℕ := (x % 2 ^ 64).toNat

def RTM_NEWADDR : UInt16 := 20

def AF_INET6 : UInt8 := 10

def IFA_ADDRESS : UInt16 := 1

/-! ### Structures -/

def sizeofNlmsghdr : ℕ := 16

def nlmsg_len (mem : Memory) (nh : ℕ) : UInt32 := UInt32.ofNat (load mem nh 4)

def nlmsg_type (mem : Memory) (nh : ℕ) : UInt16 := UInt16.ofNat (load mem (nh + 4) 2)

def sizeofIfaddrmsg : ℕ := 8

def ifa_family (mem : Memory) (ifa : ℕ) : UInt8 := mem ifa

def ifa_index (mem : Memory) (ifa : ℕ) : UInt32 := UInt32.ofNat (load mem (ifa + 4) 4)

def sizeofRtattr : ℕ := 4

def rta_len (mem : Memory) (rta : ℕ) : UInt16 := UInt16.ofNat (load mem rta 2)

def rta_type (mem : Memory) (rta : ℕ) : UInt16 := UInt16.ofNat (load mem (rta + 2) 2)

/-! ### Macros -/

/-- `NLMSG_ALIGN` and `RTA_ALIGN`. -/
def alignTo (alignto len : UInt32) : UInt32 := (len + alignto - 1) &&& ~~~(alignto - 1)

def NLMSG_ALIGNTO : UInt32 := 4

def NLMSG_ALIGN (len : UInt32) : UInt32 := alignTo NLMSG_ALIGNTO len

def NLMSG_HDRLEN : ℕ := (NLMSG_ALIGN (UInt32.ofNat sizeofNlmsghdr)).toNat

def NLMSG_LENGTH (len : ℕ) : ℕ := len + NLMSG_HDRLEN

def NLMSG_SPACE (len : ℕ) : ℕ := (NLMSG_ALIGN (UInt32.ofNat (NLMSG_LENGTH len))).toNat

def NLMSG_DATA (nh : ℕ) : ℕ := nh + NLMSG_HDRLEN

/-- `ssize_t` is compared with `int` and with the unsigned fields by value. -/
def NLMSG_OK (mem : Memory) (nh : ℕ) (len : ℤ) : Bool :=
  sizeofNlmsghdr ≤ len && sizeofNlmsghdr ≤ (nlmsg_len mem nh).toNat && (nlmsg_len mem nh).toNat ≤ len

/-- `NLMSG_PAYLOAD`, a `size_t`. -/
def NLMSG_PAYLOAD (mem : Memory) (nh len : ℕ) : ℕ :=
  toSize ((nlmsg_len mem nh).toNat - NLMSG_SPACE len)

def IFA_RTA (ifa : ℕ) : ℕ := ifa + (NLMSG_ALIGN (UInt32.ofNat sizeofIfaddrmsg)).toNat

def IFA_PAYLOAD (mem : Memory) (nh : ℕ) : ℕ := NLMSG_PAYLOAD mem nh sizeofIfaddrmsg

def RTA_ALIGNTO : UInt32 := 4

def RTA_ALIGN (len : UInt32) : UInt32 := alignTo RTA_ALIGNTO len

def RTA_OK (mem : Memory) (rta : ℕ) (len : ℤ) : Bool :=
  sizeofRtattr ≤ len && sizeofRtattr ≤ (rta_len mem rta).toNat && (rta_len mem rta).toNat ≤ len

def RTA_LENGTH (len : ℕ) : ℕ := (RTA_ALIGN (UInt32.ofNat sizeofRtattr)).toNat + len

def RTA_DATA (rta : ℕ) : ℕ := rta + RTA_LENGTH 0

/-- The variables of the outer loop. -/
structure MessageCursor where
  nh : ℕ
  len : ℤ
  deriving DecidableEq, Repr

def NLMSG_NEXT (mem : Memory) (c : MessageCursor) : MessageCursor :=
  let step := NLMSG_ALIGN (nlmsg_len mem c.nh)
  ⟨c.nh + step.toNat, toSsize (c.len - step.toNat)⟩

/-- The variables of the inner loop. -/
structure AttributeCursor where
  rta : ℕ
  rta_len : ℤ
  deriving DecidableEq, Repr

/-- The subtraction is done in `unsigned int`. -/
def RTA_NEXT (mem : Memory) (c : AttributeCursor) : AttributeCursor :=
  let step := RTA_ALIGN (rta_len mem c.rta).toUInt32
  ⟨c.rta + step.toNat, toInt (c.rta_len - step.toNat)⟩

/-! ### The pass -/

/-- `header nh`: `NLMSG_OK` has passed and the fields of the header at `nh` are
read.  `ifaddrmsg nh pos n`: the `n` bytes of a field are read at `pos`, from
the message at `nh`.  `attribute nh rta`: `RTA_OK` has passed and the type of the
attribute at `rta` is inspected.  `inet_ntop nh rta pos n`: the `n` bytes at `pos`
are handed over as the address of that attribute. -/
inductive Event
  | header (nh : ℕ)
  | ifaddrmsg (nh pos n : ℕ)
  | attribute (nh rta : ℕ)
  | inet_ntop (nh rta pos n : ℕ)
  | onIpv6Ready (ifname addr : String)
  deriving DecidableEq, Repr

/-- The libraries: `none` is an index that `if_indextoname` does not know. -/
structure Names where
  if_indextoname : UInt32 → Option String
  inet_ntop : List UInt8 → String

def nextMessage (mem : Memory) (c : MessageCursor) : Option MessageCursor :=
  if NLMSG_OK mem c.nh c.len then some (NLMSG_NEXT mem c) else none

def nextAttribute (mem : Memory) (c : AttributeCursor) : Option AttributeCursor :=
  if RTA_OK mem c.rta c.rta_len then some (RTA_NEXT mem c) else none

/-- The body of the inner loop. -/
def attributeBody (names : Names) (mem : Memory) (nh : ℕ) (ifname : String) (rta : ℕ) :
    List Event :=
  .attribute nh rta ::
    if rta_type mem rta ≠ IFA_ADDRESS then []
    else
      -- `inet_ntop` takes sixteen bytes, whatever the attribute has
      [.inet_ntop nh rta (RTA_DATA rta) 16,
        .onIpv6Ready ifname (names.inet_ntop (bytes mem (RTA_DATA rta) 16))]

/-- The body of the outer loop; `none` if the inner one takes more than `fuel`
iterations. -/
def messageBody (names : Names) (mem : Memory) (fuel nh : ℕ) : Option (List Event) := do
  if nlmsg_type mem nh ≠ RTM_NEWADDR then return [.header nh]
  let ifa := NLMSG_DATA nh
  if ifa_family mem ifa ≠ AF_INET6 then return [.header nh, .ifaddrmsg nh ifa 1]
  -- `ifname` is zeroed before, so an index without a name gives the empty one
  let ifname := (names.if_indextoname (ifa_index mem ifa)).getD ""
  let rta := IFA_RTA ifa
  -- a `size_t` that has wrapped around becomes a negative `int`
  let rta_len := toInt (IFA_PAYLOAD mem nh)
  let attributes ← Loop.emit (nextAttribute mem)
    (fun c => some (attributeBody names mem nh ifname c.rta)) fuel ⟨rta, rta_len⟩
  return [.header nh, .ifaddrmsg nh ifa 1, .ifaddrmsg nh (ifa + 4) 4] ++ attributes

/-- What `threadLoop` does with the `len` bytes that `recv` has returned. -/
def threadLoopPass (names : Names) (mem : Memory) (fuel : ℕ) (len : ℤ) : Option (List Event) :=
  if len ≤ 0 then some []
  else Loop.emit (nextMessage mem) (fun c => messageBody names mem fuel c.nh) fuel ⟨0, len⟩

/-- `sizeof(buf)`. -/
def sizeofBuf : ℕ := 4096

variable {names : Names} {mem : Memory} {stop fuel : ℕ}

/-! ### The formats -/

/-- Messages, each with the length of all of it in its first four bytes. -/
def nlmsghdr : Format := ⟨4, sizeofNlmsghdr, 4, by decide, by decide, by decide⟩

/-- Attributes, with the length in two bytes. -/
def rtattr : Format := ⟨2, sizeofRtattr, 4, by decide, by decide, by decide⟩

theorem toNat_and_not_three (x : UInt32) : (x &&& ~~~(4 - 1)).toNat = x.toNat / 4 * 4 := by
  have hmask : (~~~(4 - 1) : UInt32).toNat = (2 ^ 30 - 1) * 2 ^ 2 := by decide
  rw [UInt32.toNat_and, hmask]
  -- the mask keeps all bits but the lowest two
  apply Nat.eq_of_testBit_eq
  intro i
  rw [show x.toNat / 4 * 4 = x.toNat / 2 ^ 2 * 2 ^ 2 from rfl, Nat.testBit_and,
    Nat.testBit_mul_two_pow, Nat.testBit_mul_two_pow, Nat.testBit_two_pow_sub_one,
    Nat.testBit_div_two_pow]
  by_cases hi : 2 ≤ i
  · by_cases h : i - 2 < 30
    · simp [hi, h]
    · have hx : x.toNat.testBit i = false :=
        Nat.testBit_lt_two_pow
          (Nat.lt_of_lt_of_le x.toNat_lt (Nat.pow_le_pow_right (by decide) (by omega)))
      simp [hi, h, hx]
  · simp [hi]

/-- Rounding up only goes wrong for the three greatest lengths. -/
theorem toNat_alignTo {len : UInt32} (h : len.toNat + 3 < 2 ^ 32) :
    (alignTo 4 len).toNat = alignUp 4 len.toNat := by
  have hadd : (len + 4 - 1).toNat = len.toNat + 3 := by
    rw [UInt32.toNat_sub, UInt32.toNat_add]
    simp
    omega
  rw [alignTo, toNat_and_not_three, hadd]
  rfl

theorem toNat_nlmsg_len (mem : Memory) (nh : ℕ) :
    (nlmsg_len mem nh).toNat = nlmsghdr.size mem nh := by
  have hlt := load_lt mem nh 4
  rw [nlmsg_len, UInt32.toNat_ofNat', Nat.mod_eq_of_lt (by omega)]
  rfl

theorem toNat_rta_len (mem : Memory) (rta : ℕ) :
    (rta_len mem rta).toNat = rtattr.size mem rta := by
  have hlt := load_lt mem rta 2
  rw [rta_len, UInt16.toNat_ofNat', Nat.mod_eq_of_lt (by omega)]
  rfl

/-! ### The cursors -/

/-- The outer loop in front of the message at `nh`, with `stop` bytes received. -/
def messageCursor (stop nh : ℕ) : MessageCursor := ⟨nh, stop - nh⟩

/-- The inner loop in front of the attribute at `rta`, in a message that ends at
`stop`. -/
def attributeCursor (stop rta : ℕ) : AttributeCursor := ⟨rta, stop - rta⟩

theorem NLMSG_OK_iff {nh : ℕ} : NLMSG_OK mem nh (stop - nh) = true ↔ nlmsghdr.Fits mem stop nh := by
  rw [NLMSG_OK, Bool.and_eq_true, Bool.and_eq_true, decide_eq_true_eq, decide_eq_true_eq,
    decide_eq_true_eq, toNat_nlmsg_len, Format.Fits, show nlmsghdr.header = sizeofNlmsghdr from rfl]
  omega

theorem RTA_OK_iff {rta : ℕ} : RTA_OK mem rta (stop - rta) = true ↔ rtattr.Fits mem stop rta := by
  rw [RTA_OK, Bool.and_eq_true, Bool.and_eq_true, decide_eq_true_eq, decide_eq_true_eq,
    decide_eq_true_eq, toNat_rta_len, Format.Fits, show rtattr.header = sizeofRtattr from rfl]
  omega

theorem alignUp_four_lt (n : ℕ) : alignUp 4 n < n + 4 := by
  rw [alignUp]
  omega

/-- What remains behind a record that fits is exact in any signed type of at least
sixteen bits, though it may be negative. -/
theorem bmod_remaining {pos n m : ℕ} (hm : 2 ^ 16 ≤ m) (hstop : stop ≤ sizeofBuf)
    (hn : pos + n ≤ stop) :
    ((stop : ℤ) - pos - alignUp 4 n).bmod m = stop - (pos + alignUp 4 n : ℕ) := by
  have hlt := alignUp_four_lt n
  rw [sizeofBuf] at hstop
  rw [Int.bmod_eq_of_le (by omega) (by omega)]
  omega

theorem nextMessage_cursor (hstop : stop ≤ sizeofBuf) (nh : ℕ) :
    nextMessage mem (messageCursor stop nh)
      = (nlmsghdr.next mem stop nh).map (messageCursor stop) := by
  by_cases hfits : nlmsghdr.Fits mem stop nh
  · have hok : NLMSG_OK mem (messageCursor stop nh).nh (messageCursor stop nh).len = true :=
      NLMSG_OK_iff.mpr hfits
    have hsize := hfits.2.2
    have hstep : (NLMSG_ALIGN (nlmsg_len mem nh)).toNat = alignUp 4 (nlmsghdr.size mem nh) := by
      rw [NLMSG_ALIGN, NLMSG_ALIGNTO, toNat_alignTo (by rw [toNat_nlmsg_len, sizeofBuf] at *; omega),
        toNat_nlmsg_len]
    rw [nextMessage, if_pos hok, Format.next_of_fits hfits, Option.map_some, NLMSG_NEXT,
      messageCursor, messageCursor, hstep, show nlmsghdr.align = 4 from rfl, toSsize]
    dsimp only
    rw [bmod_remaining (by decide) hstop hsize]
  · have hok : ¬ NLMSG_OK mem (messageCursor stop nh).nh (messageCursor stop nh).len = true :=
      mt NLMSG_OK_iff.mp hfits
    rw [nextMessage, if_neg hok, Format.next_of_not_fits hfits]
    rfl

theorem nextAttribute_cursor (hstop : stop ≤ sizeofBuf) (rta : ℕ) :
    nextAttribute mem (attributeCursor stop rta)
      = (rtattr.next mem stop rta).map (attributeCursor stop) := by
  by_cases hfits : rtattr.Fits mem stop rta
  · have hok : RTA_OK mem (attributeCursor stop rta).rta (attributeCursor stop rta).rta_len = true :=
      RTA_OK_iff.mpr hfits
    have hsize := hfits.2.2
    have hstep : (RTA_ALIGN (rta_len mem rta).toUInt32).toNat
        = alignUp 4 (rtattr.size mem rta) := by
      have hlen : (rta_len mem rta).toUInt32.toNat = rtattr.size mem rta := by
        rw [UInt16.toNat_toUInt32, toNat_rta_len]
      rw [RTA_ALIGN, RTA_ALIGNTO, toNat_alignTo (by rw [hlen, sizeofBuf] at *; omega), hlen]
    rw [nextAttribute, if_pos hok, Format.next_of_fits hfits, Option.map_some, RTA_NEXT,
      attributeCursor, attributeCursor, hstep, show rtattr.align = 4 from rfl, toInt]
    dsimp only
    rw [bmod_remaining (by decide) hstop hsize]
  · have hok : ¬ RTA_OK mem (attributeCursor stop rta).rta (attributeCursor stop rta).rta_len = true :=
      mt RTA_OK_iff.mp hfits
    rw [nextAttribute, if_neg hok, Format.next_of_not_fits hfits]
    rfl

/-! ### The records of a pass -/

/-- Where there are attributes in the message at `nh`. -/
def attributesOf (mem : Memory) (nh : ℕ) : List ℕ :=
  rtattr.positions mem (nh + nlmsghdr.size mem nh) (nh + sizeofNlmsghdr + sizeofIfaddrmsg)

/-- What a pass does with the message at `nh`. -/
def messageEvents (names : Names) (mem : Memory) (nh : ℕ) : List Event :=
  let ifa := nh + sizeofNlmsghdr
  .header nh ::
    if nlmsg_type mem nh ≠ RTM_NEWADDR then []
    else .ifaddrmsg nh ifa 1 ::
      if ifa_family mem ifa ≠ AF_INET6 then []
      else .ifaddrmsg nh (ifa + 4) 4 ::
        (attributesOf mem nh).flatMap
          (attributeBody names mem nh ((names.if_indextoname (ifa_index mem ifa)).getD ""))

/-- The length of the attributes is negative for a message without all of its
`ifaddrmsg`. -/
theorem toInt_IFA_PAYLOAD {nh : ℕ} (h : nlmsghdr.size mem nh ≤ sizeofBuf) :
    toInt (IFA_PAYLOAD mem nh)
      = (nh + nlmsghdr.size mem nh : ℕ) - (nh + sizeofNlmsghdr + sizeofIfaddrmsg : ℕ) := by
  have hspace : NLMSG_SPACE sizeofIfaddrmsg = 24 := by decide
  rw [sizeofBuf] at h
  rw [IFA_PAYLOAD, NLMSG_PAYLOAD, toNat_nlmsg_len, hspace, toSize, toInt, sizeofNlmsghdr,
    sizeofIfaddrmsg, Int.toNat_of_nonneg (Int.emod_nonneg _ (by decide)), Int.bmod_def]
  omega

/-- The inner loop. -/
theorem emit_attributes (nh rta : ℕ) (ifname : String) (hstop : stop ≤ sizeofBuf)
    (hfuel : sizeofBuf ≤ fuel) :
    Loop.emit (nextAttribute mem) (fun c => some (attributeBody names mem nh ifname c.rta)) fuel
        (attributeCursor stop rta)
      = some ((rtattr.positions mem stop rta).flatMap (attributeBody names mem nh ifname)) := by
  obtain ⟨t, hruns⟩ := Format.runs_positions rtattr mem stop rta
  have hlen := Format.length_positions_le rtattr mem stop rta
  have hcursor := hruns.map (attributeCursor stop) (nextAttribute_cursor hstop)
  rw [hcursor.emit (fun _ _ => rfl) (by rw [List.length_map]; omega), List.flatMap_map]
  rfl

theorem messageBody_eq {nh : ℕ} (hfits : nlmsghdr.Fits mem stop nh) (hstop : stop ≤ sizeofBuf)
    (hfuel : sizeofBuf ≤ fuel) :
    messageBody names mem fuel nh = some (messageEvents names mem nh) := by
  have hend : nh + nlmsghdr.size mem nh ≤ sizeofBuf := Nat.le_trans hfits.2.2 hstop
  have hdata : NLMSG_DATA nh = nh + sizeofNlmsghdr := rfl
  have hfirst : (⟨IFA_RTA (NLMSG_DATA nh), toInt (IFA_PAYLOAD mem nh)⟩ : AttributeCursor)
      = attributeCursor (nh + nlmsghdr.size mem nh) (nh + sizeofNlmsghdr + sizeofIfaddrmsg) := by
    rw [toInt_IFA_PAYLOAD (by omega)]
    rfl
  rw [messageBody, messageEvents]
  by_cases htype : nlmsg_type mem nh = RTM_NEWADDR
  · by_cases hfamily : ifa_family mem (nh + sizeofNlmsghdr) = AF_INET6
    · simp [htype, hdata, hfamily, hdata ▸ hfirst, emit_attributes _ _ _ hend hfuel, attributesOf]
    · simp [htype, hdata, hfamily]
  · simp [htype]

/-- A pass ends, and does what the records in the received bytes say. -/
theorem threadLoopPass_eq {len : ℕ} (hlen : len ≤ sizeofBuf) (hfuel : sizeofBuf ≤ fuel) :
    threadLoopPass names mem fuel len
      = some ((nlmsghdr.positions mem len 0).flatMap (messageEvents names mem)) := by
  obtain ⟨t, hruns⟩ := Format.runs_positions nlmsghdr mem len 0
  have hcount := Format.length_positions_le nlmsghdr mem len 0
  have hcursor := hruns.map (messageCursor len) (nextMessage_cursor hlen)
  have hfirst : (⟨0, len⟩ : MessageCursor) = messageCursor len 0 := by
    rw [messageCursor, Int.natCast_zero, Int.sub_zero]
  have hbody : ∀ c ∈ (nlmsghdr.positions mem len 0).map (messageCursor len),
      messageBody names mem fuel c.nh = some (messageEvents names mem c.nh) := by
    intro c hc
    obtain ⟨nh, hnh, rfl⟩ := List.mem_map.mp hc
    exact messageBody_eq (Format.fits_of_mem_positions hnh).2 hlen hfuel
  rw [threadLoopPass]
  split
  · rename_i hzero
    -- `continue`, and no record fits in no bytes
    obtain rfl : len = 0 := by omega
    rfl
  · rw [hfirst, hcursor.emit hbody (by rw [List.length_map]; omega), List.flatMap_map]
    rfl

end Carplay.NetLink

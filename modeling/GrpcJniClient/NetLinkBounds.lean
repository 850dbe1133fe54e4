/-
What a pass of `NetLinkMonitor::threadLoop` reads, for any bytes received.

* `threadLoopPass_inside` — the nested loops end, each message lies in the
  received bytes and each attribute in its message;
* `payloadInside_iff` — the fields of the `ifaddrmsg` and the addresses lie in
  their message and attribute exactly if each of these is long enough, which
  nothing checks;
* `short_message_is_read_past` — a message may end with its header.
-/
import GrpcJniClient.NetLinkMonitor

namespace Carplay.NetLink

open Tlv

/-- The message lies in the first `len` bytes, the attribute in such a message. -/
def Event.Inside (mem : Memory) (len : ℕ) : Event → Prop
  | .header nh =>
    sizeofNlmsghdr ≤ (nlmsg_len mem nh).toNat ∧ nh + (nlmsg_len mem nh).toNat ≤ len
  | .attribute nh rta =>
    sizeofRtattr ≤ (rta_len mem rta).toNat ∧ nh ≤ rta ∧
      rta + (rta_len mem rta).toNat ≤ nh + (nlmsg_len mem nh).toNat ∧
      nh + (nlmsg_len mem nh).toNat ≤ len
  | _ => True

/-- The field lies in its message, the address in the payload of its attribute. -/
def Event.PayloadInside (mem : Memory) : Event → Prop
  | .ifaddrmsg nh pos n => nh ≤ pos ∧ pos + n ≤ nh + (nlmsg_len mem nh).toNat
  | .inet_ntop _ rta pos n => rta + sizeofRtattr ≤ pos ∧ pos + n ≤ rta + (rta_len mem rta).toNat
  | _ => True

instance (mem : Memory) (e : Event) : Decidable (e.PayloadInside mem) := by
  cases e with
  | ifaddrmsg nh pos n | inet_ntop nh rta pos n => exact inferInstanceAs (Decidable (_ ∧ _))
  | _ => exact isTrue trivial

variable {names : Names} {mem : Memory} {nh rta len fuel : ℕ} {ifname : String} {e : Event}

/-! ### Events -/

theorem forall_mem_attributeBody {P : Event → Prop} :
    (∀ e ∈ attributeBody names mem nh ifname rta, P e) ↔
      P (.attribute nh rta) ∧
        (rta_type mem rta = IFA_ADDRESS →
          P (.inet_ntop nh rta (RTA_DATA rta) 16) ∧
            P (.onIpv6Ready ifname (names.inet_ntop (bytes mem (RTA_DATA rta) 16)))) := by
  by_cases htype : rta_type mem rta = IFA_ADDRESS
  · simp [attributeBody, htype]
  · simp [attributeBody, htype]

theorem forall_mem_messageEvents {P : Event → Prop} :
    (∀ e ∈ messageEvents names mem nh, P e) ↔
      P (.header nh) ∧
        (nlmsg_type mem nh = RTM_NEWADDR →
          P (.ifaddrmsg nh (nh + sizeofNlmsghdr) 1) ∧
            (ifa_family mem (nh + sizeofNlmsghdr) = AF_INET6 →
              P (.ifaddrmsg nh (nh + sizeofNlmsghdr + 4) 4) ∧
                ∀ rta ∈ attributesOf mem nh,
                  ∀ e ∈ attributeBody names mem nh ((names.if_indextoname
                    (ifa_index mem (nh + sizeofNlmsghdr))).getD "") rta, P e)) := by
  by_cases htype : nlmsg_type mem nh = RTM_NEWADDR
  · by_cases hfamily : ifa_family mem (nh + sizeofNlmsghdr) = AF_INET6
    · simp only [messageEvents, htype, hfamily, not_true_eq_false, ne_eq, if_false,
        List.forall_mem_cons, List.forall_mem_flatMap, true_imp_iff]
    · -- another family: its field is read, and no attribute
      simp [messageEvents, htype, hfamily]
  · simp [messageEvents, htype]

/-! ### Messages and attributes -/

theorem inside_of_mem_messageEvents (hnh : nlmsghdr.Fits mem len nh)
    (h : e ∈ messageEvents names mem nh) : e.Inside mem len := by
  obtain ⟨-, hheader, hend⟩ := hnh
  rw [← toNat_nlmsg_len] at hheader hend
  revert e
  rw [forall_mem_messageEvents]
  refine ⟨⟨hheader, hend⟩, fun _ => ⟨trivial, fun _ => ⟨trivial, fun rta hrta => ?_⟩⟩⟩
  -- the attributes are walked inside the message, which lies inside the bytes
  obtain ⟨hstart, -, hattr, hattrEnd⟩ := Format.fits_of_mem_positions hrta
  rw [← toNat_nlmsg_len, ← toNat_rta_len] at hattrEnd
  rw [← toNat_rta_len] at hattr
  rw [forall_mem_attributeBody]
  exact ⟨⟨hattr, by omega, hattrEnd, hend⟩, fun _ => ⟨trivial, trivial⟩⟩

/-- Whatever the buffer holds, a pass ends with its headers in bounds. -/
theorem threadLoopPass_inside (names : Names) (mem : Memory) (len fuel : ℕ)
    (hlen : len ≤ sizeofBuf) (hfuel : sizeofBuf ≤ fuel) :
    ∃ events, threadLoopPass names mem fuel len = some events ∧
      ∀ e ∈ events, e.Inside mem len := by
  refine ⟨_, threadLoopPass_eq hlen hfuel, fun e he => ?_⟩
  obtain ⟨nh, hnh, he⟩ := List.mem_flatMap.mp he
  exact inside_of_mem_messageEvents (Format.fits_of_mem_positions hnh).2 he

theorem threadLoopPass_inside_full :
    4096 ≤ sizeofBuf ∧ sizeofBuf ≤ 4096 ∧
      ∃ events, threadLoopPass ⟨fun _ => none, fun _ => ""⟩ (fun _ => 0xFF) 4096 (4096 : ℕ)
          = some events ∧ ∀ e ∈ events, e.Inside (fun _ => 0xFF) 4096 :=
  ⟨by decide, by decide,
    threadLoopPass_inside ⟨fun _ => none, fun _ => ""⟩ (fun _ => 0xFF) 4096 4096 (by decide)
      (by decide)⟩

/-! ### Payloads -/

theorem payloadInside_messageEvents_iff :
    (∀ e ∈ messageEvents names mem nh, e.PayloadInside mem) ↔
      (nlmsg_type mem nh = RTM_NEWADDR →
        sizeofNlmsghdr + 1 ≤ (nlmsg_len mem nh).toNat ∧
          (ifa_family mem (nh + sizeofNlmsghdr) = AF_INET6 →
            sizeofNlmsghdr + sizeofIfaddrmsg ≤ (nlmsg_len mem nh).toNat ∧
              ∀ rta ∈ attributesOf mem nh, rta_type mem rta = IFA_ADDRESS →
                sizeofRtattr + 16 ≤ (rta_len mem rta).toNat)) := by
  -- an attribute is read too far exactly if it is an address of less than sixteen bytes
  have hattribute : ∀ ifname rta,
      (∀ e ∈ attributeBody names mem nh ifname rta, e.PayloadInside mem) ↔
        (rta_type mem rta = IFA_ADDRESS → sizeofRtattr + 16 ≤ (rta_len mem rta).toNat) := by
    intro ifname rta
    have hdata : RTA_DATA rta = rta + sizeofRtattr := rfl
    rw [forall_mem_attributeBody, hdata]
    simp only [Event.PayloadInside, true_and, and_true, Nat.le_refl]
    exact imp_congr_right fun _ => by omega
  rw [forall_mem_messageEvents]
  simp only [hattribute]
  simp only [Event.PayloadInside, true_and, sizeofNlmsghdr, sizeofIfaddrmsg]
  -- the family is the first byte of the `ifaddrmsg`, the index its last four
  refine imp_congr_right fun _ => and_congr (by omega) (imp_congr_right fun _ => ?_)
  exact and_congr (by omega) Iff.rfl

/-- Every payload read has been received exactly if every `RTM_NEWADDR` message
has the family, and every such message of `AF_INET6` all of its `ifaddrmsg` and
sixteen bytes in each `IFA_ADDRESS`. -/
theorem payloadInside_iff (names : Names) (mem : Memory) (len fuel : ℕ)
    (hlen : len ≤ sizeofBuf) (hfuel : sizeofBuf ≤ fuel) :
    (∀ events, threadLoopPass names mem fuel len = some events →
        ∀ e ∈ events, e.PayloadInside mem) ↔
      ∀ nh, nlmsghdr.RecordAt mem len 0 nh → nlmsg_type mem nh = RTM_NEWADDR →
        sizeofNlmsghdr + 1 ≤ (nlmsg_len mem nh).toNat ∧
          (ifa_family mem (nh + sizeofNlmsghdr) = AF_INET6 →
            sizeofNlmsghdr + sizeofIfaddrmsg ≤ (nlmsg_len mem nh).toNat ∧
              ∀ rta, rtattr.RecordAt mem (nh + (nlmsg_len mem nh).toNat)
                  (nh + sizeofNlmsghdr + sizeofIfaddrmsg) rta →
                rta_type mem rta = IFA_ADDRESS →
                  sizeofRtattr + 16 ≤ (rta_len mem rta).toNat) := by
  rw [threadLoopPass_eq hlen hfuel]
  simp only [Option.some_inj, forall_eq', List.forall_mem_flatMap, payloadInside_messageEvents_iff,
    attributesOf, Format.mem_positions_iff, toNat_nlmsg_len]

/-- An IPv6 address of the interface 7, received in full. -/
def addressMessage : Memory := fun i =>
  [44, 0, 0, 0, 20, 0, 0, 0, 0, 0, 0, 0, 0, 0, 0, 0, 10, 64, 0, 0, 7, 0, 0, 0,
    20, 0, 1, 0, 0xFE, 0x80, 0, 0, 0, 0, 0, 0, 0, 0, 0, 0, 0, 0, 0, 1].getD i 0

/-- The address is handed over, from inside its attribute. -/
theorem payloadInside_iff_address :
    ∃ events, threadLoopPass ⟨fun _ => some "wlan2", fun _ => ""⟩ addressMessage 4096 (44 : ℕ) =
        some events ∧ .inet_ntop 0 24 28 16 ∈ events ∧
      (∀ e ∈ events, e.PayloadInside addressMessage) ∧
      ∀ nh, nlmsghdr.RecordAt addressMessage 44 0 nh →
        nlmsg_type addressMessage nh = RTM_NEWADDR →
        ifa_family addressMessage (nh + sizeofNlmsghdr) = AF_INET6 →
          sizeofNlmsghdr + sizeofIfaddrmsg ≤ (nlmsg_len addressMessage nh).toNat ∧
            ∀ rta, rtattr.RecordAt addressMessage (nh + (nlmsg_len addressMessage nh).toNat)
                (nh + sizeofNlmsghdr + sizeofIfaddrmsg) rta →
              rta_type addressMessage rta = IFA_ADDRESS →
                sizeofRtattr + 16 ≤ (rta_len addressMessage rta).toNat := by
  have hpass : threadLoopPass ⟨fun _ => some "wlan2", fun _ => ""⟩ addressMessage 4096 (44 : ℕ) =
      some ((nlmsghdr.positions addressMessage 44 0).flatMap
        (messageEvents ⟨fun _ => some "wlan2", fun _ => ""⟩ addressMessage)) :=
    threadLoopPass_eq (by decide) (by decide)
  refine ⟨_, hpass, by decide +kernel, by decide +kernel, ?_⟩
  intro nh hnh htype hfamily
  have hiff := payloadInside_iff ⟨fun _ => some "wlan2", fun _ => ""⟩ addressMessage 44 4096
    (by decide) (by decide)
  refine ((hiff.mp ?_) nh hnh htype).2 hfamily
  intro events hevents
  obtain rfl := Option.some_inj.mp (hpass.symm.trans hevents)
  decide +kernel

/-- All of the header of a message that says that an address is new. -/
def shortMessage : Memory := fun i => [16, 0, 0, 0, 20].getD i 0

/-- The family is read behind the message, and behind what has been received. -/
theorem short_message_is_read_past :
    ∃ events, threadLoopPass ⟨fun _ => none, fun _ => ""⟩ shortMessage 4096 (16 : ℕ) = some events ∧
      ∃ e ∈ events, ¬ e.PayloadInside shortMessage := by
  refine ⟨_, threadLoopPass_eq (by decide) (by decide), .ifaddrmsg 0 16 1, ?_, ?_⟩
  · decide
  · rintro ⟨-, hend⟩
    exact absurd hend (by decide)

end Carplay.NetLink

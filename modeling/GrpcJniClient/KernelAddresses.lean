/-
Addresses from the kernel to the peer.

`netLinkStart` starts a thread that passes on the addresses of each datagram to
`NetService.onIpv6Ready`, one callback after the other.  Here it runs beside the hotspot
service, which takes any steps in between.

* `callbacks_pass` — what is passed on of a datagram is what its messages announce;
* `History` — the service has taken a run whose notifications are all announced, and so is
  what the thread has still to pass on;
* `kernel_addresses_reach_peer` — the address that the peer reads in a session request is
  the broadcast's, or one that the kernel has announced for the hotspot's interface.
-/
import GrpcJniClient.HostapdOrder
import GrpcJniClient.NetLinkMessages
import GrpcJniClient.SessionRequests

namespace Carplay.NetService

open Tlv NetLink Hostapd

/-! ### Data -/

/-- What one `recv` writes into the buffer: the first bytes of well-formed messages. -/
structure Datagram where
  msgs : List NlMsg
  len : ℕ
  buf : Memory
  len_le : len ≤ sizeofBuf
  holds : Holds buf 0 ((NetLink.serialize msgs).take len)

/-- The callbacks of the pass over a datagram. -/
def Datagram.pass (names : Names) (d : Datagram) : List (String × String) :=
  match threadLoopPass names d.buf sizeofBuf ((NetLink.serialize d.msgs).take d.len).length with
  | some events => NetLink.callbacks events
  | none => []

/-- The kernel announces the address for the interface. -/
def Datagram.Announces (names : Names) (d : Datagram) (ifname addr : String) : Prop :=
  ∃ m ∈ received d.len d.msgs, ∃ ifa, m.body = .newAddr ifa ∧ ifa.ifa_family = AF_INET6 ∧
    (names.if_indextoname ifa.ifa_index).getD "" = ifname ∧
    ∃ a ∈ ifa.attrs, a.rta_type = IFA_ADDRESS ∧ names.inet_ntop a.payload = addr

/-- The hotspot service and the thread of the monitor. -/
structure System where
  service : Service
  /-- The callbacks that the thread has still to make. -/
  pending : List (String × String)

inductive Move where
  | recv (d : Datagram)
  /-- The thread makes its next callback. -/
  | onIpv6Ready
  /-- Anything else. -/
  | service (l : Label)

def step (names : Names) (v : System) : Move → Option System
  | .recv d => if v.pending.isEmpty then some { v with pending := d.pass names } else none
  | .onIpv6Ready =>
      match v.pending with
      | [] => none
      | (inetName, ipv6Address) :: pending =>
          (Hostapd.step v.service (.onIpv6Ready inetName ipv6Address)).map fun s => ⟨s, pending⟩
  | .service l =>
      if l.isNotification then none
      else (Hostapd.step v.service l).map fun s => { v with service := s }

def initial (softAp : SoftAp) : System := ⟨Hostapd.initial softAp, []⟩

variable {names : Names} {softAp : SoftAp} {ms ms' : List Move} {v w : System} {l : Label}
  {ifname addr : String}

/-! ### Datagrams -/

theorem announces_of_mem {d : Datagram} {m : NlMsg} (hm : m ∈ received d.len d.msgs)
    (h : (ifname, addr) ∈ m.callbacks names) : d.Announces names ifname addr := by
  rw [NlMsg.callbacks] at h
  cases hbody : m.body with
  | other nlmsg_type payload hother =>
    rw [hbody] at h
    exact absurd h List.not_mem_nil
  | newAddr ifa =>
    rw [hbody] at h
    dsimp only at h
    split at h
    · rename_i hfamily
      obtain ⟨a, ha, heq⟩ := List.mem_map.mp h
      obtain ⟨hattr, htype⟩ := List.mem_filter.mp ha
      obtain ⟨hname, haddr⟩ := Prod.mk.inj heq
      exact ⟨m, hm, ifa, hbody, hfamily, hname, a, hattr, of_decide_eq_true htype, haddr⟩
    · exact absurd h List.not_mem_nil

/-- A pass makes the callbacks of the messages that were received. -/
theorem callbacks_pass (names : Names) (d : Datagram) :
    d.pass names = (received d.len d.msgs).flatMap (NlMsg.callbacks names) := by
  have hlen : ((NetLink.serialize d.msgs).take d.len).length ≤ sizeofBuf := by
    rw [List.length_take]
    exact Nat.le_trans (Nat.min_le_left _ _) d.len_le
  -- the walk stops at exactly the messages that were received in full
  have hpositions := Format.positions_serialize d.holds
  rw [← map_record_received, Nat.zero_add, ← NetLink.serialize] at hpositions
  rw [Datagram.pass, threadLoopPass_eq hlen (Nat.le_refl _)]
  exact callbacks_messages hpositions

theorem announces_of_pass {d : Datagram} (h : (ifname, addr) ∈ d.pass names) :
    d.Announces names ifname addr := by
  rw [callbacks_pass] at h
  obtain ⟨m, hm, hmem⟩ := List.mem_flatMap.mp h
  exact announces_of_mem hm hmem

/-! ### Runs -/

/-- A datagram of the moves announces the address. -/
def Announced (names : Names) (ms : List Move) (ifname addr : String) : Prop :=
  ∃ d, Move.recv d ∈ ms ∧ d.Announces names ifname addr

/-- Where a label of the service comes from. -/
def Caused (names : Names) (ms : List Move) : Label → Prop
  | .onIpv6Ready inetName ipv6Address => Announced names ms inetName ipv6Address
  | l => Move.service l ∈ ms

theorem Announced.mono (h : Announced names ms ifname addr) (hms : ms ⊆ ms') :
    Announced names ms' ifname addr := by
  obtain ⟨d, hd, ha⟩ := h
  exact ⟨d, hms hd, ha⟩

theorem Caused.mono (h : Caused names ms l) (hms : ms ⊆ ms') : Caused names ms' l := by
  cases l with
  | onIpv6Ready inetName ipv6Address => exact Announced.mono h hms
  | _ => exact hms h

theorem caused_of_mem (hl : l.isNotification = false) (hm : Move.service l ∈ ms) :
    Caused names ms l := by
  cases l with
  | onIpv6Ready inetName ipv6Address => cases hl
  | _ => exact hm

/-- The service has taken a run of its own. -/
structure History (names : Names) (softAp : SoftAp) (ms : List Move) (v : System) : Prop where
  run : ∃ ls, Run.exec Hostapd.step (Hostapd.initial softAp) ls = some v.service ∧
    ∀ l ∈ ls, Caused names ms l
  pending : ∀ c ∈ v.pending, Announced names ms c.1 c.2

/-- A step of the service. -/
theorem History.service {s : Service} {pending : List (String × String)}
    (hH : History names softAp ms v) (hms : ms ⊆ ms') (hl : Caused names ms' l)
    (hs : Hostapd.step v.service l = some s) (hpending : pending ⊆ v.pending) :
    History names softAp ms' ⟨s, pending⟩ where
  run := by
    obtain ⟨ls, hls, hcaused⟩ := hH.run
    refine ⟨ls ++ [l], ?_, fun x hx => ?_⟩
    · rw [Run.exec_append, hls, Option.bind_some, Run.exec_cons, hs]
      rfl
    · rcases List.mem_append.mp hx with hx | hx
      · exact (hcaused x hx).mono hms
      · rwa [List.mem_singleton.mp hx]
  pending c hc := (hH.pending c (hpending hc)).mono hms

theorem History.step {m : Move} (hH : History names softAp ms v) (h : step names v m = some w) :
    History names softAp (ms ++ [m]) w := by
  have hms : ms ⊆ ms ++ [m] := List.subset_append_left _ _
  have hm : m ∈ ms ++ [m] := List.mem_append_right _ (List.mem_singleton_self m)
  cases m with
  | recv d =>
    rw [NetService.step, Option.ite_none_right_eq_some] at h
    obtain ⟨-, h⟩ := h
    obtain rfl := Option.some_inj.mp h
    -- the service does not move; what is pending is announced by this datagram
    obtain ⟨ls, hls, hcaused⟩ := hH.run
    exact ⟨⟨ls, hls, fun l hl => (hcaused l hl).mono hms⟩,
      fun c hc => ⟨d, hm, announces_of_pass hc⟩⟩
  | onIpv6Ready =>
    rw [NetService.step] at h
    split at h
    case h_1 => cases h
    case h_2 inetName ipv6Address pending hpending =>
      obtain ⟨s, hs, rfl⟩ := Option.map_eq_some_iff.mp h
      -- the callback is the first pending one, and what is left was pending before
      have hfirst : (inetName, ipv6Address) ∈ v.pending := by
        rw [hpending]
        exact List.mem_cons_self
      refine hH.service hms (l := .onIpv6Ready inetName ipv6Address) ?_ hs ?_
      · exact (hH.pending _ hfirst).mono hms
      · rw [hpending]
        exact List.subset_cons_self _ _
  | service l =>
    rw [NetService.step] at h
    split at h
    case isTrue => cases h
    case isFalse hl =>
      obtain ⟨s, hs, rfl⟩ := Option.map_eq_some_iff.mp h
      exact hH.service hms (caused_of_mem (Bool.eq_false_iff.mpr hl) hm) hs (List.Subset.refl _)

theorem History.of_exec (h : Run.exec (NetService.step names) (initial softAp) ms = some v) :
    History names softAp ms v :=
  Run.exec_history (R := History names softAp) (fun _ _ _ _ hH hst => hH.step hst)
    ⟨⟨[], rfl, fun _ hl => absurd hl List.not_mem_nil⟩, fun _ hc => absurd hc List.not_mem_nil⟩ h

/-- The strings of a broadcast fit into a request. -/
def Move.Fits : Move → Prop
  | .service l => l.Fits
  | _ => True

/-- **Addresses from the kernel to the peer.**  However the monitor's thread and the service
interleave, the peer reads in each session request the credentials of a single ENABLED
broadcast, and its address or that of an `IFA_ADDRESS` of an IPv6 `RTM_NEWADDR` message,
received in full, of the interface that is named `wlan2`. -/
theorem kernel_addresses_reach_peer (names : Names)
    (hnames : ∀ bs, (names.inet_ntop bs).length < 46) (softAp : SoftAp) (ms : List Move)
    (v : System) (hms : ∀ m ∈ ms, m.Fits)
    (h : Run.exec (step names) (initial softAp) ms = some v) :
    ∀ x ∈ v.service.pool.shared.sessions, ∃ c inetIpv6Address address,
      Move.service (.broadcast WIFI_AP_STATE_ENABLED (some c) inetIpv6Address) ∈ ms ∧
      (address = inetIpv6Address ∨ Announced names ms "wlan2" address) ∧
      x.peerReads = some (c.announcement address) := by
  intro x hx
  obtain ⟨ls, hls, hcaused⟩ := (History.of_exec h).run
  obtain ⟨info, ⟨c, inetIpv6Address, address, hc, ha, rfl⟩, heq⟩ :=
    (Grounded.of_exec hls).sessions x hx
  have hbroadcast : Move.service (.broadcast WIFI_AP_STATE_ENABLED (some c) inetIpv6Address) ∈ ms :=
    hcaused _ hc
  obtain ⟨hssid, hpwd, hinet⟩ := hms _ hbroadcast
  have ha' : address = inetIpv6Address ∨ Announced names ms "wlan2" address :=
    ha.imp_right fun ha => hcaused (.onIpv6Ready "wlan2" address) ha
  -- the text of an address is below `INET6_ADDRSTRLEN`, so it fits as well
  have haddress : address.length ≤ 2 ^ 20 := by
    rcases ha' with rfl | ⟨d, -, m, -, ifa, -, -, -, a, -, -, rfl⟩
    · exact hinet
    · have hlt := hnames a.payload
      omega
  refine ⟨c, inetIpv6Address, address, hbroadcast, ha', ?_⟩
  rw [heq]
  exact peerReads_session hssid hpwd haddress

/-- A datagram with one message, of interface 3. -/
private def newAddressDatagram : Datagram where
  msgs := [newAddressMsg]
  len := 52
  buf := fun i => (NetLink.serialize [newAddressMsg]).getD i 0
  len_le := by decide
  holds := by decide +kernel

/-- Interface 3 is the hotspot's. -/
private def hotspotNames : Names :=
  ⟨fun i => if i = 3 then some "wlan2" else none, fun _ => "fe80::1"⟩

/-- The hotspot is enabled, and a job waits for the address. -/
private def beforeDatagram : List Move :=
  [.service (.broadcast WIFI_AP_STATE_ENABLED
    (some ⟨some "AP", some "passphrase", SECURITY_TYPE_WPA3_SAE, none⟩) ""), .service .receive,
    .service (.run 0 ⟨true, "", ""⟩)]

/-- The address is passed on, and the collector moves. -/
private def afterDatagram : List Move :=
  .onIpv6Ready :: List.replicate 5 (.service (.run 0 ⟨true, "", ""⟩)) ++
    [.service .collectTake, .service .collectHandle, .service .collectTake,
      .service .collectHandle]

theorem kernel_addresses_reach_peer_one :
    ∃ v x, Run.exec (step hotspotNames) (initial ⟨WIFI_AP_STATE_ENABLED, none⟩)
        (beforeDatagram ++ .recv newAddressDatagram :: afterDatagram) = some v ∧
      v.service.pool.shared.sessions = [x] ∧ ∃ (c : SoftApConfiguration) (address : String),
        x.peerReads = some (c.announcement address) := by
  have hpass : newAddressDatagram.pass hotspotNames = [("wlan2", "fe80::1")] := by
    rw [callbacks_pass]
    decide +kernel
  obtain ⟨v, x, hv, hx⟩ : ∃ v x, Run.exec (step hotspotNames)
      (initial ⟨WIFI_AP_STATE_ENABLED, none⟩)
      (beforeDatagram ++ .recv newAddressDatagram :: afterDatagram) = some v ∧
        v.service.pool.shared.sessions = [x] := by
    have hbefore : Run.exec (step hotspotNames) (initial ⟨WIFI_AP_STATE_ENABLED, none⟩)
        beforeDatagram = some ⟨_, []⟩ := rfl
    rw [Run.exec_append, hbefore, Option.bind_some, Run.exec_cons, step, hpass]
    exact ⟨_, _, rfl, rfl⟩
  have hfits : ∀ m ∈ beforeDatagram ++ .recv newAddressDatagram :: afterDatagram, m.Fits := by
    simp [beforeDatagram, afterDatagram, Move.Fits, Label.Fits]
    decide
  obtain ⟨c, -, address, -, -, hreads⟩ := kernel_addresses_reach_peer hotspotNames
    (fun _ => (by decide : "fe80::1".length < 46)) ⟨WIFI_AP_STATE_ENABLED, none⟩ _ v hfits hv x
    (by simp [hx])
  exact ⟨v, x, hv, hx, c, address, hreads⟩

end Carplay.NetService

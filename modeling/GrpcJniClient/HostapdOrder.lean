/-
Bringing the hotspot up in any order.

The shared flow has no replay, so that a notification reaches only the
coroutines that have subscribed when it comes.

* `Bringup` — one ENABLED broadcast, one notification and one request, in any
  order and with any steps of the coroutines in between;
* `Consistent` — whatever is stored, queued or published in such a run carries
  the broadcast's configuration and the notification's address;
* `Dormant`, `Lively` — no coroutine holds the notification; one does, or it has
  been published;
* `hotspot_announced_iff` — so at the end it has been published exactly if a
  coroutine was listening when it came;
* `early_notification_is_lost` — a notification between the launch of the job
  and its subscription.
-/
import GrpcJniClient.HostapdSessions

open SharedFlow ThreadPool

namespace Carplay.Hostapd

variable {c : SoftApConfiguration} {inetIpv6Address address : String} {v w : Service}
  {s m : Shared} {k k' : Pc} {i : ℕ} {r : Result}

/-! ### The three occurrences -/

def Label.isBroadcast : Label → Bool
  | .broadcast _ _ _ => true
  | _ => false

def Label.isNotification : Label → Bool
  | .onIpv6Ready _ _ => true
  | _ => false

def Label.isRequest : Label → Bool
  | .getCarplayCompatSoftApConfigure => true
  | _ => false

/-- One ENABLED broadcast, one notification for the hotspot and one request. -/
structure Bringup (c : SoftApConfiguration) (inetIpv6Address address : String)
    (ls : List Label) : Prop where
  broadcast : ls.filter Label.isBroadcast
    = [.broadcast WIFI_AP_STATE_ENABLED (some c) inetIpv6Address]
  notification : ls.filter Label.isNotification = [.onIpv6Ready "wlan2" address]
  request : ls.filter Label.isRequest = [.getCarplayCompatSoftApConfigure]

/-- No internal step is left, but for a stop request that has failed. -/
def Service.Quiet (v : Service) : Prop :=
  v.receiving = false ∧ ∀ k ∈ v.pool.threads, ∃ r, prim v.pool.shared r k = none

/-- The configuration has been published with the address. -/
def Announced (c : SoftApConfiguration) (address : String) (v : Service) : Prop :=
  ∃ pub ∈ v.pool.shared.published, pub.info = some (c.toInfo address)

/-- A notification finds a coroutine listening. -/
def Heard (v : Service) : Label → Prop
  | .onIpv6Ready _ _ => ∃ k ∈ v.pool.threads, k.listening v.pool.shared = true
  | _ => True

/-- What the labels of such a run are, in the states that they are taken in. -/
def Expected (c : SoftApConfiguration) (address : String) (v : Service) : Label → Prop
  | .broadcast hostapdState configuration _ =>
      v.pool.shared.lastBroadcast = none ∧ hostapdState = WIFI_AP_STATE_ENABLED ∧
        configuration = some c
  | .onIpv6Ready _ ipv6Address => ipv6Address = address
  | _ => True

theorem step_lastBroadcast {l : Label} (h : step v l = some w) (hl : l.isBroadcast = false) :
    w.pool.shared.lastBroadcast = v.pool.shared.lastBroadcast := by
  cases l with
  | broadcast hostapdState configuration inetIpv6Address => cases hl
  | receive =>
    rw [step] at h
    split at h <;> cases h
    show (launchHostapdIpv6Job v.pool).shared.lastBroadcast = _
    rw [launchHostapdIpv6Job]
    split
    · show (cancelHostapdIpv6Job v.pool).shared.lastBroadcast = _
      rcases cancelHostapdIpv6Job_cases v.pool with heq | ⟨job, -, heq⟩ <;> rw [heq]
    · rfl
  | run i r =>
    obtain ⟨p, hp, rfl⟩ := Option.map_eq_some_iff.mp h
    obtain ⟨k, m, k', -, hstep, rfl⟩ := of_run hp
    exact hstep.frame.lastBroadcast
  | collectTake =>
    obtain ⟨collector, -, rfl⟩ := Option.map_eq_some_iff.mp h
    rfl
  | collectHandle =>
    obtain ⟨⟨e, collector⟩, -, rfl⟩ := Option.map_eq_some_iff.mp h
    rfl
  | _ =>
    cases h
    rfl

theorem along_expected {ls : List Label}
    (hbroadcast : ls.filter Label.isBroadcast = [] ∨ (v.pool.shared.lastBroadcast = none ∧
      ls.filter Label.isBroadcast = [.broadcast WIFI_AP_STATE_ENABLED (some c) inetIpv6Address]))
    (hnotification : ∀ l ∈ ls, l.isNotification = true → l = .onIpv6Ready "wlan2" address) :
    Run.Along step (Expected c address) v ls := by
  induction ls generalizing v with
  | nil => trivial
  | cons l ls ih =>
    rw [List.forall_mem_cons] at hnotification
    obtain ⟨hl, hls⟩ := hnotification
    by_cases hb : l.isBroadcast = true
    · -- the one broadcast comes now
      rw [List.filter_cons_of_pos hb] at hbroadcast
      rcases hbroadcast with h | ⟨hnone, h⟩
      · cases h
      · obtain ⟨rfl, hrest⟩ := List.cons.inj h
        exact ⟨⟨hnone, rfl, rfl⟩, fun w _ => ih (Or.inl hrest) hls⟩
    · rw [List.filter_cons_of_neg hb] at hbroadcast
      refine ⟨?_, fun w hw => ih ?_ hls⟩
      · cases l with
        | broadcast hostapdState configuration inetIpv6Address => exact absurd rfl hb
        | onIpv6Ready inetName ipv6Address =>
          cases hl rfl
          rfl
        | _ => trivial
      · refine hbroadcast.imp_right fun h => ⟨?_, h.2⟩
        rw [step_lastBroadcast hw (Bool.not_eq_true _ ▸ hb), h.1]

theorem Bringup.expected {ls : List Label} (hB : Bringup c inetIpv6Address address ls)
    (softAp : SoftAp) : Run.Along step (Expected c address) (initial softAp) ls := by
  refine along_expected (Or.inr ⟨rfl, hB.broadcast⟩) fun l hl hnotification => ?_
  have hmem : l ∈ ls.filter Label.isNotification := List.mem_filter.mpr ⟨hl, hnotification⟩
  rw [hB.notification] at hmem
  exact List.mem_singleton.mp hmem

/-! ### What is stored, queued and published -/

/-- The cache holds the configuration, with some address. -/
def Shared.Stores (s : Shared) (c : SoftApConfiguration) : Prop :=
  ∃ i, s.value = some i ∧ ∀ address, { i with mHostapdIPAddressV6 := some address } = c.toInfo address

/-- What a waiter has read is as it should be. -/
def Pc.Fine (s : Shared) (c : SoftApConfiguration) (address : String) : Pc → Prop
  | .readForAddress _ a => a = address
  | .writeAddress _ a info => a = address ∧ info = s.mSoftApConfigurationStateFlow
  | .readForEvent _ _ => s.value = some (c.toInfo address)
  | .emit _ _ info => s.info info = some (c.toInfo address)
  | _ => True

structure Consistent (c : SoftApConfiguration) (address : String) (v : Service) : Prop where
  cancelled : v.pool.shared.cancelled = []
  before : v.pool.shared.lastBroadcast = none → v.pool.shared.value = none ∧
    v.pool.shared.mHostapdIpv6Job = none ∧ v.receiving = false
  receiving : v.receiving = true → v.pool.shared.mHostapdIpv6Job = none
  stored : v.pool.shared.lastBroadcast ≠ none → v.pool.shared.Stores c
  buffers : ∀ b ∈ v.pool.shared.subscribers, ∀ e ∈ b.items, ∀ a, e.wlan2Address = some a →
    a = address
  waiters : ∀ k ∈ v.pool.threads, k.waits = true →
    v.pool.shared.lastBroadcast ≠ none ∧ k.Fine v.pool.shared c address
  published : ∀ pub ∈ v.pool.shared.published, pub.info = some (c.toInfo address)

theorem Consistent.initial (softAp : SoftAp) : Consistent c address (initial softAp) where
  cancelled := rfl
  before := fun _ => ⟨rfl, rfl, rfl⟩
  receiving := fun _ => rfl
  stored := fun h => absurd rfl h
  buffers := fun _ h => absurd h List.not_mem_nil
  waiters := fun _ h => absurd h List.not_mem_nil
  published := fun _ h => absurd h List.not_mem_nil

theorem flow_setAddress (s : Shared) (info : Option ℕ) (a : String) :
    (s.setAddress info a).mSoftApConfigurationStateFlow = s.mSoftApConfigurationStateFlow := by
  cases info <;> rfl

theorem value_setAddress (hs : s.Stores c) :
    (s.setAddress s.mSoftApConfigurationStateFlow address).value = some (c.toInfo address) := by
  obtain ⟨i, hi, hc⟩ := hs
  show (s.setAddress _ address).info _ = _
  have hinfo : s.info s.mSoftApConfigurationStateFlow = some i := hi
  rw [flow_setAddress, info_setAddress, hinfo, Option.map_some, if_pos rfl, hc]

/-- The objects of `m` are those of `s`, some with the address stored again. -/
def Readdressed (address : String) (s m : Shared) : Prop :=
  ∀ n, ∃ f : HostapdInfo → HostapdInfo, m.info n = (s.info n).map f ∧
    ∀ i, f i = i ∨ f i = { i with mHostapdIPAddressV6 := some address }

theorem Readdressed.of_eq (h : m.infos = s.infos) : Readdressed address s m :=
  fun n => ⟨id, by rw [Shared.info, Shared.info, h, Option.map_id, id], fun _ => Or.inl rfl⟩

theorem Readdressed.setAddress (s : Shared) (info : Option ℕ) :
    Readdressed address s (s.setAddress info address) := by
  refine fun n => ⟨_, info_setAddress s info n address, fun i => ?_⟩
  split
  · exact Or.inr rfl
  · exact Or.inl rfl

theorem Readdressed.info {n : Option ℕ} (hR : Readdressed address s m)
    (h : s.info n = some (c.toInfo address)) : m.info n = some (c.toInfo address) := by
  obtain ⟨f, hf, hfi⟩ := hR n
  rw [hf, h, Option.map_some]
  rcases hfi (c.toInfo address) with h | h <;> rw [h]
  rfl

theorem Readdressed.stores (hR : Readdressed address s m)
    (hflow : m.mSoftApConfigurationStateFlow = s.mSoftApConfigurationStateFlow)
    (h : s.Stores c) : m.Stores c := by
  obtain ⟨i, hi, hc⟩ := h
  have hinfo : s.info s.mSoftApConfigurationStateFlow = some i := hi
  obtain ⟨f, hf, hfi⟩ := hR s.mSoftApConfigurationStateFlow
  rw [hinfo, Option.map_some, ← hflow] at hf
  refine ⟨f i, hf, fun a => ?_⟩
  rcases hfi i with h | h <;> rw [h]
  · exact hc a
  · exact hc a

theorem Readdressed.value_eq_none (hR : Readdressed address s m)
    (hflow : m.mSoftApConfigurationStateFlow = s.mSoftApConfigurationStateFlow)
    (h : s.value = none) : m.value = none := by
  obtain ⟨f, hf, -⟩ := hR s.mSoftApConfigurationStateFlow
  have hinfo : s.info s.mSoftApConfigurationStateFlow = none := h
  rwa [hinfo, Option.map_none, ← hflow] at hf

theorem Readdressed.fine (hR : Readdressed address s m)
    (hflow : m.mSoftApConfigurationStateFlow = s.mSoftApConfigurationStateFlow)
    (h : k.Fine s c address) : k.Fine m c address := by
  cases k with
  | writeAddress cause a info => exact ⟨h.1, h.2.trans hflow.symm⟩
  | readForEvent cause a =>
    show m.info m.mSoftApConfigurationStateFlow = _
    rw [hflow]
    exact hR.info h
  | emit cause a info => exact hR.info h
  | _ => exact h

/-- What a step of a coroutine does in a consistent state. -/
structure Proper (c : SoftApConfiguration) (address : String) (s m : Shared) (k' : Pc) : Prop where
  readdressed : Readdressed address s m
  buffers : ∀ b ∈ m.subscribers, ∀ e ∈ b.items, ∀ a, e.wlan2Address = some a → a = address
  waiter : k'.waits = true → s.lastBroadcast ≠ none ∧ k'.Fine m c address
  published : ∀ pub ∈ m.published, pub.info = some (c.toInfo address)

theorem PrimStep.proper (hC : Consistent c address v) (hk : k ∈ v.pool.threads)
    (h : PrimStep v.pool.shared k m k') : Proper c address v.pool.shared m k' := by
  have hself : Readdressed address v.pool.shared v.pool.shared := Readdressed.of_eq rfl
  have hwaiter := hC.waiters k hk
  -- taking from a buffer leaves what was in it before
  have hset : ∀ {slot : ℕ} {b b' : Buffer 5 Emission} {e : Emission},
      v.pool.shared.subscribers[slot]? = some b → b.items = e :: b'.items →
      ∀ x ∈ v.pool.shared.subscribers.set slot b', ∀ y ∈ x.items, ∀ a, y.wlan2Address = some a →
        a = address := by
    intro slot b b' e hb hitems x hx y hy
    rcases List.mem_or_eq_of_mem_set hx with hx | rfl
    · exact hC.buffers x hx y hy
    · exact hC.buffers b (List.mem_of_getElem? hb) y (hitems ▸ List.mem_cons_of_mem e hy)
  cases h with
  | idle k k' softAp calls hk hk' =>
    refine ⟨Readdressed.of_eq rfl, hC.buffers, fun h => ?_, hC.published⟩
    rw [hk'] at h
    cases h
  | wait hcorrect =>
    refine ⟨hself, hC.buffers, fun _ => ⟨fun hnone => ?_, trivial⟩, hC.published⟩
    -- before the broadcast there is nothing in the cache to pass the check
    rw [Shared.isHostapdSecurityTypeCorrect, (hC.before hnone).1] at hcorrect
    cases hcorrect
  | subscribe job hjob =>
    refine ⟨Readdressed.of_eq rfl, fun b hb e he => ?_, fun _ => ⟨(hwaiter rfl).1, trivial⟩,
      hC.published⟩
    rcases List.mem_append.mp hb with hb | hb
    · exact hC.buffers b hb e he
    · rw [List.mem_singleton.mp hb] at he
      cases he
  | skip job slot b b' e hjob hb hitems he =>
    exact ⟨Readdressed.of_eq rfl, hset hb hitems, fun _ => ⟨(hwaiter rfl).1, trivial⟩,
      hC.published⟩
  | take job slot b b' e a hjob hb hitems he =>
    have ha : a = address :=
      hC.buffers b (List.mem_of_getElem? hb) e (hitems ▸ List.mem_cons_self) a he
    exact ⟨Readdressed.of_eq rfl, hset hb hitems, fun _ => ⟨(hwaiter rfl).1, ha⟩, hC.published⟩
  | readForAddress cause a =>
    obtain ⟨hlast, hfine⟩ := hwaiter rfl
    exact ⟨hself, hC.buffers, fun _ => ⟨hlast, hfine, rfl⟩, hC.published⟩
  | writeAddress cause a info =>
    obtain ⟨hlast, rfl, rfl⟩ := hwaiter rfl
    refine ⟨Readdressed.setAddress _ _, ?_, fun _ => ⟨hlast, value_setAddress (hC.stored hlast)⟩, ?_⟩
    · have hbuffers := hC.buffers
      cases hflow : v.pool.shared.mSoftApConfigurationStateFlow <;> exact hbuffers
    · have hpublished := hC.published
      cases hflow : v.pool.shared.mSoftApConfigurationStateFlow <;> exact hpublished
  | readForEvent cause a =>
    obtain ⟨hlast, hfine⟩ := hwaiter rfl
    exact ⟨hself, hC.buffers, fun _ => ⟨hlast, hfine⟩, hC.published⟩
  | emit cause a info =>
    obtain ⟨-, hfine⟩ := hwaiter rfl
    refine ⟨Readdressed.of_eq rfl, fun b hb e he a' ha' => ?_, fun h => absurd h Bool.false_ne_true,
      fun pub hpub => ?_⟩
    · obtain ⟨b₀, hb₀, rfl⟩ := List.mem_map.mp hb
      rcases List.mem_append.mp ((b₀.offer_suffix _).subset he) with he | he
      · exact hC.buffers b₀ hb₀ e he a' ha'
      · rw [List.mem_singleton.mp he] at ha'
        cases ha'
    · rcases List.mem_append.mp hpub with hpub | hpub
      · exact hC.published pub hpub
      · rw [List.mem_singleton.mp hpub]
        exact hfine

theorem Consistent.run {p : Coroutines} (hC : Consistent c address v)
    (h : v.pool.move prim i r = some p) : Consistent c address { v with pool := p } := by
  obtain ⟨k, m, k', hk, hstep, rfl⟩ := of_run h
  have hframe := hstep.frame
  have hP := hstep.proper hC (List.mem_of_getElem? hk)
  constructor
  · exact hframe.cancelled.trans hC.cancelled
  · intro hnone
    obtain ⟨hvalue, hjob, hreceiving⟩ := hC.before (hframe.lastBroadcast.symm.trans hnone)
    exact ⟨hP.readdressed.value_eq_none hframe.flow hvalue, hframe.mHostapdIpv6Job.trans hjob,
      hreceiving⟩
  · exact fun hreceiving => hframe.mHostapdIpv6Job.trans (hC.receiving hreceiving)
  · intro hlast
    exact hP.readdressed.stores hframe.flow (hC.stored (hframe.lastBroadcast ▸ hlast))
  · exact hP.buffers
  · intro x hx hwaits
    show m.lastBroadcast ≠ none ∧ x.Fine m c address
    rw [hframe.lastBroadcast]
    rcases Pool.mem_move hx with rfl | hx | hx
    · exact hP.waiter hwaits
    · obtain ⟨hlast, hfine⟩ := hC.waiters x hx hwaits
      exact ⟨hlast, hP.readdressed.fine hframe.flow hfine⟩
    · exact absurd hx List.not_mem_nil
  · exact hP.published

theorem setValue_of_none {info : HostapdInfo} (h : s.value = none) : s.setValue info = { s with
    infos := s.infos ++ [info]
    mSoftApConfigurationStateFlow := some s.infos.length } := by
  rw [Shared.setValue, if_neg]
  rw [h]
  exact fun h => by cases h

/-- The broadcast fills the cache, which nobody has waited for yet. -/
theorem Consistent.enabled (hC : Consistent c address v)
    (hlast : v.pool.shared.lastBroadcast = none) : Consistent c address
      (onReceive v.pool WIFI_AP_STATE_ENABLED (some c) inetIpv6Address) := by
  obtain ⟨hvalue, hjob, -⟩ := hC.before hlast
  have hvalue : ({ v.pool.shared with lastBroadcast := some (.enabled (some c)) } :
      Shared).value = none := hvalue
  rw [onReceive, if_pos rfl]
  simp only [setValue_of_none hvalue]
  constructor
  · exact hC.cancelled
  · exact fun h => by cases h
  · exact fun _ => hjob
  · refine fun _ => ⟨c.toInfo inetIpv6Address, ?_, fun _ => rfl⟩
    exact List.getElem?_concat_length
  · exact hC.buffers
  · exact fun k hk hwaits => absurd hlast (hC.waiters k hk hwaits).1
  · exact hC.published

theorem Consistent.spawn (hC : Consistent c address v)
    (hk : k.waits = true → v.pool.shared.lastBroadcast ≠ none ∧ k.Fine v.pool.shared c address) :
    Consistent c address { v with pool := v.pool.spawn k } where
  cancelled := hC.cancelled
  before := hC.before
  receiving := hC.receiving
  stored := hC.stored
  buffers := hC.buffers
  waiters := fun x hx hwaits => by
    rcases List.mem_append.mp hx with hx | hx
    · exact hC.waiters x hx hwaits
    · rw [List.mem_singleton.mp hx] at hwaits ⊢
      exact hk hwaits
  published := hC.published

/-- No job is tracked yet, so none is cancelled. -/
theorem Consistent.launch (hC : Consistent c address v) (hreceiving : v.receiving = true) :
    Consistent c address ⟨launchHostapdIpv6Job v.pool, false⟩ := by
  have hjob := hC.receiving hreceiving
  have hlast : v.pool.shared.lastBroadcast ≠ none := by
    intro h
    rw [(hC.before h).2.2] at hreceiving
    cases hreceiving
  rw [launchHostapdIpv6Job]
  split
  · have hcancel : cancelHostapdIpv6Job v.pool = v.pool := by rw [cancelHostapdIpv6Job, hjob]
    simp only [hcancel]
    constructor
    · exact hC.cancelled
    · exact fun h => absurd h hlast
    · exact fun h => by cases h
    · exact hC.stored
    · exact hC.buffers
    · exact (hC.spawn (k := .subscribe (some v.pool.threads.length)) fun _ => ⟨hlast, trivial⟩).waiters
    · exact hC.published
  · exact ⟨hC.cancelled, fun h => absurd h hlast, fun h => absurd h Bool.false_ne_true, hC.stored,
      hC.buffers, hC.waiters, hC.published⟩

theorem Consistent.step {l : Label} (hC : Consistent c address v) (hE : Expected c address v l)
    (h : step v l = some w) : Consistent c address w := by
  cases l with
  | broadcast hostapdState configuration inetIpv6Address =>
    obtain ⟨hlast, rfl, rfl⟩ := hE
    rw [Hostapd.step] at h
    split at h <;> cases h
    exact hC.enabled hlast
  | receive =>
    rw [Hostapd.step] at h
    split at h
    · rename_i hreceiving
      cases h
      exact hC.launch hreceiving
    · cases h
  | getCarplayCompatSoftApConfigure =>
    cases h
    exact hC.spawn fun h => by cases h
  | onIpv6Ready inetName ipv6Address =>
    cases h
    refine ⟨hC.cancelled, hC.before, hC.receiving, hC.stored, ?_, hC.waiters, hC.published⟩
    intro b hb e he a ha
    obtain ⟨b₀, hb₀, rfl⟩ := List.mem_map.mp hb
    rcases List.mem_append.mp ((b₀.offer_suffix _).subset he) with he | he
    · exact hC.buffers b₀ hb₀ e he a ha
    · rw [List.mem_singleton.mp he] at ha
      change (if inetName = "wlan2" then some ipv6Address else none) = some a at ha
      rw [Option.ite_none_right_eq_some, Option.some_inj] at ha
      exact ha.2.symm.trans hE
  | softApChanges softAp =>
    cases h
    exact ⟨hC.cancelled, hC.before, hC.receiving, hC.stored, hC.buffers, hC.waiters, hC.published⟩
  | run i r =>
    obtain ⟨p, hp, rfl⟩ := Option.map_eq_some_iff.mp h
    exact hC.run hp
  | collectTake =>
    obtain ⟨collector, -, rfl⟩ := Option.map_eq_some_iff.mp h
    exact ⟨hC.cancelled, hC.before, hC.receiving, hC.stored, hC.buffers, hC.waiters, hC.published⟩
  | collectHandle =>
    obtain ⟨⟨e, collector⟩, -, rfl⟩ := Option.map_eq_some_iff.mp h
    exact ⟨hC.cancelled, hC.before, hC.receiving, hC.stored, hC.buffers, hC.waiters, hC.published⟩

/-! ### Where no coroutine holds the notification -/

/-- Nothing has been published, and nothing will be without a notification. -/
def Dormant (v : Service) : Prop := ∀ n, tally v n = 0

theorem Dormant.initial (softAp : SoftAp) : Dormant (initial softAp) := fun _ => rfl

theorem Dormant.published (hD : Dormant v) : v.pool.shared.published = [] := by
  refine List.eq_nil_iff_forall_not_mem.mpr fun pub hpub => ?_
  have hzero : v.pool.shared.publications pub.cause = 0 := Nat.eq_zero_of_add_eq_zero_left (hD _)
  exact List.countP_eq_zero.mp hzero pub hpub (beq_self_eq_true pub.cause)

/-- A notification wakes nobody who is not listening. -/
theorem Dormant.step {l : Label} (hD : Dormant v)
    (hunheard : l.isNotification = true →
      ∀ k ∈ v.pool.threads, ¬ k.listening v.pool.shared = true)
    (h : step v l = some w) : Dormant w := by
  intro n
  rcases step_cases h with ⟨i, r, p, -, hp, rfl⟩ | ⟨inetName, ipv6Address, rfl, rfl⟩ | hF
  · exact Nat.eq_zero_of_le_zero (hD n ▸ (tally_run hp).2 n)
  · have htally := hD n
    rw [tally, Nat.add_eq_zero_iff] at htally
    refine Nat.add_eq_zero_iff.mpr ⟨List.countP_eq_zero.mpr fun k hk hholds => ?_, htally.2⟩
    rcases holds_tryEmit hholds with hholds | ⟨-, hlistening⟩
    · exact List.countP_eq_zero.mp htally.1 k hk hholds
    · exact hunheard rfl k hk hlistening
  · exact Nat.eq_zero_of_le_zero (hD n ▸ tally_frame hF n)

/-! ### Where one does -/

/-- Something has been published, or some coroutine holds a notification. -/
def Lively (v : Service) : Prop :=
  v.pool.shared.published ≠ [] ∨ ∃ k ∈ v.pool.threads, ∃ n, k.holds v.pool.shared n = true

/-- A coroutine takes nothing that another holds without holding something
itself, until it publishes. -/
theorem PrimStep.lively (h : PrimStep s k m k') : m.published ≠ [] ∨
    (∃ n, k'.holds m n = true) ∨
    (∀ n, k.holds s n = false) ∧ ∀ x n, Pc.holds s n x = true → Pc.holds m n x = true := by
  cases h with
  | idle k k' softAp calls hk hk' =>
    refine Or.inr (Or.inr ⟨fun n => ?_, fun _ _ h => holds_mono h (fun _ h => h) fun _ h => h⟩)
    rcases hk with hk | ⟨job, hjob, rfl | ⟨slot, rfl⟩⟩
    · exact holds_of_waits hk
    · rfl
    · rw [Pc.holds, hjob]
      rfl
  | wait hcorrect => exact Or.inr (Or.inr ⟨fun _ => rfl, fun _ _ h => h⟩)
  | subscribe job hjob =>
    refine Or.inr (Or.inr ⟨fun _ => rfl, fun x n h => holds_mono h (fun _ h => h) fun slot h => ?_⟩)
    rwa [queues_append]
  | skip job slot b b' e hjob hb hitems he =>
    -- what it has taken is not what anybody holds
    have hslot : slot < s.subscribers.length := (List.getElem?_eq_some_iff.mp hb).choose
    have hqueues : ∀ n slot', s.queues n slot' = true →
        ({ s with subscribers := s.subscribers.set slot b' } : Shared).queues n slot' = true := by
      intro n slot' h
      obtain ⟨b₀, x, hb₀, hx, hn⟩ := queues_iff.mp h
      by_cases heq : slot = slot'
      · subst heq
        obtain rfl : b = b₀ := Option.some_inj.mp (hb.symm.trans hb₀)
        rw [hitems] at hx
        rcases List.mem_cons.mp hx with rfl | hx
        · rw [Emission.notifies, he] at hn
          cases hn
        · exact queues_iff.mpr ⟨b', x, List.getElem?_set_self hslot, hx, hn⟩
      · exact queues_iff.mpr ⟨b₀, x, (List.getElem?_set_ne heq).trans hb₀, hx, hn⟩
    have hkept : ∀ x n, Pc.holds s n x = true →
        Pc.holds { s with subscribers := s.subscribers.set slot b' } n x = true :=
      fun x n h => holds_mono h (fun _ h => h) fun slot' h => hqueues n slot' h
    by_cases hholds : ∃ n, (Pc.await job slot).holds s n = true
    · obtain ⟨n, hn⟩ := hholds
      exact Or.inr (Or.inl ⟨n, hkept _ n hn⟩)
    · refine Or.inr (Or.inr ⟨fun n => ?_, hkept⟩)
      exact Bool.eq_false_iff.mpr fun hn => hholds ⟨n, hn⟩
  | take job slot b b' e address hjob hb hitems he =>
    exact Or.inr (Or.inl ⟨e.cause, beq_self_eq_true e.cause⟩)
  | readForAddress cause a => exact Or.inr (Or.inl ⟨cause, beq_self_eq_true cause⟩)
  | writeAddress cause a info => exact Or.inr (Or.inl ⟨cause, beq_self_eq_true cause⟩)
  | readForEvent cause a => exact Or.inr (Or.inl ⟨cause, beq_self_eq_true cause⟩)
  | emit cause a info =>
    exact Or.inl (List.append_ne_nil_of_right_ne_nil _ (List.cons_ne_nil _ _))

theorem Lively.run {p : Coroutines} (hL : Lively v) (h : v.pool.move prim i r = some p) :
    Lively { v with pool := p } := by
  obtain ⟨k, m, k', hk, hstep, rfl⟩ := of_run h
  obtain ⟨-, -, es, pubs, -, hpublished, -⟩ := hstep.accounts
  rcases hL with hpub | ⟨x, hx, n, hholds⟩
  · refine Or.inl ?_
    show m.published ≠ []
    rw [hpublished]
    exact List.append_ne_nil_of_left_ne_nil hpub _
  · rcases hstep.lively with hpub | ⟨n', hn'⟩ | ⟨hnone, hkept⟩
    · exact Or.inl hpub
    · exact Or.inr ⟨k', List.mem_of_getElem? (Pool.getElem?_moved hk), n', hn'⟩
    · -- the holder is another, and holds what it did
      obtain ⟨j, hj⟩ := List.mem_iff_getElem?.mp hx
      have hne : j ≠ i := by
        rintro rfl
        obtain rfl : k = x := Option.some_inj.mp (hk.symm.trans hj)
        rw [hnone n] at hholds
        cases hholds
      exact Or.inr ⟨x, List.mem_of_getElem? (Pool.getElem?_unmoved hj hne), n, hkept x n hholds⟩

theorem Lively.step {l : Label} (hL : Lively v) (hcancelled : w.pool.shared.cancelled = [])
    (hl : l.isNotification = false) (h : step v l = some w) : Lively w := by
  rcases step_cases h with ⟨i, r, p, -, hp, rfl⟩ | ⟨inetName, ipv6Address, rfl, -⟩ | hF
  · exact hL.run hp
  · cases hl
  · rcases hL with hpub | ⟨k, hk, n, hholds⟩
    · exact Or.inl (hF.published ▸ hpub)
    · obtain ⟨ks, hks, -⟩ := hF.threads
      refine Or.inr ⟨k, hks ▸ List.mem_append_left ks hk, n, holds_mono hholds ?_ ?_⟩
      · intro job hjob
        cases job with
        | none => cases hjob
        | some job =>
          rw [Shared.isCancelled, hcancelled] at hjob
          cases hjob
      · intro slot hslot
        rwa [Shared.queues, ← hF.subscribers] at hslot

/-- A listener holds a notification as soon as it comes. -/
theorem lively_of_heard (hS : Slots v) (hheard : Heard v (.onIpv6Ready "wlan2" address))
    (h : step v (.onIpv6Ready "wlan2" address) = some w) : Lively w := by
  obtain ⟨k, hk, hlistening⟩ := hheard
  obtain ⟨job, slot, rfl, hjob⟩ := await_of_listening hlistening
  have hslot := hS.lt _ hk slot rfl
  cases h
  refine Or.inr ⟨_, hk, v.pool.shared.runtime.emitted.length, ?_⟩
  rw [Pc.holds, Bool.and_eq_true, Bool.not_eq_true']
  set e : Emission := ⟨.kernelNetLinkChanged "wlan2" address,
    v.pool.shared.runtime.emitted.length⟩ with he
  have hb : (v.pool.shared.tryEmit e).subscribers[slot]?
      = some (v.pool.shared.subscribers[slot].offer e) := by
    rw [Shared.tryEmit, List.getElem?_map, List.getElem?_eq_getElem hslot, Option.map_some]
  have hnotifies : e.notifies v.pool.shared.runtime.emitted.length = true :=
    (Bool.true_and _).trans (beq_self_eq_true _)
  exact ⟨hjob, queues_iff.mpr ⟨_, e, hb, Buffer.mem_offer e (by decide), hnotifies⟩⟩

/-- Who holds a notification has a step left. -/
theorem Lively.published_of_quiet (hL : Lively v) (hQ : v.Quiet) :
    v.pool.shared.published ≠ [] := by
  rcases hL with hpub | ⟨k, hk, n, hholds⟩
  · exact hpub
  · obtain ⟨r, hr⟩ := hQ.2 k hk
    exfalso
    cases k with
    | await job slot =>
      rw [Pc.holds, Bool.and_eq_true, Bool.not_eq_true'] at hholds
      obtain ⟨hjob, hqueues⟩ := hholds
      obtain ⟨⟨_ | ⟨x, xs⟩, hbound⟩, e, hb, he, -⟩ := queues_iff.mp hqueues
      · cases he
      · rw [prim, if_neg (by rw [hjob]; exact Bool.false_ne_true), hb] at hr
        cases hr
    | readForAddress cause a => cases hr
    | writeAddress cause a info => cases hr
    | readForEvent cause a => cases hr
    | emit cause a info => cases hr
    | _ => cases hholds

/-! ### The run -/

/-- The one notification splits the run. -/
theorem Bringup.split {ls : List Label} (hB : Bringup c inetIpv6Address address ls) :
    ∃ pre post, ls = pre ++ .onIpv6Ready "wlan2" address :: post ∧
      (∀ l ∈ pre, l.isNotification = false) ∧ ∀ l ∈ post, l.isNotification = false := by
  obtain ⟨pre, post, rfl, hpre, -, hpost⟩ := List.filter_eq_cons_iff.mp hB.notification
  refine ⟨pre, post, rfl, fun l hl => Bool.eq_false_iff.mpr (hpre l hl), fun l hl => ?_⟩
  exact Bool.eq_false_iff.mpr (List.filter_eq_nil_iff.mp hpost l hl)

/-- **The hotspot is announced exactly if a coroutine is listening in time.**  In
every run of one ENABLED broadcast, one notification and one request, in any
order and with the coroutines' steps in between in any way, once no internal
step is left the configuration has been published with the address if and only
if some coroutine had subscribed when the notification came. -/
theorem hotspot_announced_iff (softAp : SoftAp) (c : SoftApConfiguration)
    (inetIpv6Address address : String) (ls : List Label) (t : Service)
    (hB : Bringup c inetIpv6Address address ls)
    (hrun : Run.exec step (initial softAp) ls = some t) (hquiet : t.Quiet) :
    Announced c address t ↔ Run.Along step Heard (initial softAp) ls := by
  have hE := hB.expected softAp
  obtain ⟨pre, post, rfl, hpre, hpost⟩ := hB.split
  rw [Run.exec_append, Option.bind_eq_some_iff] at hrun
  obtain ⟨u, hu, hrest⟩ := hrun
  rw [Run.exec_cons, Option.bind_eq_some_iff] at hrest
  obtain ⟨w, hw, ht⟩ := hrest
  obtain ⟨hEpre, hE⟩ := (Run.along_append _ _ _).mp hE
  obtain ⟨hEw, hE⟩ := hE u hu
  have hEpost := hE w hw
  -- only the notification can go unheard
  have hquietly : ∀ (ls : List Label) (v : Service), (∀ l ∈ ls, l.isNotification = false) →
      Run.Along step Heard v ls := by
    intro ls v hls
    refine Run.along_of_forall (fun l hl v => ?_) v
    cases l with
    | onIpv6Ready inetName ipv6Address => cases hls _ hl
    | _ => trivial
  have hheard : Run.Along step Heard (initial softAp) (pre ++ .onIpv6Ready "wlan2" address :: post)
      ↔ Heard u (.onIpv6Ready "wlan2" address) := by
    rw [Run.along_append, and_iff_right (hquietly pre _ hpre)]
    refine ⟨fun h => (h u hu).1, fun h u' hu' => ?_⟩
    obtain rfl := Option.some_inj.mp (hu.symm.trans hu')
    exact ⟨h, fun v _ => hquietly post v hpost⟩
  rw [hheard]
  constructor
  · -- unheard, the notification is never published
    rintro ⟨pub, hpub, -⟩
    by_contra hunheard
    have hdormant : ∀ v l w, Dormant v → l.isNotification = false → step v l = some w →
        Dormant w := by
      intro v l w hD hl h
      refine hD.step (fun hnotification => ?_) h
      rw [hl] at hnotification
      cases hnotification
    have hDu : Dormant u := Run.exec_invariant (C := fun _ l => l.isNotification = false) hdormant
      (Dormant.initial softAp) (Run.along_of_forall (fun l hl _ => hpre l hl) _) hu
    have hDw : Dormant w := hDu.step (fun _ k hk hlistening => hunheard ⟨k, hk, hlistening⟩) hw
    have hDt : Dormant t := Run.exec_invariant (C := fun _ l => l.isNotification = false) hdormant
      hDw (Run.along_of_forall (fun l hl _ => hpost l hl) _) ht
    rw [hDt.published] at hpub
    cases hpub
  · -- heard, it is published before the coroutines come to rest
    intro hheard
    have hconsistent : ∀ v l w, Consistent c address v → Expected c address v l →
        step v l = some w → Consistent c address w := fun _ _ _ hC hE h => hC.step hE h
    have hCu : Consistent c address u :=
      Run.exec_invariant hconsistent (Consistent.initial softAp) hEpre hu
    have hSu : Slots u := Run.exec_invariant (fun _ _ _ hS _ h => hS.step h)
      (Slots.initial softAp) (Run.along_true _ pre) hu
    have hCw : Consistent c address w := hCu.step hEw hw
    obtain ⟨hCt, hLt⟩ := Run.exec_invariant
      (I := fun v => Consistent c address v ∧ Lively v)
      (C := fun v l => Expected c address v l ∧ l.isNotification = false)
      (fun v l x hI hC h => by
        have hCx := hI.1.step hC.1 h
        exact ⟨hCx, hI.2.step hCx.cancelled hC.2 h⟩)
      ⟨hCw, lively_of_heard hSu hheard hw⟩
      (hEpost.and (Run.along_of_forall (fun l hl _ => hpost l hl) _)) ht
    obtain ⟨pub, hpub⟩ := List.exists_mem_of_ne_nil _ (hLt.published_of_quiet hquiet)
    exact ⟨pub, hpub, hCt.published pub hpub⟩

/-- The check of `Quiet`, with requests that succeed. -/
def Service.isQuiet (v : Service) : Bool :=
  !v.receiving && v.pool.threads.all fun k => (prim v.pool.shared succeeds k).isNone

theorem Service.quiet_of_isQuiet (h : v.isQuiet = true) : v.Quiet := by
  rw [Service.isQuiet, Bool.and_eq_true, Bool.not_eq_true', List.all_eq_true] at h
  exact ⟨h.1, fun k hk => ⟨_, Option.isNone_iff_eq_none.mp (h.2 k hk)⟩⟩

private def wpa3Configuration : SoftApConfiguration :=
  ⟨some "AP_0000", some "passphrase", SECURITY_TYPE_WPA3_SAE, none⟩

/-- The job subscribes, the notification comes, the job publishes, and then a
request waits. -/
private def inTime : List Label :=
  [.broadcast WIFI_AP_STATE_ENABLED (some wpa3Configuration) "", .receive,
    .run 0 succeeds, .onIpv6Ready "wlan2" "fe80::1"] ++ runs 0 5 ++
    [.getCarplayCompatSoftApConfigure] ++ runs 1 3

theorem hotspot_announced_iff_inTime : ∃ t,
    Run.exec step (initial ⟨WIFI_AP_STATE_ENABLED, none⟩) inTime = some t ∧
      t.pool.shared.published.length = 1 ∧
      (Announced wpa3Configuration "fe80::1" t ↔
        Run.Along step Heard (initial ⟨WIFI_AP_STATE_ENABLED, none⟩) inTime) := by
  have hcheck : (Run.exec step (initial ⟨WIFI_AP_STATE_ENABLED, none⟩) inTime).any (fun t =>
      t.isQuiet && t.pool.shared.published.length == 1) = true := by rfl
  obtain ⟨t, ht, hcheck⟩ := (Option.any_eq_true _ _).mp hcheck
  rw [Bool.and_eq_true, beq_iff_eq] at hcheck
  exact ⟨t, ht, hcheck.2, hotspot_announced_iff _ _ "" _ _ _ ⟨rfl, rfl, rfl⟩ ht
    (Service.quiet_of_isQuiet hcheck.1)⟩

/-- The notification comes after the job's launch and before it subscribes. -/
private def early : List Label :=
  [.broadcast WIFI_AP_STATE_ENABLED (some wpa3Configuration) "", .receive,
    .onIpv6Ready "wlan2" "fe80::1", .run 0 succeeds, .getCarplayCompatSoftApConfigure] ++
    runs 1 3

/-- **An early notification is lost**, though the hotspot is up all the time. -/
theorem early_notification_is_lost :
    ¬ ∀ (softAp : SoftAp) (c : SoftApConfiguration) (inetIpv6Address address : String)
      (ls : List Label) (t : Service), c.mapSecurityType.compatible = true →
      Bringup c inetIpv6Address address ls →
      (∀ v, Run.Reached step (initial softAp) ls v →
        v.pool.shared.softAp.state = WIFI_AP_STATE_ENABLED) →
      Run.exec step (initial softAp) ls = some t → t.Quiet → Announced c address t := by
  intro h
  have hcheck : (Run.exec step (initial ⟨WIFI_AP_STATE_ENABLED, none⟩) early).any (fun t =>
      t.isQuiet && t.pool.shared.published.isEmpty) = true := by rfl
  obtain ⟨t, ht, hcheck⟩ := (Option.any_eq_true _ _).mp hcheck
  rw [Bool.and_eq_true, List.isEmpty_iff] at hcheck
  have hup : ∀ v, Run.Reached step (initial ⟨WIFI_AP_STATE_ENABLED, none⟩) early v →
      v.pool.shared.softAp.state = WIFI_AP_STATE_ENABLED := by
    intro v hv
    have hall : Run.all step (fun v => v.pool.shared.softAp.state = WIFI_AP_STATE_ENABLED)
        (initial ⟨WIFI_AP_STATE_ENABLED, none⟩) early = true := by rfl
    have hstate := Run.of_all hall hv
    exact of_decide_eq_true hstate
  obtain ⟨pub, hpub, -⟩ := h ⟨WIFI_AP_STATE_ENABLED, none⟩ wpa3Configuration "" "fe80::1" early t
    rfl ⟨rfl, rfl, rfl⟩ hup ht (Service.quiet_of_isQuiet hcheck.1)
  rw [hcheck.2] at hpub
  cases hpub

end Carplay.Hostapd

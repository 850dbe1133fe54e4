/-
What the peer is told of the hotspot.

`CarplayRuntime` answers every `HostapdConfigurationChangedEvent` with a session
request, of an object that broadcasts and waiters have written to in the
meantime.

* `Recorded` — an info is that of one ENABLED broadcast, its address that of the
  broadcast or of a notification for the hotspot;
* `Grounded` — so are all the objects, and no waiter or event is without one;
* `sessions_reach_peer` — the peer reads the credentials, the channel and the
  security type of a single broadcast in every request, and never the defaults for
  a missing info.
-/
import GrpcJniClient.HostapdWaiters
import GrpcJniClient.RpcStreams

open SharedFlow ThreadPool

namespace Carplay.Hostapd

variable {ls ls' : List Label} {s s' m : Shared} {v w : Service} {k k' : Pc} {info : HostapdInfo}

/-! ### Where an info comes from -/

/-- The run has broadcast the configuration of the info, and its address then or in
a notification. -/
def Recorded (ls : List Label) (info : HostapdInfo) : Prop :=
  ∃ c inetIpv6Address address,
    Label.broadcast WIFI_AP_STATE_ENABLED (some c) inetIpv6Address ∈ ls ∧
    (address = inetIpv6Address ∨ Label.onIpv6Ready "wlan2" address ∈ ls) ∧
    info = c.toInfo address

theorem Recorded.mono (h : Recorded ls info) (hls : ls ⊆ ls') : Recorded ls' info := by
  obtain ⟨c, inetIpv6Address, address, hc, ha, rfl⟩ := h
  exact ⟨c, inetIpv6Address, address, hls hc, ha.imp_right fun ha => hls ha, rfl⟩

/-- A notification for the hotspot may replace the address. -/
theorem Recorded.setAddress {address : String} (h : Recorded ls info)
    (ha : Label.onIpv6Ready "wlan2" address ∈ ls) :
    Recorded ls { info with mHostapdIPAddressV6 := some address } := by
  obtain ⟨c, inetIpv6Address, -, hc, -, rfl⟩ := h
  exact ⟨c, inetIpv6Address, address, hc, .inr ha, rfl⟩

/-- The number of an object. -/
def Shared.Made (s : Shared) (info : Option ℕ) : Prop := ∃ n, info = some n ∧ n < s.infos.length

/-- The event goes back to a notification, or has an info. -/
def Emission.Grounded (ls : List Label) (s : Shared) (e : Emission) : Prop :=
  match e.event with
  | .kernelNetLinkChanged inetName inetAddress => Label.onIpv6Ready inetName inetAddress ∈ ls
  | .hostapdConfigurationChanged info => s.Made info

/-- A waiter finds something in the cache, and has its address from a notification
for the hotspot. -/
def Pc.Grounded (ls : List Label) (s : Shared) : Pc → Prop
  | .subscribe _ | .await _ _ | .readForEvent _ _ => s.Made s.mSoftApConfigurationStateFlow
  | .readForAddress _ address | .writeAddress _ address _ =>
      s.Made s.mSoftApConfigurationStateFlow ∧ Label.onIpv6Ready "wlan2" address ∈ ls
  | .emit _ _ info => s.Made info
  | _ => True

/-- The `startCarplaySession` call for an info. -/
def HostapdInfo.session (info : HostapdInfo) (cause : ℕ) : CarplaySession where
  hostapdSsid := info.mHostapdSsid.getD ""
  hostapdPwd := info.mHostapdPassphrase.getD ""
  hostapdChannel := info.mHostapdChannel.getD 149
  hostapdNetInterfaceV6Address := info.mHostapdIPAddressV6.getD ""
  hostapdSecurityType := info.mHostapdSecurityType.value
  cause := cause

/-- Everything goes back to the run. -/
structure Grounded (ls : List Label) (v : Service) : Prop where
  infos : ∀ info ∈ v.pool.shared.infos, Recorded ls info
  cache : ∀ n, v.pool.shared.mSoftApConfigurationStateFlow = some n →
    n < v.pool.shared.infos.length
  emitted : ∀ e ∈ v.pool.shared.runtime.emitted, e.Grounded ls v.pool.shared
  buffers : ∀ b ∈ v.pool.shared.subscribers, ∀ e ∈ b.items, e ∈ v.pool.shared.runtime.emitted
  coroutines : ∀ k ∈ v.pool.threads, k.Grounded ls v.pool.shared
  sessions : ∀ x ∈ v.pool.shared.sessions, ∃ info, Recorded ls info ∧ x = info.session x.cause

/-! ### Steps -/

/-- Labels and objects are only added, and the cache is never emptied. -/
structure Extends (ls ls' : List Label) (s s' : Shared) : Prop where
  labels : ls ⊆ ls'
  infos : s.infos.length ≤ s'.infos.length
  cache : s.Made s.mSoftApConfigurationStateFlow → s'.Made s'.mSoftApConfigurationStateFlow

theorem Extends.of_eq (hls : ls ⊆ ls') (hinfos : s'.infos.length = s.infos.length)
    (hcache : s'.mSoftApConfigurationStateFlow = s.mSoftApConfigurationStateFlow) :
    Extends ls ls' s s' where
  labels := hls
  infos := hinfos.ge
  cache := by
    rw [hcache, Shared.Made, Shared.Made, hinfos]
    exact id

theorem Shared.Made.mono {info : Option ℕ} (h : s.Made info)
    (hle : s.infos.length ≤ s'.infos.length) : s'.Made info := by
  obtain ⟨n, rfl, hn⟩ := h
  exact ⟨n, rfl, hn.trans_le hle⟩

theorem Emission.Grounded.mono {e : Emission} (h : e.Grounded ls s) (hE : Extends ls ls' s s') :
    e.Grounded ls' s' := by
  obtain ⟨event, cause⟩ := e
  cases event with
  | kernelNetLinkChanged inetName inetAddress => exact hE.labels h
  | hostapdConfigurationChanged info => exact Shared.Made.mono h hE.infos

theorem Pc.Grounded.mono (h : k.Grounded ls s) (hE : Extends ls ls' s s') : k.Grounded ls' s' := by
  cases k with
  | subscribe job => exact hE.cache h
  | await job slot => exact hE.cache h
  | readForAddress cause address => exact ⟨hE.cache h.1, hE.labels h.2⟩
  | writeAddress cause address info => exact ⟨hE.cache h.1, hE.labels h.2⟩
  | readForEvent cause address => exact hE.cache h
  | emit cause address info => exact Shared.Made.mono h hE.infos
  | _ => trivial

/-- A waiter only starts when the cache holds an info. -/
theorem Grounded.made_of_correct (hG : Grounded ls v)
    (h : v.pool.shared.isHostapdSecurityTypeCorrect = true) :
    v.pool.shared.Made v.pool.shared.mSoftApConfigurationStateFlow := by
  cases hcache : v.pool.shared.mSoftApConfigurationStateFlow with
  | none => simp [Shared.isHostapdSecurityTypeCorrect, Shared.value, hcache] at h
  | some n => exact ⟨n, rfl, hG.cache n hcache⟩

/-- What neither emits nor handles anything. -/
theorem Grounded.of_shared (hG : Grounded ls v) (hE : Extends ls ls' v.pool.shared w.pool.shared)
    (hinfos : ∀ info ∈ w.pool.shared.infos, Recorded ls' info)
    (hcache : ∀ n, w.pool.shared.mSoftApConfigurationStateFlow = some n →
      n < w.pool.shared.infos.length)
    (hemitted : w.pool.shared.runtime.emitted = v.pool.shared.runtime.emitted)
    (hbuffers : ∀ b ∈ w.pool.shared.subscribers, ∀ e ∈ b.items, e ∈ v.pool.shared.runtime.emitted)
    (hthreads : ∀ k ∈ w.pool.threads, k ∈ v.pool.threads ∨ k.Grounded ls' w.pool.shared)
    (hsessions : w.pool.shared.sessions = v.pool.shared.sessions) : Grounded ls' w where
  infos := hinfos
  cache := hcache
  emitted := fun e he => (hG.emitted e (hemitted ▸ he)).mono hE
  buffers := hemitted ▸ hbuffers
  coroutines := fun k hk => (hthreads k hk).elim (fun hk => (hG.coroutines k hk).mono hE) id
  sessions := fun x hx => by
    rw [hsessions] at hx
    obtain ⟨info, hinfo, heq⟩ := hG.sessions x hx
    exact ⟨info, hinfo.mono hE.labels, heq⟩

theorem Grounded.tryEmit {e : Emission} (hG : Grounded ls v) (he : e.Grounded ls v.pool.shared) :
    Grounded ls (v.setShared (v.pool.shared.tryEmit e)) where
  infos := hG.infos
  cache := hG.cache
  emitted := fun x hx => by
    rcases List.mem_append.mp hx with hx | hx
    · exact hG.emitted x hx
    · rw [List.mem_singleton.mp hx]
      exact he
  buffers := fun b hb x hx => by
    obtain ⟨c, hc, rfl⟩ := List.mem_map.mp hb
    rcases List.mem_append.mp ((c.offer_suffix e).subset hx) with hx | hx
    · exact List.mem_append_left _ (hG.buffers c hc x hx)
    · exact List.mem_append_right _ hx
  coroutines := hG.coroutines
  sessions := hG.sessions

/-- An info of an object whose address may have been set. -/
theorem mem_infos_setAddress {n : Option ℕ} {address : String}
    (h : info ∈ (s.setAddress n address).infos) :
    info ∈ s.infos ∨ ∃ i ∈ s.infos, info = { i with mHostapdIPAddressV6 := some address } := by
  cases n with
  | none => exact .inl h
  | some n =>
    obtain ⟨j, hj⟩ := List.getElem?_of_mem h
    have hmodify : (s.infos.modify n _)[j]? = some info := hj
    rw [List.getElem?_modify] at hmodify
    obtain ⟨i, hi, heq⟩ := Option.map_eq_some_iff.mp hmodify
    -- the object whose address is set, or another
    split at heq
    · exact .inr ⟨i, List.mem_of_getElem? hi, heq.symm⟩
    · exact .inl (heq ▸ List.mem_of_getElem? hi)

theorem length_infos_setAddress (s : Shared) (n : Option ℕ) (address : String) :
    (s.setAddress n address).infos.length = s.infos.length := by
  cases n with
  | none => rfl
  | some n => exact List.length_modify _ _ _

/-- What is not a waiter needs nothing. -/
theorem Pc.grounded_of_waits (h : k.waits = false) : k.Grounded ls s := by
  cases k <;> trivial

/-- A coroutine moves on, and the others stay where they are. -/
theorem mem_or_grounded {i : ℕ} (hk' : k'.Grounded ls s') :
    ∀ k ∈ v.pool.threads.set i k' ++ [], k ∈ v.pool.threads ∨ k.Grounded ls s' := by
  intro k hk
  rw [List.append_nil] at hk
  rcases List.mem_or_eq_of_mem_set hk with hk | rfl
  · exact .inl hk
  · exact .inr hk'

/-- A step of a coroutine that leaves the objects, the cache and the flow alone. -/
theorem Grounded.moves {i : ℕ} {receiving : Bool} (hG : Grounded ls v)
    (hinfos : m.infos = v.pool.shared.infos)
    (hcache : m.mSoftApConfigurationStateFlow = v.pool.shared.mSoftApConfigurationStateFlow)
    (hruntime : m.runtime = v.pool.shared.runtime)
    (hbuffers : ∀ b ∈ m.subscribers, ∀ e ∈ b.items, e ∈ v.pool.shared.runtime.emitted)
    (hk' : k'.Grounded ls m) (hsessions : m.sessions = v.pool.shared.sessions) :
    Grounded ls ⟨⟨m, v.pool.threads.set i k' ++ []⟩, receiving⟩ :=
  hG.of_shared (.of_eq (List.Subset.refl _) (congrArg List.length hinfos) hcache)
    (hinfos ▸ hG.infos) (fun n hn => hinfos ▸ hG.cache n (hcache ▸ hn))
    (congrArg Collector.emitted hruntime) hbuffers (mem_or_grounded hk') hsessions

/-- A waiter that subscribes starts with an empty buffer. -/
theorem Grounded.buffers_subscribe (hG : Grounded ls v) :
    ∀ b ∈ v.pool.shared.subscribers ++ [.empty], ∀ e ∈ b.items,
      e ∈ v.pool.shared.runtime.emitted := by
  intro b hb e he
  rcases List.mem_append.mp hb with hb | hb
  · exact hG.buffers b hb e he
  · rw [List.mem_singleton.mp hb] at he
    exact absurd he List.not_mem_nil

/-- A waiter that takes a value leaves the rest. -/
theorem Grounded.buffers_take {slot : ℕ} {b b' : Buffer 5 Emission} {e : Emission}
    (hG : Grounded ls v) (hb : v.pool.shared.subscribers[slot]? = some b)
    (hitems : b.items = e :: b'.items) :
    ∀ c ∈ v.pool.shared.subscribers.set slot b', ∀ x ∈ c.items,
      x ∈ v.pool.shared.runtime.emitted := by
  intro c hc x hx
  rcases List.mem_or_eq_of_mem_set hc with hc | rfl
  · exact hG.buffers c hc x hx
  · exact hG.buffers b (List.mem_of_getElem? hb) x (hitems ▸ List.mem_cons_of_mem e hx)

/-- The address that a waiter takes is that of a notification for the hotspot. -/
theorem Grounded.notified_of_take {slot : ℕ} {b b' : Buffer 5 Emission} {e : Emission}
    {address : String} (hG : Grounded ls v) (hb : v.pool.shared.subscribers[slot]? = some b)
    (hitems : b.items = e :: b'.items) (he : e.wlan2Address = some address) :
    Label.onIpv6Ready "wlan2" address ∈ ls := by
  have hmem : e ∈ b.items := hitems ▸ List.mem_cons_self
  have heG := hG.emitted e (hG.buffers b (List.mem_of_getElem? hb) e hmem)
  -- only a change of the hotspot's interface has an address to take
  obtain ⟨event, cause⟩ := e
  cases event with
  | hostapdConfigurationChanged info => cases he
  | kernelNetLinkChanged inetName inetAddress =>
    rw [Emission.wlan2Address] at he
    simp only [Option.ite_none_right_eq_some, Option.some_inj] at he
    obtain ⟨rfl, rfl⟩ := he
    exact heG

/-- A waiter writes the address of its notification to the object that it has read. -/
theorem Grounded.writeAddress {i cause : ℕ} {receiving : Bool} {n : Option ℕ} {address : String}
    (hG : Grounded ls v)
    (hmade : v.pool.shared.Made v.pool.shared.mSoftApConfigurationStateFlow)
    (hnotified : Label.onIpv6Ready "wlan2" address ∈ ls) :
    Grounded ls ⟨⟨v.pool.shared.setAddress n address,
      v.pool.threads.set i (.readForEvent cause address) ++ []⟩, receiving⟩ := by
  have hlen := length_infos_setAddress v.pool.shared n address
  -- nothing but the object is written to
  obtain ⟨hcache, hruntime, hsubscribers, hsessions⟩ :
      (v.pool.shared.setAddress n address).mSoftApConfigurationStateFlow =
          v.pool.shared.mSoftApConfigurationStateFlow ∧
        (v.pool.shared.setAddress n address).runtime = v.pool.shared.runtime ∧
        (v.pool.shared.setAddress n address).subscribers = v.pool.shared.subscribers ∧
        (v.pool.shared.setAddress n address).sessions = v.pool.shared.sessions := by
    cases n <;> exact ⟨rfl, rfl, rfl, rfl⟩
  have hE : Extends ls ls v.pool.shared (v.pool.shared.setAddress n address) :=
    .of_eq (List.Subset.refl _) hlen hcache
  refine hG.of_shared hE ?_ ?_ (congrArg Collector.emitted hruntime) (hsubscribers ▸ hG.buffers)
    (mem_or_grounded (hE.cache hmade)) hsessions
  · intro info hinfo
    rcases mem_infos_setAddress hinfo with hinfo | ⟨i, hi, rfl⟩
    · exact hG.infos info hinfo
    · exact (hG.infos i hi).setAddress hnotified
  · intro j hj
    have hj' := hG.cache j (hcache.symm.trans hj)
    exact hlen.symm ▸ hj'

/-- A step of a coroutine. -/
theorem Grounded.coroutine {i : ℕ} (hG : Grounded ls v) (hk : v.pool.threads[i]? = some k)
    (h : PrimStep v.pool.shared k m k') (receiving : Bool) :
    Grounded ls ⟨⟨m, v.pool.threads.set i k' ++ []⟩, receiving⟩ := by
  have hkG := hG.coroutines k (List.mem_of_getElem? hk)
  cases h with
  | idle k k' softAp calls hwaits hk' =>
    exact hG.moves rfl rfl rfl hG.buffers (Pc.grounded_of_waits hk') rfl
  | wait hcorrect =>
    exact hG.moves rfl rfl rfl hG.buffers (hG.made_of_correct hcorrect) rfl
  | subscribe job hjob => exact hG.moves rfl rfl rfl hG.buffers_subscribe hkG rfl
  | skip job slot b b' e hjob hb hitems he =>
    exact hG.moves rfl rfl rfl (hG.buffers_take hb hitems) hkG rfl
  | take job slot b b' e address hjob hb hitems he =>
    exact hG.moves rfl rfl rfl (hG.buffers_take hb hitems)
      ⟨hkG, hG.notified_of_take hb hitems he⟩ rfl
  | readForAddress cause address => exact hG.moves rfl rfl rfl hG.buffers hkG rfl
  | writeAddress cause address n => exact hG.writeAddress hkG.1 hkG.2
  | readForEvent cause address => exact hG.moves rfl rfl rfl hG.buffers hkG rfl
  | emit cause address n =>
    have hE := hG.tryEmit (e := ⟨.hostapdConfigurationChanged n, cause⟩) hkG
    exact hE.of_shared (.of_eq (List.Subset.refl _) rfl rfl) hE.infos hE.cache rfl hE.buffers
      (mem_or_grounded (v := v) trivial) rfl

theorem Grounded.cancel {p : Coroutines} {b b' : Bool} (hG : Grounded ls ⟨p, b⟩) :
    Grounded ls ⟨cancelHostapdIpv6Job p, b'⟩ := by
  rcases cancelHostapdIpv6Job_cases p with h | ⟨job, -, h⟩ <;> rw [h]
  · exact hG.of_shared (.of_eq (List.Subset.refl _) rfl rfl) hG.infos hG.cache rfl hG.buffers
      (fun _ hk => .inl hk) rfl
  · exact hG.of_shared (.of_eq (List.Subset.refl _) rfl rfl) hG.infos hG.cache rfl hG.buffers
      (fun _ hk => .inl hk) rfl

theorem Grounded.onReceive {hostapdState : ℤ} {configuration : Option SoftApConfiguration}
    {inetIpv6Address : String} (hG : Grounded ls v)
    (hl : Label.broadcast hostapdState configuration inetIpv6Address ∈ ls) :
    Grounded ls (onReceive v.pool hostapdState configuration inetIpv6Address) := by
  -- most of it changes only the last broadcast
  have hsame : ∀ {p : Coroutines} {b : Bool}, p.threads = v.pool.threads →
      (∃ last, p.shared = { v.pool.shared with lastBroadcast := last }) → Grounded ls ⟨p, b⟩ := by
    rintro ⟨-, -⟩ b rfl ⟨last, rfl⟩
    exact hG.of_shared (.of_eq (List.Subset.refl _) rfl rfl) hG.infos hG.cache rfl hG.buffers
      (fun _ hk => .inl hk) rfl
  rw [Hostapd.onReceive]
  split
  · rename_i henabled
    subst henabled
    cases configuration with
    | none => exact hsame rfl ⟨_, rfl⟩
    | some c =>
      simp only [Shared.setValue]
      split
      · exact hsame rfl ⟨_, rfl⟩
      · -- a new object, with the address of the broadcast
        have hlen : (v.pool.shared.infos ++ [c.toInfo inetIpv6Address]).length =
            v.pool.shared.infos.length + 1 := List.length_append
        refine hG.of_shared ⟨List.Subset.refl _, hlen.symm ▸ Nat.le_succ _, fun _ =>
          ⟨_, rfl, hlen.symm ▸ Nat.lt_succ_self _⟩⟩ ?_ ?_ rfl hG.buffers (fun _ hk => .inl hk) rfl
        · intro info hinfo
          rcases List.mem_append.mp hinfo with hinfo | hinfo
          · exact hG.infos info hinfo
          · rw [List.mem_singleton.mp hinfo]
            exact ⟨c, inetIpv6Address, inetIpv6Address, hl, .inl rfl, rfl⟩
        · rintro n ⟨⟩
          exact hlen.symm ▸ Nat.lt_succ_self _
  · split
    · exact Grounded.cancel (b := false) (hsame rfl ⟨_, rfl⟩)
    · exact hsame rfl ⟨_, rfl⟩

theorem Grounded.launch (hG : Grounded ls v) :
    Grounded ls ⟨launchHostapdIpv6Job v.pool, false⟩ := by
  rw [launchHostapdIpv6Job]
  split
  · rename_i hcorrect
    have hmade := hG.made_of_correct hcorrect
    have hcancel : Grounded ls ⟨cancelHostapdIpv6Job v.pool, v.receiving⟩ :=
      Grounded.cancel (b := v.receiving) hG
    -- cancelling the job before leaves the cache
    have hmade' : (cancelHostapdIpv6Job v.pool).shared.Made
        (cancelHostapdIpv6Job v.pool).shared.mSoftApConfigurationStateFlow := by
      rcases cancelHostapdIpv6Job_cases v.pool with h | ⟨job, -, h⟩ <;> rw [h] <;> exact hmade
    refine hcancel.of_shared (.of_eq (List.Subset.refl _) rfl rfl) hcancel.infos hcancel.cache rfl
      hcancel.buffers (fun k hk => ?_) rfl
    rcases List.mem_append.mp hk with hk | hk
    · exact .inl hk
    · rw [List.mem_singleton.mp hk]
      exact .inr hmade'
  · exact hG.of_shared (.of_eq (List.Subset.refl _) rfl rfl) hG.infos hG.cache rfl hG.buffers
      (fun _ hk => .inl hk) rfl

/-- **The step lemma.** -/
theorem Grounded.step {l : Label} (hG : Grounded ls v) (h : step v l = some w) :
    Grounded (ls ++ [l]) w := by
  have hls : ls ⊆ ls ++ [l] := List.subset_append_left _ _
  have hlabel : l ∈ ls ++ [l] := List.mem_append_right _ (List.mem_singleton_self l)
  have hkeep : ∀ info ∈ v.pool.shared.infos, Recorded (ls ++ [l]) info :=
    fun info hinfo => (hG.infos info hinfo).mono hls
  have hG' : Grounded (ls ++ [l]) v :=
    hG.of_shared (.of_eq hls rfl rfl) hkeep hG.cache rfl hG.buffers (fun _ hk => .inl hk) rfl
  cases l with
  | broadcast hostapdState configuration inetIpv6Address =>
    rw [Hostapd.step] at h
    split at h
    · cases h
    · obtain rfl := Option.some_inj.mp h
      exact hG'.onReceive hlabel
  | receive =>
    rw [Hostapd.step] at h
    split at h
    · obtain rfl := Option.some_inj.mp h
      exact hG'.launch
    · cases h
  | getCarplayCompatSoftApConfigure =>
    obtain rfl := Option.some_inj.mp h
    refine hG'.of_shared (.of_eq (List.Subset.refl _) rfl rfl) hG'.infos hG'.cache rfl hG'.buffers
      (fun k hk => ?_) rfl
    rcases List.mem_append.mp hk with hk | hk
    · exact .inl hk
    · rw [List.mem_singleton.mp hk]
      exact .inr trivial
  | onIpv6Ready inetName ipv6Address =>
    obtain rfl := Option.some_inj.mp h
    exact hG'.tryEmit hlabel
  | softApChanges softAp =>
    obtain rfl := Option.some_inj.mp h
    exact hG'.of_shared (.of_eq (List.Subset.refl _) rfl rfl) hG'.infos hG'.cache rfl hG'.buffers
      (fun _ hk => .inl hk) rfl
  | run i r =>
    obtain ⟨p, hp, rfl⟩ := Option.map_eq_some_iff.mp h
    obtain ⟨k, m, k', hk, hprim, rfl⟩ := of_run hp
    exact hG'.coroutine hk hprim v.receiving
  | collectTake =>
    obtain ⟨c, hc, rfl⟩ := Option.map_eq_some_iff.mp h
    obtain ⟨_, -, -, -, -, hemitted⟩ := Collector.of_take hc
    exact hG'.of_shared (.of_eq (List.Subset.refl _) rfl rfl) hG'.infos hG'.cache hemitted
      hG'.buffers (fun _ hk => .inl hk) rfl
  | collectHandle =>
    obtain ⟨⟨e, c⟩, hc, rfl⟩ := Option.map_eq_some_iff.mp h
    obtain ⟨-, -, -, -, hemitted⟩ := Collector.of_handle hc
    -- what the collector handles has been emitted, so its object was made
    have he := hG'.emitted e (Collector.mem_emitted_of_handle hc)
    have hcollected : Grounded (ls ++ [.collectHandle])
        (v.setShared { v.pool.shared with runtime := c }) :=
      hG'.of_shared (.of_eq (List.Subset.refl _) rfl rfl) hG'.infos hG'.cache hemitted
        hG'.buffers (fun _ hk => .inl hk) rfl
    refine { hcollected with sessions := fun x hx => ?_ }
    rcases List.mem_append.mp hx with hx | hx
    · exact hG'.sessions x hx
    · obtain ⟨event, cause⟩ := e
      cases event with
      | kernelNetLinkChanged inetName inetAddress => exact absurd hx List.not_mem_nil
      | hostapdConfigurationChanged n =>
        obtain ⟨j, rfl, hj⟩ := he
        obtain ⟨info, hinfo⟩ : ∃ info, v.pool.shared.infos[j]? = some info :=
          ⟨_, List.getElem?_eq_getElem hj⟩
        refine ⟨info, hG'.infos info (List.mem_of_getElem? hinfo), ?_⟩
        rw [collectNetEvent] at hx
        simp only [Option.bind_some, hinfo, Option.toList_some, List.mem_singleton] at hx
        rw [hx]
        rfl

theorem Grounded.initial (softAp : SoftAp) : Grounded [] (initial softAp) where
  infos := fun _ h => absurd h List.not_mem_nil
  cache := fun _ h => by cases h
  emitted := fun _ h => absurd h List.not_mem_nil
  buffers := fun _ h => absurd h List.not_mem_nil
  coroutines := fun _ h => absurd h List.not_mem_nil
  sessions := fun _ h => absurd h List.not_mem_nil

theorem Grounded.of_exec {softAp : SoftAp}
    (h : Run.exec Hostapd.step (Hostapd.initial softAp) ls = some v) : Grounded ls v :=
  Run.exec_history (R := Grounded) (fun _ _ _ _ hG hst => hG.step hst) (Grounded.initial softAp) h

/-! ### The peer -/

open Flatbuffers Rpc

/-- What the peer reads of the request that a session is started with, where
`startCarplaySession` finds the dial started and the pull listener listens. -/
def CarplaySession.peerReads (x : CarplaySession) : Option Rpc.HostapdInfo.Values :=
  peerGets Rpc.HostapdInfo.verify Rpc.HostapdInfo.values
    (startCarplaySession (javaString x.hostapdSsid) (javaString x.hostapdPwd)
      (BitVec.ofInt 32 x.hostapdChannel) (javaString x.hostapdNetInterfaceV6Address)
      (BitVec.ofInt 32 x.hostapdSecurityType))

/-- What the peer is to be told of a hotspot with the configuration. -/
def SoftApConfiguration.announcement (c : SoftApConfiguration) (address : String) :
    Rpc.HostapdInfo.Values where
  hostapdSsid := some (javaString (c.ssid.getD ""))
  hostapdPassphrase := some (javaString (c.passphrase.getD ""))
  hostapdChannel := BitVec.ofInt 32 ((c.bandAndChannel.bind (·.2)).getD 149)
  hostapdIpAddressV6 := some (javaString address)
  hostapdSecurityType := BitVec.ofInt 32 c.mapSecurityType.value

/-- The strings that a label brings in fit into a request. -/
def Label.Fits : Label → Prop
  | .broadcast _ (some c) inetIpv6Address => (c.ssid.getD "").length ≤ 2 ^ 20 ∧
      (c.passphrase.getD "").length ≤ 2 ^ 20 ∧ inetIpv6Address.length ≤ 2 ^ 20
  | .onIpv6Ready _ ipv6Address => ipv6Address.length ≤ 2 ^ 20
  | _ => True

theorem peerReads_session {c : SoftApConfiguration} {address : String} {cause : ℕ}
    (hssid : (c.ssid.getD "").length ≤ 2 ^ 20) (hpwd : (c.passphrase.getD "").length ≤ 2 ^ 20)
    (haddress : address.length ≤ 2 ^ 20) :
    ((c.toInfo address).session cause).peerReads = some (c.announcement address) := by
  have hssid' := length_javaString_le (c.ssid.getD "")
  have hpwd' := length_javaString_le (c.passphrase.getD "")
  have haddress' := length_javaString_le address
  refine peerGets_eq (startCarplaySession_spec _ _ _ _ _ ?_)
  show 3 * ((javaString (c.ssid.getD "")).length + (javaString (c.passphrase.getD "")).length +
    (javaString address).length) + 2 ^ 17 ≤ maxBufferSize
  rw [maxBufferSize_eq]
  omega

/-- **What the peer is told of the hotspot.**  In every run the peer reads, in each
session request, the SSID, the passphrase, the channel and the security type of a
single ENABLED broadcast of the run, and its address or that of a notification for
the hotspot. -/
theorem sessions_reach_peer (softAp : SoftAp) (ls : List Label) (v : Service)
    (hls : ∀ l ∈ ls, l.Fits) (h : Run.exec step (Hostapd.initial softAp) ls = some v) :
    ∀ x ∈ v.pool.shared.sessions, ∃ c inetIpv6Address address,
      Label.broadcast WIFI_AP_STATE_ENABLED (some c) inetIpv6Address ∈ ls ∧
      (address = inetIpv6Address ∨ Label.onIpv6Ready "wlan2" address ∈ ls) ∧
      x.peerReads = some (c.announcement address) := by
  intro x hx
  obtain ⟨info, ⟨c, inetIpv6Address, address, hc, ha, rfl⟩, heq⟩ :=
    (Grounded.of_exec h).sessions x hx
  obtain ⟨hssid, hpwd, hinet⟩ := hls _ hc
  -- both addresses that a request may carry are short enough
  have haddress : address.length ≤ 2 ^ 20 := by
    rcases ha with rfl | ha
    · exact hinet
    · exact hls _ ha
  refine ⟨c, inetIpv6Address, address, hc, ha, ?_⟩
  rw [heq]
  exact peerReads_session hssid hpwd haddress

/-- The hotspot is enabled, its address is announced, and the collector moves. -/
private def oneSession : List Label :=
  [.broadcast WIFI_AP_STATE_ENABLED (some ⟨some "AP", some "passphrase", SECURITY_TYPE_WPA3_SAE,
    none⟩) "", .receive] ++ runs 0 1 ++ [.onIpv6Ready "wlan2" "fe80::1"] ++ runs 0 5 ++
    [.collectTake, .collectHandle, .collectTake, .collectHandle]

theorem sessions_reach_peer_one :
    ∃ v x, Run.exec step (Hostapd.initial ⟨WIFI_AP_STATE_ENABLED, none⟩) oneSession = some v ∧
      v.pool.shared.sessions = [x] ∧ ∃ (c : SoftApConfiguration) (address : String),
        x.peerReads = some (c.announcement address) := by
  have hfits : ∀ l ∈ oneSession, l.Fits := by
    simp [oneSession, runs, Label.Fits]
    decide
  obtain ⟨v, x, hv, hx⟩ : ∃ v x, Run.exec step (Hostapd.initial ⟨WIFI_AP_STATE_ENABLED, none⟩)
      oneSession = some v ∧ v.pool.shared.sessions = [x] := ⟨_, _, rfl, rfl⟩
  obtain ⟨c, -, address, -, -, hreads⟩ :=
    sessions_reach_peer ⟨WIFI_AP_STATE_ENABLED, none⟩ oneSession v hfits hv x (by simp [hx])
  exact ⟨v, x, hv, hx, c, address, hreads⟩

end Carplay.Hostapd

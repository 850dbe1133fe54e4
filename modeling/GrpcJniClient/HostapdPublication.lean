/-
What `HostapdService` publishes.

A waiter publishes what the state flow holds when it has its address, not what
was checked when it was launched.  A DISABLED broadcast cancels the tracked job
only, and an ENABLED one with an unsupported type cancels nothing.

* `Publication.Valid` — the last broadcast was ENABLED, and the info is that of
  its configuration, with a supported type;
* `Undisturbed` — what a broadcast must find, and when a request may turn into a
  waiter;
* `Inv` — the cache is that of the last ENABLED broadcast, and while a waiter is
  pending that broadcast was of a supported type;
* `Inv.step` — every label keeps it where it is undisturbed;
* `publications_valid` — so all publications of such runs are valid;
* `disable_leaves_waiter` — the waiter of a request survives a DISABLED
  broadcast.
-/
import GrpcJniClient.HostapdWaiters

open SharedFlow ThreadPool

namespace Carplay.Hostapd

/-- The info has the configuration's SSID and passphrase, and a type that
CarPlay can use. -/
def Announces (c : SoftApConfiguration) (info : Option HostapdInfo) : Prop :=
  ∃ i, info = some i ∧ i.mHostapdSsid = c.ssid ∧ i.mHostapdPassphrase = c.passphrase ∧
    i.mHostapdSecurityType.compatible = true

/-- The publication is valid and current. -/
def Publication.Valid (pub : Publication) : Prop :=
  ∃ c, pub.lastBroadcast = some (.enabled (some c)) ∧ Announces c pub.info

/-- The coroutine is a waiter that has still to read what it publishes. -/
def Pc.pending (s : Shared) : Pc → Bool
  | .subscribe job | .await job _ => !s.isCancelled job
  | .readForAddress _ _ | .writeAddress _ _ _ | .readForEvent _ _ => true
  | _ => false

/-- What a waiter has read and is about to publish. -/
def Pc.emitting : Pc → Option (Option ℕ)
  | .emit _ _ info => some info
  | _ => none

/-- The coroutine is that of the job and can still be cancelled. -/
def Pc.ofJob (job : Option ℕ) : Pc → Prop
  | .subscribe j | .await j _ => j = job ∧ job ≠ none
  | _ => False

/-- The last ENABLED or DISABLED broadcast was ENABLED with a configuration that
could be read. -/
def Shared.LastEnabled (s : Shared) : Prop := ∃ c, s.lastBroadcast = some (.enabled (some c))

/-- What a broadcast must find, and when a request may turn into a waiter. -/
def Undisturbed (v : Service) : Label → Prop
  | .broadcast hostapdState configuration _ =>
      (hostapdState = WIFI_AP_STATE_ENABLED → ∀ k ∈ v.pool.threads,
        (∀ info, k.emitting = some info →
          ∃ c, configuration = some c ∧ Announces c (v.pool.shared.info info)) ∧
        (k.pending v.pool.shared = true →
          ∃ c, configuration = some c ∧ c.mapSecurityType.compatible = true)) ∧
      (hostapdState = WIFI_AP_STATE_DISABLED → ∀ k ∈ v.pool.threads,
        k.emitting = none ∧
        (k.pending v.pool.shared = true → k.ofJob v.pool.shared.mHostapdIpv6Job))
  | .run i _ => v.pool.threads[i]? = some (.checkSecurityType true) →
      v.pool.shared.isHostapdSecurityTypeCorrect = true → v.pool.shared.LastEnabled
  | _ => True

instance (c : SoftApConfiguration) (info : Option HostapdInfo) : Decidable (Announces c info) :=
  inferInstanceAs (Decidable (∃ i ∈ info, i.mHostapdSsid = c.ssid ∧
    i.mHostapdPassphrase = c.passphrase ∧ i.mHostapdSecurityType.compatible = true))

instance (job : Option ℕ) (k : Pc) : Decidable (k.ofJob job) := by
  cases k with
  | subscribe j | await j _ => exact inferInstanceAs (Decidable (j = job ∧ job ≠ none))
  | _ => exact isFalse id

instance (s : Shared) : Decidable s.LastEnabled :=
  match h : s.lastBroadcast with
  | some (.enabled (some c)) => isTrue ⟨c, h⟩
  | some (.enabled none) | some .disabled | none => isFalse fun ⟨c, hc⟩ => by simp [h] at hc

instance (v : Service) (l : Label) : Decidable (Undisturbed v l) := by
  cases l with
  | broadcast hostapdState configuration inetIpv6Address =>
    exact inferInstanceAs (Decidable (
      (hostapdState = WIFI_AP_STATE_ENABLED → ∀ k ∈ v.pool.threads,
        (∀ info ∈ k.emitting, ∃ c ∈ configuration, Announces c (v.pool.shared.info info)) ∧
        (k.pending v.pool.shared = true →
          ∃ c ∈ configuration, c.mapSecurityType.compatible = true)) ∧
      (hostapdState = WIFI_AP_STATE_DISABLED → ∀ k ∈ v.pool.threads, k.emitting = none ∧
        (k.pending v.pool.shared = true → k.ofJob v.pool.shared.mHostapdIpv6Job))))
  | run i r =>
    exact inferInstanceAs (Decidable (v.pool.threads[i]? = some (.checkSecurityType true) →
      v.pool.shared.isHostapdSecurityTypeCorrect = true → v.pool.shared.LastEnabled))
  | _ => exact isTrue trivial

/-! ### The invariant -/

/-- The cache is that of the last ENABLED broadcast. -/
def Shared.Cached (s : Shared) : Prop :=
  ∀ c, s.lastBroadcast = some (.enabled (some c)) → ∃ i, s.value = some i ∧
    i.mHostapdSsid = c.ssid ∧ i.mHostapdPassphrase = c.passphrase ∧
      i.mHostapdSecurityType = c.mapSecurityType

/-- What holds of the coroutine `k` with the number `i`. -/
structure Coroutine (s : Shared) (i : ℕ) (k : Pc) : Prop where
  pending : k.pending s = true → ∃ c, s.lastBroadcast = some (.enabled (some c)) ∧
    c.mapSecurityType.compatible = true
  emit : ∀ info, k.emitting = some info → ∃ c, s.lastBroadcast = some (.enabled (some c)) ∧
    Announces c (s.info info)
  job : ∀ job, k.ofJob (some job) → job = i

structure Inv (v : Service) : Prop where
  valid : ∀ pub ∈ v.pool.shared.published, pub.Valid
  cached : v.pool.shared.Cached
  receiving : v.receiving = true → v.pool.shared.LastEnabled
  coroutines : ∀ i k, v.pool.threads[i]? = some k → Coroutine v.pool.shared i k

theorem Inv.initial (softAp : SoftAp) : Inv (initial softAp) where
  valid := fun _ h => absurd h List.not_mem_nil
  cached := fun _ h => by cases h
  receiving := fun h => by cases h
  coroutines := fun i _ h => by cases i <;> cases h

variable {s s' : Shared} {v w : Service}

/-- Nothing of what the invariant speaks of has changed but addresses and
cancellations. -/
structure Keeps (s s' : Shared) : Prop where
  lastBroadcast : s'.lastBroadcast = s.lastBroadcast
  cancelled : ∀ job, s.isCancelled job = true → s'.isCancelled job = true
  info : ∀ n i, s.info (some n) = some i → ∃ i', s'.info (some n) = some i' ∧
    i'.mHostapdSsid = i.mHostapdSsid ∧ i'.mHostapdPassphrase = i.mHostapdPassphrase ∧
      i'.mHostapdSecurityType = i.mHostapdSecurityType
  flow : s'.mSoftApConfigurationStateFlow = s.mSoftApConfigurationStateFlow

theorem Keeps.of_eq (hlast : s'.lastBroadcast = s.lastBroadcast)
    (hcancelled : s'.cancelled = s.cancelled) (hinfos : s'.infos = s.infos)
    (hflow : s'.mSoftApConfigurationStateFlow = s.mSoftApConfigurationStateFlow) :
    Keeps s s' where
  lastBroadcast := hlast
  cancelled := fun job h => by rwa [Shared.isCancelled, hcancelled]
  info := fun n i h => ⟨i, by rwa [Shared.info, hinfos], rfl, rfl, rfl⟩
  flow := hflow

theorem Announces.keeps {c : SoftApConfiguration} {info : Option ℕ} (hK : Keeps s s')
    (h : Announces c (s.info info)) : Announces c (s'.info info) := by
  obtain ⟨i, hi, hssid, hpass, htype⟩ := h
  cases info with
  | none => cases hi
  | some n =>
    obtain ⟨i', hi', h₁, h₂, h₃⟩ := hK.info n i hi
    exact ⟨i', hi', h₁.trans hssid, h₂.trans hpass, h₃ ▸ htype⟩

theorem pending_keeps {k : Pc} (hK : Keeps s s') (h : k.pending s' = true) :
    k.pending s = true := by
  have hcancel : ∀ job, (!s'.isCancelled job) = true → (!s.isCancelled job) = true := by
    intro job hj
    cases hc : s.isCancelled job with
    | false => rfl
    | true =>
      rw [hK.cancelled job hc] at hj
      cases hj
  cases k with
  | subscribe job => exact hcancel job h
  | await job slot => exact hcancel job h
  | _ => exact h

theorem Coroutine.keeps {i : ℕ} {k : Pc} (hC : Coroutine s i k) (hK : Keeps s s') :
    Coroutine s' i k where
  pending := fun h => by
    rw [hK.lastBroadcast]
    exact hC.pending (pending_keeps hK h)
  emit := fun info hk => by
    obtain ⟨c, hc, hann⟩ := hC.emit info hk
    exact ⟨c, hK.lastBroadcast.trans hc, hann.keeps hK⟩
  job := hC.job

theorem Shared.Cached.keeps (h : s.Cached) (hK : Keeps s s') : s'.Cached := by
  intro c hc
  obtain ⟨i, hi, hssid, hpass, htype⟩ := h c (hK.lastBroadcast ▸ hc)
  obtain ⟨n, hn, -⟩ := Option.bind_eq_some_iff.mp hi
  have hin : s.info (some n) = some i := by rwa [Shared.value, hn] at hi
  obtain ⟨i', hi', h₁, h₂, h₃⟩ := hK.info n i hin
  refine ⟨i', ?_, h₁.trans hssid, h₂.trans hpass, h₃.trans htype⟩
  rwa [Shared.value, hK.flow, hn]

/-- A change of the shared state that the invariant does not see. -/
theorem Inv.keeps (hI : Inv v) (hK : Keeps v.pool.shared s')
    (hvalid : ∀ pub ∈ s'.published, pub.Valid) : Inv (v.setShared s') where
  valid := hvalid
  cached := hI.cached.keeps hK
  receiving := fun h => by
    obtain ⟨c, hc⟩ := hI.receiving h
    exact ⟨c, hK.lastBroadcast.trans hc⟩
  coroutines := fun i k h => (hI.coroutines i k h).keeps hK

/-- A coroutine that is no waiter. -/
theorem Coroutine.of_idle {i : ℕ} {k : Pc} (hk : k.pending s = false)
    (hemit : k.emitting = none) (hjob : ∀ job, ¬ k.ofJob job) : Coroutine s i k where
  pending := fun h => by
    rw [hk] at h
    cases h
  emit := fun info h => by
    rw [hemit] at h
    cases h
  job := fun job h => absurd h (hjob _)

theorem Inv.spawn {k : Pc} (hI : Inv v) (hk : Coroutine v.pool.shared v.pool.threads.length k) :
    Inv { v with pool := v.pool.spawn k } where
  valid := hI.valid
  cached := hI.cached
  receiving := hI.receiving
  coroutines := by
    intro i x hx
    change (v.pool.threads ++ [k])[i]? = some x at hx
    rw [List.getElem?_append] at hx
    split at hx
    · exact hI.coroutines i x hx
    · rename_i hlt
      rw [List.getElem?_singleton, Option.ite_none_right_eq_some, Option.some_inj] at hx
      obtain ⟨hi, rfl⟩ := hx
      have hi : i = v.pool.threads.length := by omega
      rw [hi]
      exact hk

/-- A step of one coroutine. -/
theorem Inv.move {i : ℕ} {k' : Pc} (hI : Inv v) (hK : Keeps v.pool.shared s')
    (hvalid : ∀ pub ∈ s'.published, pub.Valid) (hk' : Coroutine s' i k') :
    Inv { v with pool := ⟨s', v.pool.threads.set i k' ++ []⟩ } where
  valid := hvalid
  cached := (hI.keeps hK hvalid).cached
  receiving := (hI.keeps hK hvalid).receiving
  coroutines := by
    intro j x hx
    -- the coroutine that has moved, or one that has not
    rcases Pool.getElem?_move hx with ⟨rfl, rfl⟩ | ⟨-, h⟩ | h
    · exact hk'
    · exact (hI.keeps hK hvalid).coroutines j x h
    · exact absurd h List.not_mem_nil

/-! ### Each label -/

/-- Storing the address of an object keeps everything else. -/
theorem Keeps.setAddress (s : Shared) (info : Option ℕ) (address : String) :
    Keeps s (s.setAddress info address) where
  lastBroadcast := by cases info <;> rfl
  cancelled := fun job h => by cases info <;> exact h
  info := fun n i h => by
    rw [info_setAddress, h]
    refine ⟨_, rfl, ?_⟩
    split <;> exact ⟨rfl, rfl, rfl⟩
  flow := by cases info <;> rfl

/-- A waiter passes its state of being pending on to its next step. -/
theorem Coroutine.next {i : ℕ} {k k' : Pc} (hC : Coroutine s i k) (hk : k.pending s = true)
    (hemit : k'.emitting = none) (hjob : ∀ job, k'.ofJob (some job) → k.ofJob (some job)) :
    Coroutine s i k' where
  pending := fun _ => hC.pending hk
  emit := fun info h => by
    rw [hemit] at h
    cases h
  job := fun job h => hC.job job (hjob job h)

theorem Coroutine.of_waits {i : ℕ} {k : Pc} (hk : k.waits = false) : Coroutine s i k := by
  cases k with
  | subscribe | await | readForAddress | writeAddress | readForEvent | emit => cases hk
  | _ => exact Coroutine.of_idle rfl rfl fun _ h => h

/-- A step of a coroutine. -/
theorem Inv.run {i : ℕ} {r : Result} {p : Coroutines} (hI : Inv v)
    (hU : Undisturbed v (.run i r)) (h : v.pool.move prim i r = some p) :
    Inv { v with pool := p } := by
  obtain ⟨k, m, k', hk, hstep, rfl⟩ := of_run h
  have hC := hI.coroutines i k hk
  have hself : Keeps v.pool.shared v.pool.shared := Keeps.of_eq rfl rfl rfl rfl
  cases hstep with
  | idle k k' softAp calls hk hk' =>
    exact hI.move (Keeps.of_eq rfl rfl rfl rfl) hI.valid (Coroutine.of_waits hk')
  | wait hcorrect =>
    -- the request turns into a waiter
    obtain ⟨c, hc⟩ := hU hk hcorrect
    obtain ⟨info, hinfo, -, -, htype⟩ := hI.cached c hc
    rw [Shared.isHostapdSecurityTypeCorrect, hinfo] at hcorrect
    refine hI.move hself hI.valid ⟨fun _ => ⟨c, hc, htype ▸ hcorrect⟩, fun _ h => ?_, fun job h => ?_⟩
    · cases h
    · cases h.1
  | subscribe job hjob =>
    have hK : Keeps v.pool.shared { v.pool.shared with
        subscribers := v.pool.shared.subscribers ++ [.empty] } := Keeps.of_eq rfl rfl rfl rfl
    refine hI.move hK hI.valid ((hC.keeps hK).next ?_ rfl fun _ h => h)
    show (!v.pool.shared.isCancelled job) = true
    rw [hjob]
    rfl
  | skip job slot b b' e hjob hb hitems he =>
    have hK : Keeps v.pool.shared { v.pool.shared with
        subscribers := v.pool.shared.subscribers.set slot b' } := Keeps.of_eq rfl rfl rfl rfl
    exact hI.move hK hI.valid (hC.keeps hK)
  | take job slot b b' e address hjob hb hitems he =>
    have hK : Keeps v.pool.shared { v.pool.shared with
        subscribers := v.pool.shared.subscribers.set slot b' } := Keeps.of_eq rfl rfl rfl rfl
    refine hI.move hK hI.valid ((hC.keeps hK).next ?_ rfl fun _ h => h.elim)
    show (!v.pool.shared.isCancelled job) = true
    rw [hjob]
    rfl
  | readForAddress cause address =>
    exact hI.move hself hI.valid (hC.next rfl rfl fun _ h => h.elim)
  | writeAddress cause address info =>
    have hK := Keeps.setAddress v.pool.shared info address
    have hvalid : ∀ pub ∈ (v.pool.shared.setAddress info address).published, pub.Valid := by
      cases info <;> exact hI.valid
    exact hI.move hK hvalid ((hC.keeps hK).next rfl rfl fun _ h => h.elim)
  | readForEvent cause address =>
    -- what is read now is the configuration of the last broadcast
    obtain ⟨c, hc, hcompat⟩ := hC.pending rfl
    obtain ⟨info, hinfo, hssid, hpass, htype⟩ := hI.cached c hc
    refine hI.move hself hI.valid { pending := ?_, emit := ?_, job := fun _ h => h.elim }
    · intro h
      cases h
    · intro info' h
      cases h
      exact ⟨c, hc, info, hinfo, hssid, hpass, htype ▸ hcompat⟩
  | emit cause address info =>
    obtain ⟨c, hc, hann⟩ := hC.emit info rfl
    refine hI.move (Keeps.of_eq rfl rfl rfl rfl) (fun pub hpub => ?_) (Coroutine.of_waits rfl)
    rcases List.mem_append.mp hpub with hpub | hpub
    · exact hI.valid pub hpub
    · rw [List.mem_singleton.mp hpub]
      exact ⟨c, hc, hann⟩

theorem pending_of_cancelled {k : Pc} (h : s'.cancelled = s.cancelled) :
    k.pending s' = k.pending s := by
  cases k <;> simp only [Pc.pending, Shared.isCancelled, h]

@[simp] theorem Shared.value_setValue (s : Shared) (info : HostapdInfo) :
    (s.setValue info).value = some info := by
  rw [Shared.setValue]
  split
  · assumption
  · exact List.getElem?_concat_length

theorem Shared.info_setValue {info : HostapdInfo} {n : Option ℕ} {i : HostapdInfo}
    (h : s.info n = some i) : (s.setValue info).info n = some i := by
  rw [Shared.setValue]
  split
  · exact h
  · obtain ⟨n, rfl, hn⟩ := Option.bind_eq_some_iff.mp h
    obtain ⟨hlt, -⟩ := List.getElem?_eq_some_iff.mp hn
    exact (List.getElem?_append_left hlt).trans hn

theorem Shared.setValue_frame (s : Shared) (info : HostapdInfo) :
    (s.setValue info).lastBroadcast = s.lastBroadcast ∧
      (s.setValue info).cancelled = s.cancelled ∧ (s.setValue info).published = s.published := by
  rw [Shared.setValue]
  split <;> exact ⟨rfl, rfl, rfl⟩

/-- What an ENABLED broadcast does: it stores its configuration, when there is
one, and nothing else. -/
structure Stores (s s' : Shared) (configuration : Option SoftApConfiguration) : Prop where
  lastBroadcast : s'.lastBroadcast = some (.enabled configuration)
  cancelled : s'.cancelled = s.cancelled
  published : s'.published = s.published
  info : ∀ n i, s.info n = some i → s'.info n = some i
  value : ∀ c, configuration = some c → ∃ i, s'.value = some i ∧ i.mHostapdSsid = c.ssid ∧
    i.mHostapdPassphrase = c.passphrase ∧ i.mHostapdSecurityType = c.mapSecurityType

theorem onReceive_enabled (p : Coroutines) (configuration : Option SoftApConfiguration)
    (inetIpv6Address : String) : ∃ s', onReceive p WIFI_AP_STATE_ENABLED configuration
      inetIpv6Address = ⟨⟨s', p.threads⟩, configuration.isSome⟩ ∧
      Stores p.shared s' configuration := by
  rw [onReceive, if_pos rfl]
  cases configuration with
  | none => exact ⟨_, rfl, rfl, rfl, rfl, fun _ _ h => h, fun c h => by cases h⟩
  | some c =>
    obtain ⟨hlast, hcancelled, hpublished⟩ := Shared.setValue_frame
      { p.shared with lastBroadcast := some (.enabled (some c)) } (c.toInfo inetIpv6Address)
    refine ⟨_, rfl, hlast, hcancelled, hpublished, fun _ _ h => Shared.info_setValue h, ?_⟩
    intro c' h
    obtain rfl := Option.some_inj.mp h
    exact ⟨_, Shared.value_setValue _ _, rfl, rfl, rfl⟩

/-- What a DISABLED broadcast does. -/
theorem onReceive_disabled (p : Coroutines) (configuration : Option SoftApConfiguration)
    (inetIpv6Address : String) :
    onReceive p WIFI_AP_STATE_DISABLED configuration inetIpv6Address = ⟨cancelHostapdIpv6Job
      { p with shared := { p.shared with lastBroadcast := some .disabled } }, false⟩ := by
  rw [onReceive, if_neg (by decide), if_pos rfl]

/-- A coroutine when an ENABLED broadcast comes in. -/
theorem Coroutine.stores {i : ℕ} {k : Pc} {configuration : Option SoftApConfiguration}
    (hC : Coroutine s i k) (hstores : Stores s s' configuration)
    (hemit : ∀ info, k.emitting = some info →
      ∃ c, configuration = some c ∧ Announces c (s.info info))
    (hpending : k.pending s = true →
      ∃ c, configuration = some c ∧ c.mapSecurityType.compatible = true) : Coroutine s' i k where
  pending := fun h => by
    obtain ⟨c, rfl, hc⟩ := hpending (pending_of_cancelled hstores.cancelled ▸ h)
    exact ⟨c, hstores.lastBroadcast, hc⟩
  emit := fun info h => by
    obtain ⟨c, rfl, i, hi, hann⟩ := hemit info h
    exact ⟨c, hstores.lastBroadcast, i, hstores.info info i hi, hann⟩
  job := hC.job

theorem Inv.enabled {configuration : Option SoftApConfiguration} {inetIpv6Address : String}
    (hI : Inv v)
    (hU : Undisturbed v (.broadcast WIFI_AP_STATE_ENABLED configuration inetIpv6Address)) :
    Inv (onReceive v.pool WIFI_AP_STATE_ENABLED configuration inetIpv6Address) := by
  obtain ⟨s', hreceive, hstores⟩ := onReceive_enabled v.pool configuration inetIpv6Address
  rw [hreceive]
  constructor
  · intro pub hpub
    exact hI.valid pub (hstores.published ▸ hpub)
  · intro c hc
    cases hstores.lastBroadcast.symm.trans hc
    exact hstores.value c rfl
  · intro hreceiving
    obtain ⟨c, rfl⟩ := Option.isSome_iff_exists.mp hreceiving
    exact ⟨c, hstores.lastBroadcast⟩
  · intro i k hk
    -- the waiters of a configuration before this one are what the condition is about
    obtain ⟨hemit, hpending⟩ := hU.1 rfl k (List.mem_of_getElem? hk)
    exact (hI.coroutines i k hk).stores hstores hemit hpending

/-- Cancelling the tracked job keeps what the invariant speaks of. -/
theorem cancelHostapdIpv6Job_keeps (p : Coroutines) :
    Keeps p.shared (cancelHostapdIpv6Job p).shared ∧
      (cancelHostapdIpv6Job p).threads = p.threads ∧
      (cancelHostapdIpv6Job p).shared.published = p.shared.published := by
  rcases cancelHostapdIpv6Job_cases p with h | ⟨job, -, h⟩ <;> rw [h]
  · exact ⟨Keeps.of_eq rfl rfl rfl rfl, rfl, rfl⟩
  · exact ⟨⟨rfl, fun _ h => isCancelled_cons job h, fun n i h => ⟨i, h, rfl, rfl, rfl⟩, rfl⟩,
      rfl, rfl⟩

/-- A job that is waiting is active, so it is cancelled. -/
theorem cancelHostapdIpv6Job_cancels {p : Coroutines} {i : ℕ} {k : Pc}
    (hk : p.threads[i]? = some k) (hjob : k.ofJob (some i))
    (htracked : p.shared.mHostapdIpv6Job = some i) :
    k.pending (cancelHostapdIpv6Job p).shared = false := by
  have hcancelled : (cancelHostapdIpv6Job p).shared.isCancelled (some i) = true := by
    have hdone : k ≠ .done := by
      rintro rfl
      exact hjob
    -- a waiter has not finished, so its job is active unless it is cancelled
    have hactive : isActive p i = !p.shared.cancelled.contains i := by
      rw [isActive, hk, Option.any_some, decide_eq_true hdone, Bool.true_and]
    simp only [cancelHostapdIpv6Job, htracked, hactive]
    cases hc : p.shared.cancelled.contains i with
    | true => exact hc
    | false => exact List.contains_iff_mem.mpr List.mem_cons_self
  cases k with
  | subscribe job =>
    rw [Pc.pending, hjob.1, hcancelled]
    rfl
  | await job slot =>
    rw [Pc.pending, hjob.1, hcancelled]
    rfl
  | _ => exact hjob.elim

theorem Inv.disabled {configuration : Option SoftApConfiguration} {inetIpv6Address : String}
    (hI : Inv v)
    (hU : Undisturbed v (.broadcast WIFI_AP_STATE_DISABLED configuration inetIpv6Address)) :
    Inv (onReceive v.pool WIFI_AP_STATE_DISABLED configuration inetIpv6Address) := by
  have hU : ∀ k ∈ v.pool.threads, _ := hU.2 rfl
  rw [onReceive_disabled]
  set p : Coroutines := { v.pool with
    shared := { v.pool.shared with lastBroadcast := some .disabled } } with hp
  obtain ⟨hK, hthreads, hpub⟩ := cancelHostapdIpv6Job_keeps p
  refine ⟨fun pub h => hI.valid pub (hpub ▸ h), fun c h => ?_,
    fun h => absurd h Bool.false_ne_true, fun i k hk => ?_⟩
  · cases hK.lastBroadcast.symm.trans h
  · change (cancelHostapdIpv6Job p).threads[i]? = some k at hk
    rw [hthreads] at hk
    obtain ⟨hemit, hpending⟩ := hU k (List.mem_of_getElem? hk)
    have hC := hI.coroutines i k hk
    refine ⟨fun h => ?_, fun info h => ?_, hC.job⟩
    · -- a waiter that is left pending would be the tracked job
      have hsame : k.pending p.shared = k.pending v.pool.shared := pending_of_cancelled rfl
      have hjob := hpending (hsame ▸ pending_keeps hK h)
      obtain ⟨job, hjob'⟩ : ∃ job, v.pool.shared.mHostapdIpv6Job = some job := by
        cases k with
        | subscribe j => exact Option.ne_none_iff_exists'.mp hjob.2
        | await j slot => exact Option.ne_none_iff_exists'.mp hjob.2
        | _ => exact hjob.elim
      rw [hjob'] at hjob
      obtain rfl := hC.job job hjob
      rw [cancelHostapdIpv6Job_cancels hk hjob hjob'] at h
      cases h
    · rw [hemit] at h
      cases h

theorem Inv.launch (hI : Inv v) (hv : v.receiving = true) :
    Inv ⟨launchHostapdIpv6Job v.pool, false⟩ := by
  rw [launchHostapdIpv6Job]
  split
  · rename_i hcorrect
    obtain ⟨hK, hthreads, hpub⟩ := cancelHostapdIpv6Job_keeps v.pool
    set q := cancelHostapdIpv6Job v.pool with hq
    have hK' : Keeps v.pool.shared { q.shared with mHostapdIpv6Job := some q.threads.length } :=
      ⟨hK.lastBroadcast, hK.cancelled, hK.info, hK.flow⟩
    have hkept := hI.keeps hK' fun pub h => hI.valid pub (hpub ▸ h)
    -- the check has just been passed by the configuration of the last broadcast
    obtain ⟨c, hc⟩ := hI.receiving hv
    obtain ⟨info, hinfo, -, -, htype⟩ := hI.cached c hc
    rw [Shared.isHostapdSecurityTypeCorrect, hinfo] at hcorrect
    have hspawned := hkept.spawn (k := .subscribe (some q.threads.length)) {
      pending := fun _ => ⟨c, hK.lastBroadcast.trans hc, htype ▸ hcorrect⟩
      emit := fun _ h => by cases h
      job := fun job h => (Option.some_inj.mp h.1).symm.trans (congrArg List.length hthreads) }
    refine ⟨hspawned.valid, hspawned.cached, fun h => absurd h Bool.false_ne_true, ?_⟩
    have hcoroutines := hspawned.coroutines
    rwa [Service.setShared, Pool.spawn, ← hthreads] at hcoroutines
  · exact ⟨hI.valid, hI.cached, fun h => absurd h Bool.false_ne_true, hI.coroutines⟩

/-- Every label keeps the invariant where it is undisturbed. -/
theorem Inv.step {l : Label} (hI : Inv v) (hU : Undisturbed v l) (h : step v l = some w) :
    Inv w := by
  cases l with
  | broadcast hostapdState configuration inetIpv6Address =>
    rw [Hostapd.step] at h
    split at h
    · cases h
    · rename_i hnot
      obtain rfl := Option.some_inj.mp h
      by_cases henabled : hostapdState = WIFI_AP_STATE_ENABLED
      · subst henabled
        exact hI.enabled hU
      · by_cases hdisabled : hostapdState = WIFI_AP_STATE_DISABLED
        · subst hdisabled
          exact hI.disabled hU
        · -- another state is remembered nowhere
          rw [onReceive, if_neg henabled, if_neg hdisabled]
          exact ⟨hI.valid, hI.cached, fun h => absurd h Bool.false_ne_true, hI.coroutines⟩
  | receive =>
    rw [Hostapd.step] at h
    split at h
    · rename_i hv
      obtain rfl := Option.some_inj.mp h
      exact hI.launch hv
    · cases h
  | getCarplayCompatSoftApConfigure =>
    obtain rfl := Option.some_inj.mp h
    exact hI.spawn (Coroutine.of_waits rfl)
  | onIpv6Ready inetName ipv6Address =>
    obtain rfl := Option.some_inj.mp h
    exact hI.keeps (Keeps.of_eq rfl rfl rfl rfl) hI.valid
  | softApChanges softAp =>
    obtain rfl := Option.some_inj.mp h
    exact hI.keeps (Keeps.of_eq rfl rfl rfl rfl) hI.valid
  | run i r =>
    obtain ⟨p, hp, rfl⟩ := Option.map_eq_some_iff.mp h
    exact hI.run hU hp
  | collectTake =>
    obtain ⟨c, -, rfl⟩ := Option.map_eq_some_iff.mp h
    exact hI.keeps (Keeps.of_eq rfl rfl rfl rfl) hI.valid
  | collectHandle =>
    obtain ⟨⟨e, c⟩, -, rfl⟩ := Option.map_eq_some_iff.mp h
    exact hI.keeps (Keeps.of_eq rfl rfl rfl rfl) hI.valid

/-! ### Outside the condition -/

theorem type_setAddress (s : Shared) (info : Option ℕ) (address : String) :
    (s.setAddress info address).value.map (·.mHostapdSecurityType)
      = s.value.map (·.mHostapdSecurityType) := by
  have hflow : (s.setAddress info address).mSoftApConfigurationStateFlow
      = s.mSoftApConfigurationStateFlow := (Keeps.setAddress s info address).flow
  show ((s.setAddress info address).info _).map _ = (s.info _).map _
  rw [hflow, info_setAddress, Option.map_map]
  congr 1
  funext i
  rw [Function.comp_apply]
  split <;> rfl

/-- What a coroutine can still be made to publish. -/
def Publishes (v : Service) : Prop :=
  ∃ ls w, Run.exec step v ls = some w ∧ ∃ pub ∈ w.pool.shared.published,
    pub.lastBroadcast = v.pool.shared.lastBroadcast ∧
      pub.info.map (·.mHostapdSecurityType) = v.pool.shared.value.map (·.mHostapdSecurityType)

theorem publishes_of_append {ls : List Label} {pub : Publication} {pubs : List Publication}
    (hw : Run.exec step v ls = some w) (hpub : w.pool.shared.published = pubs ++ [pub])
    (hlast : pub.lastBroadcast = v.pool.shared.lastBroadcast)
    (htype : pub.info.map (·.mHostapdSecurityType)
      = v.pool.shared.value.map (·.mHostapdSecurityType)) : Publishes v :=
  ⟨ls, w, hw, pub, hpub ▸ List.mem_append_right _ (List.mem_singleton_self pub), hlast, htype⟩

theorem publishes_of_await {i : ℕ} {job : Option ℕ} {slot : ℕ}
    (hk : v.pool.threads[i]? = some (.await job slot))
    (hjob : v.pool.shared.isCancelled job = false)
    (hslot : slot < v.pool.shared.subscribers.length) : Publishes v := by
  -- five notifications fill the buffer with the one that it waits for
  obtain ⟨s', hnotify, hinfos, hflow, hcancelled, hlast, -, hbuffers⟩ := exec_notify v ""
  obtain ⟨b, hb, hhead⟩ := hbuffers slot hslot
  have hjob' : s'.isCancelled job = false := by rwa [Shared.isCancelled, hcancelled]
  obtain ⟨w, hw, -, hpub⟩ := exec_await (v := v.setShared s') hk hjob' hb
    hhead rfl
  have hrun : Run.exec step v ((.onIpv6Ready "wlan2" "" :: fill) ++ runs i 5) = some w := by
    rw [Run.exec_append, hnotify]
    exact hw
  refine publishes_of_append hrun hpub hlast ((type_setAddress s' _ _).trans ?_)
  rw [Shared.value, Shared.value, hinfos, hflow]

theorem publishes_of_pending {i : ℕ} {k : Pc} (hS : Slots v) (hk : v.pool.threads[i]? = some k)
    (hpending : k.pending v.pool.shared = true) : Publishes v := by
  have hi : i < v.pool.threads.length := (List.getElem?_eq_some_iff.mp hk).choose
  cases k with
  | subscribe job =>
    have hjob : v.pool.shared.isCancelled job = false := by
      rwa [Pc.pending, Bool.not_eq_true'] at hpending
    have hstep : step v (.run i succeeds) = some { v with
        pool := ⟨{ v.pool.shared with subscribers := v.pool.shared.subscribers ++ [.empty] },
          v.pool.threads.set i (.await job v.pool.shared.subscribers.length)⟩ } :=
      step_run hk (by rw [prim, if_neg (by rw [hjob]; exact Bool.false_ne_true)])
    obtain ⟨ls, w, hw, hpub⟩ := publishes_of_await (v := { v with
        pool := ⟨{ v.pool.shared with subscribers := v.pool.shared.subscribers ++ [.empty] },
          v.pool.threads.set i (.await job v.pool.shared.subscribers.length)⟩ })
      (List.getElem?_set_self hi) hjob (by simp)
    refine ⟨.run i succeeds :: ls, w, ?_, hpub⟩
    rw [Run.exec_cons, hstep]
    exact hw
  | await job slot =>
    have hjob : v.pool.shared.isCancelled job = false := by
      rwa [Pc.pending, Bool.not_eq_true'] at hpending
    exact publishes_of_await hk hjob (hS.lt _ (List.mem_of_getElem? hk) slot rfl)
  | readForAddress cause address =>
    obtain ⟨w, hw, -, hpub⟩ := exec_readForAddress hk
    exact publishes_of_append hw hpub rfl (type_setAddress _ _ _)
  | writeAddress cause address info =>
    obtain ⟨w, hw, -, hpub⟩ := exec_writeAddress hk
    exact publishes_of_append hw hpub rfl (type_setAddress _ _ _)
  | readForEvent cause address =>
    obtain ⟨w, hw, -, hpub⟩ := exec_readForEvent hk
    exact publishes_of_append hw hpub rfl rfl
  | _ => cases hpending

/-- Only the tracked job stops being pending. -/
theorem pending_cancelHostapdIpv6Job {p : Coroutines} {k : Pc} (h : k.pending p.shared = true)
    (hjob : ¬ k.ofJob p.shared.mHostapdIpv6Job) :
    k.pending (cancelHostapdIpv6Job p).shared = true := by
  rcases cancelHostapdIpv6Job_cases p with heq | ⟨job, htracked, heq⟩ <;> rw [heq]
  · exact h
  · rw [htracked] at hjob
    -- cancelling a job leaves the others pending
    have hother : ∀ j, j ≠ some job → (!p.shared.isCancelled j) = true →
        (!({ p.shared with cancelled := job :: p.shared.cancelled, mHostapdIpv6Job := none } :
          Shared).isCancelled j) = true := by
      intro j hj hcancelled
      cases j with
      | none => rfl
      | some n =>
        have hne : (n == job) = false := by simpa using hj
        simpa only [Shared.isCancelled, Option.any_some, List.contains_cons, hne,
          Bool.false_or] using hcancelled
    cases k with
    | subscribe j =>
      exact hother j (fun hj => hjob ⟨hj, Option.some_ne_none job⟩) h
    | await j slot =>
      exact hother j (fun hj => hjob ⟨hj, Option.some_ne_none job⟩) h
    | _ => exact h

/-- The service can be made to publish something that is not valid. -/
def CanGoWrong (v : Service) : Prop :=
  ∃ ls w, Run.exec step v ls = some w ∧ ∃ pub ∈ w.pool.shared.published, ¬ pub.Valid

theorem goesWrong_of_pending {i : ℕ} {k : Pc} (hS : Slots v) (hk : v.pool.threads[i]? = some k)
    (hpending : k.pending v.pool.shared = true)
    (hinvalid : ∀ pub : Publication, pub.lastBroadcast = v.pool.shared.lastBroadcast →
      pub.info.map (·.mHostapdSecurityType)
        = v.pool.shared.value.map (·.mHostapdSecurityType) → ¬ pub.Valid) : CanGoWrong v := by
  obtain ⟨ls, w, hw, pub, hpub, hlast, htype⟩ := publishes_of_pending hS hk hpending
  exact ⟨ls, w, hw, pub, hpub, hinvalid pub hlast htype⟩

theorem goesWrong_of_emitting {i : ℕ} {k : Pc} {info : Option ℕ}
    (hk : v.pool.threads[i]? = some k) (hemit : k.emitting = some info)
    (hinvalid : ∀ pub : Publication, pub.lastBroadcast = v.pool.shared.lastBroadcast →
      pub.info = v.pool.shared.info info → ¬ pub.Valid) : CanGoWrong v := by
  cases k with
  | emit cause address info' =>
    cases hemit
    obtain ⟨w, hw, -, hpub⟩ := exec_emit hk
    refine ⟨_, w, hw, _, hpub ▸ List.mem_append_right _ (List.mem_singleton_self _), ?_⟩
    exact hinvalid _ rfl rfl
  | _ => cases hemit

theorem goesWrong_of_enabled {configuration : Option SoftApConfiguration} {inetIpv6Address : String}
    (hI : Inv v)
    (hw : onReceive v.pool WIFI_AP_STATE_ENABLED configuration inetIpv6Address = w)
    (hSw : Slots w)
    (hU : ¬ Undisturbed v (.broadcast WIFI_AP_STATE_ENABLED configuration inetIpv6Address)) :
    CanGoWrong w := by
  obtain ⟨s', hreceive, hstores⟩ := onReceive_enabled v.pool configuration inetIpv6Address
  obtain rfl := hreceive.symm.trans hw
  have hconfiguration : ∀ c', s'.lastBroadcast = some (.enabled (some c')) →
      configuration = some c' := by
    intro c' hc'
    cases hstores.lastBroadcast.symm.trans hc'
    rfl
  by_contra hright
  refine hU ⟨fun _ k hk => ⟨fun info hemit => ?_, fun hpending => ?_⟩, fun h => absurd h (by decide)⟩
  · -- what is about to be published stays what it is
    obtain ⟨i, hi⟩ := List.mem_iff_getElem?.mp hk
    obtain ⟨-, -, n, hn, -⟩ := (hI.coroutines i k hi).emit info hemit
    by_contra hannounces
    refine hright (goesWrong_of_emitting hi hemit fun pub hlast hinfo => ?_)
    rintro ⟨c, hc, hann⟩
    rw [hinfo, hstores.info info n hn, ← hn] at hann
    exact hannounces ⟨c, hconfiguration c (hlast.symm.trans hc), hann⟩
  · -- what is published will be of the new type
    obtain ⟨i, hi⟩ := List.mem_iff_getElem?.mp hk
    have hpending' : k.pending s' = true := (pending_of_cancelled hstores.cancelled).trans hpending
    by_contra hcompatible
    refine hright (goesWrong_of_pending hSw hi hpending' fun pub hlast htype => ?_)
    rintro ⟨c, hc, x, hx, -, -, hcompat⟩
    have hconf := hconfiguration c (hlast.symm.trans hc)
    obtain ⟨y, hy, -, -, hytype⟩ := hstores.value c hconf
    have hxy : x.mHostapdSecurityType = y.mHostapdSecurityType := by
      have h : some x.mHostapdSecurityType = s'.value.map (·.mHostapdSecurityType) := by
        rw [← htype, hx]
        rfl
      rw [hy] at h
      exact Option.some_inj.mp h
    exact hcompatible ⟨c, hconf, by rw [← hytype, ← hxy, hcompat]⟩

theorem goesWrong_of_disabled {configuration : Option SoftApConfiguration}
    {inetIpv6Address : String}
    (hw : onReceive v.pool WIFI_AP_STATE_DISABLED configuration inetIpv6Address = w)
    (hSw : Slots w)
    (hU : ¬ Undisturbed v (.broadcast WIFI_AP_STATE_DISABLED configuration inetIpv6Address)) :
    CanGoWrong w := by
  obtain rfl := (onReceive_disabled v.pool configuration inetIpv6Address).symm.trans hw
  obtain ⟨hK, hthreads, -⟩ := cancelHostapdIpv6Job_keeps
    { v.pool with shared := { v.pool.shared with lastBroadcast := some .disabled } }
  -- nothing is valid while the hotspot is down
  have hinvalid : ∀ pub : Publication, pub.lastBroadcast = some .disabled → ¬ pub.Valid := by
    rintro pub hlast ⟨c, hc, -⟩
    cases hlast.symm.trans hc
  by_contra hright
  refine hU ⟨fun h => absurd h (by decide), fun _ k hk => ?_⟩
  obtain ⟨i, hi⟩ := List.mem_iff_getElem?.mp (hthreads ▸ hk)
  constructor
  · cases hemit : k.emitting with
    | none => rfl
    | some info =>
      exact absurd (goesWrong_of_emitting hi hemit fun pub hlast _ =>
        hinvalid pub (hlast.trans hK.lastBroadcast)) hright
  · intro hpending
    by_contra hjob
    have hsame : k.pending v.pool.shared = k.pending
        { v.pool.shared with lastBroadcast := some .disabled } := pending_of_cancelled rfl
    have hpending' := pending_cancelHostapdIpv6Job (p := { v.pool with
      shared := { v.pool.shared with lastBroadcast := some .disabled } }) (hsame ▸ hpending) hjob
    exact hright (goesWrong_of_pending hSw hi hpending' fun pub hlast _ =>
      hinvalid pub (hlast.trans hK.lastBroadcast))

/-- A step outside the condition leaves something to be published that is not
valid. -/
theorem goesWrong_of_step {l : Label} (hI : Inv v) (hS : Slots v) (h : step v l = some w)
    (hU : ¬ Undisturbed v l) : CanGoWrong w := by
  have hSw := hS.step h
  cases l with
  | broadcast hostapdState configuration inetIpv6Address =>
    rw [step] at h
    split at h
    · cases h
    have hw := Option.some_inj.mp h
    by_cases henabled : hostapdState = WIFI_AP_STATE_ENABLED
    · subst henabled
      exact goesWrong_of_enabled hI hw hSw hU
    · by_cases hdisabled : hostapdState = WIFI_AP_STATE_DISABLED
      · subst hdisabled
        exact goesWrong_of_disabled hw hSw hU
      · exact absurd ⟨fun h => absurd h henabled, fun h => absurd h hdisabled⟩ hU
  | run i r =>
    -- a request turns into a waiter with no configuration to publish
    obtain ⟨hk, hcorrect, hlast⟩ : v.pool.threads[i]? = some (.checkSecurityType true) ∧
        v.pool.shared.isHostapdSecurityTypeCorrect = true ∧ ¬ v.pool.shared.LastEnabled := by
      by_contra hnot
      refine hU fun hk hcorrect => ?_
      by_contra hlast
      exact hnot ⟨hk, hcorrect, hlast⟩
    have hi : i < v.pool.threads.length := (List.getElem?_eq_some_iff.mp hk).choose
    have hprim : prim v.pool.shared r (.checkSecurityType true)
        = some (v.pool.shared, .subscribe none, []) := by
      rw [prim, if_pos hcorrect, if_pos rfl]
    obtain rfl := Option.some_inj.mp ((step_run hk hprim).symm.trans h)
    refine goesWrong_of_pending hSw (List.getElem?_set_self hi) rfl fun pub hpub _ => ?_
    rintro ⟨c, hc, -⟩
    exact hlast ⟨c, hpub.symm.trans hc⟩
  | _ => exact absurd trivial hU

/-- **What is published is valid and current, exactly where it is undisturbed.**
All that a run publishes whose steps are all undisturbed is valid; and a run
with a step that is not can, from right after the first such step, be continued
so that it publishes something that is not. -/
theorem publications_valid (softAp : SoftAp) (ls : List Label) :
    (Run.Along step Undisturbed (initial softAp) ls →
      ∀ v, Run.Reached step (initial softAp) ls v →
        ∀ pub ∈ v.pool.shared.published, pub.Valid) ∧
    ((Run.exec step (initial softAp) ls).isSome = true →
      ¬ Run.Along step Undisturbed (initial softAp) ls →
      Run.Strays step Undisturbed (fun v => ∃ pub ∈ v.pool.shared.published, ¬ pub.Valid)
        (initial softAp) ls) := by
  have keep : ∀ v l w, Inv v ∧ Slots v → Undisturbed v l → step v l = some w →
      Inv w ∧ Slots w :=
    fun _ _ _ hI hU h => ⟨hI.1.step hU h, hI.2.step h⟩
  have hinitial : Inv (initial softAp) ∧ Slots (initial softAp) :=
    ⟨Inv.initial softAp, Slots.initial softAp⟩
  constructor
  · intro hU v hv
    exact (Run.Reached.invariant keep hinitial hU hv).1.valid
  · intro hrun hU
    exact Run.strays_of_not_along keep (fun v l w hI hnot h => goesWrong_of_step hI.1 hI.2 h hnot)
      hinitial hrun hU

/-- A WPA3 configuration. -/
private def configuration : SoftApConfiguration :=
  ⟨some "AP_0000", some "passphrase", SECURITY_TYPE_WPA3_SAE, none⟩

/-- The hotspot is enabled, a request waits too, and both get a notification; then the
hotspot is disabled. -/
private def enableThenDisable : List Label :=
  [.broadcast WIFI_AP_STATE_ENABLED (some configuration) "", .receive,
    .getCarplayCompatSoftApConfigure] ++ runs 0 1 ++ runs 1 3 ++
    [.onIpv6Ready "wlan2" "fe80::1"] ++ runs 0 5 ++ runs 1 5 ++
    [.broadcast WIFI_AP_STATE_DISABLED none ""]

/-- Both publish what was broadcast. -/
theorem publications_valid_two :
    Run.Along step Undisturbed (initial ⟨WIFI_AP_STATE_ENABLED, some configuration⟩)
        enableThenDisable ∧
      ∃ v, Run.exec step (initial ⟨WIFI_AP_STATE_ENABLED, some configuration⟩) enableThenDisable
          = some v ∧
        v.pool.shared.published.length = 2 ∧ ∀ pub ∈ v.pool.shared.published, pub.Valid := by
  have hundisturbed : Run.Along step Undisturbed
      (initial ⟨WIFI_AP_STATE_ENABLED, some configuration⟩) enableThenDisable := by
    decide +kernel
  obtain ⟨v, hv, hlength⟩ : ∃ v, Run.exec step
      (initial ⟨WIFI_AP_STATE_ENABLED, some configuration⟩) enableThenDisable = some v ∧
      v.pool.shared.published.length = 2 := ⟨_, rfl, rfl⟩
  exact ⟨hundisturbed, v, hv, hlength,
    (publications_valid _ enableThenDisable).1 hundisturbed v (Run.reached_of_exec hv)⟩

/-- The hotspot is enabled, a request waits, the hotspot is disabled, and a late
notification arrives. -/
private def requestThenDisable : List Label :=
  [.broadcast WIFI_AP_STATE_ENABLED (some configuration) "", .receive,
    .getCarplayCompatSoftApConfigure] ++ runs 1 3 ++
    [.broadcast WIFI_AP_STATE_DISABLED none "", .onIpv6Ready "wlan2" "fe80::1"] ++ runs 1 5

/-- **A disable leaves a waiter.**  The waiter of a request is not tracked, so it
publishes the configuration of a hotspot that is down. -/
theorem disable_leaves_waiter :
    ¬ ∀ (softAp : SoftAp) (ls : List Label) (v : Service),
      Run.Reached step (initial softAp) ls v → ∀ pub ∈ v.pool.shared.published, pub.Valid := by
  intro h
  obtain ⟨w, hw, hpub⟩ : ∃ w, Run.exec step
      (initial ⟨WIFI_AP_STATE_ENABLED, some configuration⟩) requestThenDisable = some w ∧
      ∃ pub ∈ w.pool.shared.published, pub.lastBroadcast = some .disabled :=
    ⟨_, rfl, _, List.mem_singleton_self _, rfl⟩
  obtain ⟨pub, hmem, hlast⟩ := hpub
  obtain ⟨c, hc, -⟩ := h _ _ w (Run.reached_of_exec hw) pub hmem
  cases hlast.symm.trans hc

end Carplay.Hostapd

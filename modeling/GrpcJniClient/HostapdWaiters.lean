/-
The coroutines that wait for an address.

Both the job of `onReceive` and a request whose check has passed wait in
`firstOrNull` on the shared flow, each on a buffer of its own.

* `step_cases` — a label is a step of a coroutine, a notification, or leaves the
  buffers and what has been emitted as they are;
* `Slots` — no two coroutines wait on one buffer, in any run;
* `exec_notify` — a notification and four more leave it the oldest value of
  every buffer;
* `step_poll`, `exec_readForAddress` — a waiter that finds it there publishes,
  whatever has become of the cache.
-/
import GrpcJniClient.HostapdService

open SharedFlow ThreadPool

namespace Carplay.Hostapd

variable {v w : Service} {s m : Shared} {k k' : Pc} {i : ℕ} {r : Result}

/-! ### Steps -/

/-- The notification that a published configuration goes back to. -/
def Emission.publishedCause (e : Emission) : Option ℕ :=
  match e.event with
  | .hostapdConfigurationChanged _ => some e.cause
  | .kernelNetLinkChanged _ _ => none

/-- What a label that is neither a step of a coroutine nor a notification leaves
as it is. -/
structure Frame (v w : Service) : Prop where
  threads : ∃ ks, w.pool.threads = v.pool.threads ++ ks ∧
    ∀ k ∈ ks, k = .checkEnable ∨ ∃ job, k = .subscribe job
  subscribers : w.pool.shared.subscribers = v.pool.shared.subscribers
  cancelled : ∀ job, v.pool.shared.isCancelled job = true → w.pool.shared.isCancelled job = true
  emitted : w.pool.shared.runtime.emitted = v.pool.shared.runtime.emitted
  published : w.pool.shared.published = v.pool.shared.published
  /-- A session is started for each published configuration that is handled. -/
  collected : ∃ es, w.pool.shared.runtime.handled = v.pool.shared.runtime.handled ++ es ∧
    w.pool.shared.sessions.map (·.cause)
      = v.pool.shared.sessions.map (·.cause) ++ es.filterMap Emission.publishedCause

theorem Frame.of_eq (hthreads : w.pool.threads = v.pool.threads)
    (hsubscribers : w.pool.shared.subscribers = v.pool.shared.subscribers)
    (hcancelled : ∀ job, v.pool.shared.isCancelled job = true →
      w.pool.shared.isCancelled job = true)
    (hemitted : w.pool.shared.runtime.emitted = v.pool.shared.runtime.emitted)
    (hpublished : w.pool.shared.published = v.pool.shared.published)
    (hhandled : w.pool.shared.runtime.handled = v.pool.shared.runtime.handled)
    (hsessions : w.pool.shared.sessions = v.pool.shared.sessions) : Frame v w where
  threads := ⟨[], by rw [hthreads, List.append_nil], by simp⟩
  subscribers := hsubscribers
  cancelled := hcancelled
  emitted := hemitted
  published := hpublished
  collected := ⟨[], by rw [hhandled, List.append_nil], by simp [hsessions]⟩

theorem cancelHostapdIpv6Job_cases (p : Coroutines) :
    cancelHostapdIpv6Job p = p ∨ ∃ job, p.shared.mHostapdIpv6Job = some job ∧
      cancelHostapdIpv6Job p = { p with shared := { p.shared with
        cancelled := job :: p.shared.cancelled, mHostapdIpv6Job := none } } := by
  rw [cancelHostapdIpv6Job]
  split
  · rename_i job hjob
    split
    · exact Or.inr ⟨job, hjob, rfl⟩
    · exact Or.inl rfl
  · exact Or.inl rfl

theorem isCancelled_cons {job : Option ℕ} (n : ℕ) (h : s.isCancelled job = true) :
    ({ s with cancelled := n :: s.cancelled, mHostapdIpv6Job := none } : Shared).isCancelled job
      = true := by
  cases job with
  | none => cases h
  | some job =>
    have hmem : job ∈ s.cancelled := List.contains_iff_mem.mp h
    exact List.contains_iff_mem.mpr (List.mem_cons_of_mem _ hmem)

theorem frame_cancel (p : Coroutines) (b b' : Bool) : Frame ⟨p, b⟩ ⟨cancelHostapdIpv6Job p, b'⟩ := by
  rcases cancelHostapdIpv6Job_cases p with h | ⟨job, -, h⟩ <;> rw [h]
  · exact Frame.of_eq rfl rfl (fun _ h => h) rfl rfl rfl rfl
  · exact Frame.of_eq rfl rfl (fun _ h => isCancelled_cons job h) rfl rfl rfl rfl

theorem frame_onReceive (v : Service) (hostapdState : ℤ)
    (configuration : Option SoftApConfiguration) (inetIpv6Address : String) :
    Frame v (onReceive v.pool hostapdState configuration inetIpv6Address) := by
  rw [onReceive]
  split
  · cases configuration with
    | none => exact Frame.of_eq rfl rfl (fun _ h => h) rfl rfl rfl rfl
    | some c =>
      simp only [Shared.setValue]
      split <;> exact Frame.of_eq rfl rfl (fun _ h => h) rfl rfl rfl rfl
  · split
    · have hcancel := frame_cancel { v.pool with
        shared := { v.pool.shared with lastBroadcast := some .disabled } } false false
      exact ⟨hcancel.threads, hcancel.subscribers, hcancel.cancelled, hcancel.emitted,
        hcancel.published, hcancel.collected⟩
    · exact Frame.of_eq rfl rfl (fun _ h => h) rfl rfl rfl rfl

theorem frame_launch (v : Service) : Frame v ⟨launchHostapdIpv6Job v.pool, false⟩ := by
  rw [launchHostapdIpv6Job]
  split
  · have hcancel := frame_cancel v.pool false false
    obtain ⟨ks, hks, hkind⟩ := hcancel.threads
    refine ⟨⟨ks ++ [.subscribe (some (cancelHostapdIpv6Job v.pool).threads.length)], ?_, ?_⟩,
      hcancel.subscribers, hcancel.cancelled, hcancel.emitted, hcancel.published,
      hcancel.collected⟩
    · rw [← List.append_assoc]
      exact congrArg (· ++ _) hks
    · intro k hk
      rcases List.mem_append.mp hk with hk | hk
      · exact hkind k hk
      · exact Or.inr ⟨_, List.mem_singleton.mp hk⟩
  · exact Frame.of_eq rfl rfl (fun _ h => h) rfl rfl rfl rfl

/-- What a step of the service is. -/
theorem step_cases {l : Label} (h : step v l = some w) :
    (∃ i r p, l = .run i r ∧ v.pool.move prim i r = some p ∧ w = { v with pool := p }) ∨
    (∃ inetName ipv6Address, l = .onIpv6Ready inetName ipv6Address ∧
      w = v.setShared (v.pool.shared.tryEmit ⟨.kernelNetLinkChanged inetName ipv6Address,
        v.pool.shared.runtime.emitted.length⟩)) ∨
    Frame v w := by
  cases l with
  | broadcast hostapdState configuration inetIpv6Address =>
    rw [step] at h
    split at h <;> cases h
    exact Or.inr (Or.inr (frame_onReceive v hostapdState configuration inetIpv6Address))
  | receive =>
    rw [step] at h
    split at h <;> cases h
    exact Or.inr (Or.inr (frame_launch v))
  | getCarplayCompatSoftApConfigure =>
    cases h
    exact Or.inr (Or.inr ⟨⟨[.checkEnable], rfl, by simp⟩, rfl, fun _ h => h, rfl, rfl,
      ⟨[], (List.append_nil _).symm, (List.append_nil _).symm⟩⟩)
  | onIpv6Ready inetName ipv6Address =>
    cases h
    exact Or.inr (Or.inl ⟨inetName, ipv6Address, rfl, rfl⟩)
  | softApChanges softAp =>
    cases h
    exact Or.inr (Or.inr (Frame.of_eq rfl rfl (fun _ h => h) rfl rfl rfl rfl))
  | run i r =>
    obtain ⟨p, hp, rfl⟩ := Option.map_eq_some_iff.mp h
    exact Or.inl ⟨i, r, p, rfl, hp, rfl⟩
  | collectTake =>
    obtain ⟨c, hc, rfl⟩ := Option.map_eq_some_iff.mp h
    obtain ⟨_, -, -, -, hhandled, hemitted⟩ := Collector.of_take hc
    exact Or.inr (Or.inr (Frame.of_eq rfl rfl (fun _ h => h) hemitted rfl hhandled rfl))
  | collectHandle =>
    obtain ⟨⟨e, c⟩, hc, rfl⟩ := Option.map_eq_some_iff.mp h
    obtain ⟨-, -, -, hhandled, hemitted⟩ := Collector.of_handle hc
    refine Or.inr (Or.inr ⟨⟨[], (List.append_nil _).symm, by simp⟩, rfl, fun _ h => h, hemitted,
      rfl, ⟨[e], hhandled, ?_⟩⟩)
    obtain ⟨event, cause⟩ := e
    cases event <;> simp [Service.setShared, collectNetEvent, Emission.publishedCause]

/-- The coroutine is a waiter. -/
def Pc.waits : Pc → Bool
  | .subscribe _ | .await _ _ | .readForAddress _ _ | .writeAddress _ _ _ | .readForEvent _ _
  | .emit _ _ _ => true
  | _ => false

/-- What a step of a coroutine is, as a waiter sees it. -/
inductive PrimStep (s : Shared) : Pc → Shared → Pc → Prop
  /-- A request that checks and calls, or a waiter that has been cancelled. -/
  | idle (k k' : Pc) (softAp : SoftAp) (calls : List PlatformCall)
      (hk : k.waits = false ∨ ∃ job, s.isCancelled job = true ∧
        (k = .subscribe job ∨ ∃ slot, k = .await job slot)) (hk' : k'.waits = false) :
      PrimStep s k { s with softAp := softAp, platformCalls := calls } k'
  /-- A request turns into a waiter. -/
  | wait (hcorrect : s.isHostapdSecurityTypeCorrect = true) :
      PrimStep s (.checkSecurityType true) s (.subscribe none)
  | subscribe (job : Option ℕ) (hjob : s.isCancelled job = false) :
      PrimStep s (.subscribe job) { s with subscribers := s.subscribers ++ [.empty] }
        (.await job s.subscribers.length)
  /-- A value for another collector. -/
  | skip (job : Option ℕ) (slot : ℕ) (b b' : Buffer 5 Emission) (e : Emission)
      (hjob : s.isCancelled job = false) (hb : s.subscribers[slot]? = some b)
      (hitems : b.items = e :: b'.items) (he : e.wlan2Address = none) :
      PrimStep s (.await job slot) { s with subscribers := s.subscribers.set slot b' }
        (.await job slot)
  | take (job : Option ℕ) (slot : ℕ) (b b' : Buffer 5 Emission) (e : Emission) (address : String)
      (hjob : s.isCancelled job = false) (hb : s.subscribers[slot]? = some b)
      (hitems : b.items = e :: b'.items) (he : e.wlan2Address = some address) :
      PrimStep s (.await job slot) { s with subscribers := s.subscribers.set slot b' }
        (.readForAddress e.cause address)
  | readForAddress (cause : ℕ) (address : String) :
      PrimStep s (.readForAddress cause address) s
        (.writeAddress cause address s.mSoftApConfigurationStateFlow)
  | writeAddress (cause : ℕ) (address : String) (info : Option ℕ) :
      PrimStep s (.writeAddress cause address info) (s.setAddress info address)
        (.readForEvent cause address)
  | readForEvent (cause : ℕ) (address : String) :
      PrimStep s (.readForEvent cause address) s
        (.emit cause address s.mSoftApConfigurationStateFlow)
  | emit (cause : ℕ) (address : String) (info : Option ℕ) :
      PrimStep s (.emit cause address info)
        { s.tryEmit ⟨.hostapdConfigurationChanged info, cause⟩ with
          published := s.published ++
            [⟨cause, address, info.bind (s.infos[·]?), s.lastBroadcast⟩] } .done

/-- Every step of a coroutine is one of these, and forks no other. -/
theorem primStep_of_prim {forks : List Pc} (h : prim s r k = some (m, k', forks)) :
    forks = [] ∧ PrimStep s k m k' := by
  have hidle : k.waits = false → k'.waits = false →
      PrimStep s k { s with softAp := s.softAp, platformCalls := s.platformCalls } k' :=
    fun hk hk' => .idle k k' _ _ (Or.inl hk) hk'
  cases k with
  | checkEnable =>
    cases h
    exact ⟨rfl, hidle rfl rfl⟩
  | checkSecurityType enabled =>
    cases h
    refine ⟨rfl, ?_⟩
    cases hcorrect : s.isHostapdSecurityTypeCorrect with
    | false =>
      rw [hcorrect] at hidle
      exact hidle rfl rfl
    | true =>
      cases enabled with
      | false =>
        rw [hcorrect] at hidle
        exact hidle rfl rfl
      | true => exact .wait hcorrect
  | setSoftApConfig enabled =>
    cases h
    refine ⟨rfl, .idle _ _ _ _ (Or.inl rfl) ?_⟩
    cases enabled <;> rfl
  | stopHotspot =>
    rw [prim] at h
    split at h <;> cases h
    exact ⟨rfl, .idle _ _ _ _ (Or.inl rfl) rfl⟩
  | startHotspot =>
    cases h
    exact ⟨rfl, .idle _ _ _ _ (Or.inl rfl) rfl⟩
  | subscribe job =>
    rw [prim] at h
    split at h <;> cases h
    · rename_i hjob
      exact ⟨rfl, .idle _ _ s.softAp s.platformCalls (Or.inr ⟨job, hjob, Or.inl rfl⟩) rfl⟩
    · rename_i hjob
      exact ⟨rfl, .subscribe job (Bool.eq_false_iff.mpr hjob)⟩
  | await job slot =>
    rw [prim] at h
    split at h
    · rename_i hjob
      cases h
      exact ⟨rfl, .idle _ _ s.softAp s.platformCalls (Or.inr ⟨job, hjob, Or.inr ⟨slot, rfl⟩⟩) rfl⟩
    · rename_i hjob
      obtain ⟨⟨e, b'⟩, hpoll, heq⟩ := Option.map_eq_some_iff.mp h
      obtain ⟨b, hb, hpoll⟩ := Option.bind_eq_some_iff.mp hpoll
      have hitems := Buffer.poll_eq_some.mp hpoll
      have hjob := Bool.eq_false_iff.mpr hjob
      cases heq
      refine ⟨rfl, ?_⟩
      cases he : e.wlan2Address with
      | none => exact .skip job slot b b' e hjob hb hitems he
      | some address => exact .take job slot b b' e address hjob hb hitems he
  | readForAddress cause address =>
    cases h
    exact ⟨rfl, .readForAddress cause address⟩
  | writeAddress cause address info =>
    cases h
    exact ⟨rfl, .writeAddress cause address info⟩
  | readForEvent cause address =>
    cases h
    exact ⟨rfl, .readForEvent cause address⟩
  | emit cause address info =>
    cases h
    exact ⟨rfl, .emit cause address info⟩
  | done => cases h

theorem of_run {p : Coroutines} (h : v.pool.move prim i r = some p) : ∃ k m k',
    v.pool.threads[i]? = some k ∧ PrimStep v.pool.shared k m k' ∧
      p = ⟨m, v.pool.threads.set i k' ++ []⟩ := by
  obtain ⟨k, m, k', forks, hk, hprim, rfl⟩ := Pool.of_move h
  obtain ⟨rfl, hstep⟩ := primStep_of_prim hprim
  exact ⟨k, m, k', hk, hstep, rfl⟩

/-- What a step of a coroutine leaves as it is. -/
structure PrimFrame (s m : Shared) : Prop where
  lastBroadcast : m.lastBroadcast = s.lastBroadcast
  cancelled : m.cancelled = s.cancelled
  mHostapdIpv6Job : m.mHostapdIpv6Job = s.mHostapdIpv6Job
  flow : m.mSoftApConfigurationStateFlow = s.mSoftApConfigurationStateFlow

theorem PrimStep.frame (h : PrimStep s k m k') : PrimFrame s m := by
  cases h with
  | writeAddress cause address info => cases info <;> exact ⟨rfl, rfl, rfl, rfl⟩
  | _ => exact ⟨rfl, rfl, rfl, rfl⟩

/-- The content of an object. -/
def Shared.info (s : Shared) (info : Option ℕ) : Option HostapdInfo := info.bind (s.infos[·]?)

/-- Storing an address changes one object's address. -/
theorem info_setAddress (s : Shared) (info n : Option ℕ) (address : String) :
    (s.setAddress info address).info n = (s.info n).map fun i =>
      if info = n then { i with mHostapdIPAddressV6 := some address } else i := by
  cases info with
  | none =>
    cases n with
    | none => rfl
    | some n => simp [Shared.setAddress]
  | some m =>
    cases n with
    | none => rfl
    | some n =>
      show (s.infos.modify m _)[n]? = _
      rw [List.getElem?_modify]
      simp only [Shared.info, Option.bind_some, Option.some_inj]
      rfl

/-! ### Slots -/

/-- The buffer that a coroutine waits on. -/
def Pc.slot : Pc → Option ℕ
  | .await _ slot => some slot
  | _ => none

/-- Every waiter has a buffer, and no two have the same. -/
structure Slots (v : Service) : Prop where
  lt : ∀ k ∈ v.pool.threads, ∀ slot, k.slot = some slot →
    slot < v.pool.shared.subscribers.length
  distinct : ∀ (i j : ℕ) (k k' : Pc) (slot : ℕ), v.pool.threads[i]? = some k →
    v.pool.threads[j]? = some k' → k.slot = some slot → k'.slot = some slot → i = j

theorem Slots.initial (softAp : SoftAp) : Slots (initial softAp) where
  lt := fun _ h => absurd h List.not_mem_nil
  distinct := fun i _ _ _ _ h => by cases i <;> cases h

theorem slot_of_waits (h : k.waits = false) : k.slot = none := by
  cases k with
  | await job slot => cases h
  | _ => rfl

/-- A coroutine keeps its buffer or takes a new one. -/
theorem PrimStep.slot (h : PrimStep s k m k') :
    s.subscribers.length ≤ m.subscribers.length ∧ ∀ slot, k'.slot = some slot →
      k.slot = some slot ∨ (slot = s.subscribers.length ∧ slot < m.subscribers.length) := by
  cases h with
  | idle k k' softAp calls hk hk' =>
    refine ⟨Nat.le_refl _, fun slot h => ?_⟩
    rw [slot_of_waits hk'] at h
    cases h
  | subscribe job hjob =>
    have hlength : (s.subscribers ++ [(.empty : Buffer 5 Emission)]).length
        = s.subscribers.length + 1 := by
      rw [List.length_append, List.length_singleton]
    refine ⟨by simp [hlength], fun slot h => ?_⟩
    obtain rfl := Option.some_inj.mp h
    exact Or.inr ⟨rfl, by simp [hlength]⟩
  | skip job slot b b' e hjob hb hitems he => exact ⟨by simp, fun _ h => Or.inl h⟩
  | take job slot b b' e address hjob hb hitems he => exact ⟨by simp, fun _ h => by cases h⟩
  | writeAddress cause address info =>
    refine ⟨?_, fun slot h => by cases h⟩
    cases info <;> exact Nat.le_refl _
  | emit cause address info => exact ⟨by simp [Shared.tryEmit], fun slot h => by cases h⟩
  | _ => exact ⟨Nat.le_refl _, fun slot h => by cases h⟩

theorem Slots.run {p : Coroutines} (hS : Slots v) (h : v.pool.move prim i r = some p) :
    Slots { v with pool := p } := by
  obtain ⟨k, m, k', hk, hstep, rfl⟩ := of_run h
  obtain ⟨hle, hslot⟩ := hstep.slot
  -- a buffer that the coroutine did not have before is above those of the others
  have hother : ∀ j x slot, j ≠ i → v.pool.threads[j]? = some x → x.slot = some slot →
      k'.slot = some slot → False := by
    intro j x slot hj hx hxs hk's
    rcases hslot slot hk's with hks | ⟨rfl, -⟩
    · exact hj (hS.distinct j i x k slot hx hk hxs hks)
    · exact Nat.lt_irrefl _ (hS.lt x (List.mem_of_getElem? hx) _ hxs)
  constructor
  · intro x hx slot hxs
    rcases Pool.mem_move hx with rfl | hx | hx
    · rcases hslot slot hxs with hks | ⟨-, hlt⟩
      · exact Nat.lt_of_lt_of_le (hS.lt k (List.mem_of_getElem? hk) slot hks) hle
      · exact hlt
    · exact Nat.lt_of_lt_of_le (hS.lt x hx slot hxs) hle
    · exact absurd hx List.not_mem_nil
  · intro j j' x x' slot hx hx' hxs hxs'
    rcases Pool.getElem?_move hx with ⟨rfl, rfl⟩ | ⟨hj, hx⟩ | hx
    · rcases Pool.getElem?_move hx' with ⟨rfl, rfl⟩ | ⟨hj', hx'⟩ | hx'
      · rfl
      · exact (hother j' x' slot hj' hx' hxs' hxs).elim
      · exact absurd hx' List.not_mem_nil
    · rcases Pool.getElem?_move hx' with ⟨rfl, rfl⟩ | ⟨-, hx'⟩ | hx'
      · exact (hother j x slot hj ‹v.pool.threads[j]? = some x› hxs hxs').elim
      · exact hS.distinct j j' x x' slot hx hx' hxs hxs'
      · exact absurd hx' List.not_mem_nil
    · exact absurd hx List.not_mem_nil

theorem Slots.step {l : Label} (hS : Slots v) (h : step v l = some w) : Slots w := by
  rcases step_cases h with ⟨i, r, p, rfl, hp, rfl⟩ | ⟨inetName, ipv6Address, -, rfl⟩ | hF
  · exact hS.run hp
  · constructor
    · intro k hk slot hslot
      have hlt := hS.lt k hk slot hslot
      simpa [Service.setShared, Shared.tryEmit] using hlt
    · exact hS.distinct
  · obtain ⟨ks, hks, hkind⟩ := hF.threads
    -- a new coroutine does not wait yet
    have hidle : ∀ k ∈ ks, k.slot = none := by
      intro k hk
      rcases hkind k hk with rfl | ⟨job, rfl⟩ <;> rfl
    have hold : ∀ (i : ℕ) (k : Pc) slot, w.pool.threads[i]? = some k → k.slot = some slot →
        v.pool.threads[i]? = some k := by
      intro i k slot hk hslot
      rw [hks, List.getElem?_append] at hk
      split at hk
      · exact hk
      · rw [hidle k (List.mem_of_getElem? hk)] at hslot
        cases hslot
    constructor
    · intro k hk slot hslot
      obtain ⟨i, hi⟩ := List.mem_iff_getElem?.mp hk
      rw [hF.subscribers]
      exact hS.lt k (List.mem_of_getElem? (hold i k slot hi hslot)) slot hslot
    · intro i j k k' slot hk hk' hslot hslot'
      exact hS.distinct i j k k' slot (hold i k slot hk hslot) (hold j k' slot hk' hslot') hslot
        hslot'

/-! ### Publishing -/

/-- Every call succeeds. -/
def succeeds : Result := ⟨true, "", ""⟩

/-- `n` steps of the coroutine `i`. -/
def runs (i n : ℕ) : List Label := List.replicate n (.run i succeeds)

theorem exec_runs_succ (v : Service) (i n : ℕ) : Run.exec step v (runs i (n + 1))
    = (step v (.run i succeeds)).bind fun w => Run.exec step w (runs i n) := rfl

/-- Notifications for another interface. -/
def fill : List Label := List.replicate 4 (.onIpv6Ready "" "")

/-- Emissions change the buffers and what the runtime has to take. -/
theorem foldl_tryEmit (s : Shared) (es : List Emission) : ∃ runtime,
    es.foldl Shared.tryEmit s = { s with
      subscribers := s.subscribers.map fun b => es.foldl Buffer.offer b
      runtime := runtime } := by
  induction es generalizing s with
  | nil =>
    refine ⟨s.runtime, ?_⟩
    simp only [List.foldl_nil, List.map_id']
  | cons e es ih =>
    obtain ⟨runtime, h⟩ := ih (s.tryEmit e)
    refine ⟨runtime, ?_⟩
    rw [List.foldl_cons, h]
    simp only [Shared.tryEmit, List.map_map, List.foldl_cons]
    rfl

/-- **A buffer holds five.**  A notification and four more leave it the oldest
value of every buffer. -/
theorem exec_notify (v : Service) (address : String) :
    ∃ s', Run.exec Hostapd.step v (.onIpv6Ready "wlan2" address :: fill) = some (v.setShared s') ∧
      s'.infos = v.pool.shared.infos ∧
      s'.mSoftApConfigurationStateFlow = v.pool.shared.mSoftApConfigurationStateFlow ∧
      s'.cancelled = v.pool.shared.cancelled ∧
      s'.lastBroadcast = v.pool.shared.lastBroadcast ∧
      s'.published = v.pool.shared.published ∧
      ∀ slot < v.pool.shared.subscribers.length, ∃ b, s'.subscribers[slot]? = some b ∧
        b.items.head? = some ⟨.kernelNetLinkChanged "wlan2" address,
          v.pool.shared.runtime.emitted.length⟩ := by
  obtain ⟨es, hlength, hexec⟩ : ∃ es : List Emission, es.length = 4 ∧
      Run.exec Hostapd.step v (.onIpv6Ready "wlan2" address :: fill) =
        some (v.setShared ((⟨.kernelNetLinkChanged "wlan2" address,
          v.pool.shared.runtime.emitted.length⟩ :: es).foldl Shared.tryEmit v.pool.shared)) :=
    ⟨[_, _, _, _], rfl, rfl⟩
  generalize (⟨.kernelNetLinkChanged "wlan2" address, v.pool.shared.runtime.emitted.length⟩ :
    Emission) = e at hexec ⊢
  obtain ⟨runtime, hs'⟩ := foldl_tryEmit v.pool.shared (e :: es)
  rw [hs'] at hexec
  refine ⟨_, hexec, rfl, rfl, rfl, rfl, rfl, fun slot hslot => ?_⟩
  obtain ⟨b, hb⟩ : ∃ b, v.pool.shared.subscribers[slot]? = some b :=
    ⟨_, List.getElem?_eq_getElem hslot⟩
  refine ⟨(e :: es).foldl Buffer.offer b, ?_, ?_⟩
  · rw [List.getElem?_map, hb, Option.map_some]
  · have hlength : (e :: es).length = 5 := congrArg (· + 1) hlength
    rw [Buffer.items_foldl_offer_of_length _ hlength, List.head?_cons]

/-- A step of a coroutine that forks none. -/
theorem step_run (hk : v.pool.threads[i]? = some k)
    (hprim : prim v.pool.shared r k = some (m, k', [])) :
    step v (.run i r) = some { v with pool := ⟨m, v.pool.threads.set i k'⟩ } := by
  rw [step, Pool.move_eq hk hprim, List.append_nil]
  rfl

/-- A waiter takes a notification for the hotspot. -/
theorem step_poll {job : Option ℕ} {slot : ℕ} {b : Buffer 5 Emission} {e : Emission}
    {address : String} (hk : v.pool.threads[i]? = some (.await job slot))
    (hjob : v.pool.shared.isCancelled job = false)
    (hb : v.pool.shared.subscribers[slot]? = some b) (he : b.items.head? = some e)
    (haddress : e.wlan2Address = some address) : ∃ b', Hostapd.step v (.run i r) = some { v with
      pool := ⟨{ v.pool.shared with subscribers := v.pool.shared.subscribers.set slot b' },
        v.pool.threads.set i (.readForAddress e.cause address)⟩ } := by
  obtain ⟨b', hpoll⟩ : ∃ b', b.poll = some (e, b') := by
    rcases b with ⟨_ | ⟨x, xs⟩, hb⟩
    · cases he
    · cases he
      exact ⟨_, rfl⟩
  refine ⟨b', step_run hk ?_⟩
  simp [prim, hjob, hb, hpoll, haddress]

/-- What a coroutine publishes is there after its step. -/
theorem exec_emit {cause : ℕ} {address : String} {info : Option ℕ}
    (hk : v.pool.threads[i]? = some (.emit cause address info)) :
    ∃ w, Run.exec step v (runs i 1) = some w ∧
      w.pool.threads = v.pool.threads.set i .done ∧
      w.pool.shared.published = v.pool.shared.published ++
        [⟨cause, address, info.bind (v.pool.shared.infos[·]?), v.pool.shared.lastBroadcast⟩] := by
  rw [exec_runs_succ, step_run hk rfl]
  exact ⟨_, rfl, rfl, rfl⟩

theorem exec_readForEvent {cause : ℕ} {address : String}
    (hk : v.pool.threads[i]? = some (.readForEvent cause address)) :
    ∃ w, Run.exec step v (runs i 2) = some w ∧
      w.pool.threads = v.pool.threads.set i .done ∧
      w.pool.shared.published = v.pool.shared.published ++
        [⟨cause, address, v.pool.shared.value, v.pool.shared.lastBroadcast⟩] := by
  have hi : i < v.pool.threads.length := (List.getElem?_eq_some_iff.mp hk).choose
  rw [exec_runs_succ, step_run hk rfl, Option.bind_some]
  have hemit := exec_emit (v := { v with pool := ⟨v.pool.shared, v.pool.threads.set i
    (.emit cause address v.pool.shared.mSoftApConfigurationStateFlow)⟩ })
    (List.getElem?_set_self hi)
  rwa [List.set_set] at hemit

theorem exec_writeAddress {cause : ℕ} {address : String} {info : Option ℕ}
    (hk : v.pool.threads[i]? = some (.writeAddress cause address info)) :
    ∃ w, Run.exec step v (runs i 3) = some w ∧
      w.pool.threads = v.pool.threads.set i .done ∧
      w.pool.shared.published = v.pool.shared.published ++
        [⟨cause, address, (v.pool.shared.setAddress info address).value,
          v.pool.shared.lastBroadcast⟩] := by
  have hi : i < v.pool.threads.length := (List.getElem?_eq_some_iff.mp hk).choose
  rw [exec_runs_succ, step_run hk rfl, Option.bind_some]
  have hread := exec_readForEvent (v := { v with pool :=
    ⟨v.pool.shared.setAddress info address, v.pool.threads.set i (.readForEvent cause address)⟩ })
    (List.getElem?_set_self hi)
  rw [List.set_set] at hread
  cases info <;> exact hread

/-- A waiter that has its address publishes. -/
theorem exec_readForAddress {cause : ℕ} {address : String}
    (hk : v.pool.threads[i]? = some (.readForAddress cause address)) :
    ∃ w, Run.exec step v (runs i 4) = some w ∧
      w.pool.threads = v.pool.threads.set i .done ∧
      w.pool.shared.published = v.pool.shared.published ++
        [⟨cause, address, (v.pool.shared.setAddress v.pool.shared.mSoftApConfigurationStateFlow
          address).value, v.pool.shared.lastBroadcast⟩] := by
  have hi : i < v.pool.threads.length := (List.getElem?_eq_some_iff.mp hk).choose
  rw [exec_runs_succ, step_run hk rfl, Option.bind_some]
  have hwrite := exec_writeAddress (v := { v with pool := ⟨v.pool.shared, v.pool.threads.set i
    (.writeAddress cause address v.pool.shared.mSoftApConfigurationStateFlow)⟩ })
    (List.getElem?_set_self hi)
  rwa [List.set_set] at hwrite

/-- A waiter that finds a notification publishes. -/
theorem exec_await {job : Option ℕ} {slot : ℕ} {b : Buffer 5 Emission} {e : Emission}
    {address : String} (hk : v.pool.threads[i]? = some (.await job slot))
    (hjob : v.pool.shared.isCancelled job = false)
    (hb : v.pool.shared.subscribers[slot]? = some b) (he : b.items.head? = some e)
    (haddress : e.wlan2Address = some address) :
    ∃ w, Run.exec step v (runs i 5) = some w ∧
      w.pool.threads = v.pool.threads.set i .done ∧
      w.pool.shared.published = v.pool.shared.published ++
        [⟨e.cause, address, (v.pool.shared.setAddress v.pool.shared.mSoftApConfigurationStateFlow
          address).value, v.pool.shared.lastBroadcast⟩] := by
  have hi : i < v.pool.threads.length := (List.getElem?_eq_some_iff.mp hk).choose
  obtain ⟨b', hpoll⟩ := step_poll (r := succeeds) hk hjob hb he haddress
  rw [exec_runs_succ, hpoll, Option.bind_some]
  have hread := exec_readForAddress (v := { v with
    pool := ⟨{ v.pool.shared with subscribers := v.pool.shared.subscribers.set slot b' },
      v.pool.threads.set i (.readForAddress e.cause address)⟩ })
    (List.getElem?_set_self hi)
  rw [List.set_set] at hread
  -- the buffers are not read any more
  have hvalue : ∀ info, (Shared.setAddress { v.pool.shared with
      subscribers := v.pool.shared.subscribers.set slot b' } info address).value
        = (v.pool.shared.setAddress info address).value := by
    intro info
    cases info <;> rfl
  rwa [hvalue] at hread

end Carplay.Hostapd

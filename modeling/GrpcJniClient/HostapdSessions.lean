/-
What one notification starts.

Requests and the job of `onReceive` do not know of each other, so that several
coroutines may be waiting when a notification comes.

* `Alone` — at a notification for the hotspot, at most one is;
* `tally` — how often a notification has been published or may still be;
* `Once` — at most once, and never before it has come;
* `Once.step` — every label keeps it that is taken alone;
* `notification_starts_one` — so such runs start at most one session for each;
* `two_requests_publish_twice` — two requests make two out of one.
-/
import GrpcJniClient.HostapdWaiters

open SharedFlow ThreadPool

namespace Carplay.Hostapd

variable {v w : Service} {s s' : Shared} {k k' : Pc} {r : Result}

/-- The coroutine is subscribed and not cancelled. -/
def Pc.listening (s : Shared) : Pc → Bool
  | .await job _ => !s.isCancelled job
  | _ => false

/-- At a notification for the hotspot at most one coroutine is listening. -/
def Alone (v : Service) : Label → Prop
  | .onIpv6Ready inetName _ =>
      inetName = "wlan2" → v.pool.threads.countP (Pc.listening v.pool.shared) ≤ 1
  | _ => True

instance (v : Service) : ∀ l, Decidable (Alone v l)
  | .onIpv6Ready inetName _ => inferInstanceAs (Decidable (inetName = "wlan2" →
      v.pool.threads.countP (Pc.listening v.pool.shared) ≤ 1))
  | .broadcast .. | .receive | .getCarplayCompatSoftApConfigure | .softApChanges _ | .run ..
  | .collectTake | .collectHandle => isTrue trivial

/-! ### The tally of a notification -/

/-- The value is the hotspot's notification with the number `n`. -/
def Emission.notifies (n : ℕ) (e : Emission) : Bool := e.wlan2Address.isSome && e.cause == n

/-- The buffer holds the notification. -/
def Shared.queues (s : Shared) (n slot : ℕ) : Bool :=
  (s.subscribers[slot]?).any (·.items.any (Emission.notifies n))

/-- The coroutine has taken the notification, or may still take it. -/
def Pc.holds (s : Shared) (n : ℕ) : Pc → Bool
  | .await job slot => !s.isCancelled job && s.queues n slot
  | .readForAddress cause _ | .writeAddress cause _ _ | .readForEvent cause _
  | .emit cause _ _ => cause == n
  | _ => false

/-- How often the notification has been published. -/
def Shared.publications (s : Shared) (n : ℕ) : ℕ := s.published.countP (·.cause == n)

/-- How often the notification has been published or may still be. -/
def tally (v : Service) (n : ℕ) : ℕ :=
  v.pool.threads.countP (Pc.holds v.pool.shared n) + v.pool.shared.publications n

/-- At most once each, and never before it has come. -/
def Once (v : Service) : Prop :=
  ∀ n, tally v n ≤ if n < v.pool.shared.runtime.emitted.length then 1 else 0

theorem Once.initial (softAp : SoftAp) : Once (initial softAp) := fun _ => Nat.zero_le _

theorem queues_iff {n slot : ℕ} : s.queues n slot = true ↔
    ∃ b e, s.subscribers[slot]? = some b ∧ e ∈ b.items ∧ e.notifies n = true := by
  rw [Shared.queues, Option.any_eq_true]
  simp only [List.any_eq_true]
  constructor
  · rintro ⟨b, hb, e, he, hn⟩
    exact ⟨b, e, hb, he, hn⟩
  · rintro ⟨b, e, hb, he, hn⟩
    exact ⟨b, hb, e, he, hn⟩

/-- Where nothing is cancelled less and no buffer has more, no coroutine holds
more. -/
theorem holds_mono {n : ℕ} (h : k.holds s' n = true)
    (hcancelled : ∀ job, s.isCancelled job = true → s'.isCancelled job = true)
    (hqueues : ∀ slot, s'.queues n slot = true → s.queues n slot = true) :
    k.holds s n = true := by
  cases k with
  | await job slot =>
    rw [Pc.holds, Bool.and_eq_true] at h
    rw [Pc.holds, Bool.and_eq_true]
    refine ⟨?_, hqueues slot h.2⟩
    cases hc : s.isCancelled job with
    | false => rfl
    | true =>
      have hjob := h.1
      rw [hcancelled job hc] at hjob
      cases hjob
  | _ => exact h

/-- An emission that is not the notification reaches nobody with it. -/
theorem queues_tryEmit {n slot : ℕ} {e : Emission} (he : e.notifies n = false)
    (h : (s.tryEmit e).queues n slot = true) : s.queues n slot = true := by
  obtain ⟨b', x, hb', hx, hn⟩ := queues_iff.mp h
  rw [Shared.tryEmit, List.getElem?_map] at hb'
  obtain ⟨b, hb, rfl⟩ := Option.map_eq_some_iff.mp hb'
  rcases List.mem_append.mp ((b.offer_suffix e).subset hx) with hx | hx
  · exact queues_iff.mpr ⟨b, x, hb, hx, hn⟩
  · rw [List.mem_singleton.mp hx, he] at hn
    cases hn

theorem countP_le_of_imp {p q : Bool} (h : p = true → q = true) :
    (if p then 1 else 0) ≤ if q then 1 else 0 := by
  cases p with
  | false => exact Nat.zero_le _
  | true => rw [h rfl]

theorem holds_of_waits {n : ℕ} (h : k.waits = false) : k.holds s n = false := by
  cases k with
  | _ => first | rfl | cases h

theorem queues_append {n slot : ℕ} : ({ s with subscribers := s.subscribers ++ [.empty] } :
    Shared).queues n slot = s.queues n slot := by
  rw [Shared.queues, Shared.queues, List.getElem?_append]
  split
  · rfl
  · rename_i hlt
    -- the new buffer is empty, and before there was none
    rw [List.getElem?_eq_none (Nat.le_of_not_lt hlt), List.getElem?_singleton]
    split <;> rfl

theorem queues_set {n slot slot' : ℕ} {b b' : Buffer 5 Emission} {e : Emission}
    (hb : s.subscribers[slot]? = some b) (hitems : b.items = e :: b'.items)
    (h : ({ s with subscribers := s.subscribers.set slot b' } : Shared).queues n slot' = true) :
    s.queues n slot' = true := by
  obtain ⟨b₀, x, hb₀, hx, hn⟩ := queues_iff.mp h
  rw [List.getElem?_set] at hb₀
  split at hb₀
  · rename_i heq
    subst heq
    split at hb₀
    · obtain rfl := Option.some_inj.mp hb₀
      exact queues_iff.mpr ⟨b, x, hb, hitems ▸ List.mem_cons_of_mem e hx, hn⟩
    · cases hb₀
  · exact queues_iff.mpr ⟨b₀, x, hb₀, hx, hn⟩

/-- A step of a coroutine leaves no more for anybody to hold. -/
theorem PrimStep.holds (h : PrimStep s k s' k') (x : Pc) (n : ℕ) (hx : x.holds s' n = true) :
    x.holds s n = true := by
  cases h with
  | idle k k' softAp calls hk hk' => exact holds_mono hx (fun _ h => h) fun _ h => h
  | subscribe job hjob => exact holds_mono hx (fun _ h => h) fun slot h => queues_append ▸ h
  | skip job slot b b' e hjob hb hitems he =>
    exact holds_mono hx (fun _ h => h) fun slot' h => queues_set hb hitems h
  | take job slot b b' e address hjob hb hitems he =>
    exact holds_mono hx (fun _ h => h) fun slot' h => queues_set hb hitems h
  | writeAddress cause address info =>
    cases info <;> exact holds_mono hx (fun _ h => h) fun _ h => h
  | emit cause address info =>
    exact holds_mono hx (fun _ h => h) fun slot h => queues_tryEmit rfl h
  | _ => exact hx

/-- What a coroutine publishes it held before, and so what it holds. -/
theorem PrimStep.tally (h : PrimStep s k s' k') (n : ℕ) :
    (if k'.holds s' n then 1 else 0) + s'.publications n
      ≤ (if k.holds s n then 1 else 0) + s.publications n := by
  have hle : (k'.holds s' n = true → k.holds s n = true) → s'.publications n = s.publications n →
      (if k'.holds s' n then 1 else 0) + s'.publications n
        ≤ (if k.holds s n then 1 else 0) + s.publications n := by
    intro himp hpublications
    rw [hpublications]
    exact Nat.add_le_add_right (countP_le_of_imp himp) _
  cases h with
  | idle k k' softAp calls hk hk' =>
    refine hle (fun h => ?_) rfl
    rw [holds_of_waits hk'] at h
    cases h
  | wait hcorrect => exact hle (fun h => by cases h) rfl
  | subscribe job hjob =>
    refine hle (fun h => ?_) rfl
    rw [Pc.holds, Bool.and_eq_true, queues_append, Shared.queues,
      List.getElem?_eq_none (Nat.le_refl _)] at h
    cases h.2
  | skip job slot b b' e hjob hb hitems he =>
    exact hle (fun h => holds_mono h (fun _ h => h) fun slot' h => queues_set hb hitems h) rfl
  | take job slot b b' e address hjob hb hitems he =>
    refine hle (fun h => ?_) rfl
    rw [Pc.holds, Bool.and_eq_true, hjob]
    refine ⟨rfl, queues_iff.mpr ⟨b, e, hb, hitems ▸ List.mem_cons_self, ?_⟩⟩
    rw [Emission.notifies, he, Option.isSome_some, Bool.true_and]
    exact h
  | writeAddress cause address info => cases info <;> exact hle id rfl
  | emit cause address info =>
    have hpublications : ({ s.tryEmit ⟨.hostapdConfigurationChanged info, cause⟩ with
        published := s.published ++
          [⟨cause, address, info.bind (s.infos[·]?), s.lastBroadcast⟩] } : Shared).publications n
        = s.publications n + if cause == n then 1 else 0 := by
      rw [Shared.publications, List.countP_append, List.countP_singleton]
      rfl
    rw [hpublications]
    show 0 + (s.publications n + if (cause == n) = true then 1 else 0)
      ≤ (if (cause == n) = true then 1 else 0) + s.publications n
    omega
  | _ => exact hle id rfl

/-- A coroutine emits what it publishes, and nothing else. -/
theorem PrimStep.accounts (h : PrimStep s k s' k') :
    s'.sessions = s.sessions ∧ s'.runtime.handled = s.runtime.handled ∧
    ∃ es pubs, s'.runtime.emitted = s.runtime.emitted ++ es ∧
      s'.published = s.published ++ pubs ∧
      pubs.map (·.cause) = es.filterMap Emission.publishedCause := by
  have hnone : s'.sessions = s.sessions → s'.runtime = s.runtime → s'.published = s.published →
      s'.sessions = s.sessions ∧ s'.runtime.handled = s.runtime.handled ∧
        ∃ es pubs, s'.runtime.emitted = s.runtime.emitted ++ es ∧
          s'.published = s.published ++ pubs ∧
          pubs.map (·.cause) = es.filterMap Emission.publishedCause := by
    intro hsessions hruntime hpublished
    refine ⟨hsessions, by rw [hruntime], [], [], ?_, ?_, rfl⟩
    · rw [hruntime, List.append_nil]
    · rw [hpublished, List.append_nil]
  cases h with
  | writeAddress cause address info => cases info <;> exact hnone rfl rfl rfl
  | emit cause address info => exact ⟨rfl, rfl, [_], [_], rfl, rfl, rfl⟩
  | _ => exact hnone rfl rfl rfl

/-! ### Every label -/

theorem tally_run {i : ℕ} {p : Coroutines} (h : v.pool.move prim i r = some p) :
    v.pool.shared.runtime.emitted.length ≤ p.shared.runtime.emitted.length ∧
      ∀ n, tally { v with pool := p } n ≤ tally v n := by
  obtain ⟨k, m, k', hk, hstep, rfl⟩ := of_run h
  obtain ⟨-, -, es, pubs, hemitted, -⟩ := hstep.accounts
  constructor
  · show _ ≤ m.runtime.emitted.length
    rw [hemitted, List.length_append]
    exact Nat.le_add_right _ _
  intro n
  have hcount := Pool.countP_set_le k' hk fun x _ h => hstep.holds x n h
  have hpublished := hstep.tally n
  rw [tally, tally, List.append_nil]
  show (v.pool.threads.set i k').countP (Pc.holds m n) + m.publications n ≤ _
  omega

theorem tally_frame (hF : Frame v w) (n : ℕ) : tally w n ≤ tally v n := by
  obtain ⟨ks, hks, hkind⟩ := hF.threads
  have hold : v.pool.threads.countP (Pc.holds w.pool.shared n)
      ≤ v.pool.threads.countP (Pc.holds v.pool.shared n) := by
    refine List.countP_mono_left fun x _ h => holds_mono h hF.cancelled fun slot hslot => ?_
    rwa [Shared.queues, hF.subscribers] at hslot
  have hnew : ks.countP (Pc.holds w.pool.shared n) = 0 := by
    refine List.countP_eq_zero.mpr fun x hx => ?_
    rcases hkind x hx with rfl | ⟨job, rfl⟩ <;> exact Bool.false_ne_true
  rw [tally, hks, List.countP_append, hnew, Shared.publications, hF.published]
  exact Nat.add_le_add_right hold _

/-- Who holds a notification after it has come held it before or is listening. -/
theorem holds_tryEmit {n : ℕ} {e : Emission} (h : k.holds (s.tryEmit e) n = true) :
    k.holds s n = true ∨ (e.notifies n = true ∧ k.listening s = true) := by
  cases hnotifies : e.notifies n with
  | false => exact Or.inl (holds_mono h (fun _ h => h) fun _ hslot => queues_tryEmit hnotifies hslot)
  | true =>
    cases k with
    | await job slot =>
      rw [Pc.holds, Bool.and_eq_true] at h
      exact Or.inr ⟨rfl, h.1⟩
    | _ => exact Or.inl h

theorem Once.run {i : ℕ} {p : Coroutines} (hO : Once v) (h : v.pool.move prim i r = some p) :
    Once { v with pool := p } := by
  obtain ⟨hemitted, htally⟩ := tally_run h
  intro n
  refine Nat.le_trans (Nat.le_trans (htally n) (hO n)) ?_
  show _ ≤ if n < p.shared.runtime.emitted.length then 1 else 0
  split <;> split <;> omega

/-- A notification raises its own tally only, by the number of the listeners. -/
theorem Once.notify {inetName ipv6Address : String} (hO : Once v)
    (hA : Alone v (.onIpv6Ready inetName ipv6Address)) :
    Once (v.setShared (v.pool.shared.tryEmit ⟨.kernelNetLinkChanged inetName ipv6Address,
      v.pool.shared.runtime.emitted.length⟩)) := by
  intro n
  set e : Emission := ⟨.kernelNetLinkChanged inetName ipv6Address,
    v.pool.shared.runtime.emitted.length⟩ with he
  have hlength : (v.pool.shared.tryEmit e).runtime.emitted.length
      = v.pool.shared.runtime.emitted.length + 1 := by
    show (_ ++ [e]).length = _
    rw [List.length_append, List.length_singleton]
  show v.pool.threads.countP (Pc.holds (v.pool.shared.tryEmit e) n)
    + v.pool.shared.publications n ≤ if n < (v.pool.shared.tryEmit e).runtime.emitted.length
      then 1 else 0
  rw [hlength]
  have hOn := hO n
  rw [tally] at hOn
  by_cases hnotifies : e.notifies n = true
  · -- nobody held it before
    rw [Emission.notifies, Bool.and_eq_true] at hnotifies
    have hname : inetName = "wlan2" := by
      have h := hnotifies.1
      change (if inetName = "wlan2" then some ipv6Address else none).isSome = true at h
      by_contra hne
      rw [if_neg hne] at h
      cases h
    have hn : n = v.pool.shared.runtime.emitted.length := (beq_iff_eq.mp hnotifies.2).symm
    rw [if_neg (by omega)] at hOn
    have hnone : v.pool.threads.countP (Pc.holds v.pool.shared n) = 0 := by omega
    have hcount : v.pool.threads.countP (Pc.holds (v.pool.shared.tryEmit e) n)
        ≤ v.pool.threads.countP (Pc.listening v.pool.shared) := by
      refine List.countP_mono_left fun x hx h => ?_
      rcases holds_tryEmit h with hold | ⟨-, hlistening⟩
      · exact absurd hold (List.countP_eq_zero.mp hnone x hx)
      · exact hlistening
    have halone := hA hname
    rw [if_pos (by omega)]
    omega
  · have hcount : v.pool.threads.countP (Pc.holds (v.pool.shared.tryEmit e) n)
        ≤ v.pool.threads.countP (Pc.holds v.pool.shared n) := by
      refine List.countP_mono_left fun x _ h => ?_
      rcases holds_tryEmit h with hold | ⟨h, -⟩
      · exact hold
      · exact absurd h hnotifies
    split at hOn <;> split <;> omega

theorem Once.frame (hO : Once v) (hF : Frame v w) : Once w := by
  intro n
  rw [hF.emitted]
  exact Nat.le_trans (tally_frame hF n) (hO n)

theorem Once.step {l : Label} (hO : Once v) (hA : Alone v l) (h : step v l = some w) : Once w := by
  rcases step_cases h with ⟨i, r, p, -, hp, rfl⟩ | ⟨inetName, ipv6Address, rfl, rfl⟩ | hF
  · exact hO.run hp
  · exact hO.notify hA
  · exact hO.frame hF

/-! ### Sessions -/

/-- The runtime starts a session for each published configuration it handles. -/
structure Accounted (v : Service) : Prop where
  sessions : v.pool.shared.sessions.map (·.cause)
    = v.pool.shared.runtime.handled.filterMap Emission.publishedCause
  published : v.pool.shared.published.map (·.cause)
    = v.pool.shared.runtime.emitted.filterMap Emission.publishedCause

theorem Accounted.sessions_le (hA : Accounted v) (n : ℕ) :
    v.pool.shared.sessions.countP (·.cause == n) ≤ v.pool.shared.publications n := by
  have hsublist : (v.pool.shared.sessions.map (·.cause)).Sublist
      (v.pool.shared.published.map (·.cause)) := by
    rw [hA.sessions, hA.published]
    exact ((List.sublist_append_left _ _).trans v.pool.shared.runtime.inOrder).filterMap _
  have hcount := hsublist.countP_le (p := (· == n))
  rwa [List.countP_map, List.countP_map] at hcount

theorem Accounted.step {l : Label} (hA : Accounted v) (h : step v l = some w) : Accounted w := by
  rcases step_cases h with ⟨i, r, p, -, hp, rfl⟩ | ⟨inetName, ipv6Address, -, rfl⟩ | hF
  · obtain ⟨k, m, k', -, hstep, rfl⟩ := of_run hp
    obtain ⟨hsessions, hhandled, es, pubs, hemitted, hpublished, hcauses⟩ := hstep.accounts
    constructor
    · show m.sessions.map _ = m.runtime.handled.filterMap _
      rw [hsessions, hhandled, hA.sessions]
    · show m.published.map _ = m.runtime.emitted.filterMap _
      rw [hemitted, hpublished, List.map_append, List.filterMap_append, hA.published, hcauses]
  · refine ⟨hA.sessions, ?_⟩
    show _ = (v.pool.shared.runtime.emitted ++ [_]).filterMap _
    rw [List.filterMap_append, ← hA.published]
    exact (List.append_nil _).symm
  · obtain ⟨es, hhandled, hsessions⟩ := hF.collected
    constructor
    · rw [hsessions, hhandled, List.filterMap_append, hA.sessions]
    · rw [hF.published, hF.emitted, hA.published]

/-! ### Two listeners -/

theorem await_of_listening (h : k.listening s = true) :
    ∃ job slot, k = .await job slot ∧ s.isCancelled job = false := by
  cases k with
  | await job slot => exact ⟨job, slot, rfl, by rwa [Pc.listening, Bool.not_eq_true'] at h⟩
  | _ => cases h

/-- Two listeners both take the notification before either publishes. -/
theorem publishes_twice {address : String} (hS : Slots v)
    (hlisten : 2 ≤ v.pool.threads.countP (Pc.listening v.pool.shared))
    (hw : step v (.onIpv6Ready "wlan2" address) = some w) :
    ∃ ls x, Run.exec step w ls = some x ∧
      2 ≤ x.pool.shared.publications v.pool.shared.runtime.emitted.length := by
  obtain ⟨i, j, ki, kj, hne, hi, hj, hki, hkj⟩ := Pool.exists_two_of_countP hlisten
  obtain ⟨jobi, sloti, rfl, hjobi⟩ := await_of_listening hki
  obtain ⟨jobj, slotj, rfl, hjobj⟩ := await_of_listening hkj
  have hslots : slotj ≠ sloti := by
    rintro rfl
    exact hne (hS.distinct i j _ _ slotj hi hj rfl rfl)
  obtain ⟨s', hfill, -, -, hcancelled, -, -, hbuffers⟩ := exec_notify v address
  rw [Run.exec_cons, hw, Option.bind_some] at hfill
  obtain ⟨bi, hbi, hheadi⟩ := hbuffers sloti (hS.lt _ (List.mem_of_getElem? hi) _ rfl)
  obtain ⟨bj, hbj, hheadj⟩ := hbuffers slotj (hS.lt _ (List.mem_of_getElem? hj) _ rfl)
  have hilt : i < v.pool.threads.length := (List.getElem?_eq_some_iff.mp hi).choose
  have hjlt : j < v.pool.threads.length := (List.getElem?_eq_some_iff.mp hj).choose
  generalize v.pool.shared.runtime.emitted.length = n at hheadi hheadj ⊢
  have hcancel : ∀ job, v.pool.shared.isCancelled job = false → s'.isCancelled job = false := by
    intro job h
    rwa [Shared.isCancelled, hcancelled]
  -- both take it
  obtain ⟨b₁, hpolli⟩ := step_poll (v := v.setShared s') (r := succeeds) hi
    (hcancel jobi hjobi) hbi hheadi rfl
  set v₁ : Service := { v with pool := ⟨{ s' with subscribers := s'.subscribers.set sloti b₁ },
    v.pool.threads.set i (.readForAddress n address)⟩ } with hv₁
  have hj₁ : v₁.pool.threads[j]? = some (.await jobj slotj) := by
    rw [hv₁, List.getElem?_set_ne hne, hj]
  have hbj₁ : v₁.pool.shared.subscribers[slotj]? = some bj := by
    rw [hv₁, List.getElem?_set_ne (Ne.symm hslots), hbj]
  obtain ⟨b₂, hpollj⟩ := step_poll (r := succeeds) hj₁ (hcancel jobj hjobj) hbj₁ hheadj rfl
  set v₂ : Service := { v with pool := ⟨{ v₁.pool.shared with
    subscribers := v₁.pool.shared.subscribers.set slotj b₂ },
    v₁.pool.threads.set j (.readForAddress n address)⟩ } with hv₂
  -- then both publish
  have hi₂ : v₂.pool.threads[i]? = some (.readForAddress n address) := by
    rw [hv₂, List.getElem?_set_ne (Ne.symm hne)]
    exact List.getElem?_set_self hilt
  obtain ⟨v₃, hruni, hthreads, hpubi⟩ := exec_readForAddress hi₂
  have hj₃ : v₃.pool.threads[j]? = some (.readForAddress n address) := by
    rw [hthreads, List.getElem?_set_ne hne]
    exact List.getElem?_set_self (by rwa [hv₁, List.length_set])
  obtain ⟨x, hrunj, -, hpubj⟩ := exec_readForAddress hj₃
  refine ⟨fill ++ (.run i succeeds :: .run j succeeds :: (runs i 4 ++ runs j 4)), x, ?_, ?_⟩
  · rw [Run.exec_append, hfill, Option.bind_some, Run.exec_cons, hpolli, Option.bind_some]
    show (step v₁ _).bind _ = _
    rw [hpollj, Option.bind_some]
    show Run.exec step v₂ _ = _
    rw [Run.exec_append, hruni]
    exact hrunj
  · rw [Shared.publications, hpubj, hpubi, List.countP_append, List.countP_append,
      List.countP_singleton, List.countP_singleton, if_pos (beq_self_eq_true n)]
    omega

/-- **One notification starts one session, exactly where it finds one listener.**
In a run whose notifications for the hotspot all find at most one coroutine
listening, each is published at most once and starts at most one session; and a
run in which one finds more can, from right after the first that does, be continued
so that it is published twice. -/
theorem notification_starts_one (softAp : SoftAp) (ls : List Label) :
    (Run.Along step Alone (initial softAp) ls →
      ∀ v, Run.Reached step (initial softAp) ls v → ∀ n,
        v.pool.shared.publications n ≤ 1 ∧ v.pool.shared.sessions.countP (·.cause == n) ≤ 1) ∧
    ((Run.exec step (initial softAp) ls).isSome = true →
      ¬ Run.Along step Alone (initial softAp) ls →
      Run.Strays step Alone (fun v => ∃ n, 2 ≤ v.pool.shared.publications n)
        (initial softAp) ls) := by
  have keep : ∀ v l w, Once v ∧ Accounted v → Alone v l → step v l = some w →
      Once w ∧ Accounted w :=
    fun _ _ _ hI hA h => ⟨hI.1.step hA h, hI.2.step h⟩
  have bad : ∀ v l w, Slots v → ¬ Alone v l → step v l = some w →
      ∃ ls x, Run.exec step w ls = some x ∧ ∃ n, 2 ≤ x.pool.shared.publications n := by
    intro v l w hS hA h
    cases l with
    | onIpv6Ready inetName ipv6Address =>
      obtain ⟨rfl, hlisten⟩ : inetName = "wlan2" ∧
          ¬ v.pool.threads.countP (Pc.listening v.pool.shared) ≤ 1 := by
        by_contra hnot
        exact hA fun hname => by_contra fun hlisten => hnot ⟨hname, hlisten⟩
      obtain ⟨ls, x, hx, htwice⟩ := publishes_twice hS (by omega) h
      exact ⟨ls, x, hx, _, htwice⟩
    | _ => exact absurd trivial hA
  constructor
  · intro hA v hv n
    obtain ⟨hO, hsessions⟩ := Run.Reached.invariant keep
      ⟨Once.initial softAp, rfl, rfl⟩ hA hv
    have hpublished : v.pool.shared.publications n ≤ 1 := by
      have hOn := hO n
      rw [tally] at hOn
      split at hOn <;> omega
    exact ⟨hpublished, Nat.le_trans (hsessions.sessions_le n) hpublished⟩
  · exact Run.strays_of_not_along (fun _ _ _ hS _ h => hS.step h) bad (Slots.initial softAp)

/-- The hotspot is enabled, and a notification comes. -/
private def oneListener : List Label :=
  [.broadcast WIFI_AP_STATE_ENABLED (some ⟨some "", some "", SECURITY_TYPE_WPA3_SAE, none⟩) "",
    .receive] ++ runs 0 1 ++ [.onIpv6Ready "wlan2" "fe80::1"] ++ runs 0 5 ++
    [.collectTake, .collectHandle, .collectTake, .collectHandle]

/-- The notification starts its session. -/
theorem notification_starts_one_listener :
    Run.Along step Alone (initial ⟨WIFI_AP_STATE_ENABLED, none⟩) oneListener ∧
      ∃ v, Run.exec step (initial ⟨WIFI_AP_STATE_ENABLED, none⟩) oneListener = some v ∧
        v.pool.shared.sessions.length = 1 ∧
        ∀ n, v.pool.shared.publications n ≤ 1 ∧ v.pool.shared.sessions.countP (·.cause == n) ≤ 1 := by
  have halone : Run.Along step Alone (initial ⟨WIFI_AP_STATE_ENABLED, none⟩) oneListener := by
    decide +kernel
  obtain ⟨v, hv, hlength⟩ : ∃ v, Run.exec step (initial ⟨WIFI_AP_STATE_ENABLED, none⟩) oneListener
      = some v ∧ v.pool.shared.sessions.length = 1 := ⟨_, rfl, rfl⟩
  exact ⟨halone, v, hv, hlength,
    (notification_starts_one _ oneListener).1 halone v (Run.reached_of_exec hv)⟩

/-- Two requests wait, and a notification comes. -/
private def twoRequests : List Label :=
  [.broadcast WIFI_AP_STATE_ENABLED (some ⟨some "", some "", SECURITY_TYPE_WPA3_SAE, none⟩) "",
    .getCarplayCompatSoftApConfigure, .getCarplayCompatSoftApConfigure] ++
    runs 0 3 ++ runs 1 3 ++ [.onIpv6Ready "wlan2" "fe80::1"] ++ runs 0 5 ++ runs 1 5 ++
    [.collectTake, .collectHandle, .collectTake, .collectHandle, .collectTake, .collectHandle]

/-- **Two requests publish twice**, and the runtime starts two sessions. -/
theorem two_requests_publish_twice :
    ¬ ∀ (softAp : SoftAp) (ls : List Label) (v : Service),
      Run.Reached step (initial softAp) ls v → ∀ n,
        v.pool.shared.publications n ≤ 1 ∧ v.pool.shared.sessions.countP (·.cause == n) ≤ 1 := by
  intro h
  have hcheck : (Run.exec step (initial ⟨WIFI_AP_STATE_ENABLED, none⟩) twoRequests).any (fun w =>
      w.pool.shared.sessions.countP (·.cause == 0) == 2) = true := by decide +kernel
  obtain ⟨w, hw, hcount⟩ := (Option.any_eq_true _ _).mp hcheck
  rw [beq_iff_eq] at hcount
  have hle := (h _ _ w (Run.reached_of_exec hw) 0).2
  omega

end Carplay.Hostapd

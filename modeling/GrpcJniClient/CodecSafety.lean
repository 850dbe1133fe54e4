/-
Calls on a dead codec.

The tests that `outputLoop`, `queueInputBuffer` and `stopMediaCodec` make are
not joined to the calls they protect, the status test lets `STOPPED` pass, and
nothing initialises the handle.

* `Sound` — no call has been made on a dead handle and no thread is about to
  make one;
* `Guarded` — what a step must meet: who goes on to a call does so while the
  handle is live, and nobody deletes or overwrites a codec that another thread
  is about to call;
* `sound_prim_iff`, `sound_step_iff` — a step from a sound state leads to a sound one
  exactly if it is guarded;
* `codec_calls_safe` — runs whose steps are all guarded make no call on a dead
  codec, and any other run has a continuation that does;
* `stop_races_outputLoop` — a stop between the test and the call of
  `outputLoop`.
-/
import GrpcJniClient.ScreenStream

open ThreadPool

namespace Carplay.Screen

/-- The next step reads the shared handle for a call that needs a live codec. -/
def Pc.reads : Pc → Bool
  | .load site => site.needsLive
  | _ => false

/-- The handle of the next call that needs a live codec, for a thread past its
tests, if `field` is the shared handle. -/
def Pc.committed (field : AMediaCodec) : Pc → Option AMediaCodec
  | .load site => if site.needsLive then some field else none
  | .issue site h => if site.needsLive then some h else none
  | _ => none

/-- No call has been made on a dead handle and no thread is about to. -/
def Sound (p : Runtime) : Prop :=
  p.shared.deadCalls = [] ∧
    ∀ (j : ℕ) (k : Pc) (h : AMediaCodec), p.threads[j]? = some k →
      k.committed p.shared.kScreenStreamMediaCodec = some h → p.shared.live h = true

/-- No thread is about to read the shared handle for a call. -/
def NoReader (p : Runtime) : Prop :=
  ∀ (j : ℕ) (k : Pc), p.threads[j]? = some k → k.reads = false

/-- The shared handle is of a live codec. -/
def HandleLive (p : Runtime) : Prop := p.shared.live p.shared.kScreenStreamMediaCodec = true

/-- What the step of thread `i` at a program counter must meet. -/
def Allowed (p : Runtime) (i : ℕ) (r : Result) : Pc → Prop
  | .outputTestHandle => p.shared.kScreenStreamMediaCodec = .null ∨ HandleLive p
  | .stopTestHandle => p.shared.kScreenStreamMediaCodec = .null ∨ HandleLive p
  | .inputTestStatus _ =>
      p.shared.kScreenStreamMediaCodecStatus.value < MediaCodecStatus.STARTED.value ∨ HandleLive p
  | .storeCodec h => p.shared.live h = true ∨ NoReader p
  | .storeNull => NoReader p
  | .issue site h =>
      ((site.next r).reads = true → HandleLive p) ∧
        (site = .delete → ∀ (j : ℕ) (k : Pc), j ≠ i → p.threads[j]? = some k →
          k.committed p.shared.kScreenStreamMediaCodec ≠ some h)
  | _ => True

/-- What a step must meet. -/
def Guarded (p : Runtime) : Label → Prop
  | .step i r => ∀ k, p.threads[i]? = some k → Allowed p i r k
  | _ => True

instance (p : Runtime) : Decidable (NoReader p) :=
  decidable_of_iff (∀ k ∈ p.threads, k.reads = false)
    ⟨fun h _ k hk => h k (List.mem_of_getElem? hk), fun h k hk =>
      have ⟨j, hj⟩ := List.getElem?_of_mem hk
      h j k hj⟩

instance (p : Runtime) : Decidable (HandleLive p) := inferInstanceAs (Decidable (_ = true))

instance (p : Runtime) (i : ℕ) (r : Result) (k : Pc) : Decidable (Allowed p i r k) := by
  cases k with
  | outputTestHandle | stopTestHandle | inputTestStatus _ =>
    exact inferInstanceAs (Decidable (_ ∨ HandleLive p))
  | storeCodec h => exact inferInstanceAs (Decidable (p.shared.live h = true ∨ NoReader p))
  | storeNull => exact inferInstanceAs (Decidable (NoReader p))
  | issue site h =>
    -- beyond the last thread there is nobody to ask
    refine decidable_of_iff (((site.next r).reads = true → HandleLive p) ∧
      (site = .delete → ∀ j < p.threads.length, j ≠ i → ∀ k ∈ p.threads[j]?,
        k.committed p.shared.kScreenStreamMediaCodec ≠ some h))
      (and_congr_right fun _ => imp_congr_right fun _ => ⟨fun h j k hji hk => ?_,
        fun h j _ hji k hk => h j k hji hk⟩)
    exact h j (List.getElem?_eq_some_iff.mp hk).choose hji k hk
  | _ => exact isTrue trivial

instance (p : Runtime) (l : Label) : Decidable (Guarded p l) := by
  cases l with
  | step i r => exact inferInstanceAs (Decidable (∀ k ∈ p.threads[i]?, Allowed p i r k))
  | _ => exact isTrue trivial

variable {p q : Runtime} {i : ℕ} {r : Result}

/-! ### One step -/

theorem committed_of_reads {field : AMediaCodec} {k : Pc} (h : k.reads = true) :
    k.committed field = some field := by
  cases k with
  | load site => exact if_pos h
  | _ => cases h

/-- A thread that is about to read is committed to the shared handle, one about
to call to the handle it has read. -/
theorem committed_field {k : Pc} (h : k.reads = false) (field field' : AMediaCodec) :
    k.committed field = k.committed field' := by
  cases k with
  | load site =>
    have hsite : ¬ site.needsLive = true := fun h' => by rw [Pc.reads, h'] at h; cases h
    exact (if_neg hsite).trans (if_neg hsite).symm
  | _ => rfl

/-- Soundness after a step, thread by thread. -/
theorem sound_move_iff {m : Shared} {k k' : Pc} {forks : List Pc}
    (hk : p.threads[i]? = some k) (hforks : ∀ x ∈ forks, ∀ field, x.committed field = none) :
    Sound ⟨m, p.threads.set i k' ++ forks⟩ ↔ m.deadCalls = [] ∧
      (∀ h, k'.committed m.kScreenStreamMediaCodec = some h → m.live h = true) ∧
      ∀ j x h, j ≠ i → p.threads[j]? = some x →
        x.committed m.kScreenStreamMediaCodec = some h → m.live h = true := by
  refine and_congr_right fun _ => ⟨fun hS => ⟨fun h hh => ?_, fun j x h hne hj hh => ?_⟩, ?_⟩
  · exact hS i k' h (Pool.getElem?_moved hk) hh
  · exact hS j x h (Pool.getElem?_unmoved hj hne) hh
  · rintro ⟨hself, hothers⟩ j x h hj hh
    rcases Pool.getElem?_move hj with ⟨-, rfl⟩ | ⟨hne, hx⟩ | hx
    · exact hself h hh
    · exact hothers j x h hne hx hh
    · rw [hforks x hx] at hh
      cases hh

/-- A step that neither stores the handle nor calls. -/
theorem sound_quiet_iff {m : Shared} {k k' : Pc} {forks : List Pc} (hS : Sound p)
    (hk : p.threads[i]? = some k) (hforks : ∀ x ∈ forks, ∀ field, x.committed field = none)
    (hfield : m.kScreenStreamMediaCodec = p.shared.kScreenStreamMediaCodec)
    (hlive : ∀ h, p.shared.live h = true → m.live h = true)
    (hdead : m.deadCalls = p.shared.deadCalls) :
    Sound ⟨m, p.threads.set i k' ++ forks⟩ ↔
      ∀ h, k'.committed p.shared.kScreenStreamMediaCodec = some h → m.live h = true := by
  rw [sound_move_iff hk hforks, hdead, hfield]
  refine ⟨fun h => h.2.1, fun h => ⟨hS.1, h, fun j x h' _ hx hh => ?_⟩⟩
  exact hlive h' (hS.2 j x h' hx hh)

theorem live_create {s : Shared} {h : AMediaCodec} (hl : s.live h = true) :
    ({ s with created := s.created + 1 } : Shared).live h = true := by
  cases h with
  | codec n =>
    rw [Shared.live, Bool.and_eq_true, decide_eq_true_iff] at hl ⊢
    exact ⟨Nat.lt_succ_of_lt hl.1, hl.2⟩
  | _ => cases hl

/-- A call on a live codec leaves the others as they are. -/
theorem call_of_live {s : Shared} {site : Site} {h : AMediaCodec}
    (hl : site.needsLive = true → s.live h = true) : (s.call site h).deadCalls = s.deadCalls := by
  refine if_neg ?_
  rw [Bool.and_eq_true, Bool.not_eq_true']
  rintro ⟨hneeds, hdead⟩
  rw [hl hneeds] at hdead
  cases hdead

theorem live_call {s : Shared} {site : Site} {h h' : AMediaCodec} :
    (s.call site h).live h' = true ↔ s.live h' = true ∧ ¬ (site = .delete ∧ h' = h) := by
  cases h' with
  | codec n =>
    by_cases hsite : site = .delete
    · simp [Shared.live, Shared.call, hsite, and_assoc]
    · simp [Shared.live, Shared.call, hsite]
  | _ => simp [Shared.live]

theorem live_call_of_ne {s : Shared} {site : Site} {h h' : AMediaCodec} (hsite : site ≠ .delete) :
    (s.call site h).live h' = s.live h' := by
  rw [Bool.eq_iff_iff, live_call]
  exact and_iff_left fun hd => hsite hd.1

/-- A new thread has made no test yet. -/
theorem sound_spawn {k : Pc} (hS : Sound p) (hk : ∀ field, k.committed field = none) :
    Sound (p.spawn k) := by
  refine ⟨hS.1, fun j x h hj hh => ?_⟩
  rcases List.mem_append.mp (List.mem_of_getElem? hj) with hx | hx
  · obtain ⟨j', hj'⟩ := List.getElem?_of_mem hx
    exact hS.2 j' x h hj' hh
  · rw [List.mem_singleton.mp hx, hk] at hh
    cases hh

/-- A store of the handle is sound if it leaves a live codec there, or nobody is
about to read it. -/
theorem sound_store_iff {k k' : Pc} {h : AMediaCodec} (hS : Sound p) (hk : p.threads[i]? = some k)
    (hread : k.reads = false) (hk' : ∀ field, k'.committed field = none) :
    Sound ⟨{ p.shared with kScreenStreamMediaCodec := h }, p.threads.set i k' ++ []⟩ ↔
      p.shared.live h = true ∨ NoReader p := by
  rw [sound_move_iff hk fun x hx => absurd hx List.not_mem_nil]
  constructor
  · rintro ⟨-, -, hothers⟩
    refine or_iff_not_imp_left.mpr fun hdead j x hj => ?_
    by_contra hx
    rw [Bool.not_eq_false] at hx
    have hne : j ≠ i := by
      rintro rfl
      rw [Option.some_inj.mp (hj.symm.trans hk), hread] at hx
      cases hx
    exact hdead (hothers j x h hne hj (committed_of_reads hx))
  · intro hor
    refine ⟨hS.1, fun h' hh => ?_, fun j x h' _ hj hh => ?_⟩
    · rw [hk'] at hh
      cases hh
    · show p.shared.live h' = true
      cases hx : x.reads with
      | false =>
        rw [committed_field hx _ p.shared.kScreenStreamMediaCodec] at hh
        exact hS.2 j x h' hj hh
      | true =>
        rw [committed_of_reads hx, Option.some_inj] at hh
        subst hh
        exact hor.resolve_right fun hno => by rw [hno j x hj] at hx; cases hx

/-- After a call a thread tests again or reads the handle for the next call. -/
theorem committed_next (site : Site) (r : Result) (field : AMediaCodec) :
    (site.next r).committed field = if (site.next r).reads then some field else none := by
  cases site with
  | queueInputBuffer caller => cases caller <;> cases r <;> rfl
  | _ => cases r <;> rfl

/-- A call is sound if it is made on a live codec, deletes none that another
thread is about to call, and goes on to the next while the handle is live. -/
theorem sound_issue_iff {site : Site} {h : AMediaCodec} (hS : Sound p)
    (hk : p.threads[i]? = some (.issue site h)) :
    Sound ⟨p.shared.call site h, p.threads.set i (site.next r) ++ []⟩ ↔
      Allowed p i r (.issue site h) := by
  have hlive : site.needsLive = true → p.shared.live h = true := fun hneeds =>
    hS.2 i _ h hk (if_pos hneeds)
  have hfield : (p.shared.call site h).kScreenStreamMediaCodec = p.shared.kScreenStreamMediaCodec :=
    rfl
  rw [sound_move_iff hk fun x hx => absurd hx List.not_mem_nil, call_of_live hlive, hfield,
    and_iff_right hS.1, Allowed]
  -- the next program counter commits only by reading
  have hnext : ∀ h', (site.next r).committed p.shared.kScreenStreamMediaCodec = some h' ↔
      (site.next r).reads = true ∧ p.shared.kScreenStreamMediaCodec = h' := by
    intro h'
    rw [committed_next, Option.ite_none_right_eq_some, Option.some_inj]
  refine and_congr ?_ ?_
  · constructor
    · intro hself hread
      exact (live_call.mp (hself _ ((hnext _).mpr ⟨hread, rfl⟩))).1
    · intro hread h' hh
      obtain ⟨hr, rfl⟩ := (hnext h').mp hh
      have hsite : site ≠ .delete := by
        rintro rfl
        cases hr
      rw [live_call_of_ne hsite]
      exact hread hr
  · constructor
    · rintro hothers rfl j x hne hj hh
      exact (live_call.mp (hothers j x h hne hj hh)).2 ⟨rfl, rfl⟩
    · intro hdelete j x h' hne hj hh
      refine live_call.mpr ⟨hS.2 j x h' hj hh, ?_⟩
      rintro ⟨hsite, rfl⟩
      exact hdelete hsite j x hne hj hh

/-- A test that lets its thread go on to read the handle. -/
theorem sound_test_iff {k : Pc} {c : Prop} [Decidable c] {k₁ k₂ : Pc} (hS : Sound p)
    (hk : p.threads[i]? = some k) (hk₁ : ∀ field, k₁.committed field = none)
    (hk₂ : k₂.reads = true) :
    Sound ⟨p.shared, p.threads.set i (if c then k₁ else k₂) ++ []⟩ ↔ c ∨ HandleLive p := by
  rw [sound_quiet_iff hS hk (fun x hx => absurd hx List.not_mem_nil) rfl (fun _ h => h) rfl]
  by_cases hc : c
  · refine iff_of_true (fun h hh => ?_) (Or.inl hc)
    rw [if_pos hc, hk₁] at hh
    cases hh
  · rw [if_neg hc, committed_of_reads hk₂, or_iff_right hc]
    simp only [Option.some_inj, forall_eq']
    rfl

/-- The places from which a thread neither goes on to read the handle, nor stores it, nor
calls. -/
def Pc.plain : Pc → Bool
  | .storeCodec _ | .outputTestHandle | .inputTestStatus _ | .stopTestHandle | .storeNull
  | .load _ | .issue _ _ => false
  | _ => true

/-- What a step from such a place does: at most it adds a codec. -/
structure Plain (s m : Shared) (k' : Pc) (forks : List Pc) : Prop where
  next : ∀ field, k'.committed field = none
  forks : ∀ x ∈ forks, ∀ field, x.committed field = none
  handle : m.kScreenStreamMediaCodec = s.kScreenStreamMediaCodec
  live : ∀ h, s.live h = true → m.live h = true
  deadCalls : m.deadCalls = s.deadCalls

theorem plain_of_prim {s m : Shared} {k k' : Pc} {forks : List Pc} (hk : k.plain = true)
    (h : prim s r k = some (m, k', forks)) : Plain s m k' forks := by
  have hnil : ∀ x ∈ ([] : List Pc), ∀ field, x.committed field = none :=
    fun x hx => absurd hx List.not_mem_nil
  cases k with
  | createDecoder =>
    rw [prim] at h
    split at h <;> cases h
    · exact ⟨fun _ => rfl, hnil, rfl, fun _ => live_create, rfl⟩
    · exact ⟨fun _ => rfl, hnil, rfl, fun _ h => h, rfl⟩
  | launchOutput =>
    cases h
    refine ⟨fun _ => rfl, fun x hx => ?_, rfl, fun _ h => h, rfl⟩
    rw [List.mem_singleton.mp hx]
    exact fun _ => rfl
  -- tests that choose between two places that commit to nothing
  | createSurface | testCreated | render | outputTestStatus | inputTestHandle =>
    cases h
    refine ⟨fun field => ?_, hnil, rfl, fun _ h => h, rfl⟩
    split <;> rfl
  -- stores of the status and of the flag
  | storeStarted | storeRenderQuit | storeAvailable | storeStopped =>
    cases h
    exact ⟨fun _ => rfl, hnil, rfl, fun _ h => h, rfl⟩
  | done => cases h
  | _ => cases hk

theorem Plain.sound {m : Shared} {k k' : Pc} {forks : List Pc} (hP : Plain p.shared m k' forks)
    (hS : Sound p) (hk : p.threads[i]? = some k) : Sound ⟨m, p.threads.set i k' ++ forks⟩ := by
  refine (sound_quiet_iff hS hk hP.forks hP.handle hP.live hP.deadCalls).mpr fun h hh => ?_
  rw [hP.next] at hh
  cases hh

theorem allowed_of_plain {k : Pc} (hk : k.plain = true) : Allowed p i r k := by
  cases k <;> trivial

/-- The step of a thread, place by place. -/
theorem sound_prim_iff {m : Shared} {k k' : Pc} {forks : List Pc} (hS : Sound p)
    (hk : p.threads[i]? = some k) (h : prim p.shared r k = some (m, k', forks)) :
    Sound ⟨m, p.threads.set i k' ++ forks⟩ ↔ Allowed p i r k := by
  by_cases hplain : k.plain = true
  · exact iff_of_true ((plain_of_prim hplain h).sound hS hk) (allowed_of_plain hplain)
  cases k with
  | storeCodec codec =>
    cases h
    exact sound_store_iff hS hk rfl fun _ => rfl
  | storeNull =>
    cases h
    rw [sound_store_iff hS hk rfl fun _ => rfl]
    exact or_iff_right Bool.false_ne_true
  | outputTestHandle | inputTestStatus | stopTestHandle =>
    cases h
    exact sound_test_iff hS hk (fun _ => rfl) rfl
  | load site =>
    -- the call will be on the handle that the thread is committed to
    cases h
    refine iff_of_true ?_ trivial
    exact (sound_quiet_iff hS hk (fun x hx => absurd hx List.not_mem_nil) rfl (fun _ h => h)
      rfl).mpr fun h hh => hS.2 i _ h hk hh
  | issue site codec =>
    cases h
    exact sound_issue_iff hS hk
  | _ => exact absurd rfl hplain

/-- **A step from a sound state leads to a sound one exactly if it is
guarded.** -/
theorem sound_step_iff {l : Label} (hS : Sound p) (h : step p l = some q) :
    Sound q ↔ Guarded p l := by
  cases l with
  | step i r =>
    obtain ⟨k, m, k', forks, hk, hprim, rfl⟩ := Pool.of_move h
    rw [sound_prim_iff hS hk hprim, Guarded, hk]
    exact ⟨fun ha x hx => Option.some_inj.mp hx ▸ ha, fun hg => hg k rfl⟩
  | _ =>
    obtain rfl := Option.some_inj.mp h
    exact iff_of_true (sound_spawn hS fun _ => rfl) trivial

/-! ### Whole runs -/

theorem sound_initial (wild : Bool) : Sound (initial wild) :=
  ⟨rfl, fun j k h hj => by cases j <;> cases hj⟩

/-- A thread about to call on a dead handle leaves its mark. -/
theorem dead_call_of_issue {site : Site} {h : AMediaCodec}
    (hi : p.threads[i]? = some (.issue site h)) (hneeds : site.needsLive = true)
    (hdead : p.shared.live h = false) :
    ∃ q, step p (.step i .success) = some q ∧ q.shared.deadCalls ≠ [] := by
  refine ⟨⟨p.shared.call site h, _⟩, Pool.move_eq hi rfl, ?_⟩
  rw [Shared.call, hneeds, hdead]
  simp

/-- A state that is not sound has made a call on a dead codec, or makes one as
soon as the thread that is about to call moves on. -/
theorem dead_call_of_not_sound (hS : ¬ Sound p) :
    ∃ ls q, Run.exec step p ls = some q ∧ q.shared.deadCalls ≠ [] := by
  by_cases hcalls : p.shared.deadCalls = []
  · rw [Sound, and_iff_right hcalls] at hS
    simp only [not_forall, exists_prop, Bool.not_eq_true] at hS
    obtain ⟨j, k, h, hj, hh, hdead⟩ := hS
    cases k with
    | load site =>
      rw [Pc.committed, Option.ite_none_right_eq_some, Option.some_inj] at hh
      obtain ⟨hneeds, rfl⟩ := hh
      -- the thread reads the dead handle, then calls
      set p' : Runtime := ⟨p.shared, p.threads.set j (.issue site p.shared.kScreenStreamMediaCodec)
        ++ []⟩ with hp'
      have hload : step p (.step j .success) = some p' := Pool.move_eq hj rfl
      have hissue : p'.threads[j]? = some (.issue site p.shared.kScreenStreamMediaCodec) :=
        Pool.getElem?_moved hj
      obtain ⟨q, hq, hmark⟩ := dead_call_of_issue hissue hneeds hdead
      refine ⟨[.step j .success, .step j .success], q, ?_, hmark⟩
      rw [Run.exec_cons, hload, Option.bind_some, Run.exec_cons, hq]
      rfl
    | issue site h' =>
      rw [Pc.committed, Option.ite_none_right_eq_some, Option.some_inj] at hh
      obtain ⟨hneeds, rfl⟩ := hh
      obtain ⟨q, hq, hmark⟩ := dead_call_of_issue hj hneeds hdead
      refine ⟨[.step j .success], q, ?_, hmark⟩
      rw [Run.exec_cons, hq]
      rfl
    | _ => cases hh
  · exact ⟨[], p, rfl, hcalls⟩

/-- **No call on a dead codec, exactly under the guard.**  A run whose steps are
all guarded makes no call on a dead codec; and a run with a step that is not
can, from right after the first such step, be continued to such a call. -/
theorem codec_calls_safe (wild : Bool) (ls : List Label) :
    (Run.Along step Guarded (initial wild) ls →
      ∀ p, Run.Reached step (initial wild) ls p → p.shared.deadCalls = []) ∧
    ((Run.exec step (initial wild) ls).isSome = true →
      ¬ Run.Along step Guarded (initial wild) ls →
      Run.Strays step Guarded (fun p => p.shared.deadCalls ≠ []) (initial wild) ls) := by
  have keep : ∀ p l q, Sound p → Guarded p l → step p l = some q → Sound q :=
    fun p l q hS hg h => (sound_step_iff hS h).mpr hg
  -- a guarded step is what keeps the state sound
  have bad : ∀ p l q, Sound p → ¬ Guarded p l → step p l = some q →
      ∃ ls x, Run.exec step q ls = some x ∧ x.shared.deadCalls ≠ [] :=
    fun p l q hS hg h => dead_call_of_not_sound fun hSq => hg ((sound_step_iff hS h).mp hSq)
  exact Run.forall_reached_and_strays (fun _ hS => hS.1) keep bad (sound_initial wild)

/-- A start, one turn of `outputLoop`, the configuration, and a stop. -/
private def wholeSession : List Label :=
  .screenStreamStart :: List.replicate 10 (.step 0 .success) ++
    List.replicate 6 (.step 1 .success) ++
    .screenStreamConfiguration :: List.replicate 9 (.step 2 .success) ++
    .screenStreamStop :: List.replicate 7 (.step 3 .success)

/-- The codec is fed, read, stopped and deleted. -/
theorem codec_calls_safe_wholeSession :
    Run.Along step Guarded (initial false) wholeSession ∧
      ∃ p, Run.exec step (initial false) wholeSession = some p ∧
        p.shared.kScreenStreamMediaCodecStatus = .STOPPED ∧ p.shared.deleted = [.codec 0] ∧
        p.shared.deadCalls = [] := by
  have hguarded : Run.Along step Guarded (initial false) wholeSession := by decide +kernel
  obtain ⟨p, hp, hstatus, hdeleted⟩ : ∃ p, Run.exec step (initial false) wholeSession = some p ∧
      p.shared.kScreenStreamMediaCodecStatus = .STOPPED ∧ p.shared.deleted = [.codec 0] :=
    ⟨_, rfl, rfl, rfl⟩
  exact ⟨hguarded, p, hp, hstatus, hdeleted,
    (codec_calls_safe false wholeSession).1 hguarded p (Run.reached_of_exec hp)⟩

/-- A start, `outputLoop` up to its call, and a stop in between. -/
private def stopDuringOutput : List Label :=
  [.screenStreamStart] ++ List.replicate 10 (.step 0 .success) ++
    [.step 1 .success, .step 1 .success, .step 1 .success] ++
    [.screenStreamStop] ++ List.replicate 6 (.step 2 .success) ++ [.step 1 .success]

/-- **A stop races `outputLoop`.**  The codec is deleted between the null test
of `outputLoop` and its `AMediaCodec_dequeueOutputBuffer`. -/
theorem stop_races_outputLoop :
    ¬ ∀ (wild : Bool) (ls : List Label) (p : Runtime),
      Run.Reached step (initial wild) ls p → p.shared.deadCalls = [] := by
  intro h
  have hp := h false stopDuringOutput _ (Run.reached_of_exec rfl)
  exact absurd hp (by decide)

end Carplay.Screen

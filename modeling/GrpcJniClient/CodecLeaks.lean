/-
Codecs that are never deleted.

`initMediaCodec` stores the codec it creates over whatever the shared handle holds, and
`stopMediaCodec` stores null after its delete; neither looks at what it overwrites, and
only the handle says which codec to delete.

* `HandleStep` — what a step of a thread does to the handle and the codecs;
* `Lost` — the codec lives, but nothing refers to it;
* `lost_step_iff` — a step loses a codec exactly if it overwrites the handle;
* `exists_delete` — a codec that is not lost can still be deleted;
* `never_deleted_iff` — no continuation of a run deletes a codec exactly if a step of the
  run has overwritten it.
-/
import GrpcJniClient.CodecSafety
import GrpcJniClient.ScreenSession

open ThreadPool

namespace Carplay.Screen

/-- The number of the codec that the thread is about to store or to delete. -/
def Pc.holds : Pc → Option ℕ
  | .storeCodec (.codec n) | .issue .delete (.codec n) => some n
  | _ => none

/-- What the thread is about to store in the shared handle. -/
def Pc.stores : Pc → Option AMediaCodec
  | .storeCodec h => some h
  | .storeNull => some .null
  | _ => none

/-- A live codec to which neither the shared handle nor a thread refers. -/
structure Lost (p : Runtime) (n : ℕ) : Prop where
  live : p.shared.live (.codec n) = true
  handle : p.shared.kScreenStreamMediaCodec ≠ .codec n
  threads : ∀ k ∈ p.threads, k.holds ≠ some n

/-- The step stores something else over a live codec, which no other thread is about to
store or to delete. -/
def Overwrites (n : ℕ) (p : Runtime) : Label → Prop
  | .step i _ => ∃ k h, p.threads[i]? = some k ∧ k.stores = some h ∧ h ≠ .codec n ∧
      p.shared.kScreenStreamMediaCodec = .codec n ∧ p.shared.live (.codec n) = true ∧
      ∀ j x, j ≠ i → p.threads[j]? = some x → x.holds ≠ some n
  | _ => False

variable {p q : Runtime} {s m : Shared} {i n : ℕ} {r : Result} {k k' : Pc} {forks : List Pc}
  {l : Label}

/-! ### One step -/

/-- What a step of a thread is, as the handle and the codecs see it. -/
inductive HandleStep (s : Shared) : Pc → Shared → Pc → Prop
  | quiet (k k' : Pc) (m : Shared) (hholds : k.holds = none) (hstores : k.stores = none)
      (hk' : k'.holds = none) (hlive : ∀ n, m.live (.codec n) = s.live (.codec n))
      (hhandle : m.kScreenStreamMediaCodec = s.kScreenStreamMediaCodec) : HandleStep s k m k'
  | create : HandleStep s .createDecoder { s with created := s.created + 1 }
      (.storeCodec (.codec s.created))
  | store (k k' : Pc) (h : AMediaCodec) (hstores : k.stores = some h)
      (hholds : ∀ n, k.holds = some n ↔ h = .codec n) (hk' : k'.holds = none) :
      HandleStep s k { s with kScreenStreamMediaCodec := h } k'
  | load : HandleStep s (.load .delete) s (.issue .delete s.kScreenStreamMediaCodec)
  | delete (h : AMediaCodec) : HandleStep s (.issue .delete h) (s.call .delete h) .storeNull

theorem holds_next (site : Site) (r : Result) : (site.next r).holds = none := by
  cases site with
  | queueInputBuffer caller => cases caller <;> cases r <;> rfl
  | _ => cases r <;> rfl

theorem holds_iff :
    k.holds = some n ↔ k = .storeCodec (.codec n) ∨ k = .issue .delete (.codec n) := by
  constructor
  · intro h
    rw [Pc.holds.eq_def] at h
    split at h
    · cases h
      exact .inl rfl
    · cases h
      exact .inr rfl
    · cases h
  · rintro (rfl | rfl) <;> rfl

theorem holds_storeCodec (h : AMediaCodec) :
    (Pc.storeCodec h).holds = some n ↔ h = .codec n := by
  simp [holds_iff]

theorem holds_delete (h : AMediaCodec) :
    (Pc.issue .delete h).holds = some n ↔ h = .codec n := by
  simp [holds_iff]

theorem handleStep_of_prim (h : prim s r k = some (m, k', forks)) :
    HandleStep s k m k' ∧ ∀ x ∈ forks, x.holds = none := by
  have hnil : ∀ x ∈ ([] : List Pc), x.holds = none := fun x hx => absurd hx List.not_mem_nil
  cases k with
  | createDecoder =>
    rw [prim] at h
    split at h <;> cases h
    · exact ⟨.create, hnil⟩
    · exact ⟨.quiet _ _ _ rfl rfl rfl (fun _ => rfl) rfl, hnil⟩
  | storeCodec codec =>
    cases h
    exact ⟨.store _ _ codec rfl (fun _ => holds_storeCodec codec) rfl, hnil⟩
  | storeNull =>
    cases h
    exact ⟨.store _ _ .null rfl (fun _ => iff_of_false (by simp [Pc.holds]) (by simp)) rfl, hnil⟩
  | launchOutput =>
    cases h
    refine ⟨.quiet _ _ _ rfl rfl rfl (fun _ => rfl) rfl, fun x hx => ?_⟩
    rw [List.mem_singleton.mp hx]
    rfl
  | load site =>
    cases h
    by_cases hsite : site = .delete
    · subst hsite
      exact ⟨.load, hnil⟩
    · refine ⟨.quiet _ _ _ rfl rfl ?_ (fun _ => rfl) rfl, hnil⟩
      cases site <;> first | rfl | exact absurd rfl hsite
  | issue site codec =>
    cases h
    by_cases hsite : site = .delete
    · subst hsite
      exact ⟨.delete codec, hnil⟩
    · refine ⟨.quiet _ _ _ ?_ rfl (holds_next site r) (fun n => ?_) rfl, hnil⟩
      · cases site <;> first | rfl | exact absurd rfl hsite
      · simp [Shared.live, Shared.call, hsite]
  | done => cases h
  | createSurface | testCreated | render | outputTestStatus | outputTestHandle
  | inputTestHandle _ | inputTestStatus _ | stopTestHandle =>
    -- a test, with a program counter for either outcome
    cases h
    refine ⟨.quiet _ _ _ rfl rfl ?_ (fun _ => rfl) rfl, hnil⟩
    split <;> rfl
  | _ =>
    cases h
    exact ⟨.quiet _ _ _ rfl rfl rfl (fun _ => rfl) rfl, hnil⟩

/-- None of the other threads refers to the codec. -/
def Others (p : Runtime) (i n : ℕ) : Prop :=
  ∀ j x, j ≠ i → p.threads[j]? = some x → x.holds ≠ some n

theorem lost_iff (hk : p.threads[i]? = some k) :
    Lost p n ↔ p.shared.live (.codec n) = true ∧ p.shared.kScreenStreamMediaCodec ≠ .codec n ∧
      k.holds ≠ some n ∧ Others p i n := by
  constructor
  · intro h
    exact ⟨h.live, h.handle, h.threads k (List.mem_of_getElem? hk),
      fun j x _ hj => h.threads x (List.mem_of_getElem? hj)⟩
  · rintro ⟨hlive, hhandle, hself, hothers⟩
    refine ⟨hlive, hhandle, fun x hx => ?_⟩
    obtain ⟨j, hj⟩ := List.getElem?_of_mem hx
    by_cases hne : j = i
    · subst hne
      rwa [Option.some_inj.mp (hj.symm.trans hk)]
    · exact hothers j x hne hj

theorem others_moved (hforks : ∀ x ∈ forks, x.holds = none) :
    Others ⟨m, p.threads.set i k' ++ forks⟩ i n ↔ Others p i n := by
  constructor
  · intro h j x hne hj
    exact h j x hne (Pool.getElem?_unmoved hj hne)
  · intro h j x hne hj
    rcases Pool.getElem?_move hj with ⟨heq, -⟩ | ⟨-, hx⟩ | hx
    · exact absurd heq hne
    · exact h j x hne hx
    · rw [hforks x hx]
      exact (Option.some_ne_none n).symm

theorem overwrites_iff (hk : p.threads[i]? = some k) :
    Overwrites n p (.step i r) ↔ ∃ h, k.stores = some h ∧ h ≠ .codec n ∧
      p.shared.kScreenStreamMediaCodec = .codec n ∧ p.shared.live (.codec n) = true ∧
      Others p i n := by
  constructor
  · rintro ⟨x, h, hx, hrest⟩
    obtain rfl := Option.some_inj.mp (hk.symm.trans hx)
    exact ⟨h, hrest⟩
  · rintro ⟨h, hrest⟩
    exact ⟨k, h, hk, hrest⟩

theorem not_overwrites (hk : p.threads[i]? = some k) (hstores : k.stores = none) :
    ¬ Overwrites n p (.step i r) := by
  rw [overwrites_iff hk, hstores]
  rintro ⟨h, hh, -⟩
  cases hh

/-- A step of a thread loses a codec exactly if it overwrites it. -/
theorem lost_move_iff (hk : p.threads[i]? = some k) (h : HandleStep p.shared k m k')
    (hforks : ∀ x ∈ forks, x.holds = none) :
    Lost ⟨m, p.threads.set i k' ++ forks⟩ n ↔ Lost p n ∨ Overwrites n p (.step i r) := by
  rw [lost_iff (Pool.getElem?_moved hk), others_moved hforks, lost_iff hk]
  cases h with
  | quiet k k' m hholds hstores hk' hlive hhandle =>
    rw [or_iff_left (not_overwrites hk hstores), hholds, hk', hlive, hhandle]
  | create =>
    rw [or_iff_left (not_overwrites hk rfl)]
    constructor
    · -- the codec that is created is held by its thread
      rintro ⟨hlive, hhandle, hself, hothers⟩
      rw [ne_eq, holds_storeCodec, AMediaCodec.codec.injEq] at hself
      rw [Shared.live, Bool.and_eq_true, decide_eq_true_iff] at hlive
      have hlt : n < p.shared.created + 1 := hlive.1
      refine ⟨?_, hhandle, (Option.some_ne_none n).symm, hothers⟩
      rw [Shared.live, Bool.and_eq_true, decide_eq_true_iff]
      exact ⟨by omega, hlive.2⟩
    · rintro ⟨hlive, hhandle, -, hothers⟩
      refine ⟨live_create hlive, hhandle, ?_, hothers⟩
      rw [Shared.live, Bool.and_eq_true, decide_eq_true_iff] at hlive
      rw [ne_eq, holds_storeCodec, AMediaCodec.codec.injEq]
      exact fun heq => absurd hlive.1 (by omega)
  | store k k' h hstores hholds hk' =>
    rw [overwrites_iff hk, ne_eq, ne_eq, ne_eq, ne_eq, hholds, hk']
    constructor
    · rintro ⟨hlive, hne, -, hothers⟩
      by_cases hhandle : p.shared.kScreenStreamMediaCodec = .codec n
      · exact .inr ⟨h, hstores, hne, hhandle, hlive, hothers⟩
      · exact .inl ⟨hlive, hhandle, hne, hothers⟩
    · rintro (⟨hlive, -, hne, hothers⟩ | ⟨h', hh', hne, -, hlive, hothers⟩)
      · exact ⟨hlive, hne, (Option.some_ne_none n).symm, hothers⟩
      · obtain rfl := Option.some_inj.mp (hstores.symm.trans hh')
        exact ⟨hlive, hne, (Option.some_ne_none n).symm, hothers⟩
  | load =>
    rw [or_iff_left (not_overwrites hk rfl)]
    constructor
    · rintro ⟨hlive, hhandle, -, hothers⟩
      exact ⟨hlive, hhandle, (Option.some_ne_none n).symm, hothers⟩
    · rintro ⟨hlive, hhandle, -, hothers⟩
      exact ⟨hlive, hhandle, fun hself => hhandle ((holds_delete _).mp hself), hothers⟩
  | delete h =>
    rw [or_iff_left (not_overwrites hk (by cases h <;> rfl)), live_call]
    constructor
    · rintro ⟨⟨hlive, hne⟩, hhandle, -, hothers⟩
      refine ⟨hlive, hhandle, fun hself => hne ⟨rfl, ?_⟩, hothers⟩
      exact ((holds_delete h).mp hself).symm
    · rintro ⟨hlive, hhandle, hself, hothers⟩
      refine ⟨⟨hlive, fun hd => hself ?_⟩, hhandle, (Option.some_ne_none n).symm, hothers⟩
      exact (holds_delete h).mpr hd.2.symm

theorem lost_spawn (hk : k.holds = none) : Lost (p.spawn k) n ↔ Lost p n := by
  constructor
  · intro h
    exact ⟨h.live, h.handle, fun x hx => h.threads x (List.mem_append_left _ hx)⟩
  · intro h
    refine ⟨h.live, h.handle, fun x hx => ?_⟩
    rcases List.mem_append.mp hx with hx | hx
    · exact h.threads x hx
    · rw [List.mem_singleton.mp hx, hk]
      exact (Option.some_ne_none n).symm

/-- **The step lemma.** -/
theorem lost_step_iff (h : step p l = some q) : Lost q n ↔ Lost p n ∨ Overwrites n p l := by
  cases l with
  | step i r =>
    obtain ⟨k, m, k', forks, hk, hprim, rfl⟩ := Pool.of_move h
    obtain ⟨hstep, hforks⟩ := handleStep_of_prim hprim
    exact lost_move_iff hk hstep hforks
  | _ =>
    obtain rfl := Option.some_inj.mp h
    exact (lost_spawn rfl).trans (or_iff_left id).symm

/-! ### Whole runs -/

/-- A stop deletes the codec of the handle. -/
theorem exists_delete_handle (h : p.shared.kScreenStreamMediaCodec = .codec n) :
    ∃ ls q, Run.exec step p ls = some q ∧ q.shared.live (.codec n) = false := by
  refine ⟨_, _, exec_stop p, ?_⟩
  rw [stopMediaCodec]
  simp [h, Shared.live, Shared.call]

/-- A codec that is not lost can still be deleted. -/
theorem exists_delete (h : ¬ Lost p n) :
    ∃ ls q, Run.exec step p ls = some q ∧ q.shared.live (.codec n) = false := by
  by_cases hlive : p.shared.live (.codec n) = true
  case neg => exact ⟨[], p, rfl, by simpa using hlive⟩
  by_cases hhandle : p.shared.kScreenStreamMediaCodec = .codec n
  case pos => exact exists_delete_handle hhandle
  obtain ⟨k, hmem, hholds⟩ : ∃ k ∈ p.threads, k.holds = some n := by
    by_contra hno
    exact h ⟨hlive, hhandle, fun k hk hholds => hno ⟨k, hk, hholds⟩⟩
  obtain ⟨i, hi⟩ := List.getElem?_of_mem hmem
  rcases holds_iff.mp hholds with rfl | rfl
  · -- the thread stores it, and then a stop deletes it
    have hstep : step p (.step i .success) = some _ := Pool.move_eq hi rfl
    obtain ⟨ls, q, hq, hdead⟩ := exists_delete_handle (p := ⟨{ p.shared with
      kScreenStreamMediaCodec := .codec n }, p.threads.set i .testCreated ++ []⟩) rfl
    refine ⟨.step i .success :: ls, q, ?_, hdead⟩
    rw [Run.exec_cons, hstep]
    exact hq
  · have hstep : step p (.step i .success) = some _ := Pool.move_eq hi rfl
    refine ⟨[.step i .success], ⟨p.shared.call .delete (.codec n),
      p.threads.set i .storeNull ++ []⟩, ?_, ?_⟩
    · rw [Run.exec_cons, hstep]
      rfl
    · simp [Shared.live, Shared.call]

/-- **Codecs that are never deleted.**  After a run no continuation deletes a codec that
has been created exactly if some step of the run has overwritten it: a start has stored
its own over it, or a stop null, while nobody else was about to store or delete it. -/
theorem never_deleted_iff (wild : Bool) (ls : List Label) (p : Runtime)
    (h : Run.exec step (initial wild) ls = some p) (n : ℕ) :
    (∀ ls' q, Run.exec step p ls' = some q → q.shared.live (.codec n) = true) ↔
      ∃ pre l post u, ls = pre ++ l :: post ∧ Run.exec step (initial wild) pre = some u ∧
        Overwrites n u l := by
  have hlost : ∀ {p q ls}, Run.exec step p ls = some q → (Lost q n ↔ Lost p n ∨
      ∃ pre l post u, ls = pre ++ l :: post ∧ Run.exec step p pre = some u ∧ Overwrites n u l) :=
    fun hq => Run.exec_iff_brought_about (fun _ _ _ hst => lost_step_iff hst) hq
  have hinitial : ¬ Lost (initial wild) n := fun hL => by
    have hlive := hL.live
    simp [initial, Shared.live] at hlive
  rw [← or_iff_right (b := ∃ pre l post u, _) hinitial, ← hlost h]
  constructor
  · intro hkept
    by_contra hnot
    obtain ⟨ls', q, hq, hdead⟩ := exists_delete hnot
    rw [hkept ls' q hq] at hdead
    cases hdead
  · intro hL ls' q hq
    exact ((hlost hq).mpr (.inl hL)).live

/-- A start whose codec cannot be configured, and another start. -/
private def twoStarts : List Label :=
  .screenStreamStart :: List.replicate 5 (.step 0 .success) ++ [.step 0 .failure] ++
    .screenStreamStart :: List.replicate 3 (.step 1 .success)

theorem never_deleted_iff_twoStarts :
    ∃ p, Run.exec step (initial false) twoStarts = some p ∧
      ∀ ls' q, Run.exec step p ls' = some q → q.shared.live (.codec 0) = true := by
  obtain ⟨p, hp⟩ : ∃ p, Run.exec step (initial false) twoStarts = some p := ⟨_, rfl⟩
  refine ⟨p, hp, (never_deleted_iff false twoStarts p hp 0).mpr ?_⟩
  refine ⟨twoStarts.dropLast, .step 1 .success, [], _, rfl, rfl, .storeCodec (.codec 1),
    .codec 1, rfl, rfl, by decide, rfl, rfl, ?_⟩
  rintro (_ | _ | j) x hne hx
  · cases hx
    decide
  · exact absurd rfl hne
  · cases hx

end Carplay.Screen

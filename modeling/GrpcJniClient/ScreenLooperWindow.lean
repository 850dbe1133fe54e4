/-
The loops of `ScreenLooper` are those of `SurfaceWindow`.

There the attachment of a window is one step, which waits for the mutex; here a
loop takes the mutex, destroys and creates, and gives it back.

* `exclusive_of_exec` — the mutex is held by one loop or by the UI thread, in any run;
* `Simulates` — the window, its flag, the call in progress and the loops' places
  are the same;
* `exists_simulating_run` — every run is matched by one of `SurfaceWindow`, whose
  attachment is the step that gives the mutex back.
-/
import GrpcJniClient.ScreenLooper

open ThreadPool

namespace Carplay.ScreenLooper

variable {M : Type*} {p p' : Runtime M} {s s' : Shared M} {t : Surface.Shared} {k k' : Looper M}
  {l : Label M} {r : Result M} {forks : List (Looper M)}

/-! ### The mutex -/

/-- The loop holds the mutex. -/
def Pc.critical : Pc → Bool
  | .destroySurface | .createSurface | .clearUpdated => true
  | _ => false

/-- The mutex is held by whoever is where it is needed, and by one at a time. -/
def Exclusive (p : Runtime M) : Prop :=
  p.threads.countP (·.pc.critical) + p.shared.ui.locked.toNat = p.shared.mutex.toNat

theorem Exclusive.of_critical (hp : Exclusive p) (hk : k ∈ p.threads)
    (hcritical : k.pc.critical = true) :
    p.shared.mutex = true ∧ p.shared.ui.locked = false := by
  have hpos : 0 < p.threads.countP (·.pc.critical) := List.countP_pos_iff.mpr ⟨k, hk, hcritical⟩
  have hle := Bool.toNat_le p.shared.mutex
  rw [Exclusive] at hp
  exact ⟨Bool.toNat_eq_one.mp (by omega), Bool.toNat_eq_zero.mp (by omega)⟩

theorem Exclusive.of_locked (hp : Exclusive p) (hlocked : p.shared.ui.locked = true) :
    p.shared.mutex = true := by
  rw [Exclusive, hlocked] at hp
  cases hmutex : p.shared.mutex with
  | true => rfl
  | false => simp [hmutex] at hp

/-- A loop takes the mutex when it is free, and gives it back. -/
theorem critical_of_prim (hmutex : k.pc.critical = true → s.mutex = true)
    (h : prim s r k = some (s', k', forks)) :
    forks = [] ∧ s'.ui = s.ui ∧
      k'.pc.critical.toNat + s.mutex.toNat = k.pc.critical.toNat + s'.mutex.toNat := by
  obtain ⟨pc, texMatrix, updated, latest⟩ := k
  cases pc with
  | frame =>
    simp only [prim] at h
    split at h <;> cases h <;> exact ⟨rfl, rfl, rfl⟩
  | update =>
    cases h
    refine ⟨rfl, rfl, ?_⟩
    cases r.update <;> rfl
  | testUpdated =>
    cases h
    refine ⟨rfl, rfl, ?_⟩
    cases s.mAttachedNativeWindowUpdated <;> rfl
  | lock =>
    simp only [prim] at h
    split at h
    · cases h
    · next hfree =>
      cases h
      rw [Bool.not_eq_true] at hfree
      exact ⟨rfl, rfl, by rw [hfree]; rfl⟩
  | clearUpdated =>
    cases h
    exact ⟨rfl, rfl, by rw [hmutex rfl]; rfl⟩
  | testWindow =>
    cases h
    refine ⟨rfl, rfl, ?_⟩
    split <;> rfl
  | done => cases h
  | _ =>
    cases h
    exact ⟨rfl, rfl, rfl⟩

theorem exclusive_uiStep (hlocked : s.ui.locked = true → s.mutex = true)
    (h : uiStep s = some s') :
    s'.ui.locked.toNat + s.mutex.toNat = s.ui.locked.toNat + s'.mutex.toNat := by
  rw [uiStep] at h
  split at h
  · cases h
  · next surface hui =>
    split at h
    · cases h
    · next hfree =>
      cases h
      rw [Bool.not_eq_true] at hfree
      rw [hfree, hui]
      cases surface <;> rfl
  · next w hui =>
    cases h
    rw [hui]
    rfl
  · next w hui =>
    cases h
    rw [hui]
    rfl
  · next hui =>
    cases h
    rw [hui]
    rfl
  · next hui =>
    cases h
    rw [hlocked (by rw [hui]; rfl), hui]
    rfl

/-- **The mutex excludes.** -/
theorem exclusive_step (hp : Exclusive p) (h : step p l = some p') : Exclusive p' := by
  cases l with
  | surfaceAvailable surface =>
    rw [step] at h
    split at h
    · next hidle =>
      cases h
      rw [Exclusive, hidle] at hp
      exact hp
    · cases h
  | ui =>
    obtain ⟨s, hs, rfl⟩ := Option.map_eq_some_iff.mp h
    have hui := exclusive_uiStep hp.of_locked hs
    rw [Exclusive] at hp ⊢
    dsimp only
    omega
  | frameAvailable =>
    cases h
    exact hp
  | screenStreamStart =>
    cases h
    rw [Exclusive] at hp ⊢
    simpa [Pool.spawn, Looper.start, Pc.critical] using hp
  | render i r =>
    obtain ⟨k, s, k', forks, hk, hprim, rfl⟩ := Pool.of_move h
    obtain ⟨rfl, hui, hcritical⟩ :=
      critical_of_prim (fun hk' => (hp.of_critical (List.mem_of_getElem? hk) hk').1) hprim
    have hcount := Pool.countP_moved (fun k : Looper M => k.pc.critical) k' [] hk
    rw [List.countP_nil, Nat.add_zero] at hcount
    have htoNat : ∀ b : Bool, (if b = true then 1 else 0) = b.toNat := by decide
    rw [htoNat, htoNat] at hcount
    rw [Exclusive] at hp ⊢
    dsimp only
    rw [hui]
    omega

theorem exclusive_of_exec {ls : List (Label M)} {wild : Bool}
    (h : Run.exec step (initial wild) ls = some p) : Exclusive p := by
  have hinitial : Exclusive (initial wild : Runtime M) := rfl
  exact Run.exec_invariant (C := fun _ _ => True) (fun _ _ _ hp _ => exclusive_step hp) hinitial
    (Run.along_true _ _) h

/-! ### Runs of `SurfaceWindow` -/

/-- The step of `SurfaceWindow` before which the loop stands. -/
def Pc.render : Pc → Surface.Render
  | .frame | .update | .done => .frame
  | .testUpdated => .testUpdated
  | .lock | .destroySurface | .createSurface | .clearUpdated => .attach
  | .testWindow => .testWindow
  | .draw => .draw
  | .swap => .swap

/-- The members that are in both models are the same. -/
structure Agrees (s : Shared M) (t : Surface.Shared) : Prop where
  window : t.mAttachNativeWindow = s.mAttachNativeWindow
  updated : t.mAttachedNativeWindowUpdated = s.mAttachedNativeWindowUpdated
  ui : t.ui = s.ui

structure Simulates (p : Runtime M) (q : Surface.Runtime) : Prop where
  shared : Agrees p.shared q.shared
  threads : q.threads = p.threads.map (·.pc.render)

theorem agrees_uiStep (h : Agrees s t) (hs : uiStep s = some s') :
    ∃ t', Surface.uiStep t = some t' ∧ Agrees s' t' := by
  obtain ⟨hwindow, hupdated, hui⟩ := h
  rw [uiStep] at hs
  rw [Surface.uiStep, hui]
  split at hs
  · cases hs
  · next surface hlock =>
    split at hs <;> cases hs
    rw [hlock]
    cases surface with
    | none => exact ⟨{ t with ui := .storeUpdated }, rfl, hwindow, hupdated, rfl⟩
    | some w => exact ⟨{ t with ui := .fromSurface w }, rfl, hwindow, hupdated, rfl⟩
  · next w hfrom =>
    cases hs
    rw [hfrom]
    exact ⟨_, rfl, rfl, hupdated, rfl⟩
  · next w hacquire =>
    cases hs
    rw [hacquire]
    exact ⟨{ t with references := t.references ++ [w], ui := .storeUpdated }, rfl, hwindow,
      hupdated, rfl⟩
  · next hstore =>
    cases hs
    rw [hstore]
    exact ⟨{ t with mAttachedNativeWindowUpdated := true, ui := .unlock }, rfl, hwindow, rfl, rfl⟩
  · next hunlock =>
    cases hs
    rw [hunlock]
    exact ⟨{ t with ui := .idle }, rfl, hwindow, hupdated, rfl⟩

/-- A step of a loop is a step of `SurfaceWindow`, or none. -/
theorem agrees_prim (h : Agrees s t) (hfree : k.pc = .clearUpdated → s.ui.locked = false)
    (hs : prim s r k = some (s', k', forks)) :
    (k'.pc.render = k.pc.render ∧ Agrees s' t) ∨
      ∃ t', Surface.prim t () k.pc.render = some (t', k'.pc.render, []) ∧ Agrees s' t' := by
  obtain ⟨hwindow, hupdated, hui⟩ := h
  obtain ⟨pc, texMatrix, updated, latest⟩ := k
  cases pc with
  | frame =>
    simp only [prim] at hs
    split at hs <;> cases hs <;> exact Or.inl ⟨rfl, hwindow, hupdated, hui⟩
  | update =>
    cases hs
    refine Or.inr ⟨t, ?_, hwindow, hupdated, hui⟩
    cases r.update <;> rfl
  | testUpdated =>
    cases hs
    refine Or.inr ⟨t, ?_, hwindow, hupdated, hui⟩
    simp only [Pc.render, Surface.prim, hupdated]
    cases s.mAttachedNativeWindowUpdated <;> rfl
  | lock =>
    simp only [prim] at hs
    split at hs <;> cases hs
    exact Or.inl ⟨rfl, hwindow, hupdated, hui⟩
  | clearUpdated =>
    -- the mutex is given back, and here it is as if it had been taken only now
    cases hs
    have hunlocked : t.mutex = false := by
      rw [Surface.Shared.mutex, hui]
      exact hfree rfl
    refine Or.inr ⟨{ t with
      mAttachEGLSurface := some t.mAttachNativeWindow, mAttachedNativeWindowUpdated := false }, ?_,
      hwindow, rfl, hui⟩
    simp only [Pc.render, Surface.prim, hunlocked]
    rfl
  | testWindow =>
    cases hs
    refine Or.inr ⟨t, ?_, hwindow, hupdated, hui⟩
    simp only [Pc.render, Surface.prim, hwindow]
    split <;> rfl
  | draw =>
    cases hs
    exact Or.inr ⟨t.display, rfl, hwindow, hupdated, hui⟩
  | swap =>
    cases hs
    exact Or.inr ⟨t.display, rfl, hwindow, hupdated, hui⟩
  | done => cases hs
  | _ =>
    cases hs
    exact Or.inl ⟨rfl, hwindow, hupdated, hui⟩

theorem simulates_step {q : Surface.Runtime} (hp : Exclusive p) (hs : Simulates p q)
    (h : step p l = some p') :
    ∃ ls q', Run.exec Surface.step q ls = some q' ∧ Simulates p' q' := by
  cases l with
  | surfaceAvailable surface =>
    rw [step] at h
    split at h
    · next hidle =>
      cases h
      have hui : q.shared.ui = .idle := hs.shared.ui.trans hidle
      refine ⟨[.surfaceAvailable surface], { q with shared := { q.shared with
          ui := .lock surface
          available := surface.or q.shared.available
          unavailable := false } }, ?_, ⟨hs.shared.window, hs.shared.updated, rfl⟩, hs.threads⟩
      rw [Run.exec_cons, Surface.step, if_pos hui]
      rfl
    · cases h
  | ui =>
    obtain ⟨s, hs', rfl⟩ := Option.map_eq_some_iff.mp h
    obtain ⟨t', ht', hagrees⟩ := agrees_uiStep hs.shared hs'
    refine ⟨[.ui], { q with shared := t' }, ?_, hagrees, hs.threads⟩
    rw [Run.exec_cons, Surface.step, ht']
    rfl
  | frameAvailable =>
    cases h
    exact ⟨[], q, rfl, ⟨hs.shared.window, hs.shared.updated, hs.shared.ui⟩, hs.threads⟩
  | screenStreamStart =>
    cases h
    refine ⟨[.screenStreamStart], q.spawn .frame, rfl,
      ⟨hs.shared.window, hs.shared.updated, hs.shared.ui⟩, ?_⟩
    rw [Pool.spawn, Pool.spawn, List.map_append, ← hs.threads]
    rfl
  | render i r =>
    obtain ⟨k, s, k', forks, hk, hprim, rfl⟩ := Pool.of_move h
    have hmem := List.mem_of_getElem? hk
    obtain ⟨rfl, -, -⟩ := critical_of_prim (fun hk' => (hp.of_critical hmem hk').1) hprim
    have hfree : k.pc = .clearUpdated → p.shared.ui.locked = false := fun hpc =>
      (hp.of_critical hmem (by rw [hpc]; rfl)).2
    have hqi : q.threads[i]? = some k.pc.render := by
      rw [hs.threads, List.getElem?_map, hk]
      rfl
    have hmap : (p.threads.set i k' ++ []).map (fun k : Looper M => k.pc.render)
        = q.threads.set i k'.pc.render := by
      rw [List.append_nil, List.map_set, hs.threads]
    rcases agrees_prim hs.shared hfree hprim with ⟨hsame, hagrees⟩ | ⟨t', ht', hagrees⟩
    · refine ⟨[], q, rfl, hagrees, ?_⟩
      rw [hmap, hsame, ← (List.getElem?_eq_some_iff.mp hqi).choose_spec, List.set_getElem_self]
    · refine ⟨[.render i], ⟨t', q.threads.set i k'.pc.render ++ []⟩, ?_, hagrees, ?_⟩
      · rw [Run.exec_cons, Surface.step, Pool.move_eq hqi ht']
        rfl
      · rw [hmap, List.append_nil]

/-- **Every run is one of `SurfaceWindow`**, with the window, the flag, the call in progress and
the loops' places at its end. -/
theorem exists_simulating_run {wild : Bool} {ls : List (Label M)}
    (h : Run.exec step (initial wild) ls = some p) :
    ∃ ls' q, Run.exec Surface.step (Surface.initial wild) ls' = some q ∧ Simulates p q := by
  have hinitial : Exclusive (initial wild : Runtime M) := rfl
  have hrun : Exclusive p ∧
      ∃ ls' q, Run.exec Surface.step (Surface.initial wild) ls' = some q ∧ Simulates p q := by
    refine Run.exec_invariant (C := fun _ _ => True) (I := fun p : Runtime M => Exclusive p ∧
      ∃ ls' q, Run.exec Surface.step (Surface.initial wild) ls' = some q ∧ Simulates p q)
      ?_ ⟨hinitial, [], _, rfl, ⟨rfl, rfl, rfl⟩, rfl⟩ (Run.along_true _ _) h
    rintro p l p' ⟨hp, ls', q, hq, hs⟩ - hstep
    obtain ⟨ls'', q', hq', hs'⟩ := simulates_step hp hs hstep
    refine ⟨exclusive_step hp hstep, ls' ++ ls'', q', ?_, hs'⟩
    rw [Run.exec_append, hq]
    exact hq'
  exact hrun.2

/-- A loop attaches the first surface. -/
private def attachment : List (Label ℕ) :=
  .surfaceAvailable (some 0) :: List.replicate 5 .ui ++
    .screenStreamStart :: List.replicate 7 (.render 0 ⟨.failed, true⟩)

theorem exists_simulating_run_attachment :
    ∃ (p : Runtime ℕ) (ls' : List Surface.Label) (q : Surface.Runtime),
      Run.exec step (initial false) attachment = some p ∧
      Run.exec Surface.step (Surface.initial false) ls' = some q ∧ Simulates p q := by
  obtain ⟨p, hp⟩ : ∃ p, Run.exec step (initial false) attachment = some p := ⟨_, rfl⟩
  obtain ⟨ls', q, hq, hsim⟩ := exists_simulating_run hp
  exact ⟨p, ls', q, hp, hq, hsim⟩

end Carplay.ScreenLooper

/-
What `screenLooper` draws.

As in `SurfaceWindow` the calls of `surfaceAvailable` come from the UI thread, and
every `screenStreamStart` launches a loop; here a loop has its `texMatrix`, the
attachment of a window is taken apart, and the platform says whether a texture is
updated and an EGL surface created.  `texMatrix` is a local of the loop's body, so
that its values are indeterminate at the start of every iteration.

* `Drawing.Real` — a draw has the matrix of the latest update of its loop, and an
  EGL surface for the window;
* `Inv.step` — so have all, as long as the steps are guarded: no loop finds a window
  after a failed update, or one that is not attached, and none is replaced while a
  loop is about to draw;
* `drawn_real` — and otherwise there may be one that has not;
* `failed_update_is_drawn` — as in a first iteration whose update fails.
-/
import GrpcJniClient.SurfaceWindow

open ThreadPool

namespace Carplay.ScreenLooper

open Surface (NativeWindow Ui)

variable {M : Type*}

/-- What `ASurfaceTexture_updateTexImage` gives; the matrix is the one that
`ASurfaceTexture_getTransformMatrix` writes then. -/
inductive UpdateTexImage (M : Type*) where
  /-- `mSurfaceTexture` is null. -/
  | noSurfaceTexture
  | failed
  | updated (m : M)
  deriving DecidableEq, Repr

/-- What the platform gives in a step. -/
structure Result (M : Type*) where
  update : UpdateTexImage M
  /-- Whether `eglCreateWindowSurface` succeeds, which it does not without a
  window. -/
  created : Bool
  deriving DecidableEq, Repr

/-- Where a loop stands. -/
inductive Pc where
  | frame
  | update
  | testUpdated
  | lock
  | destroySurface
  | createSurface
  | clearUpdated
  | testWindow
  | draw
  | swap
  | done
  deriving DecidableEq, Repr

/-- A `screenLooper` behind its initialisation. -/
structure Looper (M : Type*) where
  pc : Pc
  /-- `none` when it is indeterminate. -/
  texMatrix : Option M
  /-- `updateTexImage` has succeeded in this iteration. -/
  updated : Bool
  /-- The matrix of the most recent successful `updateTexImage`. -/
  latest : Option M
  deriving DecidableEq, Repr

/-- A call of `oesRenderer.draw`. -/
structure Drawing (M : Type*) where
  texMatrix : Option M
  latest : Option M
  mAttachNativeWindow : NativeWindow
  mAttachEGLSurface : Option NativeWindow
  deriving DecidableEq, Repr

/-- The members, the call in progress, and what has happened. -/
structure Shared (M : Type*) where
  gFrameAvailable : Bool
  gRenderQuit : Bool
  mAttachNativeWindow : NativeWindow
  /-- The window of the EGL surface; `none` is `EGL_NO_SURFACE`. -/
  mAttachEGLSurface : Option NativeWindow
  mAttachedNativeWindowUpdated : Bool
  /-- Whether `mAttachNativeWindowMutex` is held. -/
  mutex : Bool
  ui : Ui
  /-- The window that was attached last, whatever came of it. -/
  attached : Option NativeWindow
  drawn : List (Drawing M)
  deriving DecidableEq, Repr

/-- One step of a `surfaceAvailable`. -/
def uiStep (s : Shared M) : Option (Shared M) :=
  match s.ui with
  | .idle => none
  | .lock surface =>
      if s.mutex then none
      else some { s with
        mutex := true
        ui := match surface with
          | some w => .fromSurface w
          | none => .storeUpdated }
  | .fromSurface w => some { s with mAttachNativeWindow := .window w, ui := .acquire w }
  | .acquire _ => some { s with ui := .storeUpdated }
  | .storeUpdated => some { s with mAttachedNativeWindowUpdated := true, ui := .unlock }
  | .unlock => some { s with mutex := false, ui := .idle }

/-- One step of a `screenLooper`. -/
def prim (s : Shared M) (r : Result M) (k : Looper M) :
    Option (Shared M × Looper M × List (Looper M)) :=
  match k.pc with
  | .frame =>
      -- the wait ends by itself after 33 ms
      if s.gRenderQuit then some (s, { k with pc := .done }, [])
      else
        some ({ s with gFrameAvailable := false },
          { k with pc := .update, texMatrix := none, updated := false }, [])
  | .update =>
      some (s, match r.update with
        | .updated m =>
            { k with pc := .testUpdated, texMatrix := some m, updated := true, latest := some m }
        | _ => { k with pc := .testUpdated }, [])
  | .testUpdated =>
      some (s, { k with pc := if s.mAttachedNativeWindowUpdated then .lock else .testWindow }, [])
  | .lock =>
      if s.mutex then none
      else some ({ s with mutex := true }, { k with pc := .destroySurface }, [])
  | .destroySurface =>
      some ({ s with mAttachEGLSurface := none, attached := none },
        { k with pc := .createSurface }, [])
  | .createSurface =>
      some ({ s with
        mAttachEGLSurface :=
          if r.created && s.mAttachNativeWindow ≠ .null then some s.mAttachNativeWindow else none
        attached := some s.mAttachNativeWindow }, { k with pc := .clearUpdated }, [])
  | .clearUpdated =>
      some ({ s with mAttachedNativeWindowUpdated := false, mutex := false },
        { k with pc := .testWindow }, [])
  -- it is the window that is compared with `EGL_NO_SURFACE`, not the surface
  | .testWindow =>
      some (s, { k with pc := if s.mAttachNativeWindow = .null then .frame else .draw }, [])
  | .draw =>
      some ({ s with drawn := s.drawn ++
          [⟨k.texMatrix, k.latest, s.mAttachNativeWindow, s.mAttachEGLSurface⟩] },
        { k with pc := .swap }, [])
  | .swap => some (s, { k with pc := .frame }, [])
  | .done => none

abbrev Runtime (M : Type*) := Pool (Shared M) (Looper M)

inductive Label (M : Type*) where
  | surfaceAvailable (surface : Option ℕ)
  | ui
  /-- `outputLoop` signals a frame. -/
  | frameAvailable
  | screenStreamStart
  | render (i : ℕ) (r : Result M)
  deriving DecidableEq, Repr

/-- A freshly constructed `CarplayRpcRuntime`; the member `mAttachNativeWindow`
has no initializer. -/
def initial (wild : Bool) : Runtime M :=
  ⟨⟨false, false, if wild then .wild else .null, none, false, false, .idle, none, []⟩, []⟩

/-- A loop at its start. -/
def Looper.start : Looper M := ⟨.frame, none, false, none⟩

def step (p : Runtime M) : Label M → Option (Runtime M)
  | .surfaceAvailable surface =>
      if p.shared.ui = .idle then some { p with shared := { p.shared with ui := .lock surface } }
      else none
  | .ui => (uiStep p.shared).map fun s => { p with shared := s }
  | .frameAvailable => some { p with shared := { p.shared with gFrameAvailable := true } }
  | .screenStreamStart =>
      some (({ p with shared := { p.shared with gRenderQuit := false } } : Runtime M).spawn .start)
  | .render i r => p.move prim i r

/-! ### What is drawn -/

/-- The matrix is the one of the most recent successful update, and the surface one that
has been created for the window. -/
structure Drawing.Real (d : Drawing M) : Prop where
  initialized : d.texMatrix.isSome = true
  latest : d.texMatrix = d.latest
  surface : d.mAttachEGLSurface = some d.mAttachNativeWindow

def AllReal (p : Runtime M) : Prop := ∀ d ∈ p.shared.drawn, d.Real

/-- Some loop is about to draw. -/
def AboutToDraw (p : Runtime M) : Prop := ∃ k ∈ p.threads, k.pc = .draw

/-- A loop finds a window only if its update has succeeded and that window is the
one attached last, for which a surface could be created; and while a loop is about to
draw, no other window is stored and no surface destroyed. -/
def Guarded (p : Runtime M) : Label M → Prop
  | .ui => ∀ w, p.shared.ui = .fromSurface w →
      p.shared.mAttachNativeWindow = .window w ∨ ¬ AboutToDraw p
  | .render i r => ∀ k, p.threads[i]? = some k →
      (k.pc = .testWindow → p.shared.mAttachNativeWindow ≠ .null →
        k.updated = true ∧ p.shared.attached = some p.shared.mAttachNativeWindow) ∧
      (k.pc = .createSurface → p.shared.mAttachNativeWindow ≠ .null → r.created = true) ∧
      (k.pc = .destroySurface → ¬ AboutToDraw p)
  | _ => True

instance (p : Runtime M) : Decidable (AboutToDraw p) :=
  inferInstanceAs (Decidable (∃ k ∈ p.threads, k.pc = .draw))

instance (p : Runtime M) (l : Label M) : Decidable (Guarded p l) := by
  cases l with
  | ui =>
    refine decidable_of_iff (∀ w ∈ p.shared.ui.surface, p.shared.ui = .fromSurface w →
      p.shared.mAttachNativeWindow = .window w ∨ ¬ AboutToDraw p)
      ⟨fun h w hw => ?_, fun h w _ => h w⟩
    exact h w (by rw [hw]; rfl) hw
  | render i r =>
    exact inferInstanceAs (Decidable (∀ k ∈ p.threads[i]?,
      (k.pc = .testWindow → p.shared.mAttachNativeWindow ≠ .null →
        k.updated = true ∧ p.shared.attached = some p.shared.mAttachNativeWindow) ∧
      (k.pc = .createSurface → p.shared.mAttachNativeWindow ≠ .null → r.created = true) ∧
      (k.pc = .destroySurface → ¬ AboutToDraw p)))
  | _ => exact isTrue trivial

/-- What holds of a loop. -/
structure LooperInv (s : Shared M) (k : Looper M) : Prop where
  updated : k.updated = true → k.texMatrix.isSome = true ∧ k.texMatrix = k.latest
  indeterminate : k.updated = false → k.texMatrix = none
  draw : k.pc = .draw → k.updated = true ∧ s.mAttachEGLSurface = some s.mAttachNativeWindow

/-- The invariant of a guarded run. -/
structure Inv (p : Runtime M) : Prop where
  surface : ∀ w, p.shared.mAttachEGLSurface = some w → p.shared.attached = some w ∧ w ≠ .null
  attached : ∀ w, p.shared.attached = some w → w = .null ∨ p.shared.mAttachEGLSurface = some w
  loopers : ∀ k ∈ p.threads, LooperInv p.shared k
  drawn : AllReal p

theorem Inv.initial (wild : Bool) : Inv (initial wild : Runtime M) where
  surface _ h := by cases h
  attached _ h := by cases h
  loopers _ hk := by cases hk
  drawn _ hd := by cases hd

variable {p q : Runtime M} {s s' : Shared M} {k k' : Looper M} {l : Label M} {i : ℕ} {r : Result M}

/-- A loop that is not about to draw does not depend on the window. -/
theorem LooperInv.congr (hk : LooperInv s k)
    (hdraw : k.pc = .draw → s'.mAttachEGLSurface = some s'.mAttachNativeWindow) :
    LooperInv s' k :=
  ⟨hk.updated, hk.indeterminate, fun h => ⟨(hk.draw h).1, hdraw h⟩⟩

/-- A loop that goes on, but not to a draw. -/
theorem LooperInv.goOn (hk : LooperInv s k) {pc : Pc} (hpc : pc ≠ .draw) (s' : Shared M) :
    LooperInv s' { k with pc := pc } :=
  ⟨hk.updated, hk.indeterminate, fun h => absurd h hpc⟩

/-- A loop takes a step. -/
theorem Inv.move (hI : Inv p)
    (hsurface : ∀ w, s'.mAttachEGLSurface = some w → s'.attached = some w ∧ w ≠ .null)
    (hattached : ∀ w, s'.attached = some w → w = .null ∨ s'.mAttachEGLSurface = some w)
    (hothers : AboutToDraw p → s'.mAttachEGLSurface = some s'.mAttachNativeWindow)
    (hk' : LooperInv s' k') (hdrawn : ∀ d ∈ s'.drawn, d.Real) :
    Inv (⟨s', p.threads.set i k' ++ []⟩ : Runtime M) where
  surface := hsurface
  attached := hattached
  loopers x hx := by
    -- the loop itself, or another, which may be about to draw
    rcases Pool.mem_move hx with rfl | hx | hx
    · exact hk'
    · exact (hI.loopers x hx).congr fun hdraw => hothers ⟨x, hx, hdraw⟩
    · cases hx
  drawn := hdrawn

theorem Inv.surface_of_aboutToDraw (hI : Inv p) (h : AboutToDraw p) :
    p.shared.mAttachEGLSurface = some p.shared.mAttachNativeWindow := by
  obtain ⟨k, hk, hdraw⟩ := h
  exact ((hI.loopers k hk).draw hdraw).2

/-- A step of a loop that changes nothing of what the invariant is about. -/
theorem Inv.move_same (hI : Inv p) (hsurface : s'.mAttachEGLSurface = p.shared.mAttachEGLSurface)
    (hwindow : s'.mAttachNativeWindow = p.shared.mAttachNativeWindow)
    (hattached : s'.attached = p.shared.attached) (hdrawn : s'.drawn = p.shared.drawn)
    (hk' : LooperInv s' k') : Inv (⟨s', p.threads.set i k' ++ []⟩ : Runtime M) := by
  refine hI.move ?_ ?_ (fun h => ?_) hk' ?_
  · rw [hsurface, hattached]
    exact hI.surface
  · rw [hsurface, hattached]
    exact hI.attached
  · rw [hsurface, hwindow]
    exact hI.surface_of_aboutToDraw h
  · rw [hdrawn]
    exact hI.drawn

/-- The surface is created for the window there is. -/
theorem Inv.createSurface (hI : Inv p)
    (hcreated : p.shared.mAttachNativeWindow ≠ .null → r.created = true)
    (hk' : ∀ s' : Shared M, LooperInv s' k') :
    Inv (⟨{ p.shared with
        mAttachEGLSurface :=
          if r.created && p.shared.mAttachNativeWindow ≠ .null
            then some p.shared.mAttachNativeWindow else none
        attached := some p.shared.mAttachNativeWindow },
      p.threads.set i k' ++ []⟩ : Runtime M) := by
  by_cases hnull : p.shared.mAttachNativeWindow = .null
  · refine hI.move (fun w h => ?_) (fun w h => Or.inl ?_) (fun h => ?_) (hk' _) hI.drawn
    · simp [hnull] at h
    · rw [← Option.some_inj.mp h]
      exact hnull
    · -- there is no loop that draws without a window
      have hsurface := hI.surface_of_aboutToDraw h
      exact absurd hnull (hI.surface _ hsurface).2
  · have hsome : (if r.created && decide (p.shared.mAttachNativeWindow ≠ .null)
          then some p.shared.mAttachNativeWindow else none)
        = some p.shared.mAttachNativeWindow := by
      simp [hcreated hnull, hnull]
    refine hI.move (fun w h => ?_) (fun w h => Or.inr ?_) (fun _ => hsome) (hk' _) hI.drawn
    · rw [← Option.some_inj.mp (hsome.symm.trans h)]
      exact ⟨rfl, hnull⟩
    · exact hsome.trans h

/-- A loop draws what it has updated, on the surface of the window. -/
theorem Inv.draw (hI : Inv p) (hkI : LooperInv p.shared k) (hpc : k.pc = .draw)
    (hk' : ∀ s' : Shared M, LooperInv s' k') :
    Inv (⟨{ p.shared with drawn := p.shared.drawn ++ [⟨k.texMatrix, k.latest,
        p.shared.mAttachNativeWindow, p.shared.mAttachEGLSurface⟩] },
      p.threads.set i k' ++ []⟩ : Runtime M) := by
  obtain ⟨hupdated, hsurface⟩ := hkI.draw hpc
  obtain ⟨hinitialized, hlatest⟩ := hkI.updated hupdated
  refine hI.move hI.surface hI.attached (fun _ => hsurface) (hk' _) fun d hd => ?_
  rcases List.mem_append.mp hd with hd | hd
  · exact hI.drawn d hd
  · obtain rfl := List.mem_singleton.mp hd
    exact ⟨hinitialized, hlatest, hsurface⟩

theorem Inv.render (hI : Inv p) (hG : Guarded p (.render i r)) (hk : p.threads[i]? = some k)
    {forks : List (Looper M)} (h : prim p.shared r k = some (s', k', forks)) :
    Inv (⟨s', p.threads.set i k' ++ forks⟩ : Runtime M) := by
  have hkI := hI.loopers k (List.mem_of_getElem? hk)
  obtain ⟨hwindow, hcreated, hdestroy⟩ := hG k hk
  obtain ⟨pc, texMatrix, updated, latest⟩ := k
  cases pc with
  | frame =>
    simp only [prim] at h
    split at h <;> cases h
    · exact hI.move_same rfl rfl rfl rfl (hkI.goOn (by simp) _)
    · exact hI.move_same rfl rfl rfl rfl ⟨by simp, by simp, by simp⟩
  | update =>
    cases h
    refine hI.move_same rfl rfl rfl rfl ?_
    split
    · exact ⟨by simp, by simp, by simp⟩
    · exact hkI.goOn (by simp) _
  | testUpdated =>
    cases h
    refine hI.move_same rfl rfl rfl rfl (hkI.goOn ?_ _)
    split <;> simp
  | lock =>
    simp only [prim] at h
    split at h <;> cases h
    exact hI.move_same rfl rfl rfl rfl (hkI.goOn (by simp) _)
  | destroySurface =>
    cases h
    exact hI.move (fun w h => by cases h) (fun w h => by cases h) (fun h => absurd h (hdestroy rfl))
      (hkI.goOn (by simp) _) hI.drawn
  | createSurface =>
    cases h
    -- the guard lets a window find a surface that could be created
    exact hI.createSurface (hcreated rfl) (hkI.goOn (by simp))
  | clearUpdated =>
    cases h
    exact hI.move_same rfl rfl rfl rfl (hkI.goOn (by simp) _)
  | testWindow =>
    cases h
    refine hI.move_same rfl rfl rfl rfl ?_
    by_cases hnull : p.shared.mAttachNativeWindow = .null
    · exact hkI.goOn (by simp [hnull]) _
    · -- it draws next, so the guard asks for the update and the window
      obtain ⟨hupdated, hattached⟩ := hwindow rfl hnull
      exact ⟨hkI.updated, hkI.indeterminate,
        fun _ => ⟨hupdated, (hI.attached _ hattached).resolve_left hnull⟩⟩
  | draw =>
    cases h
    exact hI.draw hkI rfl (hkI.goOn (by simp))
  | swap =>
    cases h
    exact hI.move_same rfl rfl rfl rfl (hkI.goOn (by simp) _)
  | done => cases h

/-- A step outside the loops. -/
theorem Inv.outside (hI : Inv p) (hsurface : s.mAttachEGLSurface = p.shared.mAttachEGLSurface)
    (hattached : s.attached = p.shared.attached) (hdrawn : s.drawn = p.shared.drawn)
    (hwindow : s.mAttachNativeWindow = p.shared.mAttachNativeWindow ∨ ¬ AboutToDraw p) :
    Inv ({ p with shared := s } : Runtime M) where
  surface := by
    rw [hsurface, hattached]
    exact hI.surface
  attached := by
    rw [hsurface, hattached]
    exact hI.attached
  loopers k hk := by
    refine (hI.loopers k hk).congr fun hdraw => ?_
    have hwindow := hwindow.resolve_right (not_not.mpr ⟨k, hk, hdraw⟩)
    rw [hsurface, hwindow]
    exact ((hI.loopers k hk).draw hdraw).2
  drawn := by
    rw [AllReal, hdrawn]
    exact hI.drawn

/-- What a step of a `surfaceAvailable` leaves alone. -/
theorem uiStep_cases (h : uiStep s = some s') :
    s'.mAttachEGLSurface = s.mAttachEGLSurface ∧ s'.attached = s.attached ∧ s'.drawn = s.drawn ∧
      (s'.mAttachNativeWindow = s.mAttachNativeWindow ∨
        ∃ w, s.ui = .fromSurface w ∧ s'.mAttachNativeWindow = .window w) := by
  rw [uiStep] at h
  split at h
  · cases h
  · split at h <;> cases h
    exact ⟨rfl, rfl, rfl, Or.inl rfl⟩
  · next w hui =>
    cases h
    exact ⟨rfl, rfl, rfl, Or.inr ⟨w, hui, rfl⟩⟩
  all_goals
    cases h
    exact ⟨rfl, rfl, rfl, Or.inl rfl⟩

/-- **The step lemma.** -/
theorem Inv.step (hI : Inv p) (hG : Guarded p l) (h : ScreenLooper.step p l = some q) : Inv q := by
  cases l with
  | surfaceAvailable surface =>
    rw [ScreenLooper.step] at h
    split at h <;> cases h
    exact hI.outside rfl rfl rfl (Or.inl rfl)
  | ui =>
    obtain ⟨s, hs, rfl⟩ := Option.map_eq_some_iff.mp h
    obtain ⟨hsurface, hattached, hdrawn, hwindow⟩ := uiStep_cases hs
    refine hI.outside hsurface hattached hdrawn ?_
    rcases hwindow with hsame | ⟨w, hui, hw⟩
    · exact Or.inl hsame
    · -- the window is replaced
      exact (hG w hui).imp_left fun hsame => hw.trans hsame.symm
  | frameAvailable =>
    cases h
    exact hI.outside rfl rfl rfl (Or.inl rfl)
  | screenStreamStart =>
    cases h
    refine ⟨hI.surface, hI.attached, fun k hk => ?_, hI.drawn⟩
    rcases List.mem_append.mp hk with hk | hk
    · exact (hI.loopers k hk).congr fun hdraw => ((hI.loopers k hk).draw hdraw).2
    · obtain rfl := List.mem_singleton.mp hk
      exact ⟨by simp [Looper.start], by simp [Looper.start], by simp [Looper.start]⟩
  | render i r =>
    obtain ⟨k, s, k', forks, hk, hprim, rfl⟩ := Pool.of_move h
    exact hI.render hG hk hprim

/-! ### What goes wrong otherwise -/

/-- A loop about to draw, without a matrix or without a surface for the window, can go
on and draw. -/
theorem exists_not_real_of_draw (hk : p.threads[i]? = some k) (hdraw : k.pc = .draw)
    (hnot : k.texMatrix = none ∨ p.shared.mAttachEGLSurface ≠ some p.shared.mAttachNativeWindow) :
    ∃ ls q, Run.exec ScreenLooper.step p ls = some q ∧ ¬ AllReal q := by
  let d : Drawing M :=
    ⟨k.texMatrix, k.latest, p.shared.mAttachNativeWindow, p.shared.mAttachEGLSurface⟩
  let s : Shared M := { p.shared with drawn := p.shared.drawn ++ [d] }
  have hprim : prim p.shared ⟨.failed, false⟩ k = some (s, { k with pc := .swap }, []) := by
    rw [prim, hdraw]
  refine ⟨[.render i ⟨.failed, false⟩], ⟨s, p.threads.set i { k with pc := .swap } ++ []⟩, ?_,
    fun hreal => ?_⟩
  · rw [Run.exec_cons, ScreenLooper.step, Pool.move_eq hk hprim]
    rfl
  · have hd : d.Real := hreal _ (List.mem_append_right _ (List.mem_singleton_self _))
    rcases hnot with hnone | hsurface
    · have hsome : k.texMatrix.isSome = true := hd.initialized
      rw [hnone] at hsome
      cases hsome
    · exact hsurface hd.surface

/-- Loops fork nothing. -/
theorem getElem?_moved {ks : List (Looper M)} (hk : ks[i]? = some k) (k' : Looper M) :
    (ks.set i k' ++ [])[i]? = some k' :=
  Pool.getElem?_moved hk

/-- A loop whose surface could not be created goes on to its draw. -/
theorem exists_not_real_of_clearUpdated (hk : p.threads[i]? = some k) (hpc : k.pc = .clearUpdated)
    (hwindow : p.shared.mAttachNativeWindow ≠ .null)
    (hsurface : p.shared.mAttachEGLSurface = none) :
    ∃ ls q, Run.exec ScreenLooper.step p ls = some q ∧ ¬ AllReal q := by
  let r : Result M := ⟨.failed, false⟩
  let s : Shared M := { p.shared with mAttachedNativeWindowUpdated := false, mutex := false }
  have hclear : prim p.shared r k = some (s, { k with pc := .testWindow }, []) := by
    rw [prim, hpc]
  have htest : prim s r { k with pc := .testWindow } = some (s, { k with pc := .draw }, []) := by
    simp [prim, hwindow, s]
  have hk₁ := getElem?_moved hk { k with pc := .testWindow }
  have hk₂ := getElem?_moved hk₁ { k with pc := .draw }
  obtain ⟨ls, q, hq, hnot⟩ := exists_not_real_of_draw (p := ⟨s, _⟩) hk₂ rfl
    (Or.inr (by simp [s, hsurface]))
  refine ⟨.render i r :: .render i r :: ls, q, ?_, hnot⟩
  rw [Run.exec_cons, ScreenLooper.step, Pool.move_eq hk hclear, Option.bind_some, Run.exec_cons,
    ScreenLooper.step, Pool.move_eq hk₁ htest, Option.bind_some]
  exact hq

theorem goesWrong_of_render (hI : Inv p) (hk : p.threads[i]? = some k)
    {forks : List (Looper M)} (h : prim p.shared r k = some (s', k', forks))
    (hG : ¬ Guarded p (.render i r)) :
    ∃ ls q, Run.exec ScreenLooper.step (⟨s', p.threads.set i k' ++ forks⟩ : Runtime M) ls = some q ∧
      ¬ AllReal q := by
  have hkI := hI.loopers k (List.mem_of_getElem? hk)
  have hmoved := getElem?_moved hk
  simp only [Guarded, hk, Option.some_inj, forall_eq', not_and_or, Classical.not_imp, not_not] at hG
  obtain ⟨pc, texMatrix, updated, latest⟩ := k
  rcases hG with ⟨rfl, hwindow, hnot⟩ | ⟨rfl, hwindow, hcreated⟩ | ⟨rfl, j, hj, hdraw⟩
  · cases h
    refine exists_not_real_of_draw (hmoved _) (by simp [hwindow]) ?_
    -- no update, or no surface for the window
    cases hupdated : updated with
    | false => exact Or.inl (hkI.indeterminate hupdated)
    | true =>
      exact Or.inr fun hsurface => hnot.elim (absurd hupdated) (absurd (hI.surface _ hsurface).1)
  · cases h
    exact exists_not_real_of_clearUpdated (hmoved _) rfl hwindow (by simp [hcreated])
  · cases h
    obtain ⟨j, hj⟩ := List.mem_iff_getElem?.mp hj
    -- the loop that destroys the surface is not the one that draws
    have hne : j ≠ i := by
      rintro rfl
      cases Option.some_inj.mp (hk.symm.trans hj)
      cases hdraw
    exact exists_not_real_of_draw (Pool.getElem?_unmoved hj hne) hdraw (Or.inr (by simp))

/-- A step that is not guarded can go wrong. -/
theorem goesWrong_of_not_guarded (hI : Inv p) (hG : ¬ Guarded p l)
    (h : ScreenLooper.step p l = some q) :
    ∃ ls q', Run.exec ScreenLooper.step q ls = some q' ∧ ¬ AllReal q' := by
  cases l with
  | ui =>
    obtain ⟨s, hs, rfl⟩ := Option.map_eq_some_iff.mp h
    simp only [Guarded, Classical.not_forall, not_or, not_not] at hG
    obtain ⟨w, hui, hother, k, hk, hdraw⟩ := hG
    obtain ⟨i, hi⟩ := List.mem_iff_getElem?.mp hk
    have hsurface := ((hI.loopers k hk).draw hdraw).2
    simp only [uiStep, hui, Option.some_inj] at hs
    subst hs
    refine exists_not_real_of_draw hi hdraw (Or.inr fun h => hother ?_)
    exact Option.some_inj.mp (hsurface.symm.trans h)
  | render i r =>
    obtain ⟨k, s, k', forks, hk, hprim, rfl⟩ := Pool.of_move h
    exact goesWrong_of_render hI hk hprim hG
  | _ => exact absurd trivial hG

/-- **What is drawn is real, exactly where each iteration has what it draws.**  In every
run whose steps are guarded, with whatever updates, surfaces and frames, every draw has
the matrix of the latest update of its loop and a surface for the window; and a run with
another step can, from right after the first such step, be continued so that one has
not. -/
theorem drawn_real (wild : Bool) (ls : List (Label M)) :
    (Run.Along ScreenLooper.step Guarded (initial wild) ls →
      ∀ p, Run.Reached ScreenLooper.step (initial wild) ls p → AllReal p) ∧
    ((Run.exec ScreenLooper.step (initial wild) ls).isSome = true →
      ¬ Run.Along ScreenLooper.step Guarded (initial wild) ls →
      Run.Strays ScreenLooper.step Guarded (fun p => ¬ AllReal p) (initial wild) ls) := by
  have keep : ∀ p l q, Inv p → Guarded p l → ScreenLooper.step (M := M) p l = some q → Inv q :=
    fun _ _ _ hI hG h => hI.step hG h
  exact Run.forall_reached_and_strays (fun _ hI => hI.drawn) keep
    (fun _ _ _ hI hG h => goesWrong_of_not_guarded hI hG h) (Inv.initial wild)

/-- A surface becomes available, and a loop takes nine steps. -/
private def firstFrame (update : UpdateTexImage ℕ) : List (Label ℕ) :=
  .surfaceAvailable (some 0) :: List.replicate 5 .ui ++
    .screenStreamStart :: List.replicate 9 (.render 0 ⟨update, true⟩)

/-- Something is drawn, with the matrix of the update and on the surface. -/
theorem drawn_real_firstFrame :
    Run.Along ScreenLooper.step Guarded (initial false) (firstFrame (.updated 7)) ∧
      ∃ p, Run.exec ScreenLooper.step (initial false) (firstFrame (.updated 7)) = some p ∧
        p.shared.drawn = [⟨some 7, some 7, .window 0, some (.window 0)⟩] ∧ AllReal p := by
  have hguarded : Run.Along ScreenLooper.step Guarded (initial false)
      (firstFrame (.updated 7)) := by
    decide +kernel
  obtain ⟨p, hp, hdrawn⟩ : ∃ p, Run.exec ScreenLooper.step (initial false)
      (firstFrame (.updated 7)) = some p ∧
      p.shared.drawn = [⟨some 7, some 7, .window 0, some (.window 0)⟩] := ⟨_, rfl, rfl⟩
  exact ⟨hguarded, p, hp, hdrawn,
    (drawn_real false (firstFrame (.updated 7))).1 hguarded p (Run.reached_of_exec hp)⟩

/-- **A failed update is drawn.**  The draw gets a matrix that nothing has written. -/
theorem failed_update_is_drawn :
    ¬ ∀ (wild : Bool) (ls : List (Label ℕ)) (p : Runtime ℕ),
      Run.Reached ScreenLooper.step (initial wild) ls p → AllReal p := by
  intro h
  have hreal := h false (firstFrame .failed) _ (Run.reached_of_exec rfl)
  have hsome := (hreal _ (List.mem_singleton_self _)).initialized
  cases hsome

end Carplay.ScreenLooper

/-
The window of the surface: `surfaceAvailable`, `notifySurfaceUnavailable`, and the
render loop of `screenLooper`.

The calls come one after another from the UI thread; every `screenStreamStart`
launches a `screenLooper`.  `surfaceAvailable` holds `mAttachNativeWindowMutex`
from its first step to its last.  The render loop holds it while it attaches the
window, which is one step here, and not while it tests the two members, draws and
swaps.  A surface is told from others by its native window.

* `Kept` — after each call the references held are to the window of the surface
  that is available, and nothing has been drawn while none was;
* `Guarded` — a surface becomes available only with the window of all references
  held, and becomes unavailable only while there is no window;
* `Inv.step` — as long as the calls are guarded, all is kept;
* `window_kept` — and otherwise it need not be;
* `references_survive` — the first surface that becomes unavailable leaves two
  references.
-/
import GrpcJniClient.ThreadPool

open ThreadPool

namespace Carplay.Surface

/-- An `ANativeWindow*`. -/
inductive NativeWindow where
  | null
  /-- What an uninitialised pointer holds when it is not null. -/
  | wild
  | window (w : ℕ)
  deriving DecidableEq, Repr

/-- Where the UI thread stands in a `surfaceAvailable`; `none` is a null
surface. -/
inductive Ui where
  | idle
  | lock (surface : Option ℕ)
  | fromSurface (w : ℕ)
  | acquire (w : ℕ)
  | storeUpdated
  | unlock
  deriving DecidableEq, Repr

/-- The surface for which the call has still to take a reference. -/
def Ui.surface : Ui → Option ℕ
  | .lock surface => surface
  | .fromSurface w => some w
  | .acquire w => some w
  | _ => none

/-- The call has got its window, and the first of its two references. -/
def Ui.acquiring : Ui → Bool
  | .acquire _ => true
  | _ => false

/-- The call holds `mAttachNativeWindowMutex`. -/
def Ui.locked : Ui → Bool
  | .idle => false
  | .lock _ => false
  | _ => true

/-- Where a render loop stands. -/
inductive Render where
  /-- It waits for a frame and updates the texture. -/
  | frame
  | testUpdated
  | attach
  | testWindow
  | draw
  | swap
  deriving DecidableEq, Repr

/-- The members, the call in progress, and what has happened. -/
structure Shared where
  mAttachNativeWindow : NativeWindow
  /-- The window of the EGL surface; `none` is `EGL_NO_SURFACE`. -/
  mAttachEGLSurface : Option NativeWindow
  mAttachedNativeWindowUpdated : Bool
  ui : Ui
  /-- The references taken and not released. -/
  references : List ℕ
  /-- The surface that has become available and not unavailable. -/
  available : Option ℕ
  /-- No surface has become available since one became unavailable. -/
  unavailable : Bool
  /-- Something was drawn or swapped in such a time. -/
  drawnUnavailable : Bool
  deriving DecidableEq, Repr

/-- `mAttachNativeWindowMutex` is held. -/
def Shared.mutex (s : Shared) : Bool := s.ui.locked

/-- `oesRenderer.draw` or `eglSwapBuffers`. -/
def Shared.display (s : Shared) : Shared :=
  { s with drawnUnavailable := s.drawnUnavailable || s.unavailable }

/-- One step of a `surfaceAvailable`. -/
def uiStep (s : Shared) : Option Shared :=
  match s.ui with
  | .idle => none
  | .lock (some w) => some { s with ui := .fromSurface w }
  | .lock none => some { s with ui := .storeUpdated }
  | .fromSurface w =>
      some { s with
        -- a reference to the window before is not released
        mAttachNativeWindow := .window w
        references := s.references ++ [w]
        ui := .acquire w }
  | .acquire w => some { s with references := s.references ++ [w], ui := .storeUpdated }
  | .storeUpdated => some { s with mAttachedNativeWindowUpdated := true, ui := .unlock }
  | .unlock => some { s with ui := .idle }

/-- One step of a render loop. -/
def prim (s : Shared) (_ : Unit) : Render → Option (Shared × Render × List Render)
  | .frame => some (s, .testUpdated, [])
  | .testUpdated => some (s, if s.mAttachedNativeWindowUpdated then .attach else .testWindow, [])
  | .attach =>
      -- the lock is taken behind the test of the flag, the window is read under it
      if s.mutex then none
      else
        some ({ s with
          mAttachEGLSurface := some s.mAttachNativeWindow
          mAttachedNativeWindowUpdated := false }, .testWindow, [])
  -- the test, the draw and the swap are done without the mutex
  | .testWindow => some (s, if s.mAttachNativeWindow = .null then .frame else .draw, [])
  | .draw => some (s.display, .swap, [])
  | .swap => some (s.display, .frame, [])

abbrev Runtime := Pool Shared Render

inductive Label where
  | surfaceAvailable (surface : Option ℕ)
  | notifySurfaceUnavailable
  | ui
  | screenStreamStart
  | render (i : ℕ)
  deriving DecidableEq, Repr

/-- A freshly constructed `CarplayRpcRuntime`; the member `mAttachNativeWindow`
has no initializer. -/
def initial (wild : Bool) : Runtime :=
  ⟨⟨if wild then .wild else .null, none, false, .idle, [], none, false, false⟩, []⟩

def step (p : Runtime) : Label → Option Runtime
  | .surfaceAvailable surface =>
      if p.shared.ui = .idle then
        some { p with shared := { p.shared with
          ui := .lock surface
          available := surface.or p.shared.available
          unavailable := false } }
      else none
  | .notifySurfaceUnavailable =>
      -- the body of the handler is empty
      if p.shared.ui = .idle then
        some { p with shared := { p.shared with available := none, unavailable := true } }
      else none
  | .ui => (uiStep p.shared).map fun s => { p with shared := s }
  | .screenStreamStart => some (p.spawn .frame)
  | .render i => p.move prim i ()

/-- What is to hold after each call, and of the draws. -/
structure Kept (s : Shared) : Prop where
  references : s.ui = .idle → ∀ w ∈ s.references, s.available = some w
  display : s.drawnUnavailable = false

/-- All references are to the window of a surface that becomes available, and
there is no window when one becomes unavailable. -/
def Guarded (p : Runtime) : Label → Prop
  | .surfaceAvailable (some w) => ∀ w' ∈ p.shared.references, w' = w
  | .notifySurfaceUnavailable => p.shared.mAttachNativeWindow = .null
  | _ => True

instance (p : Runtime) (l : Label) : Decidable (Guarded p l) := by
  cases l with
  | surfaceAvailable surface =>
    cases surface with
    | none => exact isTrue trivial
    | some w => exact inferInstanceAs (Decidable (∀ w' ∈ p.shared.references, w' = w))
  | notifySurfaceUnavailable =>
    exact inferInstanceAs (Decidable (p.shared.mAttachNativeWindow = .null))
  | _ => exact isTrue trivial

/-! ### Guarded runs -/

/-- What a step of a `surfaceAvailable` does. -/
structure Advances (s s' : Shared) : Prop where
  available : s'.available = s.available
  unavailable : s'.unavailable = s.unavailable
  drawnUnavailable : s'.drawnUnavailable = s.drawnUnavailable
  busy : s.ui ≠ .idle
  surface : ∀ w, s'.ui.surface = some w → s.ui.surface = some w
  references : ∀ w ∈ s'.references, w ∈ s.references ∨ s.ui.surface = some w
  /-- A window once there stays. -/
  window : s.mAttachNativeWindow ≠ .null → s'.mAttachNativeWindow ≠ .null
  /-- No reference without a window. -/
  holds : s'.references ≠ [] ∨ s'.ui.acquiring = true →
    s'.mAttachNativeWindow ≠ .null ∨
      s'.mAttachNativeWindow = s.mAttachNativeWindow ∧
        (s.references ≠ [] ∨ s.ui.acquiring = true)

/-- A step that takes no reference. -/
theorem Advances.of_same {s : Shared} {u : Ui} (updated : Bool) (hbusy : s.ui ≠ .idle)
    (hsurface : ∀ w, u.surface = some w → s.ui.surface = some w) (hu : u.acquiring = false) :
    Advances s { s with mAttachedNativeWindowUpdated := updated, ui := u } where
  available := rfl
  unavailable := rfl
  drawnUnavailable := rfl
  busy := hbusy
  surface := hsurface
  references _ hw := .inl hw
  window := id
  holds h := .inr ⟨rfl, .inl (h.resolve_right (by rw [hu]; exact Bool.false_ne_true))⟩

theorem mem_concat {w w' : ℕ} {ws : List ℕ} (h : w' ∈ ws ++ [w]) : w' ∈ ws ∨ some w = some w' :=
  (List.mem_append.mp h).imp_right fun h => by rw [List.mem_singleton.mp h]

theorem advances_of_uiStep {s s' : Shared} (h : uiStep s = some s') : Advances s s' := by
  rw [uiStep] at h
  split at h
  · cases h
  · rename_i w hu
    cases h
    exact .of_same _ (by simp [hu]) (fun _ hw => by rw [hu]; exact hw) rfl
  · rename_i hu
    cases h
    exact .of_same _ (by simp [hu]) (fun _ hw => by cases hw) rfl
  · rename_i w hu
    cases h
    refine ⟨rfl, rfl, rfl, by simp [hu], fun _ hw => by rw [hu]; exact hw, fun w' hw' => ?_,
      fun _ => by simp, fun _ => .inl (by simp)⟩
    rw [hu]
    exact mem_concat hw'
  · rename_i w hu
    cases h
    refine ⟨rfl, rfl, rfl, by simp [hu], fun _ hw => (by cases hw), fun w' hw' => ?_, id,
      fun _ => .inr ⟨rfl, .inr (by rw [hu]; rfl)⟩⟩
    rw [hu]
    exact mem_concat hw'
  · rename_i hu
    cases h
    exact .of_same _ (by simp [hu]) (fun _ hw => by cases hw) rfl
  · rename_i hu
    cases h
    exact .of_same _ (by simp [hu]) (fun _ hw => by cases hw) rfl

/-- The invariant of a guarded run. -/
structure Inv (p : Runtime) : Prop where
  references : ∀ w ∈ p.shared.references, p.shared.available = some w
  /-- The call takes references to the surface that it has made available. -/
  surface : ∀ w, p.shared.ui.surface = some w → p.shared.available = some w
  holds : p.shared.references ≠ [] ∨ p.shared.ui.acquiring = true →
    p.shared.mAttachNativeWindow ≠ .null
  unavailable : p.shared.unavailable = true →
    p.shared.mAttachNativeWindow = .null ∧ p.shared.ui = .idle
  /-- A loop that draws has seen a window. -/
  drawing : ∀ k ∈ p.threads, k = .draw ∨ k = .swap → p.shared.mAttachNativeWindow ≠ .null
  display : p.shared.drawnUnavailable = false

theorem Inv.initial (wild : Bool) : Inv (initial wild) where
  references _ hw := absurd hw List.not_mem_nil
  surface _ hw := by cases hw
  holds h := by rcases h with h | h; exacts [absurd rfl h, absurd h Bool.false_ne_true]
  unavailable h := by cases h
  drawing _ hk := absurd hk List.not_mem_nil
  display := rfl

/-- The UI thread takes a step. -/
theorem Inv.advance {p : Runtime} {s : Shared} (hI : Inv p) (h : Advances p.shared s) :
    Inv { p with shared := s } where
  references w hw := by
    rw [h.available]
    exact (h.references w hw).elim (hI.references w) (hI.surface w)
  surface w hw := by
    rw [h.available]
    exact hI.surface w (h.surface w hw)
  holds hs := (h.holds hs).elim id fun hsame => hsame.1 ▸ hI.holds hsame.2
  unavailable hun := absurd (hI.unavailable (h.unavailable ▸ hun)).2 h.busy
  drawing k hk hdraws := h.window (hI.drawing k hk hdraws)
  display := h.drawnUnavailable.trans hI.display

/-- What a step of a render loop does: it shows something only when the loop
draws, and it draws only after it has seen a window. -/
structure Renders (s s' : Shared) (k k' : Render) : Prop where
  references : s'.references = s.references
  available : s'.available = s.available
  unavailable : s'.unavailable = s.unavailable
  ui : s'.ui = s.ui
  window : s'.mAttachNativeWindow = s.mAttachNativeWindow
  draws : k' = .draw ∨ k' = .swap → s.mAttachNativeWindow ≠ .null ∨ k = .draw ∨ k = .swap
  display : s'.drawnUnavailable = s.drawnUnavailable ∨
    (k = .draw ∨ k = .swap) ∧ s'.drawnUnavailable = (s.drawnUnavailable || s.unavailable)

theorem renders_of_prim {s s' : Shared} {k k' : Render} {forks : List Render}
    (h : prim s () k = some (s', k', forks)) : forks = [] ∧ Renders s s' k k' := by
  cases k with
  | frame =>
    cases h
    exact ⟨rfl, rfl, rfl, rfl, rfl, rfl, by simp, .inl rfl⟩
  | testUpdated =>
    cases h
    refine ⟨rfl, rfl, rfl, rfl, rfl, rfl, ?_, .inl rfl⟩
    split <;> simp
  | attach =>
    rw [prim] at h
    split at h
    · cases h
    · cases h
      exact ⟨rfl, rfl, rfl, rfl, rfl, rfl, by simp, .inl rfl⟩
  | testWindow =>
    cases h
    refine ⟨rfl, rfl, rfl, rfl, rfl, rfl, ?_, .inl rfl⟩
    split
    · simp
    · rename_i hwindow
      exact fun _ => .inl hwindow
  | draw =>
    cases h
    exact ⟨rfl, rfl, rfl, rfl, rfl, rfl, fun _ => .inr (.inl rfl), .inr ⟨.inl rfl, rfl⟩⟩
  | swap =>
    cases h
    exact ⟨rfl, rfl, rfl, rfl, rfl, rfl, by simp, .inr ⟨.inr rfl, rfl⟩⟩

/-- **The step lemma.** -/
theorem Inv.step {p q : Runtime} {l : Label} (hI : Inv p) (hG : Guarded p l)
    (h : Surface.step p l = some q) : Inv q := by
  cases l with
  | surfaceAvailable surface =>
    rw [Surface.step] at h
    split at h
    · cases h
      refine ⟨fun w hw => ?_, fun w hw => ?_, fun hs => ?_, ?_, hI.drawing, hI.display⟩
      · cases surface with
        | none => exact hI.references w hw
        | some w' =>
          rw [hG w hw]
          rfl
      · obtain rfl : surface = some w := hw
        rfl
      · exact hI.holds (.inl (hs.resolve_right Bool.false_ne_true))
      · intro hun
        cases hun
    · cases h
  | notifySurfaceUnavailable =>
    rw [Surface.step] at h
    split at h
    · rename_i hidle
      cases h
      -- no window, so no reference
      have hnone : p.shared.references = [] := by
        by_contra hne
        exact hI.holds (.inl hne) hG
      refine ⟨fun w hw => ?_, fun w hw => ?_, hI.holds, fun _ => ⟨hG, hidle⟩, hI.drawing, hI.display⟩
      · exact absurd (hnone ▸ hw) List.not_mem_nil
      · rw [hidle] at hw
        cases hw
    · cases h
  | ui =>
    obtain ⟨s, hs, rfl⟩ := Option.map_eq_some_iff.mp h
    exact hI.advance (advances_of_uiStep hs)
  | screenStreamStart =>
    obtain rfl := Option.some_inj.mp h
    refine ⟨hI.references, hI.surface, hI.holds, hI.unavailable, fun k hk hdraws => ?_, hI.display⟩
    rcases List.mem_append.mp hk with hk | hk
    · exact hI.drawing k hk hdraws
    · obtain rfl := List.mem_singleton.mp hk
      simp at hdraws
  | render i =>
    obtain ⟨k, s, k', forks, hk, hprim, rfl⟩ := Pool.of_move h
    obtain ⟨rfl, hR⟩ := renders_of_prim hprim
    have hmem := List.mem_of_getElem? hk
    refine ⟨fun w hw => ?_, fun w hw => ?_, fun hs => ?_, fun hun => ?_, fun x hx hdraws => ?_, ?_⟩
    · exact hR.available.trans (hI.references w (hR.references ▸ hw))
    · exact hR.available.trans (hI.surface w (hR.ui ▸ hw))
    · have hs' : p.shared.references ≠ [] ∨ p.shared.ui.acquiring = true :=
        hR.references ▸ hR.ui ▸ hs
      exact hR.window.trans_ne (hI.holds hs')
    · obtain ⟨hnull, hidle⟩ := hI.unavailable (hR.unavailable.symm.trans hun)
      exact ⟨hR.window.trans hnull, hR.ui.trans hidle⟩
    · refine hR.window.trans_ne ?_
      rcases Pool.mem_move hx with rfl | hx | hnil
      · exact (hR.draws hdraws).elim id (hI.drawing k hmem)
      · exact hI.drawing x hx hdraws
      · cases hnil
    · rcases hR.display with hsame | ⟨hdraws, hnew⟩
      · exact hsame.trans hI.display
      · -- a window has been seen, so this is no time without a surface
        have hun : p.shared.unavailable ≠ true := fun hun =>
          hI.drawing k hmem hdraws (hI.unavailable hun).1
        show s.drawnUnavailable = false
        rw [hnew, hI.display, Bool.eq_false_iff.mpr hun]
        rfl

theorem Inv.kept {p : Runtime} (hI : Inv p) : Kept p.shared := ⟨fun _ => hI.references, hI.display⟩

/-! ### What goes wrong otherwise -/

/-- A call that begins with a reference to another window ends with it. -/
theorem not_kept_of_surfaceAvailable {p : Runtime} {w w' : ℕ} (hui : p.shared.ui = .lock (some w))
    (havailable : p.shared.available = some w) (hw' : w' ∈ p.shared.references) (hne : w' ≠ w) :
    ∃ ls q, Run.exec Surface.step p ls = some q ∧ ¬ Kept q.shared := by
  obtain ⟨⟨window, egl, updated, ui, references, available, unavailable, drawn⟩, threads⟩ := p
  obtain rfl := hui
  -- the rest of the call releases nothing
  refine ⟨List.replicate 5 .ui, _, rfl, fun hK => hne ?_⟩
  have hheld := hK.references rfl w' (List.mem_append_left _ (List.mem_append_left _ hw'))
  exact (Option.some_inj.mp (havailable.symm.trans hheld)).symm

/-- A new render loop draws, if there is a window and no call in progress. -/
theorem exists_solo_draw {m : Shared} (hui : m.ui = .idle) (hwindow : m.mAttachNativeWindow ≠ .null) :
    ∃ rs m', Pool.solo prim m .frame [] rs = some (m', .swap, []) ∧
      m'.drawnUnavailable = (m.drawnUnavailable || m.unavailable) := by
  have hfree : m.mutex = false := by rw [Shared.mutex, hui]; rfl
  cases hupdated : m.mAttachedNativeWindowUpdated with
  | false =>
    refine ⟨List.replicate 4 (), m.display, ?_, rfl⟩
    simp [List.replicate, Pool.solo, prim, hupdated, hwindow]
  | true =>
    let attached : Shared :=
      { m with mAttachEGLSurface := some m.mAttachNativeWindow, mAttachedNativeWindowUpdated := false }
    refine ⟨List.replicate 5 (), attached.display, ?_, rfl⟩
    simp [List.replicate, Pool.solo, prim, hupdated, hfree, hwindow, attached]

/-- While there is a window, a loop goes on drawing after the surface has become
unavailable. -/
theorem not_kept_of_window {p : Runtime} (hui : p.shared.ui = .idle)
    (hun : p.shared.unavailable = true) (hwindow : p.shared.mAttachNativeWindow ≠ .null) :
    ∃ ls q, Run.exec Surface.step p ls = some q ∧ ¬ Kept q.shared := by
  obtain ⟨rs, m', hsolo, hdrawn⟩ := exists_solo_draw hui hwindow
  refine ⟨.screenStreamStart :: rs.map fun _ => .render p.threads.length, ⟨m', p.threads ++ [.swap]⟩,
    Pool.exec_spawn_solo (fun _ _ => rfl) hsolo, fun hK => ?_⟩
  rw [hun, Bool.or_true] at hdrawn
  exact Bool.false_ne_true (hK.display.symm.trans hdrawn)

/-- A call that is not guarded can go wrong. -/
theorem goesWrong_of_not_guarded {p q : Runtime} {l : Label} (hG : ¬ Guarded p l)
    (h : step p l = some q) :
    ∃ ls r, Run.exec Surface.step q ls = some r ∧ ¬ Kept r.shared := by
  cases l with
  | surfaceAvailable surface =>
    cases surface with
    | none => exact absurd trivial hG
    | some w =>
      rw [step] at h
      split at h
      · cases h
        simp only [Guarded, Classical.not_forall] at hG
        obtain ⟨w', hw', hne⟩ := hG
        exact not_kept_of_surfaceAvailable rfl rfl hw' hne
      · cases h
  | notifySurfaceUnavailable =>
    rw [step] at h
    split at h
    · rename_i hidle
      cases h
      exact not_kept_of_window hidle rfl hG
    · cases h
  | _ => exact absurd trivial hG

/-- **References and draws follow the surface, exactly where the window never
changes.**  In every run in which a surface becomes available only with the window
of all references held, and unavailable only while there is no window, all is
kept after each call; and a run with another step can, from right after the first
such step, be continued so that it is not. -/
theorem window_kept (wild : Bool) (ls : List Label) :
    (Run.Along step Guarded (initial wild) ls →
      ∀ p, Run.Reached step (initial wild) ls p → Kept p.shared) ∧
    ((Run.exec step (initial wild) ls).isSome = true →
      ¬ Run.Along step Guarded (initial wild) ls →
      Run.Strays step Guarded (fun p => ¬ Kept p.shared) (initial wild) ls) := by
  have keep : ∀ p l q, Inv p → Guarded p l → step p l = some q → Inv q :=
    fun _ _ _ hI hG h => hI.step hG h
  exact Run.forall_reached_and_strays (fun _ hI => hI.kept) keep
    (fun _ _ _ _ hG h => goesWrong_of_not_guarded hG h) (Inv.initial wild)

/-- A surface becomes available twice, and a loop draws on it. -/
private def sameSurface : List Label :=
  .notifySurfaceUnavailable :: .surfaceAvailable (some 0) :: List.replicate 5 .ui ++
    .surfaceAvailable (some 0) :: List.replicate 5 .ui ++
    .screenStreamStart :: List.replicate 6 (.render 0)

/-- The references are to the surface that is drawn on. -/
theorem window_kept_sameSurface :
    Run.Along step Guarded (initial false) sameSurface ∧
      ∃ p, Run.exec step (initial false) sameSurface = some p ∧
        p.shared.references = [0, 0, 0, 0] ∧
        p.shared.mAttachEGLSurface = some (.window 0) ∧ Kept p.shared := by
  have hguarded : Run.Along step Guarded (initial false) sameSurface := by decide +kernel
  obtain ⟨p, hp, hreferences, hsurface⟩ : ∃ p, Run.exec step (initial false) sameSurface = some p ∧
      p.shared.references = [0, 0, 0, 0] ∧ p.shared.mAttachEGLSurface = some (.window 0) :=
    ⟨_, rfl, rfl, rfl⟩
  exact ⟨hguarded, p, hp, hreferences, hsurface,
    (window_kept false sameSurface).1 hguarded p (Run.reached_of_exec hp)⟩

/-- A surface becomes available, and then unavailable. -/
theorem references_survive :
    ∃ p, Run.exec step (initial false)
        (.surfaceAvailable (some 0) :: List.replicate 5 .ui ++ [.notifySurfaceUnavailable]) = some p ∧
      p.shared.references = [0, 0] ∧ p.shared.available = none ∧ ¬ Kept p.shared := by
  refine ⟨_, rfl, rfl, rfl, fun hK => ?_⟩
  cases hK.references rfl 0 List.mem_cons_self

end Carplay.Surface

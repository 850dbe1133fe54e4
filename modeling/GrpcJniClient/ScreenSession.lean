/-
The screen session: `screenStreamStart` and `screenStreamStop` one after the
other.

A handler and the start-up of the `screenLooper` it launches run alone here, as
runs of the threads of `ScreenStream`; in between the background threads take
steps.

* `exec_start`, `exec_stop` — what such a run adds up to, `initMediaCodec` and
  `stopMediaCodec` as functions of the shared state;
* `prim_gRenderQuit` — no step of any thread sets `gRenderQuit`;
* `Lifecycle` — at most one thread of each kind, one codec while the session is
  up and none otherwise, no render loop after a stop;
* `lifecycle_iff_undisturbed` — it holds all along a run exactly if no start and
  no stop comes while a `screenLooper` is alive, no start fails after it has
  created its codec, and no stop finds a handle without one;
* `stop_leaves_screenLooper` — a stop leaves the render loop running.
-/
import GrpcJniClient.ScreenStream
import Mathlib.Data.Int.Notation

open ThreadPool

namespace Carplay.Screen

/-- How `initMediaCodec` ends. -/
inductive InitOutcome where
  | surfaceFails
  | createFails
  | configureFails
  | startFails
  | success
  deriving DecidableEq, Repr

/-- The results that the steps of `screenLooper` wait for up to its render loop. -/
def InitOutcome.results : InitOutcome → List Result
  | surfaceFails => [.failure, .success]
  | createFails => [.success, .failure, .success, .success, .success]
  | configureFails => [.success, .success, .success, .success, .success, .failure, .success]
  | startFails => List.replicate 7 .success ++ [.failure, .success]
  | success => List.replicate 11 .success

/-- The results for `stopMediaCodec`. -/
def stopResults (s : Shared) : List Result :=
  List.replicate (if s.kScreenStreamMediaCodec = .null then 2 else 7) .success

/-- A thread that starts with the next number and runs alone. -/
def handlerRun (p : Runtime) (l : Label) (rs : List Result) : List Label :=
  l :: rs.map (.step p.threads.length)

/-- What `initMediaCodec` and the start of the render loop do to the shared
state. -/
def initMediaCodec (s : Shared) : InitOutcome → Shared
  | .surfaceFails => { s with gRenderQuit := false }
  | .createFails => { s with kScreenStreamMediaCodec := .null, gRenderQuit := false }
  | .configureFails => { s with
      kScreenStreamMediaCodec := .codec s.created
      gRenderQuit := false
      created := s.created + 1 }
  | .startFails => { s with
      kScreenStreamMediaCodec := .codec s.created
      gRenderQuit := false
      created := s.created + 1 }
  | .success => { s with
      kScreenStreamMediaCodec := .codec s.created
      kScreenStreamMediaCodecStatus := .STARTED
      gRenderQuit := false
      created := s.created + 1 }

/-- The threads that `initMediaCodec` launches. -/
def InitOutcome.launched : InitOutcome → List Pc
  | success => [.outputTestStatus]
  | _ => []

/-- What `stopMediaCodec` does to the shared state. -/
def stopMediaCodec (s : Shared) : Shared :=
  let s := { s with kScreenStreamMediaCodecStatus := .STOPPED }
  if s.kScreenStreamMediaCodec = .null then s
  else { (s.call .stop s.kScreenStreamMediaCodec).call .delete s.kScreenStreamMediaCodec with
    kScreenStreamMediaCodec := .null }

/-! ### A handler that runs alone -/

theorem exec_handlerRun {p : Runtime} {l : Label} {k k' : Pc} {rs : List Result} {m : Shared}
    {forks : List Pc} (hl : step p l = some (p.spawn k))
    (h : Pool.solo prim p.shared k [] rs = some (m, k', forks)) :
    Run.exec step p (handlerRun p l rs) = some ⟨m, p.threads ++ k' :: forks⟩ := by
  rw [handlerRun, Run.exec_cons, hl, Option.bind_some]
  exact Pool.exec_spawn_solo (fun _ _ => rfl) h

theorem exec_start (p : Runtime) (o : InitOutcome) :
    Run.exec step p (handlerRun p .screenStreamStart o.results)
      = some ⟨initMediaCodec p.shared o, p.threads ++ .render :: o.launched⟩ := by
  refine exec_handlerRun (k := .createSurface) rfl ?_
  cases o <;> rfl

theorem exec_stop (p : Runtime) :
    Run.exec step p (handlerRun p .screenStreamStop (stopResults p.shared))
      = some ⟨stopMediaCodec p.shared, p.threads ++ [.done]⟩ := by
  refine exec_handlerRun (k := .storeStopped) rfl ?_
  obtain ⟨⟨h, status, quit, created, deleted, dead⟩, threads⟩ := p
  cases h <;> rfl

/-! ### The lifecycle -/

/-- The thread is a `screenLooper`. -/
def Pc.isScreenLooper : Pc → Bool
  | .createSurface | .createDecoder | .storeCodec _ | .testCreated | .storeStarted
  | .launchOutput | .storeRenderQuit | .render => true
  | .load site | .issue site _ => site = .configure || site = .start
  | _ => false

/-- The thread is an `outputLoop`. -/
def Pc.isOutputLoop : Pc → Bool
  | .outputTestStatus | .outputTestHandle => true
  | .load site | .issue site _ =>
      site = .dequeueOutputBuffer || site = .releaseOutputBuffer || site = .getOutputFormat
  | _ => false

/-- A runtime between two handlers. -/
structure Session where
  runtime : Runtime
  /-- The last start succeeded and no stop followed. -/
  up : Bool
  /-- The last handler was a stop. -/
  stopped : Bool

inductive SessionOp where
  | screenStreamStart (o : InitOutcome)
  | screenStreamStop
  /-- A background thread takes a step. -/
  | background (i : ℕ) (r : Result)

namespace Session

def initial (wild : Bool) : Session := ⟨Screen.initial wild, false, false⟩

def step (s : Session) : SessionOp → Option Session
  | .screenStreamStart o =>
      (Run.exec Screen.step s.runtime (handlerRun s.runtime .screenStreamStart o.results)).map
        fun p => ⟨p, o = .success, false⟩
  | .screenStreamStop =>
      (Run.exec Screen.step s.runtime
        (handlerRun s.runtime .screenStreamStop (stopResults s.runtime.shared))).map
        fun p => ⟨p, false, true⟩
  | .background i r => (Screen.step s.runtime (.step i r)).map fun p => { s with runtime := p }

/-- What should hold between two handlers. -/
structure Lifecycle (s : Session) : Prop where
  screenLoopers : s.runtime.threads.countP Pc.isScreenLooper ≤ 1
  outputLoops : s.runtime.threads.countP Pc.isOutputLoop ≤ 1
  codecs : (s.runtime.shared.created : ℤ) - s.runtime.shared.deleted.length = if s.up then 1 else 0
  noRender : s.stopped = true → ∀ k ∈ s.runtime.threads, k ≠ .render

/-- No `screenLooper` is alive. -/
def NoScreenLooper (s : Session) : Prop := s.runtime.threads.countP Pc.isScreenLooper = 0

/-- What a handler must find, and how a start must end. -/
def Undisturbed (s : Session) : SessionOp → Prop
  | .screenStreamStart o => s.NoScreenLooper ∧ o ≠ .configureFails ∧ o ≠ .startFails
  | .screenStreamStop => s.NoScreenLooper ∧ s.runtime.shared.kScreenStreamMediaCodec = .null
  | .background _ _ => True

/-! ### Background steps -/

end Session

/-- No thread ever sets `gRenderQuit`. -/
theorem prim_gRenderQuit {s m : Shared} {r : Result} {k k' : Pc} {forks : List Pc}
    (hs : s.gRenderQuit = false) (h : prim s r k = some (m, k', forks)) :
    m.gRenderQuit = false := by
  cases k with
  | createDecoder =>
    rw [prim] at h
    split at h <;> cases h <;> exact hs
  | storeRenderQuit =>
    cases h
    rfl
  | done => cases h
  | _ =>
    cases h
    exact hs

/-- So a render loop goes on. -/
theorem prim_render {s m : Shared} {r : Result} {k' : Pc} {forks : List Pc}
    (hs : s.gRenderQuit = false) (h : prim s r .render = some (m, k', forks)) :
    m = s ∧ k' = .render ∧ forks = [] := by
  cases h
  exact ⟨rfl, if_neg (by rw [hs]; exact Bool.false_ne_true), rfl⟩

theorem isScreenLooper_of_isOutputLoop {k : Pc} (h : k.isOutputLoop = true) :
    k.isScreenLooper = false := by
  cases k with
  | load site => cases site <;> first | rfl | cases h
  | issue site codec => cases site <;> first | rfl | cases h
  | outputTestStatus => rfl
  | outputTestHandle => rfl
  | _ => cases h

/-- An `outputLoop` creates and deletes nothing. -/
theorem prim_outputLoop {s m : Shared} {r : Result} {k k' : Pc} {forks : List Pc}
    (hk : k.isOutputLoop = true) (h : prim s r k = some (m, k', forks)) :
    (k'.isOutputLoop = true ∨ k' = .done) ∧ forks = [] ∧ m.created = s.created ∧
      m.deleted = s.deleted := by
  cases k with
  | outputTestStatus =>
    cases h
    refine ⟨?_, rfl, rfl, rfl⟩
    split
    · exact Or.inl rfl
    · exact Or.inr rfl
  | outputTestHandle =>
    cases h
    refine ⟨?_, rfl, rfl, rfl⟩
    split
    · exact Or.inr rfl
    · exact Or.inl rfl
  | load site =>
    cases h
    exact ⟨Or.inl hk, rfl, rfl, rfl⟩
  | issue site codec =>
    cases h
    cases site with
    | dequeueOutputBuffer => exact ⟨Or.inl (by cases r <;> rfl), rfl, rfl, rfl⟩
    | releaseOutputBuffer => exact ⟨Or.inl rfl, rfl, rfl, rfl⟩
    | getOutputFormat => exact ⟨Or.inl rfl, rfl, rfl, rfl⟩
    | _ => cases hk
  | _ => cases hk

namespace Session

/-! ### The invariant of undisturbed runs -/

/-- All threads render, put out or are done; a codec lives while the session is
up; and no looper is left after a stop. -/
structure Tame (s : Session) : Prop where
  threads : ∀ k ∈ s.runtime.threads, k = .render ∨ k.isOutputLoop = true ∨ k = .done
  screenLoopers : s.runtime.threads.countP Pc.isScreenLooper ≤ 1
  outputLoops : s.runtime.threads.countP Pc.isOutputLoop
    ≤ s.runtime.threads.countP Pc.isScreenLooper
  created : s.runtime.shared.created = if s.up then 1 else 0
  deleted : s.runtime.shared.deleted = []
  renders : s.runtime.shared.gRenderQuit = false
  down : s.NoScreenLooper → s.up = false
  running : s.stopped = true → s.NoScreenLooper

theorem Tame.initial (wild : Bool) : Tame (initial wild) where
  threads := fun _ hk => absurd hk List.not_mem_nil
  screenLoopers := Nat.zero_le _
  outputLoops := Nat.zero_le _
  created := rfl
  deleted := rfl
  renders := rfl
  down := fun _ => rfl
  running := fun h => absurd h Bool.false_ne_true

theorem Tame.lifecycle {s : Session} (hT : Tame s) : Lifecycle s where
  screenLoopers := hT.screenLoopers
  outputLoops := Nat.le_trans hT.outputLoops hT.screenLoopers
  codecs := by
    rw [hT.created, hT.deleted]
    cases s.up <;> rfl
  noRender := by
    rintro hstopped k hk rfl
    exact List.countP_eq_zero.mp (hT.running hstopped) _ hk rfl

/-- A step of a background thread keeps everything in place. -/
theorem Tame.background {s : Session} {i : ℕ} {r : Result} {p : Runtime} (hT : Tame s)
    (h : Screen.step s.runtime (.step i r) = some p) : Tame { s with runtime := p } := by
  obtain ⟨k, m, k', forks, hk, hprim, rfl⟩ := Pool.of_move h
  -- a looper stays one, and no thread turns into an `outputLoop`
  obtain ⟨hkind, rfl, hcreated, hdeleted, hlooper, houtput⟩ :
      (k' = .render ∨ k'.isOutputLoop = true ∨ k' = .done) ∧ forks = [] ∧
        m.created = s.runtime.shared.created ∧ m.deleted = s.runtime.shared.deleted ∧
        k'.isScreenLooper = k.isScreenLooper ∧ (k'.isOutputLoop = true → k.isOutputLoop = true) := by
    rcases hT.threads k (List.mem_of_getElem? hk) with rfl | hout | rfl
    · obtain ⟨rfl, rfl, rfl⟩ := prim_render hT.renders hprim
      exact ⟨Or.inl rfl, rfl, rfl, rfl, rfl, id⟩
    · obtain ⟨hk', hforks, hc, hd⟩ := prim_outputLoop hout hprim
      refine ⟨Or.inr hk', hforks, hc, hd, ?_, fun _ => hout⟩
      rw [isScreenLooper_of_isOutputLoop hout]
      rcases hk' with hk' | rfl
      · exact isScreenLooper_of_isOutputLoop hk'
      · rfl
    · cases hprim
  have hloopers := Pool.countP_moved Pc.isScreenLooper k' [] hk
  have houtputs := Pool.countP_moved Pc.isOutputLoop k' [] hk
  rw [hlooper, List.countP_nil, Nat.add_zero, Nat.add_right_cancel_iff] at hloopers
  have houtputs : (s.runtime.threads.set i k' ++ []).countP Pc.isOutputLoop
      ≤ s.runtime.threads.countP Pc.isOutputLoop := by
    rw [List.countP_nil] at houtputs
    by_cases hout : k'.isOutputLoop = true
    · rw [if_pos hout, if_pos (houtput hout)] at houtputs
      omega
    · rw [if_neg hout] at houtputs
      omega
  refine ⟨fun x hx => ?_, ?_, ?_, ?_, ?_, ?_, fun hno => ?_, fun hst => ?_⟩
  · rw [List.append_nil] at hx
    rcases List.mem_or_eq_of_mem_set hx with hx | rfl
    · exact hT.threads x hx
    · exact hkind
  · exact Nat.le_trans (Nat.le_of_eq hloopers) hT.screenLoopers
  · exact Nat.le_trans houtputs (Nat.le_trans hT.outputLoops (Nat.le_of_eq hloopers.symm))
  · exact hcreated.trans hT.created
  · exact hdeleted.trans hT.deleted
  · exact prim_gRenderQuit hT.renders hprim
  · exact hT.down (hloopers.symm.trans hno)
  · exact hloopers.trans (hT.running hst)

/-- A start that finds no looper and does not fail halfway brings up one looper,
and a codec if it succeeds. -/
theorem Tame.screenStreamStart {s t : Session} {o : InitOutcome} (hT : Tame s)
    (hU : Undisturbed s (.screenStreamStart o)) (h : s.step (.screenStreamStart o) = some t) :
    Tame t := by
  obtain ⟨hno, hconfigure, hstart⟩ := hU
  rw [Session.step, exec_start] at h
  obtain rfl := Option.some_inj.mp h
  have hup := hT.down hno
  -- no `outputLoop` outlives its looper
  have hout : s.runtime.threads.countP Pc.isOutputLoop = 0 := by
    have hle := hT.outputLoops
    rw [NoScreenLooper] at hno
    omega
  have hloopers : (s.runtime.threads ++ .render :: o.launched).countP Pc.isScreenLooper = 1 := by
    rw [List.countP_append, hno]
    cases o <;> rfl
  have hcreated := hT.created
  rw [hup] at hcreated
  refine ⟨fun k hk => ?_, Nat.le_of_eq hloopers, ?_, ?_, ?_, ?_, fun hno' => ?_, fun hst => ?_⟩
  · rcases List.mem_append.mp hk with hk | hk
    · exact hT.threads k hk
    · rcases List.mem_cons.mp hk with rfl | hk
      · exact Or.inl rfl
      · refine Or.inr (Or.inl ?_)
        cases o with
        | success =>
          rw [List.mem_singleton.mp hk]
          rfl
        | _ => cases hk
  · rw [hloopers, List.countP_append, hout]
    cases o <;> decide
  · cases o with
    | configureFails => exact absurd rfl hconfigure
    | startFails => exact absurd rfl hstart
    | success =>
      show s.runtime.shared.created + 1 = 1
      rw [hcreated]
      rfl
    | _ => exact hcreated
  · cases o <;> exact hT.deleted
  · cases o <;> rfl
  · rw [NoScreenLooper, hloopers] at hno'
    exact absurd hno' Nat.one_ne_zero
  · exact absurd hst Bool.false_ne_true

/-- A stop that finds no looper and no codec only stores `STOPPED`. -/
theorem Tame.screenStreamStop {s t : Session} (hT : Tame s)
    (hU : Undisturbed s .screenStreamStop) (h : s.step .screenStreamStop = some t) : Tame t := by
  obtain ⟨hno, hnull⟩ := hU
  rw [Session.step, exec_stop] at h
  obtain rfl := Option.some_inj.mp h
  have hstop : stopMediaCodec s.runtime.shared =
      { s.runtime.shared with kScreenStreamMediaCodecStatus := .STOPPED } := if_pos hnull
  have hcreated := hT.created
  rw [hT.down hno] at hcreated
  have hcount : ∀ P : Pc → Bool, P .done = false →
      (s.runtime.threads ++ [Pc.done]).countP P = s.runtime.threads.countP P := by
    intro P hP
    rw [List.countP_append, List.countP_singleton, hP]
    rfl
  rw [hstop]
  refine ⟨fun k hk => ?_, ?_, ?_, hcreated, hT.deleted, hT.renders, fun _ => rfl, fun _ => ?_⟩
  · rcases List.mem_append.mp hk with hk | hk
    · exact hT.threads k hk
    · exact Or.inr (Or.inr (List.mem_singleton.mp hk))
  · exact Nat.le_trans (Nat.le_of_eq (hcount Pc.isScreenLooper rfl)) hT.screenLoopers
  · rw [hcount Pc.isScreenLooper rfl, hcount Pc.isOutputLoop rfl]
    exact hT.outputLoops
  · exact (hcount Pc.isScreenLooper rfl).trans hno

/-- What an undisturbed start and stop and the background threads keep. -/
theorem Tame.step {s t : Session} {op : SessionOp} (hT : Tame s) (hU : Undisturbed s op)
    (h : s.step op = some t) : Tame t := by
  cases op with
  | screenStreamStart o => exact hT.screenStreamStart hU h
  | screenStreamStop => exact hT.screenStreamStop hU h
  | background i r =>
    obtain ⟨p, hp, rfl⟩ := Option.map_eq_some_iff.mp h
    exact hT.background hp

/-! ### What a disturbed handler breaks -/

/-- A handler that comes while a `screenLooper` is alive adds a second one or
leaves the first in its loop, and one that does not breaks the count of the
codecs. -/
theorem Tame.broken {s : Session} {op : SessionOp} (hT : Tame s) (hU : ¬ Undisturbed s op) :
    ∃ t, s.step op = some t ∧ ¬ Lifecycle t := by
  cases op with
  | screenStreamStart o =>
    refine ⟨_, congrArg (Option.map _) (exec_start s.runtime o), fun hL => ?_⟩
    by_cases hno : s.NoScreenLooper
    · -- the start fails with a codec created
      have hcreated := hT.created
      rw [hT.down hno] at hcreated
      have hcodecs := hL.codecs
      rw [Undisturbed, and_iff_right hno] at hU
      cases o with
      | configureFails =>
        simp [initMediaCodec, hcreated, hT.deleted] at hcodecs
      | startFails =>
        simp [initMediaCodec, hcreated, hT.deleted] at hcodecs
      | _ => exact hU ⟨by decide, by decide⟩
    · -- a second looper
      have hloopers : (s.runtime.threads ++ .render :: o.launched).countP Pc.isScreenLooper ≤ 1 :=
        hL.screenLoopers
      rw [List.countP_append, List.countP_cons_of_pos rfl] at hloopers
      rw [NoScreenLooper] at hno
      omega
  | screenStreamStop =>
    refine ⟨_, congrArg (Option.map _) (exec_stop s.runtime), fun hL => ?_⟩
    by_cases hno : s.NoScreenLooper
    · -- the stop deletes what was never created
      have hcreated := hT.created
      rw [hT.down hno] at hcreated
      have hne : ¬ s.runtime.shared.kScreenStreamMediaCodec = .null := fun hnull =>
        hU ⟨hno, hnull⟩
      have hcodecs := hL.codecs
      simp [stopMediaCodec, hne, Shared.call, hcreated, hT.deleted] at hcodecs
    · -- the looper is left in its loop
      obtain ⟨k, hk, hlooper⟩ := List.countP_pos_iff.mp (Nat.pos_of_ne_zero hno)
      rcases hT.threads k hk with rfl | hout | rfl
      · exact hL.noRender rfl .render (List.mem_append_left _ hk) rfl
      · rw [isScreenLooper_of_isOutputLoop hout] at hlooper
        cases hlooper
      · cases hlooper
  | background i r => exact absurd trivial hU

/-- **The lifecycle holds exactly along undisturbed runs.**  At every point of a
run the threads and the codecs are as they should be if and only if no handler
comes while a `screenLooper` is alive, no start fails with a codec created, and
no stop finds a handle that is not null. -/
theorem lifecycle_iff_undisturbed (wild : Bool) (ops : List SessionOp) :
    (∀ t, Run.Reached Session.step (Session.initial wild) ops t → Lifecycle t) ↔
      Run.Along Session.step Undisturbed (Session.initial wild) ops :=
  Run.forall_reached_iff_along (fun _ hT => hT.lifecycle) (fun _ _ _ hT hU h => hT.step hU h)
    (fun _ _ hT hU => hT.broken hU) (Tame.initial wild)

/-- **A stop leaves the render loop running.** -/
theorem stop_leaves_screenLooper :
    ¬ ∀ (wild : Bool) (ops : List SessionOp) (t : Session),
      Run.Reached Session.step (Session.initial wild) ops t → Lifecycle t := by
  intro h
  have hL := h false [.screenStreamStart .success, .screenStreamStop] _ (Run.reached_of_exec rfl)
  exact hL.noRender rfl .render (by decide) rfl

end Session

end Carplay.Screen

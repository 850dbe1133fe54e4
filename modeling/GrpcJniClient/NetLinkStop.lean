/-
When `netLinkStop` returns.

`stop` clears `running_`, shuts the socket down and joins the thread, which may
have addresses to report and datagrams to take, or wait in `recv`.

* `WindsUp.step` — after that each step of either thread decreases `work`;
* `Hangs.step` — a thread that waits in `recv` waits on if `shutdown` does not
  unblock it;
* `stop_returns_iff` — so `netLinkStop` returns, however the threads are scheduled,
  exactly if `shutdown` unblocks `recv` or the thread is not blocked in it.
-/
import GrpcJniClient.NetLinkLifecycle
import Mathlib.Algebra.GroupWithZero.Nat

namespace Carplay.NetLink.Lifecycle

namespace Process

variable {s t : Process} {o : NetLinkMonitor}

def Label.internal : Label → Prop
  | .main _ | .loop _ => True
  | _ => False

/-- `netLinkStop` has cleared `running_` and has not returned. -/
def Stopping (s : Process) : Prop :=
  match s.main with
  | .idle | .start | .startSocket | .startThread | .stop false => False
  | _ => True

/-- The thread is in `recv`, and nothing waits in its socket. -/
def Blocked (s : Process) : Prop :=
  ∃ o i th k sk, s.monitor = some o ∧ o.thread_ = some i ∧ s.threads[i]? = some th ∧
    th.pc = .recv ∧ o.sock_ = some k ∧ s.sockets[k]? = some sk ∧ sk.queue = []

/-- How many steps the main thread has left. -/
def mainWork : Main → ℕ
  | .stopShutdown _ => 8
  | .stopJoin _ => 7
  | .stopClose _ => 6
  | .stop true => 5
  | .deleteRef => 4
  | .deleteMonitor => 3
  | .clear => 2
  | _ => 0

/-- How many steps a thread has left once `running_` is cleared, without the
addresses that it still receives. -/
def loopWork (th : Thread) : ℕ :=
  match th.pc with
  | .ended => 0
  | .check => 1
  | .report n => n + 2
  | .recv => 3

/-- What waits in a socket. -/
def queueWork (sk : Socket) : ℕ := (sk.queue.map (· + 1)).sum

def work (s : Process) : ℕ :=
  mainWork s.main + (s.threads.map loopWork).sum + (s.sockets.map queueWork).sum

theorem sum_map_modify {α : Type*} {g : α → ℕ} {f : α → α} {xs : List α} {i : ℕ} {x : α}
    (h : xs[i]? = some x) : ((xs.modify i f).map g).sum + g x = (xs.map g).sum + g (f x) := by
  induction xs generalizing i with
  | nil => cases h
  | cons y ys ih =>
    cases i with
    | zero =>
      obtain rfl := Option.some_inj.mp h
      simp only [List.modify_zero_cons, List.map_cons, List.sum_cons]
      omega
    | succ i =>
      have hys := ih (i := i) h
      simp only [List.modify_succ_cons, List.map_cons, List.sum_cons]
      omega

theorem map_modify_of_eq {α β : Type*} {g : α → β} {f : α → α} (hf : ∀ x, g (f x) = g x)
    (xs : List α) (i : ℕ) : (xs.modify i f).map g = xs.map g := by
  induction xs generalizing i with
  | nil => simp
  | cons x xs ih => cases i <;> simp [hf, ih]

theorem work_setPc {i : ℕ} {th : Thread} (h : s.threads[i]? = some th) (pc : LoopPc) :
    (s.setPc i pc).work + loopWork th = s.work + loopWork { th with pc := pc } := by
  have hsum := sum_map_modify (g := loopWork) (f := fun th => { th with pc := pc }) h
  simp only [work, Process.setPc]
  omega

/-- While `netLinkStop` is under way the monitor has been told to end. -/
theorem Holds.running_of_stopping (hH : s.Holds o) (hstop : s.Stopping) : o.running_ = false := by
  have hE := hH.expects
  rw [Stopping] at hstop
  cases hmain : s.main with
  | idle => simp [hmain] at hstop
  | start => simp [hmain] at hstop
  | startSocket => simp [hmain] at hstop
  | startThread => simp [hmain] at hstop
  | stop again =>
    cases again with
    | false => simp [hmain] at hstop
    | true => rw [hmain] at hE; exact hE.1
  | stopShutdown again => cases again <;> rw [hmain] at hE; exacts [hE.1, hE.elim]
  | stopJoin again => cases again <;> rw [hmain] at hE; exacts [hE.1, hE.elim]
  | stopClose again => cases again <;> rw [hmain] at hE; exacts [hE.1, hE.elim]
  | deleteRef => rw [hmain] at hE; exact hE.1
  | deleteMonitor => rw [hmain] at hE; exact hE.1
  | clear => rw [hmain] at hE; exact hE.elim

/-- A step of `threadLoop` then brings the thread closer to its end, and does not
take it back to `recv`. -/
theorem Holds.loop_progress {wakes : Bool} {i : ℕ} (hH : s.Holds o) (hr : o.running_ = false)
    (h : s.loopStep wakes i = some t) :
    t.main = s.main ∧ t.work < s.work ∧ ¬ t.Blocked := by
  obtain ⟨th, hth, hi, hcases⟩ := hH.loop_cases h
  -- after the step the thread is elsewhere, and no other is the monitor's
  have hset : ∀ (u : Process) (pc : LoopPc), u.threads = s.threads → u.monitor = s.monitor →
      pc ≠ .recv → ¬ (u.setPc i pc).Blocked := by
    rintro u pc hthreads hmonitor hpc ⟨o', i', th', k', sk', ho', hi', hth', hrecv, -⟩
    obtain rfl : o' = o := Option.some_inj.mp (ho'.symm.trans (hmonitor.trans hH.monitor))
    obtain rfl := Option.some_inj.mp (hi'.symm.trans hi)
    have hth'' : (u.setPc i' pc).threads[i']? = some { th with pc := pc } := by
      show (u.threads.modify i' fun th => { th with pc := pc })[i']? = _
      rw [hthreads, List.getElem?_modify_eq, hth]
      rfl
    obtain rfl := Option.some_inj.mp (hth'.symm.trans hth'')
    exact hpc hrecv
  rcases hcases with ⟨hpc, rfl⟩ | ⟨hpc, -, rfl⟩ | ⟨k, sk, n, queue, hpc, hk, hsk, hq, rfl⟩ |
    ⟨k, sk, hpc, -, -, -, -, -, rfl⟩ | ⟨n, hpc, rfl⟩ | ⟨hpc, rfl⟩
  · rw [if_neg (by simp [hr])]
    have hwork := work_setPc hth .ended
    simp only [loopWork, hpc] at hwork
    exact ⟨rfl, by omega, hset s _ rfl rfl (by simp)⟩
  · have hwork := work_setPc hth .check
    simp only [loopWork, hpc] at hwork
    exact ⟨rfl, by omega, hset s _ rfl rfl (by simp)⟩
  · -- the addresses leave the socket when the thread takes them
    set u : Process := { s with
      sockets := s.sockets.modify k fun sk => { sk with queue := queue } } with hu
    have hwork := work_setPc (s := u) hth (.report n)
    have hsum := sum_map_modify (g := queueWork) (f := fun sk => { sk with queue := queue }) hsk
    have hwork' : u.work + queueWork sk = s.work + queueWork { sk with queue := queue } := by
      simp only [work, hu]
      omega
    simp only [loopWork, hpc] at hwork
    simp only [queueWork, hq, List.map_cons, List.sum_cons] at hwork'
    exact ⟨rfl, by omega, hset u _ rfl rfl (by simp)⟩
  · have hwork := work_setPc hth .check
    simp only [loopWork, hpc] at hwork
    exact ⟨rfl, by omega, hset s _ rfl rfl (by simp)⟩
  · have hwork := work_setPc hth (.report n)
    simp only [loopWork, hpc] at hwork
    exact ⟨rfl, by omega, hset s _ rfl rfl (by simp)⟩
  · have hwork := work_setPc hth .check
    simp only [loopWork, hpc] at hwork
    exact ⟨rfl, by omega, hset s _ rfl rfl (by simp)⟩

theorem not_blocked_of_thread (h : s.monitor.bind (·.thread_) = none) : ¬ s.Blocked := by
  rintro ⟨o, i, -, -, -, ho, hi, -⟩
  rw [ho, Option.bind_some, hi] at h
  cases h

/-- A step of the main thread brings `netLinkStop` closer to its end. -/
structure Progress (s t : Process) : Prop where
  main_lt : mainWork t.main < mainWork s.main
  threads : t.threads = s.threads
  sockets : t.sockets.map queueWork = s.sockets.map queueWork
  stopping : t.Stopping
  blocked : t.Blocked → s.Blocked

theorem Progress.work_lt (h : Progress s t) : t.work < s.work := by
  have := h.main_lt
  rw [work, work, h.threads, h.sockets]
  omega

theorem Progress.of_thread (hmain : mainWork t.main < mainWork s.main)
    (hthreads : t.threads = s.threads) (hsockets : t.sockets.map queueWork = s.sockets.map queueWork)
    (hstop : t.Stopping) (h : t.monitor.bind (·.thread_) = none) : Progress s t :=
  ⟨hmain, hthreads, hsockets, hstop, fun hb => absurd hb (not_blocked_of_thread h)⟩

section

variable {socketOk : Bool} {again : Bool}

/-- The second `stop` finds the monitor stopped and its thread joined. -/
theorem Holds.stop_progress (hH : s.Holds o) (hmain : s.main = .stop true)
    (h : s.monitorStep socketOk o (.stop true) = some t) : Progress s t := by
  obtain ⟨hr, -, hi, -⟩ : Expects o (.stop true) := hmain ▸ hH.expects
  rw [Process.monitorStep, if_neg (by simp [hr])] at h
  obtain rfl := Option.some_inj.mp h
  refine .of_thread (by simp [mainWork, hmain]) rfl rfl trivial ?_
  show s.monitor.bind (·.thread_) = none
  rw [hH.monitor, Option.bind_some, hi]

/-- `shutdown` takes nothing out of a queue. -/
theorem blocked_of_shutdown {k : ℕ} {pc : Main} (h : Blocked { s with
      sockets := s.sockets.modify k fun sk => { sk with shutRd := true }
      main := pc }) : s.Blocked := by
  obtain ⟨o, i, th, j, sk', ho, hi, hth, hrecv, hj, hsk', hq⟩ := h
  have hmod : (s.sockets.modify k fun sk => { sk with shutRd := true })[j]? = some sk' := hsk'
  rw [List.getElem?_modify, Option.map_eq_map, Option.map_eq_some_iff] at hmod
  obtain ⟨sk, hsk, rfl⟩ := hmod
  refine ⟨o, i, th, j, sk, ho, hi, hth, hrecv, hj, hsk, ?_⟩
  split at hq <;> exact hq

theorem Holds.stopShutdown_progress (hH : s.Holds o) (hmain : s.main = .stopShutdown again)
    (h : s.monitorStep socketOk o (.stopShutdown again) = some t) : Progress s t := by
  have hE := hH.expects
  rw [hmain] at hE
  cases again with
  | true => exact hE.elim
  | false =>
    rw [Process.monitorStep] at h
    cases hk : o.sock_ with
    | none =>
      rw [hk] at h
      obtain rfl := Option.some_inj.mp h
      exact ⟨by simp [mainWork, hmain], rfl, rfl, trivial, id⟩
    | some k =>
      rw [hk] at h
      obtain rfl := Option.some_inj.mp h
      exact ⟨by simp [mainWork, hmain], rfl,
        map_modify_of_eq (g := queueWork) (f := fun sk => { sk with shutRd := true })
          (fun _ => rfl) s.sockets k, trivial, blocked_of_shutdown⟩

theorem Holds.stopJoin_progress (hH : s.Holds o) (hmain : s.main = .stopJoin again)
    (h : s.monitorStep socketOk o (.stopJoin again) = some t) : Progress s t := by
  have hE := hH.expects
  rw [hmain] at hE
  cases again with
  | true => exact hE.elim
  | false =>
    obtain ⟨-, hi, -⟩ := hE
    obtain ⟨i, hi⟩ := Option.isSome_iff_exists.mp hi
    rw [Process.monitorStep, hi] at h
    simp only [Option.ite_none_right_eq_some, Option.some_inj] at h
    obtain ⟨-, rfl⟩ := h
    exact .of_thread (by simp [mainWork, hmain, setMonitor]) rfl rfl trivial rfl

theorem Holds.stopClose_progress (hH : s.Holds o) (hmain : s.main = .stopClose again)
    (h : s.monitorStep socketOk o (.stopClose again) = some t) : Progress s t := by
  have hE := hH.expects
  rw [hmain] at hE
  cases again with
  | true => exact hE.elim
  | false =>
    obtain ⟨-, hi, -⟩ := hE
    rw [Process.monitorStep] at h
    cases hk : o.sock_ with
    | none =>
      rw [hk] at h
      obtain rfl := Option.some_inj.mp h
      exact .of_thread (by simp [mainWork, hmain, setMonitor]) rfl rfl trivial hi
    | some k =>
      rw [hk] at h
      obtain rfl := Option.some_inj.mp h
      exact .of_thread (by simp [mainWork, hmain, setMonitor]) rfl
        (map_modify_of_eq (g := queueWork) (f := fun sk => { sk with isOpen := false })
          (fun _ => rfl) s.sockets k) trivial hi

theorem Holds.deleteRef_progress (hH : s.Holds o) (hmain : s.main = .deleteRef)
    (h : s.monitorStep socketOk o .deleteRef = some t) : Progress s t := by
  obtain ⟨-, -, hi, hc⟩ : Expects o .deleteRef := hmain ▸ hH.expects
  obtain ⟨r, hc⟩ := Option.isSome_iff_exists.mp hc
  rw [Process.monitorStep, hc] at h
  obtain rfl := Option.some_inj.mp h
  exact .of_thread (by simp [mainWork, hmain, setMonitor]) rfl rfl trivial hi

theorem deleteMonitor_progress (hmain : s.main = .deleteMonitor)
    (h : s.monitorStep socketOk o .deleteMonitor = some t) : Progress s t := by
  obtain rfl := Option.some_inj.mp h
  exact .of_thread (by simp [mainWork, hmain]) rfl rfl trivial rfl

theorem Holds.main_progress (hH : s.Holds o) (hstop : s.Stopping)
    (h : s.monitorStep socketOk o s.main = some t) : Progress s t := by
  cases hmain : s.main with
  | stop again =>
    cases again with
    | false => simp [Stopping, hmain] at hstop
    | true => exact hH.stop_progress hmain (hmain ▸ h)
  | stopShutdown again => exact hH.stopShutdown_progress hmain (hmain ▸ h)
  | stopJoin again => exact hH.stopJoin_progress hmain (hmain ▸ h)
  | stopClose again => exact hH.stopClose_progress hmain (hmain ▸ h)
  | deleteRef => exact hH.deleteRef_progress hmain (hmain ▸ h)
  | deleteMonitor => exact deleteMonitor_progress hmain (hmain ▸ h)
  | clear => rw [hmain] at h; cases h
  | _ => simp [Stopping, hmain] at hstop

end

/-- The call is winding up, or has returned. -/
def WindsUp (wakes : Bool) (s : Process) : Prop :=
  s.Inv ∧ (s.Stopping ∧ (wakes = true ∨ ¬ s.Blocked) ∨ s.Stopped)

theorem WindsUp.step {wakes : Bool} {l : Label} (hs : s.WindsUp wakes) (hl : l.internal)
    (h : s.step wakes l = some t) : t.WindsUp wakes ∧ t.work < s.work := by
  obtain ⟨hI, hs⟩ := hs
  have hI' := hI.step h
  rcases hI with ⟨o, hH⟩ | hF
  · obtain ⟨hstop, hblocked⟩ : s.Stopping ∧ (wakes = true ∨ ¬ s.Blocked) := by
      refine hs.resolve_right fun hstopped => ?_
      cases hstopped.2.symm.trans hH.gMonitor
    cases l with
    | main socketOk =>
      -- a step of the main thread does not make the thread wait
      have hP := hH.main_progress hstop (hH.mainStep_eq.symm.trans h)
      exact ⟨⟨hI', .inl ⟨hP.stopping, hblocked.imp_right fun hb hb' => hb (hP.blocked hb')⟩⟩,
        hP.work_lt⟩
    | loop i =>
      -- the thread moves, and finds `running_` cleared
      obtain ⟨hmain, hlt, hb⟩ := hH.loop_progress (hH.running_of_stopping hstop) h
      refine ⟨⟨hI', .inl ⟨?_, .inr hb⟩⟩, hlt⟩
      rw [Stopping, hmain]
      exact hstop
    | _ => exact hl.elim
  · cases l with
    | main socketOk =>
      have hstep : s.mainStep socketOk = some t := h
      rcases hF.main with ⟨hidle, -⟩ | hclear
      · rw [mainStep, hidle] at hstep
        cases hstep
      · rw [mainStep, hclear] at hstep
        obtain rfl := Option.some_inj.mp hstep
        refine ⟨⟨hI', .inr ⟨rfl, rfl⟩⟩, ?_⟩
        simp only [work, mainWork, hclear]
        omega
    | loop i => cases (hF.loopStep wakes i).symm.trans h
    | _ => exact hl.elim

/-- Where the main thread cannot go on, it waits for the thread to end. -/
theorem Holds.joins_of_stuck (hH : s.Holds o) (hstop : s.Stopping)
    (h : s.monitorStep true o s.main = none) : s.main = .stopJoin false ∧
      ∃ i th, o.thread_ = some i ∧ s.threads[i]? = some th ∧ th.pc ≠ .ended := by
  have hE := hH.expects
  cases hmain : s.main with
  | idle => simp [Stopping, hmain] at hstop
  | start => simp [Stopping, hmain] at hstop
  | startSocket => simp [Stopping, hmain] at hstop
  | startThread => simp [Stopping, hmain] at hstop
  | clear => rw [hmain] at hE; exact hE.elim
  | stop again => rw [hmain, Process.monitorStep] at h; split at h <;> cases h
  | stopShutdown again => rw [hmain, Process.monitorStep] at h; split at h <;> cases h
  | stopClose again => rw [hmain, Process.monitorStep] at h; split at h <;> cases h
  | deleteRef => rw [hmain, Process.monitorStep] at h; split at h <;> cases h
  | deleteMonitor => rw [hmain] at h; cases h
  | stopJoin again =>
    rw [hmain] at h hE
    cases again with
    | true => exact hE.elim
    | false =>
      obtain ⟨-, hi, -⟩ := hE
      obtain ⟨i, hi⟩ := Option.isSome_iff_exists.mp hi
      have hself := hH.selves i hi
      cases hth : s.threads[i]? with
      | none => simp [hth] at hself
      | some th =>
        -- had it ended, the join would return
        refine ⟨rfl, i, th, hi, hth, fun hended => ?_⟩
        rw [Process.monitorStep, hi] at h
        simp [hth, hended] at h

/-- Where the thread cannot go on, it waits in `recv`. -/
theorem Holds.waits_of_stuck {wakes : Bool} {i : ℕ} {th : Thread} (hH : s.Holds o)
    (hth : s.threads[i]? = some th) (halive : th.pc ≠ .ended) (h : s.loopStep wakes i = none) :
    th.pc = .recv ∧ ∃ k sk, o.sock_ = some k ∧ s.sockets[k]? = some sk ∧ sk.queue = [] ∧
      (sk.shutRd && wakes) = false := by
  obtain ⟨hi, hthis⟩ := hH.of_alive hth halive
  rw [Process.loopStep, hth, Option.bind_some, if_neg halive, hthis] at h
  cases hpc : th.pc with
  | ended => exact absurd hpc halive
  | check => simp [hpc] at h
  | report n =>
    cases n with
    | zero => simp [hpc] at h
    | succ n =>
      simp only [hpc] at h
      split at h <;> cases h
  | recv =>
    cases hk : o.sock_ with
    | none => simp [hpc, hk] at h
    | some k =>
      have hopen := hH.sock_ k hk
      cases hsk : s.sockets[k]? with
      | none => simp [hsk] at hopen
      | some sk =>
        rw [hsk, Option.any_some] at hopen
        simp only [hpc, hk, hsk, Option.filter_some, if_pos hopen] at h
        cases hq : sk.queue with
        | cons n queue => simp [hq] at h
        | nil =>
          refine ⟨rfl, k, sk, rfl, hsk, hq, ?_⟩
          simpa [hq] using h

/-- While `netLinkStop` winds up, only a `recv` that `shutdown` does not unblock
can hold it up. -/
theorem WindsUp.stopped_of_stuck {wakes : Bool} (hs : s.WindsUp wakes)
    (hstuck : ∀ l : Label, l.internal → s.step wakes l = none) : s.Stopped := by
  obtain ⟨hI, hs⟩ := hs
  refine hs.resolve_left fun ⟨hstop, hblocked⟩ => ?_
  have hmain : s.mainStep true = none := hstuck (.main true) trivial
  rcases hI with ⟨o, hH⟩ | hF
  · rw [hH.mainStep_eq] at hmain
    obtain ⟨hjoin, i, th, hi, hth, halive⟩ := hH.joins_of_stuck hstop hmain
    obtain ⟨hrecv, k, sk, hk, hsk, hq, hdead⟩ :=
      hH.waits_of_stuck hth halive (hstuck (.loop i) trivial)
    -- the main thread waits in `join`, so `shutdown` is behind it
    have hshut : sk.shutRd = true := by
      have hshut := hH.shut hjoin k hk
      rwa [hsk, Option.any_some] at hshut
    rcases hblocked with rfl | hblocked
    · simp [hshut] at hdead
    · exact hblocked ⟨o, i, th, k, sk, hH.monitor, hi, hth, hrecv, hk, hsk, hq⟩
  · rcases hF.main with ⟨hidle, -⟩ | hclear
    · simp [Stopping, hidle] at hstop
    · rw [mainStep, hclear] at hmain
      cases hmain

/-- `netLinkStop` waits for a thread that waits in `recv`. -/
def Hangs (s : Process) : Prop :=
  s.Inv ∧ s.Blocked ∧ (s.main = .stopShutdown false ∨ s.main = .stopJoin false)

theorem Hangs.step {l : Label} (hs : s.Hangs) (hl : l.internal) (h : s.step false l = some t) :
    t.Hangs := by
  obtain ⟨hI, hblocked, hmain⟩ := hs
  refine ⟨hI.step h, ?_⟩
  obtain ⟨o, i, th, k, sk, ho, hi, hth, hrecv, hk, hsk, hq⟩ := hblocked
  rcases hI with ⟨o', hH⟩ | hF
  · obtain rfl : o' = o := Option.some_inj.mp (hH.monitor.symm.trans ho)
    cases l with
    | main socketOk =>
      have hstep : s.monitorStep socketOk o' s.main = some t := hH.mainStep_eq.symm.trans h
      rcases hmain with hmain | hmain
      · -- `shutdown` leaves the queue empty
        rw [hmain, Process.monitorStep, hk] at hstep
        obtain rfl := Option.some_inj.mp hstep
        refine ⟨⟨o', i, th, k, { sk with shutRd := true }, ho, hi, hth, hrecv, hk, ?_, hq⟩,
          .inr rfl⟩
        show (s.sockets.modify k _)[k]? = _
        rw [List.getElem?_modify_eq, hsk]
        rfl
      · -- and `join` does not return
        rw [hmain, Process.monitorStep, hi] at hstep
        simp [hth, hrecv] at hstep
    | loop j =>
      -- the thread is in `recv` on an empty queue, and stays there
      obtain ⟨th', hth', hj, hcases⟩ := hH.loop_cases h
      obtain rfl := Option.some_inj.mp (hi.symm.trans hj)
      obtain rfl := Option.some_inj.mp (hth.symm.trans hth')
      rcases hcases with ⟨hpc, -⟩ | ⟨-, hk', -⟩ | ⟨k', sk', n, queue, -, hk', hsk', hq', -⟩ |
        ⟨-, -, -, -, -, -, -, hwakes, -⟩ | ⟨n, hpc, -⟩ | ⟨hpc, -⟩
      · cases hrecv.symm.trans hpc
      · cases hk.symm.trans hk'
      · obtain rfl := Option.some_inj.mp (hk.symm.trans hk')
        obtain rfl := Option.some_inj.mp (hsk.symm.trans hsk')
        cases hq.symm.trans hq'
      · cases hwakes
      · cases hrecv.symm.trans hpc
      · cases hrecv.symm.trans hpc
    | _ => exact hl.elim
  · cases hF.monitor.symm.trans ho

/-- A thread that is still blocked has not been joined. -/
theorem Inv.hangs (hI : s.Inv) (hstop : s.Stopping) (hblocked : s.Blocked) : s.Hangs := by
  refine ⟨hI, hblocked, ?_⟩
  obtain ⟨o, i, -, -, -, ho, hi, -⟩ := hblocked
  rcases hI with ⟨o', hH⟩ | hF
  · obtain rfl : o' = o := Option.some_inj.mp (hH.monitor.symm.trans ho)
    have hE := hH.expects
    cases hmain : s.main with
    | stopShutdown again => cases again <;> rw [hmain] at hE; exacts [.inl rfl, hE.elim]
    | stopJoin again => cases again <;> rw [hmain] at hE; exacts [.inr rfl, hE.elim]
    | stop again =>
      cases again with
      | false => simp [Stopping, hmain] at hstop
      | true => rw [hmain] at hE; cases hi.symm.trans hE.2.2.1
    | stopClose again =>
      cases again <;> rw [hmain] at hE
      · cases hi.symm.trans hE.2.1
      · exact hE.elim
    | deleteRef => rw [hmain] at hE; cases hi.symm.trans hE.2.2.1
    | deleteMonitor => rw [hmain] at hE; cases hi.symm.trans hE.2.2.1
    | clear => rw [hmain] at hE; exact hE.elim
    | _ => simp [Stopping, hmain] at hstop
  · cases hF.monitor.symm.trans ho

/-- **`netLinkStop` returns.**  Once it has cleared `running_`, and while nothing
more arrives, it returns in every schedule exactly if `shutdown` unblocks `recv` or
the thread is not blocked in it. -/
theorem stop_returns_iff (wakes : Bool) (ls : List Label) (s : Process)
    (h : Run.Reached (Process.step wakes) Process.initial ls s) (hstop : s.Stopping) :
    Run.Inevitably (Process.step wakes) Label.internal Process.Stopped s ↔
      wakes = true ∨ ¬ s.Blocked := by
  have hI := inv_of_reached h
  constructor
  · -- a blocked thread stays blocked, so no schedule ends
    intro hreturns
    by_contra hhangs
    obtain ⟨hwakes, hblocked⟩ := not_or.mp hhangs
    rw [Bool.not_eq_true] at hwakes
    subst hwakes
    rw [not_not] at hblocked
    obtain ⟨t, ⟨hI', ⟨o, -, -, -, -, ho, -⟩, -⟩, -, hg⟩ := hreturns.exists_of_invariant
      (I := Hangs) (fun _ _ _ hs hl hst => hs.step hl hst) (hI.hangs hstop hblocked)
    rcases hI' with ⟨o', hH⟩ | hF
    · cases hH.gMonitor.symm.trans hg
    · cases hF.monitor.symm.trans ho
  · -- otherwise every step leaves less to do, and only the end is stuck
    intro hfree
    exact Run.inevitably_of_measure (I := WindsUp wakes) work
      (fun _ _ _ hs hl hst => hs.step hl hst) (fun _ hs hstuck => hs.stopped_of_stuck hstuck)
      ⟨hI, .inl ⟨hstop, hfree⟩⟩

/-- Stop while the thread is in `recv` and no address has been announced. -/
private def stopInRecv : List Label :=
  [.netLinkStart, .main true, .main true, .main true, .loop 0, .netLinkStop, .main true]

theorem stop_returns_iff_recv : ∃ s, Run.exec (Process.step true) Process.initial stopInRecv =
    some s ∧ Run.Inevitably (Process.step true) Label.internal Process.Stopped s :=
  ⟨_, rfl, (stop_returns_iff true stopInRecv _ (Run.reached_of_exec rfl) trivial).mpr (.inl rfl)⟩

end Process

end Carplay.NetLink.Lifecycle

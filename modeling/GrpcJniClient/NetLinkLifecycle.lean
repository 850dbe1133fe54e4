/-
The life of a `NetLinkMonitor`: `netLinkStart` and `netLinkStop` on the main
thread, and `threadLoop` on a thread of its own.

A step is one access to what the threads share.  Whether `shutdown` unblocks
`recv` is the platform's affair (`wakes`); an access to a freed monitor, a closed
socket or a deleted reference sets `faulted`.

* `Holds.monitorStep` — each step of the main thread, one lemma for each place;
* `Inv.step` — so whatever is alive belongs to the monitor that is alive;
* `lifecycle_safe` — so nothing is used after its release, at most one thread, one
  socket and one reference are alive, and none is once `netLinkStop` has returned.
-/
import GrpcJniClient.Ownership
import GrpcJniClient.Run

open Ownership

namespace Carplay.NetLink.Lifecycle

/-! ### The monitor -/

/-- A netlink socket.  A datagram that waits is given by how many addresses it
announces. -/
structure Socket where
  isOpen : Bool
  shutRd : Bool
  queue : List ℕ
  deriving DecidableEq, Repr

/-- Where `threadLoop` is. -/
inductive LoopPc where
  /-- `while (running_)`. -/
  | check
  | recv
  /-- `onIpv6Ready` is still to be called `n` times for what was received. -/
  | report (n : ℕ)
  | ended
  deriving DecidableEq, Repr

/-- A thread that runs `threadLoop` of the monitor `self`. -/
structure Thread where
  self : ℕ
  pc : LoopPc
  deriving DecidableEq, Repr

structure NetLinkMonitor where
  /-- Which of the monitors made so far it is. -/
  self : ℕ
  running_ : Bool
  sock_ : Option ℕ
  thread_ : Option ℕ
  callbackObj_ : Option ℕ
  deriving DecidableEq, Repr

/-- Where the main thread is; `again` marks the call of `stop` that the destructor
makes. -/
inductive Main where
  | idle
  | start
  | startSocket
  | startThread
  | stop (again : Bool)
  | stopShutdown (again : Bool)
  | stopJoin (again : Bool)
  | stopClose (again : Bool)
  | deleteRef
  | deleteMonitor
  | clear
  deriving DecidableEq, Repr

structure Process where
  /-- `gMonitor` is not null. -/
  gMonitor : Bool
  /-- What it points to, while that is not freed. -/
  monitor : Option NetLinkMonitor
  /-- How many monitors have been made. -/
  made : ℕ
  sockets : List Socket
  /-- The global references, and which of them are not deleted. -/
  refs : List Bool
  threads : List Thread
  main : Main
  faulted : Bool
  deriving DecidableEq, Repr

namespace Process

def initial : Process := ⟨false, none, 0, [], [], [], .idle, false⟩

def setMonitor (s : Process) (o : NetLinkMonitor) (pc : Main) : Process :=
  { s with monitor := some o, main := pc }

/-- The next step of `netLinkStart` or `netLinkStop` on the monitor `o`; `socketOk`
says whether `socket` succeeds. -/
def monitorStep (s : Process) (socketOk : Bool) (o : NetLinkMonitor) : Main → Option Process
  | .start =>
      if o.running_ then some { s with main := .idle }
      else some (s.setMonitor { o with running_ := true } .startSocket)
  | .startSocket =>
      if socketOk then
        let socket : Socket := ⟨true, false, []⟩
        some ({ s with sockets := s.sockets ++ [socket] }.setMonitor
          { o with sock_ := some s.sockets.length } .startThread)
      else some (s.setMonitor { o with sock_ := none } .startThread)
  | .startThread =>
      let thread : Thread := ⟨o.self, .check⟩
      some ({ s with threads := s.threads ++ [thread] }.setMonitor
        { o with thread_ := some s.threads.length } .idle)
  | .stop again =>
      if o.running_ then some (s.setMonitor { o with running_ := false } (.stopShutdown again))
      else some { s with main := if again then .deleteRef else .stop true }
  | .stopShutdown again =>
      match o.sock_ with
      | some k => some { s with
          sockets := s.sockets.modify k fun sk => { sk with shutRd := true }
          main := .stopJoin again }
      | none => some { s with main := .stopJoin again }
  | .stopJoin again =>
      match o.thread_ with
      | some i =>
          if (s.threads[i]?).any fun th => th.pc = .ended then
            some (s.setMonitor { o with thread_ := none } (.stopClose again))
          else none
      | none => some { s with main := .stopClose again }
  | .stopClose again =>
      let pc := if again then .deleteRef else .stop true
      match o.sock_ with
      | some k =>
          some ({ s with
            sockets := s.sockets.modify k fun sk => { sk with isOpen := false } }.setMonitor
              { o with sock_ := none } pc)
      | none => some (s.setMonitor { o with sock_ := none } pc)
  | .deleteRef =>
      match o.callbackObj_ with
      | some r =>
          some ({ s with refs := s.refs.set r false }.setMonitor
            { o with callbackObj_ := none } .deleteMonitor)
      | none => some { s with main := .deleteMonitor }
  | .deleteMonitor => some { s with monitor := none, main := .clear }
  | .idle | .clear => none

def mainStep (s : Process) (socketOk : Bool) : Option Process :=
  match s.main with
  | .idle => none
  | .clear => some { s with gMonitor := false, main := .idle }
  | pc =>
    match s.monitor with
    | none => some { s with faulted := true }
    | some o => s.monitorStep socketOk o pc

def setPc (s : Process) (i : ℕ) (pc : LoopPc) : Process :=
  { s with threads := s.threads.modify i fun th => { th with pc := pc } }

/-- The next step of `threadLoop` in thread `i`. -/
def loopStep (wakes : Bool) (s : Process) (i : ℕ) : Option Process :=
  (s.threads[i]?).bind fun th =>
    if th.pc = .ended then none
    else match s.monitor.filter fun o => o.self = th.self with
      | none => some { s with faulted := true }
      | some o =>
        match th.pc with
        | .check => some (s.setPc i (if o.running_ then .recv else .ended))
        | .recv =>
            match o.sock_ with
            | none => some (s.setPc i .check)
            | some k =>
                match (s.sockets[k]?).filter fun sk => sk.isOpen with
                | none => some { s with faulted := true }
                | some sk =>
                    match sk.queue with
                    | n :: queue => some ({ s with
                        sockets := s.sockets.modify k fun sk => { sk with queue := queue }
                        }.setPc i (.report n))
                    | [] => if sk.shutRd && wakes then some (s.setPc i .check) else none
        | .report (n + 1) =>
            if o.callbackObj_.any fun r => s.refs[r]? = some true then
              some (s.setPc i (.report n))
            else some { s with faulted := true }
        | _ => some (s.setPc i .check)

inductive Label where
  | netLinkStart
  | netLinkStop
  | main (socketOk : Bool)
  | loop (i : ℕ)
  /-- `recv` fails in thread `i`. -/
  | recvFails (i : ℕ)
  /-- The kernel sends a datagram with `n` addresses to socket `k`. -/
  | announce (k n : ℕ)

def step (wakes : Bool) (s : Process) : Label → Option Process
  | .netLinkStart =>
      if s.main ≠ .idle then none
      else if s.gMonitor then some s
      else some { s with
        gMonitor := true
        monitor := some ⟨s.made, false, none, none, some s.refs.length⟩
        made := s.made + 1
        refs := s.refs ++ [true]
        main := .start }
  | .netLinkStop =>
      if s.main ≠ .idle then none
      else if s.gMonitor then some { s with main := .stop false }
      else some s
  | .main socketOk => s.mainStep socketOk
  | .loop i => s.loopStep wakes i
  | .recvFails i =>
      if (s.threads[i]?).any fun th => th.pc = .recv then some (s.setPc i .check) else none
  | .announce k n =>
      if (s.sockets[k]?).any fun sk => sk.isOpen then
        some { s with sockets := s.sockets.modify k fun sk => { sk with queue := sk.queue ++ [n] } }
      else none

end Process

/-! ### What is alive -/

/-- What the main thread has left of the monitor it works on. -/
def Expects (o : NetLinkMonitor) : Main → Prop
  | .idle | .stop false => o.running_ = true ∧ o.thread_.isSome ∧ o.callbackObj_.isSome
  | .start => o.running_ = false ∧ o.sock_ = none ∧ o.thread_ = none ∧ o.callbackObj_.isSome
  | .startSocket => o.running_ = true ∧ o.sock_ = none ∧ o.thread_ = none ∧ o.callbackObj_.isSome
  | .startThread => o.running_ = true ∧ o.thread_ = none ∧ o.callbackObj_.isSome
  | .stopShutdown false | .stopJoin false =>
      o.running_ = false ∧ o.thread_.isSome ∧ o.callbackObj_.isSome
  | .stopClose false => o.running_ = false ∧ o.thread_ = none ∧ o.callbackObj_.isSome
  | .stop true | .deleteRef =>
      o.running_ = false ∧ o.sock_ = none ∧ o.thread_ = none ∧ o.callbackObj_.isSome
  | .deleteMonitor =>
      o.running_ = false ∧ o.sock_ = none ∧ o.thread_ = none ∧ o.callbackObj_ = none
  | _ => False

/-- A thread that has not ended. -/
def Thread.alive (th : Thread) : Bool := th.pc ≠ .ended

/-- The monitor `o` is alive, and what else is alive belongs to it. -/
structure Process.Holds (s : Process) (o : NetLinkMonitor) : Prop where
  monitor : s.monitor = some o
  gMonitor : s.gMonitor = true
  expects : Expects o s.main
  threads : Only Thread.alive s.threads o.thread_
  selves : Points (fun th => th.self = o.self) s.threads o.thread_
  sockets : Only Socket.isOpen s.sockets o.sock_
  sock_ : Points Socket.isOpen s.sockets o.sock_
  shut : s.main = .stopJoin false → Points Socket.shutRd s.sockets o.sock_
  refs : Only id s.refs o.callbackObj_
  callbackObj_ : Points id s.refs o.callbackObj_
  sound : s.faulted = false

/-- Nothing is alive. -/
structure Process.Free (s : Process) : Prop where
  monitor : s.monitor = none
  main : s.main = .idle ∧ s.gMonitor = false ∨ s.main = .clear
  threads : Only Thread.alive s.threads none
  sockets : Only Socket.isOpen s.sockets none
  refs : Only id s.refs none
  sound : s.faulted = false

def Process.Inv (s : Process) : Prop := (∃ o, s.Holds o) ∨ s.Free

namespace Process

variable {s t : Process} {o : NetLinkMonitor}

theorem Inv.initial : Process.initial.Inv :=
  .inr ⟨rfl, .inl ⟨rfl, rfl⟩, only_nil, only_nil, only_nil, rfl⟩

/-! The steps of the main thread, one by one. -/

section

variable {socketOk : Bool}

theorem Holds.start (hH : s.Holds o) (hmain : s.main = .start)
    (h : s.monitorStep socketOk o .start = some t) : t.Inv := by
  obtain ⟨hr, hk, hi, hc⟩ : Expects o .start := hmain ▸ hH.expects
  rw [Process.monitorStep, if_neg (by simp [hr])] at h
  obtain rfl := Option.some_inj.mp h
  exact .inl ⟨_, { hH with
    monitor := rfl
    expects := ⟨rfl, hk, hi, hc⟩
    shut := fun h => by cases h }⟩

theorem Holds.startSocket (hH : s.Holds o) (hmain : s.main = .startSocket)
    (h : s.monitorStep socketOk o .startSocket = some t) : t.Inv := by
  obtain ⟨hr, hk, hi, hc⟩ : Expects o .startSocket := hmain ▸ hH.expects
  have hsockets : Only Socket.isOpen s.sockets none := hk ▸ hH.sockets
  rw [Process.monitorStep] at h
  split at h
  · -- the new socket is the only open one
    obtain rfl := Option.some_inj.mp h
    exact .inl ⟨_, { hH with
      monitor := rfl
      expects := ⟨hr, hi, hc⟩
      sockets := hsockets.append
      sock_ := Points.append_self rfl
      shut := fun h => by cases h }⟩
  · obtain rfl := Option.some_inj.mp h
    exact .inl ⟨_, { hH with
      monitor := rfl
      expects := ⟨hr, hi, hc⟩
      sockets := hsockets
      sock_ := points_none
      shut := fun h => by cases h }⟩

theorem Holds.startThread (hH : s.Holds o) (hmain : s.main = .startThread)
    (h : s.monitorStep socketOk o .startThread = some t) : t.Inv := by
  obtain ⟨hr, hi, hc⟩ : Expects o .startThread := hmain ▸ hH.expects
  obtain rfl := Option.some_inj.mp h
  exact .inl ⟨_, { hH with
    monitor := rfl
    expects := ⟨hr, rfl, hc⟩
    threads := (hi ▸ hH.threads).append
    selves := Points.append_self (decide_eq_true rfl)
    shut := fun h => by cases h }⟩

/-- The destructor finds the monitor stopped. -/
theorem Holds.stop {again : Bool} (hH : s.Holds o) (hmain : s.main = .stop again)
    (h : s.monitorStep socketOk o (.stop again) = some t) : t.Inv := by
  have hE := hH.expects
  rw [hmain] at hE
  cases again with
  | false =>
    obtain ⟨hr, hi, hc⟩ := hE
    rw [Process.monitorStep, if_pos hr] at h
    obtain rfl := Option.some_inj.mp h
    exact .inl ⟨_, { hH with
      monitor := rfl
      expects := ⟨rfl, hi, hc⟩
      shut := fun h => by cases h }⟩
  | true =>
    obtain ⟨hr, hk, hi, hc⟩ := hE
    -- it returns at once: the call before has done it all
    rw [Process.monitorStep, if_neg (by simp [hr])] at h
    obtain rfl := Option.some_inj.mp h
    exact .inl ⟨o, { hH with
      expects := ⟨hr, hk, hi, hc⟩
      shut := fun h => by cases h }⟩

theorem Holds.stopShutdown {again : Bool} (hH : s.Holds o) (hmain : s.main = .stopShutdown again)
    (h : s.monitorStep socketOk o (.stopShutdown again) = some t) : t.Inv := by
  have hE := hH.expects
  rw [hmain] at hE
  cases again with
  | true => exact hE.elim
  | false =>
    rw [Process.monitorStep] at h
    cases hk : o.sock_ with
    | none =>
      rw [hk] at h
      obtain rfl := Option.some_inj.mp h
      exact .inl ⟨o, { hH with
        expects := hE
        shut := fun _ => hk ▸ points_none }⟩
    | some k =>
      rw [hk] at h
      obtain rfl := Option.some_inj.mp h
      refine .inl ⟨o, { hH with
        expects := hE
        sockets := hH.sockets.modify fun _ h => h
        sock_ := hH.sock_.modify fun _ h => h
        shut := fun _ => ?_ }⟩
      rw [hk]
      exact (hk ▸ hH.sock_).gain fun _ => rfl

/-- After `join` no thread is alive, since the one that could be has ended. -/
theorem Holds.only_of_ended (hH : s.Holds o) {i : ℕ} (hi : o.thread_ = some i)
    (hended : ((s.threads[i]?).any fun th => th.pc = .ended) = true) :
    Only Thread.alive s.threads none := by
  intro k hk
  obtain rfl := Option.some_inj.mp (hi.symm.trans (hH.threads k hk))
  cases hth : s.threads[i]? with
  | none => simp [hth] at hended
  | some th =>
    have halive : (s.threads[i]?).any Thread.alive = true := hk
    rw [hth, Option.any_some, decide_eq_true_eq] at hended
    rw [hth, Option.any_some, Thread.alive, decide_eq_true_eq] at halive
    exact absurd hended halive

theorem Holds.stopJoin {again : Bool} (hH : s.Holds o) (hmain : s.main = .stopJoin again)
    (h : s.monitorStep socketOk o (.stopJoin again) = some t) : t.Inv := by
  have hE := hH.expects
  rw [hmain] at hE
  cases again with
  | true => exact hE.elim
  | false =>
    obtain ⟨hr, hi, hc⟩ := hE
    obtain ⟨i, hi⟩ := Option.isSome_iff_exists.mp hi
    rw [Process.monitorStep, hi] at h
    simp only [Option.ite_none_right_eq_some, Option.some_inj] at h
    obtain ⟨hended, rfl⟩ := h
    -- the join has returned, so the thread has ended
    exact .inl ⟨_, { hH with
      monitor := rfl
      expects := ⟨hr, rfl, hc⟩
      threads := hH.only_of_ended hi hended
      selves := points_none
      shut := fun h => by cases h }⟩

theorem Holds.stopClose {again : Bool} (hH : s.Holds o) (hmain : s.main = .stopClose again)
    (h : s.monitorStep socketOk o (.stopClose again) = some t) : t.Inv := by
  have hE := hH.expects
  rw [hmain] at hE
  cases again with
  | true => exact hE.elim
  | false =>
    obtain ⟨hr, hi, hc⟩ := hE
    rw [Process.monitorStep] at h
    cases hk : o.sock_ with
    | none =>
      rw [hk] at h
      obtain rfl := Option.some_inj.mp h
      exact .inl ⟨_, { hH with
        monitor := rfl
        expects := ⟨hr, rfl, hi, hc⟩
        sockets := hk ▸ hH.sockets
        sock_ := points_none
        shut := fun h => by cases h }⟩
    | some k =>
      rw [hk] at h
      obtain rfl := Option.some_inj.mp h
      exact .inl ⟨_, { hH with
        monitor := rfl
        expects := ⟨hr, rfl, hi, hc⟩
        sockets := (hk ▸ hH.sockets).lose fun _ => rfl
        sock_ := points_none
        shut := fun h => by cases h }⟩

theorem Holds.deleteRef (hH : s.Holds o) (hmain : s.main = .deleteRef)
    (h : s.monitorStep socketOk o .deleteRef = some t) : t.Inv := by
  obtain ⟨hr, hk, hi, hc⟩ : Expects o .deleteRef := hmain ▸ hH.expects
  obtain ⟨r, hc⟩ := Option.isSome_iff_exists.mp hc
  rw [Process.monitorStep, hc] at h
  obtain rfl := Option.some_inj.mp h
  refine .inl ⟨_, { hH with
    monitor := rfl
    expects := ⟨hr, hk, hi, rfl⟩
    shut := fun h => by cases h
    refs := ?_
    callbackObj_ := points_none }⟩
  show Only id (s.refs.set r false) none
  -- the reference that goes is the one that was alive
  rw [List.set_eq_modify]
  exact (hc ▸ hH.refs).lose fun _ => rfl

/-- With the monitor goes the last thing that was alive. -/
theorem Holds.deleteMonitor (hH : s.Holds o) (hmain : s.main = .deleteMonitor)
    (h : s.monitorStep socketOk o .deleteMonitor = some t) : t.Inv := by
  obtain ⟨hr, hk, hi, hc⟩ : Expects o .deleteMonitor := hmain ▸ hH.expects
  obtain rfl := Option.some_inj.mp h
  exact .inr
    { monitor := rfl
      main := .inr rfl
      threads := hi ▸ hH.threads
      sockets := hk ▸ hH.sockets
      refs := hc ▸ hH.refs
      sound := hH.sound }

theorem Holds.monitorStep (hH : s.Holds o) (h : s.monitorStep socketOk o s.main = some t) :
    t.Inv := by
  cases hmain : s.main with
  | idle => rw [hmain] at h; cases h
  | clear => rw [hmain] at h; cases h
  | start => exact hH.start hmain (hmain ▸ h)
  | startSocket => exact hH.startSocket hmain (hmain ▸ h)
  | startThread => exact hH.startThread hmain (hmain ▸ h)
  | stop again => exact hH.stop hmain (hmain ▸ h)
  | stopShutdown again => exact hH.stopShutdown hmain (hmain ▸ h)
  | stopJoin again => exact hH.stopJoin hmain (hmain ▸ h)
  | stopClose again => exact hH.stopClose hmain (hmain ▸ h)
  | deleteRef => exact hH.deleteRef hmain (hmain ▸ h)
  | deleteMonitor => exact hH.deleteMonitor hmain (hmain ▸ h)

end

theorem Holds.mainStep_eq {socketOk : Bool} (hH : s.Holds o) :
    s.mainStep socketOk = s.monitorStep socketOk o s.main := by
  have hE := hH.expects
  rw [mainStep]
  cases hmain : s.main with
  | idle => rfl
  | clear => rw [hmain] at hE; exact hE.elim
  | _ => simp only [hH.monitor]

/-- The thread that is alive is the one that the monitor joins, and `this` is that
monitor. -/
theorem Holds.of_alive (hH : s.Holds o) {i : ℕ} {th : Thread} (hth : s.threads[i]? = some th)
    (halive : th.pc ≠ .ended) :
    o.thread_ = some i ∧ s.monitor.filter (fun o => o.self = th.self) = some o := by
  have hi : o.thread_ = some i := hH.threads i (by
    rw [hth, Option.any_some, Thread.alive, decide_eq_true_eq]
    exact halive)
  -- `this` of the thread is the monitor that has started it
  have hself := hH.selves i hi
  rw [hth, Option.any_some, decide_eq_true_eq] at hself
  refine ⟨hi, ?_⟩
  rw [hH.monitor, Option.filter_some, if_pos (decide_eq_true hself.symm)]

/-- The reference of a monitor with a thread is alive. -/
theorem Holds.callbackObj_of_thread (hH : s.Holds o) {i : ℕ} (hi : o.thread_ = some i) :
    ∃ r, o.callbackObj_ = some r ∧ s.refs[r]? = some true := by
  have hE := hH.expects
  have hc : o.callbackObj_.isSome := by
    cases hmain : s.main with
    | idle => rw [hmain] at hE; exact hE.2.2
    | clear => rw [hmain] at hE; exact hE.elim
    | start => rw [hmain] at hE; exact hE.2.2.2
    | startSocket => rw [hmain] at hE; exact hE.2.2.2
    | startThread => rw [hmain] at hE; exact hE.2.2
    | stop again => cases again <;> rw [hmain] at hE; exacts [hE.2.2, hE.2.2.2]
    | stopShutdown again => cases again <;> rw [hmain] at hE; exacts [hE.2.2, hE.elim]
    | stopJoin again => cases again <;> rw [hmain] at hE; exacts [hE.2.2, hE.elim]
    | stopClose again => cases again <;> rw [hmain] at hE; exacts [hE.2.2, hE.elim]
    | deleteRef => rw [hmain] at hE; exact hE.2.2.2
    | deleteMonitor =>
      rw [hmain] at hE
      -- by then the thread has been joined
      cases hi.symm.trans hE.2.2.1
  obtain ⟨r, hr⟩ := Option.isSome_iff_exists.mp hc
  have href := hH.callbackObj_ r hr
  refine ⟨r, hr, ?_⟩
  cases hx : s.refs[r]? with
  | none => simp [hx] at href
  | some x =>
    rw [hx, Option.any_some] at href
    exact congrArg some href

/-- **What `threadLoop` can do.** -/
theorem Holds.loop_cases {wakes : Bool} {i : ℕ} (hH : s.Holds o)
    (h : s.loopStep wakes i = some t) : ∃ th, s.threads[i]? = some th ∧ o.thread_ = some i ∧
      (th.pc = .check ∧ t = s.setPc i (if o.running_ then .recv else .ended) ∨
        th.pc = .recv ∧ o.sock_ = none ∧ t = s.setPc i .check ∨
        (∃ k sk n queue, th.pc = .recv ∧ o.sock_ = some k ∧ s.sockets[k]? = some sk ∧
          sk.queue = n :: queue ∧ t = { s with
            sockets := s.sockets.modify k fun sk => { sk with queue := queue }
            }.setPc i (.report n)) ∨
        (∃ k sk, th.pc = .recv ∧ o.sock_ = some k ∧ s.sockets[k]? = some sk ∧ sk.queue = [] ∧
          sk.shutRd = true ∧ wakes = true ∧ t = s.setPc i .check) ∨
        (∃ n, th.pc = .report (n + 1) ∧ t = s.setPc i (.report n)) ∨
        th.pc = .report 0 ∧ t = s.setPc i .check) := by
  obtain ⟨th, hth, h⟩ := Option.bind_eq_some_iff.mp h
  by_cases hended : th.pc = .ended
  · rw [if_pos hended] at h
    cases h
  · obtain ⟨hi, hthis⟩ := hH.of_alive hth hended
    rw [if_neg hended, hthis] at h
    refine ⟨th, hth, hi, ?_⟩
    cases hpc : th.pc with
    | ended => exact absurd hpc hended
    | check =>
      rw [hpc] at h
      exact .inl ⟨rfl, (Option.some_inj.mp h).symm⟩
    | recv =>
      rw [hpc] at h
      cases hk : o.sock_ with
      | none =>
        simp only [hk] at h
        exact .inr (.inl ⟨rfl, rfl, (Option.some_inj.mp h).symm⟩)
      | some k =>
        -- the socket of the monitor is open, so `recv` does not use a closed one
        have hopen := hH.sock_ k hk
        cases hsk : s.sockets[k]? with
        | none => simp [hsk] at hopen
        | some sk =>
          rw [hsk, Option.any_some] at hopen
          simp only [hk, hsk, Option.filter_some, if_pos hopen] at h
          cases hq : sk.queue with
          | nil =>
            simp only [hq, Option.ite_none_right_eq_some, Bool.and_eq_true, Option.some_inj] at h
            obtain ⟨⟨hshut, hwakes⟩, rfl⟩ := h
            exact .inr (.inr (.inr (.inl ⟨k, sk, rfl, rfl, hsk, hq, hshut, hwakes, rfl⟩)))
          | cons n queue =>
            simp only [hq] at h
            exact .inr (.inr (.inl ⟨k, sk, n, queue, rfl, rfl, hsk, hq,
              (Option.some_inj.mp h).symm⟩))
    | report n =>
      cases n with
      | zero =>
        rw [hpc] at h
        exact .inr (.inr (.inr (.inr (.inr ⟨rfl, (Option.some_inj.mp h).symm⟩))))
      | succ n =>
        -- the reference is alive as long as there is a thread
        obtain ⟨r, hr, hlive⟩ := hH.callbackObj_of_thread hi
        simp only [hpc, hr, Option.any_some, hlive, decide_true, if_true] at h
        exact .inr (.inr (.inr (.inr (.inl ⟨n, rfl, (Option.some_inj.mp h).symm⟩))))

theorem Holds.setPc {i : ℕ} (hH : s.Holds o) (hi : o.thread_ = some i) (pc : LoopPc) :
    (s.setPc i pc).Holds o :=
  { hH with
    threads := by
      have hthreads := hH.threads
      rw [hi] at hthreads ⊢
      exact hthreads.modify_self
    selves := hH.selves.modify fun _ h => h }

/-- Only what waits in a socket changes. -/
theorem Holds.setQueue {k : ℕ} (hH : s.Holds o) (f : List ℕ → List ℕ) :
    ({ s with sockets := s.sockets.modify k fun sk => { sk with queue := f sk.queue } } :
      Process).Holds o :=
  { hH with
    sockets := hH.sockets.modify fun _ h => h
    sock_ := hH.sock_.modify fun _ h => h
    shut := fun h => (hH.shut h).modify fun _ h => h }

theorem Holds.loopStep {wakes : Bool} {i : ℕ} (hH : s.Holds o) (h : s.loopStep wakes i = some t) :
    t.Holds o := by
  obtain ⟨th, -, hi, ⟨-, rfl⟩ | ⟨-, -, rfl⟩ | ⟨k, sk, n, queue, -, -, -, -, rfl⟩ |
    ⟨k, sk, -, -, -, -, -, -, rfl⟩ | ⟨n, -, rfl⟩ | ⟨-, rfl⟩⟩ := hH.loop_cases h
  · exact hH.setPc hi _
  · exact hH.setPc hi _
  · exact (hH.setQueue fun _ => queue).setPc hi _
  · exact hH.setPc hi _
  · exact hH.setPc hi _
  · exact hH.setPc hi _

theorem Free.loopStep (hF : s.Free) (wakes : Bool) (i : ℕ) : s.loopStep wakes i = none := by
  rw [Process.loopStep]
  cases hth : s.threads[i]? with
  | none => rfl
  | some th =>
    rw [Option.bind_some, if_pos]
    -- no thread is alive, so this one has ended
    by_contra halive
    cases hF.threads i (by rw [hth, Option.any_some, Thread.alive]; exact decide_eq_true halive)

/-- A new monitor owns nothing but its reference. -/
theorem Inv.netLinkStart {wakes : Bool} (hs : s.Inv) (h : s.step wakes .netLinkStart = some t) :
    t.Inv := by
  rw [Process.step] at h
  split at h
  · cases h
  · split at h
    · obtain rfl := Option.some_inj.mp h
      exact hs
    · rename_i hg
      obtain rfl := Option.some_inj.mp h
      rcases hs with ⟨o, hH⟩ | hF
      · -- a monitor that is held would be in `gMonitor`
        exact absurd hH.gMonitor hg
      · exact .inl ⟨_,
          { monitor := rfl
            gMonitor := rfl
            expects := ⟨rfl, rfl, rfl, rfl⟩
            threads := hF.threads
            selves := points_none
            sockets := hF.sockets
            sock_ := points_none
            shut := fun _ => points_none
            refs := hF.refs.append
            callbackObj_ := Points.append_self rfl
            sound := hF.sound }⟩

theorem Inv.netLinkStop {wakes : Bool} (hs : s.Inv) (h : s.step wakes .netLinkStop = some t) :
    t.Inv := by
  rw [Process.step] at h
  split at h
  · cases h
  · rename_i hidle
    rw [not_not] at hidle
    split at h
    · rename_i hg
      obtain rfl := Option.some_inj.mp h
      rcases hs with ⟨o, hH⟩ | hF
      · have hE := hH.expects
        rw [hidle] at hE
        exact .inl ⟨o, { hH with expects := hE, shut := fun h => by cases h }⟩
      · -- `gMonitor` is null, or the main thread is still in `netLinkStop`
        rcases hF.main with ⟨-, hnull⟩ | hclear
        · rw [hnull] at hg
          cases hg
        · cases hidle.symm.trans hclear
    · obtain rfl := Option.some_inj.mp h
      exact hs

theorem Inv.mainStep {socketOk : Bool} (hs : s.Inv) (h : s.mainStep socketOk = some t) : t.Inv := by
  rcases hs with ⟨o, hH⟩ | hF
  · exact hH.monitorStep (hH.mainStep_eq.symm.trans h)
  · rw [Process.mainStep] at h
    -- nothing is left to do but to clear `gMonitor`
    rcases hF.main with ⟨hidle, -⟩ | hclear
    · rw [hidle] at h
      cases h
    · rw [hclear] at h
      obtain rfl := Option.some_inj.mp h
      exact .inr { hF with main := .inl ⟨rfl, rfl⟩ }

/-- A thread whose `recv` fails is alive, and so the monitor's. -/
theorem Inv.recvFails {wakes : Bool} {i : ℕ} (hs : s.Inv)
    (h : s.step wakes (.recvFails i) = some t) : t.Inv := by
  rw [Process.step] at h
  simp only [Option.ite_none_right_eq_some, Option.some_inj] at h
  obtain ⟨hrecv, rfl⟩ := h
  obtain ⟨th, hth, hrecv⟩ : ∃ th, s.threads[i]? = some th ∧ th.pc = .recv := by
    cases hth : s.threads[i]? with
    | none => simp [hth] at hrecv
    | some th => exact ⟨th, rfl, by simpa [hth] using hrecv⟩
  have halive : th.pc ≠ .ended := fun hended => by cases hrecv.symm.trans hended
  rcases hs with ⟨o, hH⟩ | hF
  · exact .inl ⟨o, hH.setPc (hH.of_alive hth halive).1 _⟩
  · cases hF.threads i (by rw [hth, Option.any_some, Thread.alive]; exact decide_eq_true halive)

/-- **The step lemma.** -/
theorem Inv.step {wakes : Bool} {l : Label} (hs : s.Inv) (h : s.step wakes l = some t) : t.Inv := by
  cases l with
  | netLinkStart => exact hs.netLinkStart h
  | netLinkStop => exact hs.netLinkStop h
  | main socketOk => exact hs.mainStep h
  | recvFails i => exact hs.recvFails h
  | loop i =>
    rcases hs with ⟨o, hH⟩ | hF
    · exact .inl ⟨o, hH.loopStep h⟩
    · cases (hF.loopStep wakes i).symm.trans h
  | announce k n =>
    rw [Process.step] at h
    simp only [Option.ite_none_right_eq_some, Option.some_inj] at h
    obtain ⟨hopen, rfl⟩ := h
    rcases hs with ⟨o, hH⟩ | hF
    · exact .inl ⟨o, hH.setQueue fun queue => queue ++ [n]⟩
    · exact .inr { hF with sockets := hF.sockets.modify fun _ h => h }

/-! ### Nothing is used after its release -/

theorem inv_of_reached {wakes : Bool} {ls : List Label}
    (h : Run.Reached (Process.step wakes) Process.initial ls s) : s.Inv :=
  h.invariant (C := fun _ _ => True) (fun _ _ _ hs _ hst => hs.step hst) Inv.initial
    (Run.along_true _ _)

/-- `netLinkStop` has returned, or `netLinkStart` has not been called. -/
def Stopped (s : Process) : Prop := s.main = .idle ∧ s.gMonitor = false

/-- **The monitor is safe.**  In every state of every run no freed monitor, closed
socket or deleted reference has been used; at most one thread, one socket and one
reference are alive; and when `netLinkStop` has returned none is, so that no call
of `onIpv6Ready` can follow. -/
theorem lifecycle_safe (wakes : Bool) (ls : List Label) (s : Process)
    (h : Run.Reached (Process.step wakes) Process.initial ls s) :
    s.faulted = false ∧
      (AtMostOne Thread.alive s.threads ∧ AtMostOne Socket.isOpen s.sockets ∧
        AtMostOne id s.refs) ∧
      (s.Stopped → (∀ th ∈ s.threads, th.alive = false) ∧ (∀ sk ∈ s.sockets, sk.isOpen = false) ∧
        (∀ r ∈ s.refs, r = false) ∧ ∀ i, s.step wakes (.loop i) = none) := by
  rcases inv_of_reached h with ⟨o, hH⟩ | hF
  · refine ⟨hH.sound, ⟨hH.threads.atMostOne, hH.sockets.atMostOne, hH.refs.atMostOne⟩, ?_⟩
    rintro ⟨-, hg⟩
    cases hg.symm.trans hH.gMonitor
  · exact ⟨hF.sound, ⟨hF.threads.atMostOne, hF.sockets.atMostOne, hF.refs.atMostOne⟩,
      fun _ => ⟨hF.threads.eq_false, hF.sockets.eq_false, hF.refs.eq_false, hF.loopStep wakes⟩⟩

/-- Start, one address is reported, and stop while the thread is in `recv`. -/
private def startAndStop : List Label :=
  [.netLinkStart, .main true, .main true, .main true, .announce 0 1, .loop 0, .loop 0, .loop 0,
    .loop 0, .loop 0, .netLinkStop, .main true, .main true, .loop 0, .loop 0, .main true,
    .main true, .main true, .main true, .main true, .main true]

theorem lifecycle_safe_startAndStop : ∃ s, Run.exec (Process.step true) Process.initial startAndStop =
      some s ∧ s.faulted = false ∧ ∀ i, s.step true (.loop i) = none := by
  refine ⟨_, rfl, ?_, ?_⟩
  · exact (lifecycle_safe true startAndStop _ (Run.reached_of_exec rfl)).1
  · exact ((lifecycle_safe true startAndStop _ (Run.reached_of_exec rfl)).2.2 ⟨rfl, rfl⟩).2.2.2

end Process

end Carplay.NetLink.Lifecycle

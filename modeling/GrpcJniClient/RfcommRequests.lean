/-
The requests that `CarplayBluetoothServiceBinder` launches for one key.

Every `startRfcommTransform` and `stopRfcommTransform` is a coroutine of its own
on a dispatcher with many threads.  The manager's mutex lets them run one after
the other, in whatever order they get to it.

* `executed_exec` — the manager is what the operations make of it in the order
  in which their coroutines ran;
* `requests_in_order_iff` — what is open in the end is what the last request
  asked for exactly if that order's surplus of connected starts says so;
* `late_start_outlives_stop` — a start overtaken by the stop that follows it.
-/
import GrpcJniClient.RfcommList
import GrpcJniClient.ThreadPool

open Backlog ThreadPool

namespace Carplay.Rfcomm

open BluetoothRfcommManager

/-- A call on the binder. -/
inductive Request where
  | startRfcommTransform
  | stopRfcommTransform
  deriving DecidableEq, Repr

/-- A coroutine of `mBluetoothServiceScope`. -/
inductive Coroutine where
  | launched (request : Request)
  /-- It has run; `connected` if it was a start that connected. -/
  | finished (connected : Bool)
  deriving DecidableEq, Repr

/-- The manager, and what has been done to it, in that order. -/
structure Executed where
  mBluetoothRfcommManager : BluetoothRfcommManager
  ops : List RfcommOp
  deriving DecidableEq, Repr

namespace Requests

variable (device : BluetoothDevice) (uuid : UUID)

/-- A coroutine runs its operation, under the manager's mutex; `o` is how a
start's `connect` ends. -/
def prim (s : Executed) (o : ConnectOutcome) :
    Coroutine → Option (Executed × Coroutine × List Coroutine)
  | .launched .startRfcommTransform =>
      let (connected, manager) := s.mBluetoothRfcommManager.startRfcommTransportJob device uuid o
      some (⟨manager, s.ops ++ [.start device uuid o]⟩, .finished connected, [])
  | .launched .stopRfcommTransform =>
      some (⟨s.mBluetoothRfcommManager.stopRfcommTransportJob device uuid,
        s.ops ++ [.stop device uuid]⟩, .finished false, [])
  | .finished _ => none

abbrev Scope := Pool Executed Coroutine

inductive Label where
  | call (request : Request)
  /-- The dispatcher runs coroutine `i`. -/
  | run (i : ℕ) (o : ConnectOutcome)
  deriving DecidableEq, Repr

def initial : Scope := ⟨⟨BluetoothRfcommManager.initial, []⟩, []⟩

def step (p : Scope) : Label → Option Scope
  | .call request => some (p.spawn (.launched request))
  | .run i o => p.move (prim device uuid) i o

/-- All coroutines have finished. -/
def AllFinished (p : Scope) : Prop := ∀ k ∈ p.threads, ∃ connected, k = .finished connected

/-- The key has an open channel. -/
def HasOpenChannel (p : Scope) : Prop :=
  ∃ (c : ℕ) (ch : BluetoothRfcommChannel),
    p.shared.mBluetoothRfcommManager.channels[c]? = some ch ∧
      ch.hasKey device uuid = true ∧ ch.isOpen = true

/-- The last call was a start that connected. -/
def LastConnected (p : Scope) : Prop := p.threads.getLast? = some (.finished true)

/-- Of the operations in the order in which they ran, some end has more
connected starts than stops. -/
def StartsLeft (ops : List RfcommOp) : Prop :=
  ∃ s, s <:+ ops ∧ services (RfcommOp.effect device uuid) s
    < arrivals (RfcommOp.effect device uuid) s

variable {device : BluetoothDevice} {uuid : UUID}

/-- **The order of execution.**  The manager is what the operations make of it
in the order in which their coroutines have run. -/
theorem executed_exec {ls : List Label} {p : Scope}
    (h : Run.exec (step device uuid) initial ls = some p) :
    Run.exec Rfcomm.step BluetoothRfcommManager.initial p.shared.ops
      = some p.shared.mBluetoothRfcommManager := by
  refine Run.exec_invariant (C := fun _ _ => True)
    (I := fun p => Run.exec Rfcomm.step BluetoothRfcommManager.initial p.shared.ops
      = some p.shared.mBluetoothRfcommManager) ?_ rfl (Run.along_true _ _) h
  intro p l q hI _ hstep
  cases l with
  | call request =>
    -- a call only launches a coroutine
    obtain rfl := Option.some_inj.mp hstep
    exact hI
  | run i o =>
    -- a coroutine that runs appends its operation to the others
    obtain ⟨k, s, k', forks, -, hprim, rfl⟩ := Pool.of_move hstep
    cases k with
    | launched request =>
      cases request with
      | startRfcommTransform =>
        cases hprim
        rw [Run.exec_append, hI]
        rfl
      | stopRfcommTransform =>
        cases hprim
        rw [Run.exec_append, hI]
        rfl
    | finished connected => cases hprim

/-- The key has an open channel exactly if the executed starts outnumber the
stops at some end. -/
theorem hasOpenChannel_iff {ls : List Label} {p : Scope}
    (h : Run.exec (step device uuid) initial ls = some p) :
    HasOpenChannel device uuid p ↔ StartsLeft device uuid p.shared.ops := by
  -- the open channels of the key are the backlog of its starts and stops
  obtain ⟨hR, hcount⟩ := registered_and_listedFor_of_exec (executed_exec h)
  rw [HasOpenChannel, ← hR.listedFor_pos_iff, hcount, Nat.lt_iff_add_one_le, Nat.zero_add,
    le_backlog_iff]
  exact Iff.rfl

end Requests

open Requests

/-- **Requests in order.**  When all coroutines have finished, the key has an
open channel just if the last call was a start that connected — if and only if
the operations, in the order in which they ran, leave a connected start just
then. -/
theorem requests_in_order_iff (device : BluetoothDevice) (uuid : UUID) (ls : List Requests.Label)
    (p : Scope) (h : Run.exec (Requests.step device uuid) Requests.initial ls = some p) :
    AllFinished p → ((HasOpenChannel device uuid p ↔ LastConnected p) ↔
      (StartsLeft device uuid p.shared.ops ↔ LastConnected p)) := by
  intro _
  rw [hasOpenChannel_iff h]

/-- The phone of the runs below. -/
private def requested : BluetoothDevice := ⟨"AA:BB:CC:DD:EE:FF"⟩

/-- A start is called, and runs. -/
private def served : List Requests.Label := [.call .startRfcommTransform, .run 0 .success]

theorem requests_in_order_iff_one_start :
    ∃ p, Run.exec (Requests.step requested 0) Requests.initial served = some p ∧
      ((HasOpenChannel requested 0 p ↔ LastConnected p) ↔
        (StartsLeft requested 0 p.shared.ops ↔ LastConnected p)) := by
  refine ⟨_, rfl, requests_in_order_iff requested 0 served _ rfl ?_⟩
  intro k hk
  exact ⟨true, List.mem_singleton.mp hk⟩

/-- A start is called, then a stop; the dispatcher runs the stop first. -/
private def overtaken : List Requests.Label :=
  [.call .startRfcommTransform, .call .stopRfcommTransform, .run 1 .success, .run 0 .success]

private theorem exec_overtaken :
    ∃ p, Run.exec (Requests.step requested 0) Requests.initial overtaken = some p ∧
      p.threads = [.finished true, .finished false] ∧ HasOpenChannel requested 0 p :=
  ⟨_, rfl, rfl, 0, _, rfl, rfl, rfl⟩

/-- **A start outlives the stop that follows it.**  The stop finds nothing to
stop; the start, run after it, leaves its channel open. -/
theorem late_start_outlives_stop :
    ¬ ∀ (device : BluetoothDevice) (uuid : UUID) (ls : List Requests.Label) (p : Scope),
      Run.exec (Requests.step device uuid) Requests.initial ls = some p → AllFinished p →
        (HasOpenChannel device uuid p ↔ LastConnected p) := by
  intro h
  obtain ⟨p, hp, hthreads, hopen⟩ := exec_overtaken
  have hfinished : AllFinished p := by
    intro k hk
    rw [hthreads, List.mem_cons, List.mem_singleton] at hk
    rcases hk with rfl | rfl
    · exact ⟨true, rfl⟩
    · exact ⟨false, rfl⟩
  have hlast := (h requested 0 overtaken p hp hfinished).mp hopen
  rw [LastConnected, hthreads] at hlast
  exact absurd hlast (by decide)

end Carplay.Rfcomm

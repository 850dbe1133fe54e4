/-
The start-up of `CarplayRuntime`, with events that arrive during it.

`initCarplayRuntime` binds four services one after another and only then launches
the collectors of their flows.  The Bluetooth and the RPC service emit from their
`onCreate` on, whether or not anybody has subscribed.

* `internal_cases`, `event_cases` — what one step can do;
* `Quietly` — what an internal step leaves alone, and that it uses up work;
* `noneMissed_of_step` — an event is missed exactly if it comes before the
  subscription of its collector;
* `startup_handles_iff` — after any run with fewer than ten events the runtime is
  bound to handle them all exactly if each came after that subscription;
* `early_callback_is_missed` — a callback right after the `onCreate` of the RPC
  service.
-/
import GrpcJniClient.CarplayRuntime
import GrpcJniClient.Run
import GrpcJniClient.Subscription

open SharedFlow

namespace Carplay.Startup

/-- The services that `initCarplayRuntime` binds. -/
inductive BoundService where
  | carplayBluetoothService
  | carplayRpcManager
  | hostapdService
  | uiService
  deriving DecidableEq, Repr

/-- A step of `initCarplayRuntime`, or of the system that it waits for. -/
inductive InitStep where
  | bindService (cls : BoundService)
  | onCreate (cls : BoundService)
  | onServiceConnected (cls : BoundService)
  /-- The launch of the collector of the service's flow. -/
  | launch (cls : BoundService)
  deriving DecidableEq, Repr

/-- `ServiceBinderManager.bindService`, which suspends until the service is
connected. -/
def bindService (cls : BoundService) : List InitStep :=
  [.bindService cls, .onCreate cls, .onServiceConnected cls]

/-- `CarplayRuntime.initCarplayRuntime`. -/
def initCarplayRuntime : List InitStep :=
  bindService .carplayBluetoothService ++ bindService .carplayRpcManager ++
    bindService .hostapdService ++ bindService .uiService ++
    [.launch .carplayBluetoothService, .launch .carplayRpcManager, .launch .hostapdService,
      .launch .uiService]

structure CarplayRuntime where
  /-- How many steps of `initCarplayRuntime` have been taken. -/
  pc : ℕ
  /-- `mCarplayBluetoothSharedFlow` and its collector. -/
  bluetooth : Flow 10 BluetoothEvent
  /-- `mRpcEventSharedFlow` and its collector. -/
  rpc : Flow 10 RpcEvent
  mBtRfcommDevice : Option BluetoothDevice
  calls : List RuntimeCall

inductive Label where
  /-- The next step of `initCarplayRuntime`. -/
  | init
  /-- A callback of `CarplayRpcManager` emits an event. -/
  | rpcCallback (event : RpcEvent)
  | onBondChanged (bluetoothDevice : BluetoothDevice) (changedValue : ℤ)
  | bluetoothCollect
  | bluetoothTake
  | bluetoothHandle
  | rpcCollect
  | rpcTake
  | rpcHandle

/-- An event from outside. -/
def Label.isEvent : Label → Bool
  | .rpcCallback _ | .onBondChanged _ _ => true
  | _ => false

namespace CarplayRuntime

def initial : CarplayRuntime := ⟨0, .initial, .initial, none, []⟩

/-- The step of `initCarplayRuntime` has been taken. -/
def Done (s : CarplayRuntime) (i : InitStep) : Prop := i ∈ initCarplayRuntime.take s.pc

instance (s : CarplayRuntime) (i : InitStep) : Decidable (s.Done i) :=
  inferInstanceAs (Decidable (i ∈ initCarplayRuntime.take s.pc))

def step (s : CarplayRuntime) : Label → Option CarplayRuntime
  | .init => if s.pc < initCarplayRuntime.length then some { s with pc := s.pc + 1 } else none
  | .rpcCallback event =>
      if s.Done (.onCreate .carplayRpcManager) then some { s with rpc := s.rpc.tryEmit event }
      else none
  | .onBondChanged bluetoothDevice changedValue =>
      if s.Done (.onCreate .carplayBluetoothService) then
        some { s with
          bluetooth := s.bluetooth.tryEmit (.bondChanged bluetoothDevice changedValue) }
      else none
  | .bluetoothCollect =>
      if s.Done (.launch .carplayBluetoothService) then
        s.bluetooth.subscribe.map fun flow => { s with bluetooth := flow }
      else none
  | .bluetoothTake => s.bluetooth.take.map fun flow => { s with bluetooth := flow }
  | .bluetoothHandle => s.bluetooth.handle.map fun (event, flow) =>
      { s with
        bluetooth := flow
        mBtRfcommDevice := (collectBluetoothEvent s.mBtRfcommDevice event).1
        calls := s.calls ++ (collectBluetoothEvent s.mBtRfcommDevice event).2 }
  | .rpcCollect =>
      if s.Done (.launch .carplayRpcManager) then
        s.rpc.subscribe.map fun flow => { s with rpc := flow }
      else none
  | .rpcTake => s.rpc.take.map fun flow => { s with rpc := flow }
  | .rpcHandle => s.rpc.handle.map fun (event, flow) =>
      { s with rpc := flow, calls := s.calls ++ collectRpcEvent s.mBtRfcommDevice event }

/-- Every event that has arrived has been handled. -/
def AllHandled (s : CarplayRuntime) : Prop :=
  s.bluetooth.handled = s.bluetooth.emitted ∧ s.rpc.handled = s.rpc.emitted

/-- An event comes only when the collector of its flow has subscribed. -/
def InTime (s : CarplayRuntime) : Label → Prop
  | .rpcCallback _ => s.rpc.collector.isSome = true
  | .onBondChanged _ _ => s.bluetooth.collector.isSome = true
  | _ => True

/-- No event has been emitted to nobody. -/
def NoneMissed (s : CarplayRuntime) : Prop := s.bluetooth.missed = [] ∧ s.rpc.missed = []

/-- The internal steps that are left, at most. -/
def work (s : CarplayRuntime) : ℕ :=
  (initCarplayRuntime.length - s.pc) + s.bluetooth.work + s.rpc.work

variable {s t u : CarplayRuntime} {l : Label}

/-! ### One step -/

/-- An internal step is one of `initCarplayRuntime` or of one of the collectors. -/
theorem internal_cases (hl : l.isEvent = false) (h : s.step l = some t) :
    s.pc < initCarplayRuntime.length ∧ t = { s with pc := s.pc + 1 } ∨
      t.pc = s.pc ∧ t.rpc = s.rpc ∧ s.bluetooth.Moves t.bluetooth ∨
      t.pc = s.pc ∧ t.bluetooth = s.bluetooth ∧ s.rpc.Moves t.rpc := by
  cases l with
  | rpcCallback event => cases hl
  | onBondChanged device value => cases hl
  | init =>
    rw [step, Option.ite_none_right_eq_some, Option.some_inj] at h
    exact Or.inl ⟨h.1, h.2.symm⟩
  | bluetoothCollect =>
    rw [step, Option.ite_none_right_eq_some] at h
    obtain ⟨flow, hf, rfl⟩ := Option.map_eq_some_iff.mp h.2
    exact Or.inr (Or.inl ⟨rfl, rfl, .subscribe hf⟩)
  | bluetoothTake =>
    obtain ⟨flow, hf, rfl⟩ := Option.map_eq_some_iff.mp h
    exact Or.inr (Or.inl ⟨rfl, rfl, .take hf⟩)
  | bluetoothHandle =>
    obtain ⟨⟨event, flow⟩, hf, rfl⟩ := Option.map_eq_some_iff.mp h
    exact Or.inr (Or.inl ⟨rfl, rfl, .handle hf⟩)
  | rpcCollect =>
    rw [step, Option.ite_none_right_eq_some] at h
    obtain ⟨flow, hf, rfl⟩ := Option.map_eq_some_iff.mp h.2
    exact Or.inr (Or.inr ⟨rfl, rfl, .subscribe hf⟩)
  | rpcTake =>
    obtain ⟨flow, hf, rfl⟩ := Option.map_eq_some_iff.mp h
    exact Or.inr (Or.inr ⟨rfl, rfl, .take hf⟩)
  | rpcHandle =>
    obtain ⟨⟨event, flow⟩, hf, rfl⟩ := Option.map_eq_some_iff.mp h
    exact Or.inr (Or.inr ⟨rfl, rfl, .handle hf⟩)

/-- An event is emitted on the flow of its service. -/
theorem event_cases (hl : l.isEvent = true) (h : s.step l = some t) :
    (∃ event, l = .rpcCallback event ∧ t = { s with rpc := s.rpc.tryEmit event }) ∨
      ∃ device value, l = .onBondChanged device value ∧
        t = { s with bluetooth := s.bluetooth.tryEmit (.bondChanged device value) } := by
  cases l with
  | rpcCallback event =>
    rw [step, Option.ite_none_right_eq_some, Option.some_inj] at h
    exact Or.inl ⟨event, rfl, h.2.symm⟩
  | onBondChanged device value =>
    rw [step, Option.ite_none_right_eq_some, Option.some_inj] at h
    exact Or.inr ⟨device, value, rfl, h.2.symm⟩
  | _ => cases hl

/-- What an internal step leaves alone; it uses up work. -/
structure Quietly (s t : CarplayRuntime) : Prop where
  bluetooth_missed : t.bluetooth.missed = s.bluetooth.missed
  rpc_missed : t.rpc.missed = s.rpc.missed
  bluetooth_emitted : t.bluetooth.emitted = s.bluetooth.emitted
  rpc_emitted : t.rpc.emitted = s.rpc.emitted
  work_lt : t.work < s.work

theorem step_quietly (hl : l.isEvent = false) (h : s.step l = some t) : s.Quietly t := by
  rcases internal_cases hl h with ⟨hlt, rfl⟩ | ⟨hpc, hrpc, hmoves⟩ | ⟨hpc, hbluetooth, hmoves⟩
  · -- one step of `initCarplayRuntime` less
    refine ⟨rfl, rfl, rfl, rfl, ?_⟩
    simp only [work]
    omega
  · refine ⟨hmoves.missed_eq, hrpc ▸ rfl, hmoves.emitted_eq, hrpc ▸ rfl, ?_⟩
    have hlt := hmoves.work_lt
    rw [work, work, hpc, hrpc]
    omega
  · refine ⟨hbluetooth ▸ rfl, hmoves.missed_eq, hbluetooth ▸ rfl, hmoves.emitted_eq, ?_⟩
    have hlt := hmoves.work_lt
    rw [work, work, hpc, hbluetooth]
    omega

/-- Neither flow has forgotten a value it had room for. -/
def Spacious (s : CarplayRuntime) : Prop := s.bluetooth.Spacious ∧ s.rpc.Spacious

theorem Spacious.step (hs : s.Spacious) (h : s.step l = some t) : t.Spacious := by
  obtain ⟨hb, hr⟩ := hs
  rcases hl : l.isEvent with _ | _
  · rcases internal_cases hl h with ⟨-, rfl⟩ | ⟨-, hrpc, hmoves⟩ | ⟨-, hbluetooth, hmoves⟩
    · exact ⟨hb, hr⟩
    · exact ⟨hb.moves hmoves, hrpc ▸ hr⟩
    · exact ⟨hbluetooth ▸ hb, hr.moves hmoves⟩
  · rcases event_cases hl h with ⟨event, -, rfl⟩ | ⟨device, value, -, rfl⟩
    · exact ⟨hb, hr.tryEmit event⟩
    · exact ⟨hb.tryEmit _, hr⟩

/-- An event is missed exactly if its flow has no subscriber yet. -/
theorem noneMissed_of_step (h : s.step l = some t) :
    t.NoneMissed ↔ s.NoneMissed ∧ s.InTime l := by
  rcases hl : l.isEvent with _ | _
  · have hq := step_quietly hl h
    have htime : s.InTime l := by
      cases l with
      | rpcCallback event => cases hl
      | onBondChanged device value => cases hl
      | _ => trivial
    rw [NoneMissed, NoneMissed, hq.bluetooth_missed, hq.rpc_missed, and_iff_left htime]
  · rcases event_cases hl h with ⟨event, rfl, rfl⟩ | ⟨device, value, rfl, rfl⟩
    · simp only [NoneMissed, InTime, Flow.missed_tryEmit_eq_nil, and_assoc]
    · simp only [NoneMissed, InTime, Flow.missed_tryEmit_eq_nil]
      exact and_right_comm

/-- How many events have arrived. -/
def arrived (s : CarplayRuntime) : ℕ := s.bluetooth.emitted.length + s.rpc.emitted.length

theorem arrived_of_step (h : s.step l = some t) :
    t.arrived = s.arrived + [l].countP Label.isEvent := by
  rcases hl : l.isEvent with _ | _
  · have hq := step_quietly hl h
    simp [arrived, hq.bluetooth_emitted, hq.rpc_emitted, hl]
  · rcases event_cases hl h with ⟨event, rfl, rfl⟩ | ⟨device, value, rfl, rfl⟩
    · simp [arrived, Flow.emitted_tryEmit, Label.isEvent, Nat.add_assoc]
    · simp only [arrived, Flow.emitted_tryEmit, Label.isEvent, List.length_append,
        List.length_singleton, List.countP_singleton, if_true]
      omega

/-! ### Runs -/

theorem arrived_of_exec {ls : List Label} (h : Run.exec step s ls = some t) :
    t.arrived = s.arrived + ls.countP Label.isEvent := by
  refine Run.exec_history (R := fun ls t => t.arrived = s.arrived + ls.countP Label.isEvent)
    ?_ rfl h
  intro ls u l v hu hv
  rw [arrived_of_step hv, hu, List.countP_append, Nat.add_assoc]

/-- Nothing is missed in a run exactly if all its events come in time. -/
theorem noneMissed_iff_along {ls : List Label} (h : Run.exec step initial ls = some s) :
    s.NoneMissed ↔ Run.Along step InTime initial ls :=
  Run.exec_iff_along (fun _ _ _ => noneMissed_of_step) ⟨rfl, rfl⟩ h

/-- When no internal step is left, start-up is over and both collectors have
drained their flows. -/
theorem exists_collectors_of_stuck (h : ∀ l : Label, l.isEvent = false → s.step l = none) :
    (∃ c, s.bluetooth.collector = some c ∧ c.Drained) ∧
      ∃ c, s.rpc.collector = some c ∧ c.Drained := by
  -- else `initCarplayRuntime` would go on
  have hpc : initCarplayRuntime.length ≤ s.pc := by
    have hinit := h .init rfl
    rw [step, ite_eq_right_iff] at hinit
    by_contra hlt
    cases hinit (Nat.lt_of_not_le hlt)
  have hdone : ∀ i ∈ initCarplayRuntime, s.Done i := by
    intro i hi
    rw [Done, List.take_of_length_le hpc]
    exact hi
  constructor
  · -- a collector that has not subscribed, or holds an event, has a step left
    have hcollect := h .bluetoothCollect rfl
    rw [step, if_pos (hdone _ (by decide)), Option.map_eq_none_iff] at hcollect
    rcases hc : s.bluetooth.collector with _ | c
    · rw [Flow.subscribe, hc] at hcollect
      cases hcollect
    · exact ⟨c, rfl, Flow.drained_of_stuck hc (Option.map_eq_none_iff.mp (h .bluetoothTake rfl))
        (Option.map_eq_none_iff.mp (h .bluetoothHandle rfl))⟩
  · have hcollect := h .rpcCollect rfl
    rw [step, if_pos (hdone _ (by decide)), Option.map_eq_none_iff] at hcollect
    rcases hc : s.rpc.collector with _ | c
    · rw [Flow.subscribe, hc] at hcollect
      cases hcollect
    · exact ⟨c, rfl, Flow.drained_of_stuck hc (Option.map_eq_none_iff.mp (h .rpcTake rfl))
        (Option.map_eq_none_iff.mp (h .rpcHandle rfl))⟩

/-- The steps of the runtime and of the system, events from outside apart. -/
def BoundTo (P : CarplayRuntime → Prop) (s : CarplayRuntime) : Prop :=
  Run.Inevitably step (fun l => l.isEvent = false) P s

/-- Few events are bound to be handled if none was missed. -/
theorem boundTo_of_noneMissed (hs : s.Spacious) (hfew : s.arrived < 10) (hm : s.NoneMissed) :
    s.BoundTo AllHandled := by
  refine Run.inevitably_of_measure (I := fun s => s.Spacious ∧ s.arrived < 10 ∧ s.NoneMissed) work
    ?_ ?_ ⟨hs, hfew, hm⟩
  · rintro s l t ⟨hs, hfew, hm⟩ hl ht
    have hq := step_quietly hl ht
    refine ⟨⟨hs.step ht, ?_, ?_⟩, hq.work_lt⟩
    · rwa [arrived, hq.bluetooth_emitted, hq.rpc_emitted]
    · rwa [NoneMissed, hq.bluetooth_missed, hq.rpc_missed]
  · rintro s ⟨⟨hb, hr⟩, hfew, hm⟩ hstuck
    obtain ⟨⟨c, hc, hcd⟩, d, hd, hdd⟩ := exists_collectors_of_stuck hstuck
    -- with room for all the events, a drained collector has handled them
    rw [arrived] at hfew
    exact ⟨(hb.handled_eq_emitted_iff (by omega) hc hcd).mpr hm.1,
      (hr.handled_eq_emitted_iff (by omega) hd hdd).mpr hm.2⟩

/-- What was missed stays missed. -/
theorem noneMissed_of_boundTo (h : s.BoundTo AllHandled) : s.NoneMissed := by
  obtain ⟨t, ⟨hb, hr⟩, hall⟩ := Run.Inevitably.exists_of_invariant
    (I := fun t => t.bluetooth.missed = s.bluetooth.missed ∧ t.rpc.missed = s.rpc.missed)
    (fun u l v hu hl hv =>
      have hq := step_quietly hl hv
      ⟨hq.bluetooth_missed.trans hu.1, hq.rpc_missed.trans hu.2⟩) h ⟨rfl, rfl⟩
  -- the internal steps change nothing of what was missed, and in the end nothing is
  exact ⟨hb ▸ Flow.missed_eq_nil_of_handled hall.1, hr ▸ Flow.missed_eq_nil_of_handled hall.2⟩

theorem spacious_of_exec {ls : List Label} (h : Run.exec step initial ls = some s) :
    s.Spacious :=
  Run.exec_invariant (C := fun _ _ => True) (fun _ _ _ hs _ ht => hs.step ht)
    ⟨Flow.spacious_initial, Flow.spacious_initial⟩ (Run.along_true _ _) h

end CarplayRuntime

open CarplayRuntime

/-- **Events during start-up.**  After any run from the beginning of
`initCarplayRuntime` with fewer than ten events, the runtime is bound to handle
all of them if and only if each came after its flow's collector had subscribed. -/
theorem startup_handles_iff (ls : List Label) (s : CarplayRuntime)
    (hrun : Run.exec CarplayRuntime.step CarplayRuntime.initial ls = some s)
    (hfew : ls.countP Label.isEvent < 10) :
    s.BoundTo AllHandled ↔ Run.Along CarplayRuntime.step InTime CarplayRuntime.initial ls := by
  have harrived : s.arrived < 10 := by
    have h := arrived_of_exec hrun
    have hzero : CarplayRuntime.initial.arrived = 0 := rfl
    omega
  rw [← noneMissed_iff_along hrun]
  exact ⟨noneMissed_of_boundTo, boundTo_of_noneMissed (spacious_of_exec hrun) harrived⟩

/-- All of `initCarplayRuntime`, both collectors, then a bond event and a
callback. -/
private def eventsAfterStartup : List Label :=
  List.replicate 16 .init ++ [.bluetoothCollect, .rpcCollect,
    .onBondChanged ⟨"AA"⟩ BOND_STATE_BONDED, .rpcCallback (.iap2Data [1])]

theorem startup_handles_iff_after : ∃ s,
    Run.exec CarplayRuntime.step CarplayRuntime.initial eventsAfterStartup = some s ∧
      s.arrived = 2 ∧ s.BoundTo AllHandled := by
  have hcheck : (Run.exec step initial eventsAfterStartup).any (fun s =>
      s.arrived == 2 && (s.bluetooth.missed.isEmpty && s.rpc.missed.isEmpty)) = true := by rfl
  obtain ⟨s, hs, hcheck⟩ := (Option.any_eq_true _ _).mp hcheck
  simp only [Bool.and_eq_true, beq_iff_eq, List.isEmpty_iff] at hcheck
  exact ⟨s, hs, hcheck.1,
    (startup_handles_iff _ s hs (by decide)).mpr ((noneMissed_iff_along hs).mp hcheck.2)⟩

/-- The Bluetooth service is bound, the RPC service has just been created, and a
callback comes. -/
private def earlyCallback : List Label :=
  List.replicate 5 .init ++ [.rpcCallback (.iap2Data [1])]

/-- A callback right after the RPC service's `onCreate` is emitted to nobody. -/
theorem early_callback_is_missed :
    ¬ ∀ (ls : List Label) (s : CarplayRuntime),
      Run.exec CarplayRuntime.step CarplayRuntime.initial ls = some s →
        ls.countP Label.isEvent < 10 → s.BoundTo AllHandled := by
  intro h
  have hcheck : (Run.exec step initial earlyCallback).any (fun s => !s.rpc.missed.isEmpty) = true :=
    by rfl
  obtain ⟨s, hs, hmissed⟩ := (Option.any_eq_true _ _).mp hcheck
  have hnone := noneMissed_of_boundTo (h _ s hs (by decide))
  rw [hnone.2] at hmissed
  cases hmissed

end Carplay.Startup

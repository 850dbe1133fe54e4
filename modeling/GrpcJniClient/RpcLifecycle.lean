/-
`CarplayRpcManager` instances and the native runtime that calls them back.

`gRuntime` is created once, with a global reference to the instance whose
`onCreate` comes first; `destroyCarplayRpc` does nothing.  A request runs through
the wrapper of `register_method` to a callback on that instance, which emits an
event on its `mRpcEventSharedFlow`.

* `Delivered` — each flow has been given the events of exactly the requests
  handled while its instance was alive;
* `delivered_iff` — it holds all along a run exactly if every request with an
  event is handled while the first instance is alive, and every other while none
  is;
* `recreated_service_gets_nothing` — after a restart the events go to the
  destroyed instance.
-/
import GrpcJniClient.CarplayRuntime
import GrpcJniClient.RpcRequests
import GrpcJniClient.Run

namespace Carplay.Rpc

/-- A handled request: the instance alive at that time, and the event that its
callback emits, if the handler gets to one. -/
structure Handled where
  alive : Option ℕ
  event : Option RpcEvent
  deriving DecidableEq, Repr

/-- The process with its `CarplayRpcManager` instances, numbered in the order of
their creation. -/
structure Process where
  /-- What has been emitted on the `mRpcEventSharedFlow` of each instance. -/
  flows : List (List RpcEvent)
  /-- The instance between its `onCreate` and its `onDestroy`. -/
  alive : Option ℕ
  /-- The instance that `gRuntime->javaObject` refers to, once there is a
  `gRuntime`. -/
  gRuntime : Option ℕ
  /-- A handler has followed a null pointer. -/
  crashed : Bool
  handled : List Handled
  deriving DecidableEq, Repr

inductive LifecycleLabel where
  | onCreate
  | onDestroy
  /-- The peer calls a method. -/
  | remoteCall (m : Method) (buf : Bytes)
  deriving DecidableEq, Repr

namespace Process

def initial : Process := ⟨[], none, none, false, []⟩

/-- `CarplayRpcManager.onCreate` of a new instance, with `initCarplayRpc`. -/
def onCreate (s : Process) : Process :=
  { s with
    flows := s.flows ++ [[]]
    alive := some s.flows.length
    gRuntime := s.gRuntime.or (some s.flows.length) }

/-- `CarplayRpcManager.onDestroy`, with `destroyCarplayRpc`. -/
def onDestroy (s : Process) : Process := { s with alive := none }

/-- A callback on instance `g` emits its event, if there is one. -/
def emit (s : Process) (g : ℕ) (event : Option RpcEvent) : Process :=
  { s with
    flows := s.flows.modify g (· ++ event.toList)
    handled := s.handled ++ [⟨s.alive, event⟩] }

end Process

-- `NewStringUTF` of the JNI.
variable (newStringUTF : Bytes → String)

/-- The event that a callback of `CarplayRpcManager` emits. -/
def HandlerCall.toRpcEvent : HandlerCall → Option RpcEvent
  | .callbackWithByteArray data => some (.iap2Data data)
  | .callbackCarplayAvailable wiredAvailable usbStr wirelessAvailable btStr =>
      some (.carplayAvailable wiredAvailable (newStringUTF usbStr) wirelessAvailable
        (newStringUTF btStr))
  | .disableBluetooth addr => some (.disableBluetooth (newStringUTF addr))
  | .queueInputBuffer _ => none

/-- The handler's way through the callback: the event it emits, if any. -/
def eventOf (call : Option HandlerCall) : Option RpcEvent :=
  call.bind (HandlerCall.toRpcEvent newStringUTF)

namespace Process

/-- The peer's request reaches the wrapper: the handlers that `initCarplayRpc`
registers are those of the three callbacks. -/
def remoteCall (s : Process) (m : Method) (buf : Bytes) : Option Process :=
  if m = .screenStreamConfiguration then none
  else s.gRuntime.map fun g =>
    match m.wrapper buf with
    | .ok none => s
    | .ok (some call) => s.emit g (eventOf newStringUTF call)
    | .error _ => { s with crashed := true }

def step (s : Process) (l : LifecycleLabel) : Option Process :=
  if s.crashed then none
  else
    match l with
    | .onCreate => if s.alive.isNone then some s.onCreate else none
    | .onDestroy => if s.alive.isSome then some s.onDestroy else none
    | .remoteCall m buf => s.remoteCall newStringUTF m buf

/-- Each flow has been given the events of exactly the requests handled while its
instance was alive, in their order. -/
def Delivered (s : Process) : Prop :=
  ∀ (j : ℕ) (flow : List RpcEvent), s.flows[j]? = some flow →
    flow.map some = (s.handled.filter (·.alive == some j)).map (·.event)

/-- The request is handled, on instance `g`. -/
structure Handles (s : Process) (m : Method) (buf : Bytes) (g : ℕ) (call : Option HandlerCall) :
    Prop where
  running : s.crashed = false
  method : m ≠ .screenStreamConfiguration
  gRuntime : s.gRuntime = some g
  wrapper : m.wrapper buf = .ok (some call)

/-- A request with an event finds the first instance alive; one that is handled
without an event finds none. -/
def ReachesLive (s : Process) : LifecycleLabel → Prop
  | .remoteCall m buf => ∀ g call, s.Handles m buf g call →
      ((eventOf newStringUTF call).isSome = true → s.alive = some g) ∧
        (eventOf newStringUTF call = none → s.alive = none)
  | _ => True

/-! ### What an emission does to the flows -/

variable {newStringUTF} {s t : Process} {l : LifecycleLabel} {m : Method} {buf : Bytes} {g : ℕ}
  {call : Option HandlerCall} {event : Option RpcEvent}

theorem emit_flows_getElem (s : Process) (g j : ℕ) (event : Option RpcEvent) :
    (s.emit g event).flows[j]? =
      (s.flows[j]?).map fun flow => if g = j then flow ++ event.toList else flow := by
  rw [emit, List.getElem?_modify]
  rfl

/-- An emission keeps the flows right exactly if what each of them is given is
what the new record asks for. -/
theorem delivered_emit_iff_forall (hs : s.Delivered) :
    (s.emit g event).Delivered ↔ ∀ j < s.flows.length,
      (if g = j then event.toList.map some else []) = if s.alive = some j then [event] else [] := by
  -- flow by flow, the old part agrees already
  have hflow : ∀ (j : ℕ) (flow : List RpcEvent), s.flows[j]? = some flow →
      ((if g = j then flow ++ event.toList else flow).map some =
          ((s.emit g event).handled.filter (·.alive == some j)).map (·.event) ↔
        (if g = j then event.toList.map some else []) =
          if s.alive = some j then [event] else []) := by
    intro j flow hj
    have hhandled : ((s.emit g event).handled.filter (·.alive == some j)).map (·.event) =
        flow.map some ++ if s.alive = some j then [event] else [] := by
      rw [emit, List.filter_append, List.map_append, ← hs j flow hj]
      by_cases h : s.alive = some j <;> simp [h]
    have hgiven : (if g = j then flow ++ event.toList else flow).map some =
        flow.map some ++ if g = j then event.toList.map some else [] := by
      by_cases h : g = j <;> simp [h]
    rw [hhandled, hgiven, List.append_cancel_left_eq]
  constructor
  · intro h j hj
    have hget := List.getElem?_eq_getElem hj
    refine (hflow j _ hget).mp (h j _ ?_)
    rw [emit_flows_getElem, hget]
    rfl
  · intro h j flow hj
    rw [emit_flows_getElem, Option.map_eq_some_iff] at hj
    obtain ⟨old, hold, rfl⟩ := hj
    have hlt : j < s.flows.length := (List.getElem?_eq_some_iff.mp hold).1
    exact (hflow j old hold).mpr (h j hlt)

/-! ### The invariant -/

/-- What a run keeps as long as its requests reach the live instance. -/
structure Inv (s : Process) : Prop where
  delivered : s.Delivered
  gRuntime : ∀ g, s.gRuntime = some g → g < s.flows.length
  alive : ∀ j, s.alive = some j → j < s.flows.length
  handled : ∀ h ∈ s.handled, ∀ j, h.alive = some j → j < s.flows.length

theorem Inv.initial : Inv initial where
  delivered := by
    intro j flow hj
    simp [Process.initial] at hj
  gRuntime := by simp [Process.initial]
  alive := by simp [Process.initial]
  handled := by simp [Process.initial]

theorem Inv.onCreate (hs : s.Inv) : s.onCreate.Inv where
  delivered := by
    intro j flow hj
    rw [Process.onCreate] at hj
    rcases Nat.lt_trichotomy j s.flows.length with hlt | rfl | hgt
    · rw [List.getElem?_append_left hlt] at hj
      exact hs.delivered j flow hj
    · -- no request has been handled by the new instance yet
      have hnone : s.handled.filter (·.alive == some s.flows.length) = [] := by
        rw [List.filter_eq_nil_iff]
        intro h hh heq
        exact absurd (hs.handled h hh _ (beq_iff_eq.mp heq)) (Nat.lt_irrefl _)
      rw [List.getElem?_concat_length] at hj
      obtain rfl := Option.some_inj.mp hj
      rw [Process.onCreate, hnone]
      rfl
    · have hlen : (s.flows ++ [[]]).length ≤ j := by
        rw [List.length_append, List.length_singleton]
        omega
      rw [List.getElem?_eq_none hlen] at hj
      cases hj
  gRuntime := by
    intro g hg
    rw [Process.onCreate, List.length_append, List.length_singleton]
    rw [Process.onCreate] at hg
    rcases hr : s.gRuntime with _ | g'
    · rw [hr, Option.none_or, Option.some_inj] at hg
      omega
    · rw [hr, Option.some_or, Option.some_inj] at hg
      have := hs.gRuntime g' hr
      omega
  alive := by
    intro j hj
    obtain rfl := Option.some_inj.mp hj
    rw [Process.onCreate, List.length_append, List.length_singleton]
    omega
  handled := by
    intro h hh j hj
    have := hs.handled h hh j hj
    rw [Process.onCreate, List.length_append, List.length_singleton]
    omega

theorem Inv.onDestroy (hs : s.Inv) : s.onDestroy.Inv where
  delivered := hs.delivered
  gRuntime := hs.gRuntime
  alive := by simp [Process.onDestroy]
  handled := hs.handled

/-- An emission delivers its event exactly if the first instance is alive, and
the lack of one exactly if none is. -/
theorem Inv.delivered_emit_iff (hs : s.Inv) (hg : s.gRuntime = some g) :
    (s.emit g event).Delivered ↔
      (event.isSome = true → s.alive = some g) ∧ (event = none → s.alive = none) := by
  rw [delivered_emit_iff_forall hs.delivered]
  have hlt : g < s.flows.length := hs.gRuntime g hg
  cases event with
  | none =>
    simp only [Option.toList_none, List.map_nil, ite_self, Option.isSome_none, Bool.false_eq_true,
      false_implies, true_implies, true_and]
    constructor
    · intro h
      rcases ha : s.alive with _ | j
      · rfl
      · have := h j (hs.alive j ha)
        simp [ha] at this
    · intro ha j hj
      simp [ha]
  | some e =>
    simp only [Option.toList_some, List.map_cons, List.map_nil, Option.isSome_some, true_implies,
      reduceCtorEq, false_implies, and_true]
    constructor
    · intro h
      by_contra ha
      have := h g hlt
      simp [ha] at this
    · intro ha j hj
      simp [ha]

theorem Inv.emit (hs : s.Inv) (hd : (s.emit g event).Delivered) : (s.emit g event).Inv where
  delivered := hd
  gRuntime := by
    intro g' hg'
    rw [Process.emit, List.length_modify]
    exact hs.gRuntime g' hg'
  alive := by
    intro j hj
    rw [Process.emit, List.length_modify]
    exact hs.alive j hj
  handled := by
    intro h hh j hj
    rw [Process.emit, List.length_modify]
    rw [Process.emit, List.mem_append, List.mem_singleton] at hh
    rcases hh with hh | rfl
    · exact hs.handled h hh j hj
    · exact hs.alive j hj

/-! ### Runs -/

/-- What a remote call can lead to. -/
theorem remoteCall_cases (hc : s.crashed = false)
    (h : s.remoteCall newStringUTF m buf = some t) :
    t = s ∨ t = { s with crashed := true } ∨
      ∃ g call, s.Handles m buf g call ∧ t = s.emit g (eventOf newStringUTF call) := by
  rw [remoteCall] at h
  split_ifs at h with hm
  rw [Option.map_eq_some_iff] at h
  obtain ⟨g, hg, rfl⟩ := h
  rcases hw : m.wrapper buf with e | (_ | call)
  · exact Or.inr (Or.inl rfl)
  · exact Or.inl rfl
  · exact Or.inr (Or.inr ⟨g, call, ⟨hc, hm, hg, hw⟩, rfl⟩)

theorem Handles.step_eq (h : s.Handles m buf g call) :
    s.step newStringUTF (.remoteCall m buf) = some (s.emit g (eventOf newStringUTF call)) := by
  simp only [step, h.running, Bool.false_eq_true, if_false, remoteCall, if_neg h.method,
    h.gRuntime, h.wrapper, Option.map_some]

theorem Inv.step (hs : s.Inv) (hC : s.ReachesLive newStringUTF l)
    (h : s.step newStringUTF l = some t) : t.Inv := by
  have hc : s.crashed = false := by
    by_contra hc
    simp [Process.step, hc] at h
  simp only [Process.step, hc, Bool.false_eq_true, if_false] at h
  cases l with
  | onCreate =>
    rw [Option.ite_none_right_eq_some, Option.some_inj] at h
    exact h.2 ▸ hs.onCreate
  | onDestroy =>
    rw [Option.ite_none_right_eq_some, Option.some_inj] at h
    exact h.2 ▸ hs.onDestroy
  | remoteCall m buf =>
    rcases remoteCall_cases hc h with rfl | rfl | ⟨g, call, hh, rfl⟩
    · exact hs
    · exact ⟨hs.delivered, hs.gRuntime, hs.alive, hs.handled⟩
    · exact hs.emit ((hs.delivered_emit_iff hh.gRuntime).mpr (hC g call hh))

/-- A request outside the condition goes to a destroyed instance, or to none. -/
theorem Inv.not_delivered (hs : s.Inv) (hC : ¬ s.ReachesLive newStringUTF l) :
    ∃ t, s.step newStringUTF l = some t ∧ ¬ t.Delivered := by
  cases l with
  | onCreate => exact absurd trivial hC
  | onDestroy => exact absurd trivial hC
  | remoteCall m buf =>
    simp only [ReachesLive, not_forall] at hC
    obtain ⟨g, call, hh, hnot⟩ := hC
    exact ⟨_, hh.step_eq, fun hd => hnot ((hs.delivered_emit_iff hh.gRuntime).mp hd)⟩

end Process

/-- **RPC callbacks and the live service.**  All along a run each instance's flow
is given the events of exactly the requests handled while it is alive if and only
if every request with an event is handled while the first instance is alive, and
every request handled without an event while no instance is. -/
theorem delivered_iff (newStringUTF : Bytes → String) (ls : List LifecycleLabel) :
    (∀ s, Run.Reached (Process.step newStringUTF) Process.initial ls s → s.Delivered) ↔
      Run.Along (Process.step newStringUTF) (Process.ReachesLive newStringUTF) Process.initial ls :=
  Run.forall_reached_iff_along (fun _ hs => hs.delivered) (fun _ _ _ hs hC h => hs.step hC h)
    (fun _ _ hs hC => hs.not_delivered hC) Process.Inv.initial

/-- A `StringRequest` with the value "AA". -/
private def aaRequest : Bytes :=
  [12, 0, 0, 0, 0, 0, 6, 0, 8, 0, 4, 0, 6, 0, 0, 0, 4, 0, 0, 0, 2, 0, 0, 0, 65, 65, 0, 0]

private theorem aaRequest_wrapper :
    Method.disableBluetooth.wrapper aaRequest = .ok (some (some (.disableBluetooth [65, 65]))) := by
  decide +kernel

/-- After a restart of the service the event of a request goes to the flow of the
destroyed instance, for any `NewStringUTF`. -/
theorem recreated_service_gets_nothing :
    ¬ ∀ (newStringUTF : Bytes → String) (ls : List LifecycleLabel) (s : Process),
      Run.Reached (Process.step newStringUTF) Process.initial ls s → s.Delivered := by
  intro h
  have hrun : Run.Reached (Process.step fun _ => "AA") Process.initial
      [.onCreate, .onDestroy, .onCreate, .remoteCall .disableBluetooth aaRequest]
      ⟨[[.disableBluetooth "AA"], []], some 1, some 0, false,
        [⟨some 1, some (.disableBluetooth "AA")⟩]⟩ := by
    refine Run.reached_of_exec ?_
    simp [Process.step, Process.initial, Process.onCreate, Process.onDestroy, Process.remoteCall,
      aaRequest_wrapper, Process.emit, eventOf, HandlerCall.toRpcEvent]
  have hlive := h _ _ _ hrun 1 [] rfl
  simp at hlive

end Carplay.Rpc

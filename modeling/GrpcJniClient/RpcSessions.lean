/-
The methods that the native runtime registers, and the requests that it sends.

`CarplayRpcManager.onCreate` starts the dial and registers three methods, on the
main thread; `startCarplaySession` sets up the pull listener and registers the
methods of the screen, on a collector's; other collectors send requests; and the
peer's requests come in as soon as the dial has started.  A step is one access to
what they share.

* `Inv.step` — each thread has registered what it has passed;
* `sessions_ready` — so the runtime exists when it is used, and a request that
  answers one of this process finds its handler: the screen's methods are
  registered and the one listener listens before a session is requested.
-/
import GrpcJniClient.Ownership
import GrpcJniClient.Run

open Ownership

namespace Carplay.Rpc.Sessions

/-! ### The runtime -/

/-- The handlers of `CarplayRpcRuntime.cpp`. -/
inductive Handler where
  | handleSendIap2DetectPacket
  | handleCarplayAvailablePacket
  | handleDisableBluetooth
  | handleScreenStreamStart
  | handleScreenStreamStop
  | handleScreenStreamConfiguration
  deriving DecidableEq, Repr

/-- What `initCarplayRpc` registers, in its order. -/
def rpcMethods : List (String × Handler) :=
  [("sendIap2DetectPacket", .handleSendIap2DetectPacket),
    ("carplayAvailable", .handleCarplayAvailablePacket),
    ("disableBluetooth", .handleDisableBluetooth)]

/-- What `startCarplaySession` registers, in its order. -/
def screenMethods : List (String × Handler) :=
  [("screenStreamStart", .handleScreenStreamStart),
    ("screenStreamStop", .handleScreenStreamStop),
    ("screenStreamConfiguration", .handleScreenStreamConfiguration)]

/-- The requests that this process sends. -/
inductive Call where
  | startBtIap2Link
  | receiveRfcommDataFromBt
  | startWirelessCarplaySession
  | touchScreenHid
  deriving DecidableEq, Repr

structure CarplayRpcRuntime where
  dialStarted : Bool
  method_map : List (String × Handler)
  pullListener : Option ℕ
  deriving DecidableEq, Repr

/-- `method_map[method_name] = wrapper`. -/
def CarplayRpcRuntime.register_method (g : CarplayRpcRuntime) (method : String × Handler) :
    CarplayRpcRuntime :=
  { g with method_map := method :: g.method_map.filter (·.1 ≠ method.1) }

/-- The handler that a request for the method finds. -/
def CarplayRpcRuntime.find (g : CarplayRpcRuntime) (method_name : String) : Option Handler :=
  (g.method_map.find? (·.1 = method_name)).map (·.2)

/-- Every method that this process registers. -/
def methods : List (String × Handler) := rpcMethods ++ screenMethods

/-- No name is registered for two handlers. -/
theorem eq_of_mem_methods : ∀ m ∈ methods, ∀ m' ∈ methods, m.1 = m'.1 → m = m' := by decide

theorem CarplayRpcRuntime.find_register_method (g : CarplayRpcRuntime) (m : String × Handler)
    (method_name : String) : (g.register_method m).find method_name =
      if method_name = m.1 then some m.2 else g.find method_name := by
  by_cases h : method_name = m.1
  · simp [find, register_method, h]
  · simp only [find, register_method, if_neg h, List.find?_cons, List.find?_filter,
      decide_eq_false (Ne.symm h)]
    congr 2
    funext m'
    by_cases h' : m'.1 = method_name
    · simp [h', h]
    · simp [h']

/-- The runtime exists, and requests for the methods find their handlers. -/
def Ready (gRuntime : Option CarplayRpcRuntime) (ms : List (String × Handler)) : Prop :=
  ∃ g, gRuntime = some g ∧ ∀ m ∈ ms, g.find m.1 = some m.2

variable {g : CarplayRpcRuntime} {o : Option CarplayRpcRuntime} {ms : List (String × Handler)}
  {m : String × Handler}

theorem Ready.append {ms' : List (String × Handler)} (h : Ready o ms) (h' : Ready o ms') :
    Ready o (ms ++ ms') := by
  obtain ⟨g, rfl, hfind⟩ := h
  obtain ⟨_, ⟨⟩, hfind'⟩ := h'
  refine ⟨g, rfl, fun m hm => ?_⟩
  rcases List.mem_append.mp hm with hm | hm
  · exact hfind m hm
  · exact hfind' m hm

/-- Nothing that is registered later replaces a handler. -/
theorem Ready.register_method (h : Ready (some g) ms) (hms : ms ⊆ methods) (hm : m ∈ methods) :
    Ready (some (g.register_method m)) (ms ++ [m]) := by
  obtain ⟨_, ⟨⟩, hfind⟩ := h
  refine ⟨_, rfl, fun m' hm' => ?_⟩
  rw [g.find_register_method]
  split
  case isTrue heq =>
    have hm'' : m' ∈ methods := by
      rcases List.mem_append.mp hm' with hm' | hm'
      · exact hms hm'
      · rwa [List.mem_singleton.mp hm']
    rw [eq_of_mem_methods m' hm'' m hm heq]
  case isFalse hne =>
    rcases List.mem_append.mp hm' with hm' | hm'
    · exact hfind m' hm'
    · exact absurd (congrArg Prod.fst (List.mem_singleton.mp hm')) hne

/-- Where `initCarplayRpc` is. -/
inductive Init where
  | idle
  | create
  | dial
  | register (rest : List (String × Handler))
  deriving DecidableEq, Repr

/-- Where `startCarplaySession` is. -/
inductive Session where
  | idle
  | check
  | initPullListener
  | register (rest : List (String × Handler))
  | call
  deriving DecidableEq, Repr

structure Process where
  gRuntime : Option CarplayRpcRuntime
  /-- `onBind` has returned the binder. -/
  bound : Bool
  /-- The dial has been started, so that requests come in. -/
  receiving : Bool
  /-- The listeners made so far, and whether they listen. -/
  listeners : List Bool
  init : Init
  session : Session
  /-- The other calls, before their check and before their request. -/
  calls : List (Call × Bool)
  sent : List Call
  /-- The requests of the peer, with the handlers that they have found. -/
  answered : List (String × Option Handler)
  faulted : Bool
  deriving DecidableEq, Repr

namespace Process

def initial : Process := ⟨none, false, false, [], .idle, .idle, [], [], [], false⟩

/-- An access through `gRuntime`. -/
def withRuntime (s : Process) (f : CarplayRpcRuntime → Process) : Process :=
  match s.gRuntime with
  | none => { s with faulted := true }
  | some g => f g

theorem withRuntime_eq {s : Process} {f : CarplayRpcRuntime → Process}
    (h : s.gRuntime = some g) : s.withRuntime f = f g := by
  rw [withRuntime, h]

/-- The next step of `initCarplayRpc`; `started` is what `dial.start` returns. -/
def initStep (s : Process) (started : Bool) : Option Process :=
  match s.init with
  | .idle => none
  | .create =>
      some { s with gRuntime := s.gRuntime.or (some ⟨false, [], none⟩), init := .dial }
  | .dial => some (s.withRuntime fun g =>
      { s with
        gRuntime := some { g with dialStarted := started }
        receiving := s.receiving || started
        init := .register rpcMethods })
  | .register (method :: rest) => some (s.withRuntime fun g =>
      { s with gRuntime := some (g.register_method method), init := .register rest })
  | .register [] => some { s with init := .idle, bound := true }

/-- The next step of `startCarplaySession`; `listens` is what the listener's `init`
returns. -/
def sessionStep (s : Process) (listens : Bool) : Option Process :=
  match s.session with
  | .idle => none
  | .check => some (s.withRuntime fun g =>
      { s with session := if g.dialStarted then .initPullListener else .idle })
  | .initPullListener => some (s.withRuntime fun g =>
      if g.pullListener.isSome then { s with session := .register screenMethods }
      else if listens then
        { s with
          gRuntime := some { g with pullListener := some s.listeners.length }
          listeners := s.listeners ++ [true]
          session := .register screenMethods }
      else { s with listeners := s.listeners ++ [false], session := .idle })
  | .register (method :: rest) => some (s.withRuntime fun g =>
      { s with gRuntime := some (g.register_method method), session := .register rest })
  | .register [] => some { s with session := .call }
  | .call => some { s with sent := s.sent ++ [.startWirelessCarplaySession], session := .idle }

inductive Label where
  /-- `onCreate` of an instance of `CarplayRpcManager`. -/
  | onCreate
  | init (started : Bool)
  | startCarplaySession
  | session (listens : Bool)
  /-- One of the other calls. -/
  | call (c : Call)
  | callStep (i : ℕ)
  /-- A request of the peer comes in. -/
  | remoteCall (method_name : String)
  deriving DecidableEq, Repr

def step (s : Process) : Label → Option Process
  | .onCreate => if s.init = .idle then some { s with init := .create } else none
  | .init started => s.initStep started
  | .startCarplaySession =>
      if s.bound ∧ s.session = .idle then some { s with session := .check } else none
  | .session listens => s.sessionStep listens
  | .call c =>
      if s.bound ∧ c ≠ .startWirelessCarplaySession then
        some { s with calls := s.calls ++ [(c, false)] }
      else none
  | .callStep i =>
      match s.calls[i]? with
      | none => none
      | some (c, false) => some (s.withRuntime fun g =>
          { s with calls := if g.dialStarted then s.calls.set i (c, true) else s.calls.eraseIdx i })
      | some (c, true) => some { s with sent := s.sent ++ [c], calls := s.calls.eraseIdx i }
  | .remoteCall method_name =>
      if s.receiving then some (s.withRuntime fun g =>
        { s with answered := s.answered ++ [(method_name, g.find method_name)] })
      else none

/-! ### What the threads keep -/

/-- The runtime has its listener. -/
def Listening (gRuntime : Option CarplayRpcRuntime) : Prop :=
  ∃ g, gRuntime = some g ∧ g.pullListener.isSome = true

/-- The registrations of a thread that has `rest` of `ms` before it. -/
def Registering (gRuntime : Option CarplayRpcRuntime) (ms rest : List (String × Handler)) : Prop :=
  ∃ done, ms = done ++ rest ∧ Ready gRuntime done

/-- What `initCarplayRpc` has done. -/
def InitReady (gRuntime : Option CarplayRpcRuntime) : Init → Prop
  | .idle | .create => True
  | .dial => Ready gRuntime []
  | .register rest => Registering gRuntime rpcMethods rest

/-- What `startCarplaySession` has found and done. -/
def SessionReady (s : Process) : Session → Prop
  | .idle => True
  | .check => s.bound = true
  | .initPullListener => s.bound = true ∧ s.receiving = true
  | .register rest => (s.bound = true ∧ s.receiving = true) ∧
      Listening s.gRuntime ∧ Registering s.gRuntime screenMethods rest
  | .call => (s.bound = true ∧ s.receiving = true) ∧
      Listening s.gRuntime ∧ Ready s.gRuntime screenMethods

structure Inv (s : Process) : Prop where
  sound : s.faulted = false
  init : InitReady s.gRuntime s.init
  bound : s.bound = true → Ready s.gRuntime rpcMethods
  receiving : s.receiving = true → Ready s.gRuntime []
  dialed : ∀ g ∈ s.gRuntime, g.dialStarted = true → s.receiving = true
  session : SessionReady s s.session
  calls : ∀ c ∈ s.calls, s.bound = true ∧ c.1 ≠ .startWirelessCarplaySession ∧
    (c.2 = true → s.receiving = true)
  sent : ∀ c ∈ s.sent, s.bound = true ∧ s.receiving = true
  requested : .startWirelessCarplaySession ∈ s.sent →
    Listening s.gRuntime ∧ Ready s.gRuntime screenMethods
  registered : ∀ g ∈ s.gRuntime, ∀ m ∈ g.method_map, m ∈ methods
  answered : ∀ a ∈ s.answered, ∀ h ∈ a.2, (a.1, h) ∈ methods
  only : Only id s.listeners (s.gRuntime.bind (·.pullListener))
  points : Points id s.listeners (s.gRuntime.bind (·.pullListener))

/-! ### Growth -/

/-- What has been set up in the runtime stays. -/
structure Grows (o o' : Option CarplayRpcRuntime) : Prop where
  ready : ∀ ms ⊆ methods, Ready o ms → Ready o' ms
  listening : Listening o → Listening o'

variable {o' : Option CarplayRpcRuntime} {rest : List (String × Handler)}

theorem grows_refl : Grows o o := ⟨fun _ _ => id, id⟩

theorem grows_create : Grows o (o.or (some ⟨false, [], none⟩)) where
  ready := by
    rintro ms - ⟨g, rfl, hfind⟩
    exact ⟨g, rfl, hfind⟩
  listening := by
    rintro ⟨g, rfl, hl⟩
    exact ⟨g, rfl, hl⟩

theorem ready_create : Ready (o.or (some ⟨false, [], none⟩)) [] := by
  cases o <;> exact ⟨_, rfl, by simp⟩

theorem grows_dialStarted (b : Bool) : Grows (some g) (some { g with dialStarted := b }) where
  ready := by
    rintro ms - ⟨_, ⟨⟩, hfind⟩
    exact ⟨_, rfl, hfind⟩
  listening := by
    rintro ⟨_, ⟨⟩, hl⟩
    exact ⟨_, rfl, hl⟩

theorem grows_register_method (hm : m ∈ methods) :
    Grows (some g) (some (g.register_method m)) where
  ready := by
    intro ms hms h
    obtain ⟨g', hg', hfind⟩ := h.register_method hms hm
    exact ⟨g', hg', fun m' hm' => hfind m' (List.mem_append_left _ hm')⟩
  listening := by
    rintro ⟨_, ⟨⟩, hl⟩
    exact ⟨_, rfl, hl⟩

theorem grows_pullListener (k : ℕ) : Grows (some g) (some { g with pullListener := some k }) where
  ready := by
    rintro ms - ⟨_, ⟨⟩, hfind⟩
    exact ⟨_, rfl, hfind⟩
  listening _ := ⟨_, rfl, rfl⟩

theorem rpcMethods_subset : rpcMethods ⊆ methods := List.subset_append_left _ _

theorem screenMethods_subset : screenMethods ⊆ methods := List.subset_append_right _ _

theorem Grows.registering (h : Grows o o') (hms : ms ⊆ methods)
    (hr : Registering o ms rest) : Registering o' ms rest := by
  obtain ⟨done, rfl, hdone⟩ := hr
  exact ⟨done, rfl, h.ready done (List.Subset.trans (List.subset_append_left _ _) hms) hdone⟩

theorem Grows.initReady (h : Grows o o') {i : Init} (hi : InitReady o i) : InitReady o' i := by
  cases i with
  | idle | create => trivial
  | dial => exact h.ready [] (by simp) hi
  | register rest => exact h.registering rpcMethods_subset hi

theorem SessionReady.grow {s t : Process} {c : Session} (hc : SessionReady s c)
    (h : Grows s.gRuntime t.gRuntime) (hb : s.bound = true → t.bound = true)
    (hr : s.receiving = true → t.receiving = true) : SessionReady t c := by
  cases c with
  | idle => trivial
  | check => exact hb hc
  | initPullListener => exact hc.imp hb hr
  | register rest =>
    exact hc.imp (And.imp hb hr) (And.imp h.listening (h.registering screenMethods_subset))
  | call =>
    exact hc.imp (And.imp hb hr) (And.imp h.listening (h.ready _ screenMethods_subset))

/-- The next registration of a thread. -/
theorem Registering.next (h : Registering (some g) ms (m :: rest)) (hms : ms ⊆ methods) :
    Registering (some (g.register_method m)) ms rest := by
  obtain ⟨done, rfl, hdone⟩ := h
  refine ⟨done ++ [m], by simp, hdone.register_method ?_ (hms (by simp))⟩
  exact List.Subset.trans (List.subset_append_left _ _) hms

theorem Registering.exists_eq_some (h : Registering o ms rest) : ∃ g, o = some g := by
  obtain ⟨_, _, g, hg, -⟩ := h
  exact ⟨g, hg⟩

theorem Registering.mem (h : Registering o ms (m :: rest)) (hms : ms ⊆ methods) :
    m ∈ methods := by
  obtain ⟨done, rfl, -⟩ := h
  exact hms (by simp)

/-- After the last registration. -/
theorem Registering.ready (h : Registering o ms []) : Ready o ms := by
  obtain ⟨done, rfl, hdone⟩ := h
  simpa using hdone

namespace Inv

variable {s t : Process}

/-- A change of the runtime that loses nothing. -/
theorem grow (h : Inv s) (hg : Grows s.gRuntime o)
    (hdialed : ∀ g ∈ o, g.dialStarted = true → s.receiving = true)
    (hregistered : ∀ g ∈ o, ∀ m ∈ g.method_map, m ∈ methods)
    (hlistener : o.bind (·.pullListener) = s.gRuntime.bind (·.pullListener)) :
    Inv { s with gRuntime := o } where
  sound := h.sound
  init := hg.initReady h.init
  bound hb := hg.ready _ rpcMethods_subset (h.bound hb)
  receiving hr := hg.ready _ (by simp) (h.receiving hr)
  dialed := hdialed
  session := h.session.grow hg id id
  calls := h.calls
  sent := h.sent
  requested hr := (h.requested hr).imp hg.listening (hg.ready _ screenMethods_subset)
  registered := hregistered
  answered := h.answered
  only := by simpa only [hlistener] using h.only
  points := by simpa only [hlistener] using h.points

theorem register_method (h : Inv s) (hr : s.gRuntime = some g) (hm : m ∈ methods) :
    Inv { s with gRuntime := some (g.register_method m) } := by
  refine h.grow (by rw [hr]; exact grows_register_method hm) ?_ ?_ (by rw [hr]; rfl)
  · rintro _ ⟨⟩ hd
    exact h.dialed g hr hd
  rintro _ ⟨⟩ m' hm'
  rcases List.mem_cons.mp hm' with rfl | hm'
  · exact hm
  · exact h.registered g hr m' (List.mem_of_mem_filter hm')

theorem create (h : Inv s) :
    Inv { s with gRuntime := s.gRuntime.or (some ⟨false, [], none⟩) } := by
  refine h.grow grows_create ?_ ?_ (by cases s.gRuntime <;> rfl)
  · intro g hg
    rcases Option.or_eq_some_iff.mp hg with hg | ⟨-, ⟨⟩⟩
    · exact h.dialed g hg
    · simp
  · intro g hg
    rcases Option.or_eq_some_iff.mp hg with hg | ⟨-, ⟨⟩⟩
    · exact h.registered g hg
    · simp

/-- A step of `initCarplayRpc`. -/
theorem initStep (h : Inv s) {started : Bool} (hs : s.initStep started = some t) : Inv t := by
  unfold Process.initStep at hs
  split at hs
  case h_1 => cases hs
  case h_2 hinit =>
    cases hs
    -- the runtime is created, if it was not
    exact { h.create with init := ready_create }
  case h_3 hinit =>
    have hi := h.init
    rw [hinit] at hi
    obtain ⟨g, hg, -⟩ := hi
    rw [withRuntime_eq hg] at hs
    cases hs
    -- whether the dial has started or not, nothing that was set up is lost
    have hgrow := grows_dialStarted (g := g) started
    rw [← hg] at hgrow
    have hreceiving (hr : s.receiving = true) : (s.receiving || started) = true := by simp [hr]
    exact {
      sound := h.sound
      init := ⟨[], rfl, _, rfl, by simp⟩
      bound := fun hb => hgrow.ready _ rpcMethods_subset (h.bound hb)
      receiving := fun _ => ⟨_, rfl, by simp⟩
      dialed := by
        rintro _ ⟨⟩ (rfl : started = true)
        exact Bool.or_true _
      session := h.session.grow hgrow id hreceiving
      calls := fun c hc => (h.calls c hc).imp_right (And.imp_right (hreceiving ∘ ·))
      sent := fun c hc => (h.sent c hc).imp_right hreceiving
      requested := fun hr =>
        (h.requested hr).imp hgrow.listening (hgrow.ready _ screenMethods_subset)
      registered := by
        rintro _ ⟨⟩
        exact h.registered g hg
      answered := h.answered
      only := by
        have honly := h.only
        rwa [hg] at honly
      points := by
        have hpoints := h.points
        rwa [hg] at hpoints }
  case h_4 m rest hinit =>
    have hi := h.init
    rw [hinit] at hi
    obtain ⟨g, hg⟩ := hi.exists_eq_some
    rw [withRuntime_eq hg] at hs
    cases hs
    rw [hg] at hi
    -- one more of the methods of `initCarplayRpc`
    exact { h.register_method hg (hi.mem rpcMethods_subset) with
      init := hi.next rpcMethods_subset }
  case h_5 hinit =>
    have hi := h.init
    rw [hinit] at hi
    cases hs
    -- the last one: now the binder is handed out
    exact { h with
      init := trivial
      bound := fun _ => hi.ready
      session := h.session.grow grows_refl (fun _ => rfl) id
      calls := fun c hc => ⟨rfl, (h.calls c hc).2⟩
      sent := fun c hc => ⟨rfl, (h.sent c hc).2⟩ }

/-- Whoever has the binder finds the runtime. -/
theorem exists_gRuntime (h : Inv s) (hb : s.bound = true) : ∃ g, s.gRuntime = some g := by
  obtain ⟨g, hg, -⟩ := h.bound hb
  exact ⟨g, hg⟩

/-- The runtime's first pull listener that listens. -/
theorem setPullListener (h : Inv s) (hg : s.gRuntime = some g) (hl : g.pullListener = none)
    (hc : s.bound = true ∧ s.receiving = true) :
    Inv { s with
      gRuntime := some { g with pullListener := some s.listeners.length }
      listeners := s.listeners ++ [true]
      session := .register screenMethods } := by
  -- without a listener of the runtime, none listens
  have hnone : Only id s.listeners none := by
    have honly := h.only
    rwa [hg, Option.bind_some, hl] at honly
  have hgrow := grows_pullListener (g := g) s.listeners.length
  rw [← hg] at hgrow
  exact { h with
    init := hgrow.initReady h.init
    bound := fun hb => hgrow.ready _ rpcMethods_subset (h.bound hb)
    receiving := fun hr => hgrow.ready _ (by simp) (h.receiving hr)
    dialed := by
      rintro _ ⟨⟩ hd
      exact h.dialed g hg hd
    session := ⟨hc, ⟨_, rfl, rfl⟩, [], rfl, _, rfl, by simp⟩
    requested := fun hr =>
      (h.requested hr).imp hgrow.listening (hgrow.ready _ screenMethods_subset)
    registered := by
      rintro _ ⟨⟩
      exact h.registered g hg
    only := hnone.append
    points := Points.append_self rfl }

/-- A pull listener that does not listen: the runtime keeps none. -/
theorem failPullListener (h : Inv s) (hg : s.gRuntime = some g) (hl : g.pullListener = none) :
    Inv { s with listeners := s.listeners ++ [false], session := .idle } :=
  { h with
    session := trivial
    only := h.only.append_of_eq_false rfl
    points := by
      rw [hg, Option.bind_some, hl]
      exact points_none }

/-- A step of `startCarplaySession`. -/
theorem sessionStep (h : Inv s) {listens : Bool} (hs : s.sessionStep listens = some t) :
    Inv t := by
  have hc := h.session
  unfold Process.sessionStep at hs
  split at hs
  case h_1 => cases hs
  case h_2 hsession =>
    rw [hsession] at hc
    obtain ⟨g, hg⟩ := h.exists_gRuntime hc
    rw [withRuntime_eq hg] at hs
    cases hs
    refine { h with session := ?_ }
    dsimp only
    split
    case isTrue hd => exact ⟨hc, h.dialed g hg hd⟩
    case isFalse => trivial
  case h_3 hsession =>
    rw [hsession] at hc
    obtain ⟨g, hg⟩ := h.exists_gRuntime hc.1
    rw [withRuntime_eq hg] at hs
    split_ifs at hs with hl hlistens
    · cases hs
      -- a session before this one has opened the listener
      exact { h with session := ⟨hc, ⟨g, hg, hl⟩, [], rfl, g, hg, by simp⟩ }
    · cases hs
      exact h.setPullListener hg (Option.not_isSome_iff_eq_none.mp hl) hc
    · cases hs
      exact h.failPullListener hg (Option.not_isSome_iff_eq_none.mp hl)
  case h_4 m rest hsession =>
    rw [hsession] at hc
    obtain ⟨hb, hl, hr⟩ := hc
    obtain ⟨g, hg⟩ := hr.exists_eq_some
    rw [withRuntime_eq hg] at hs
    cases hs
    rw [hg] at hl hr
    -- one more of the screen's methods
    have hm := hr.mem screenMethods_subset
    exact { h.register_method hg hm with
      session := ⟨hb, (grows_register_method hm).listening hl, hr.next screenMethods_subset⟩ }
  case h_5 hsession =>
    rw [hsession] at hc
    cases hs
    exact { h with session := ⟨hc.1, hc.2.1, hc.2.2.ready⟩ }
  case h_6 hsession =>
    rw [hsession] at hc
    cases hs
    exact { h with
      session := trivial
      sent := fun _ _ => hc.1
      requested := fun _ => hc.2 }

/-- A step of one of the other calls. -/
theorem callStep (h : Inv s) {i : ℕ} (hs : Process.step s (.callStep i) = some t) : Inv t := by
  simp only [Process.step] at hs
  split at hs
  case h_1 => cases hs
  case h_2 c hci =>
    have hc := h.calls _ (List.mem_of_getElem? hci)
    obtain ⟨g, hg⟩ := h.exists_gRuntime hc.1
    rw [withRuntime_eq hg] at hs
    cases hs
    refine { h with calls := fun c' hc' => ?_ }
    dsimp only at hc'
    split at hc'
    case isTrue hd =>
      -- a call goes on only where it finds the dial started
      rcases List.mem_or_eq_of_mem_set hc' with hc' | rfl
      · exact h.calls c' hc'
      · exact ⟨hc.1, hc.2.1, fun _ => h.dialed g hg hd⟩
    case isFalse => exact h.calls c' (List.mem_of_mem_eraseIdx hc')
  case h_3 c hci =>
    have hc := h.calls _ (List.mem_of_getElem? hci)
    cases hs
    refine { h with
      calls := fun c' hc' => h.calls c' (List.mem_of_mem_eraseIdx hc')
      sent := fun _ _ => ⟨hc.1, hc.2.2 rfl⟩
      requested := fun hr => h.requested ?_ }
    rcases List.mem_append.mp hr with hr | hr
    · exact hr
    · -- none of these calls requests a session
      exact absurd (List.mem_singleton.mp hr).symm hc.2.1

theorem mem_of_find (h : Inv s) (hg : s.gRuntime = some g) {method_name : String}
    {handler : Handler} (hf : g.find method_name = some handler) :
    (method_name, handler) ∈ methods := by
  obtain ⟨m, hm, rfl⟩ := Option.map_eq_some_iff.mp hf
  obtain rfl : m.1 = method_name := by simpa using List.find?_some hm
  exact h.registered g hg m (List.mem_of_find?_eq_some hm)

theorem step (h : Inv s) {l : Label} (hs : Process.step s l = some t) : Inv t := by
  cases l with
  | onCreate =>
    obtain ⟨-, ht⟩ := Option.ite_none_right_eq_some.mp hs
    cases ht
    exact { h with init := trivial }
  | init started => exact h.initStep hs
  | startCarplaySession =>
    obtain ⟨⟨hb, -⟩, ht⟩ := Option.ite_none_right_eq_some.mp hs
    cases ht
    exact { h with session := hb }
  | session listens => exact h.sessionStep hs
  | call c =>
    obtain ⟨⟨hb, hc⟩, ht⟩ := Option.ite_none_right_eq_some.mp hs
    cases ht
    refine { h with calls := fun c' hc' => ?_ }
    rcases List.mem_append.mp hc' with hc' | hc'
    · exact h.calls c' hc'
    · rw [List.mem_singleton.mp hc']
      exact ⟨hb, hc, fun hf => by cases hf⟩
  | callStep i => exact h.callStep hs
  | remoteCall method_name =>
    obtain ⟨hr, ht⟩ := Option.ite_none_right_eq_some.mp hs
    obtain ⟨g, hg, -⟩ := h.receiving hr
    rw [withRuntime_eq hg] at ht
    cases ht
    refine { h with answered := fun a ha handler hf => ?_ }
    rcases List.mem_append.mp ha with ha | ha
    · exact h.answered a ha handler hf
    · rw [List.mem_singleton.mp ha] at hf ⊢
      exact h.mem_of_find hg hf

theorem initial : Inv initial where
  sound := rfl
  init := trivial
  bound h := by cases h
  receiving h := by cases h
  dialed _ h := by cases h
  session := trivial
  calls _ h := by cases h
  sent _ h := by cases h
  requested h := by cases h
  registered _ h := by cases h
  answered _ h := by cases h
  only := only_nil
  points := points_none

end Inv

/-! ### Requests -/

/-- A request for a method that is registered finds its handler. -/
theorem step_remoteCall {s : Process} (hr : s.receiving = true) (hms : Ready s.gRuntime ms)
    (hm : m ∈ ms) : step s (.remoteCall m.1) =
      some { s with answered := s.answered ++ [(m.1, some m.2)] } := by
  obtain ⟨g, hg, hfind⟩ := hms
  rw [step, if_pos hr, withRuntime_eq hg, hfind m hm]

/-- However the threads interleave: nothing is called through a runtime that does not
exist, at most one listener listens, and no request finds another method's handler.  Once
a request has been sent, one of the peer finds the handlers of `initCarplayRpc`; once a
session has been requested, the listener listens, and it finds those of the screen too. -/
theorem sessions_ready {s : Process} {ls : List Label} (h : Run.Reached step initial ls s) :
    s.faulted = false ∧ AtMostOne id s.listeners ∧
      (∀ a ∈ s.answered, ∀ handler ∈ a.2, (a.1, handler) ∈ methods) ∧
      (s.sent ≠ [] → ∀ m ∈ rpcMethods, step s (.remoteCall m.1) =
        some { s with answered := s.answered ++ [(m.1, some m.2)] }) ∧
      (.startWirelessCarplaySession ∈ s.sent → true ∈ s.listeners ∧
        ∀ m ∈ methods, step s (.remoteCall m.1) =
          some { s with answered := s.answered ++ [(m.1, some m.2)] }) := by
  have hinv : Inv s := h.invariant (fun _ _ _ hi _ hs => hi.step hs) .initial (Run.along_true _ _)
  refine ⟨hinv.sound, hinv.only.atMostOne, hinv.answered, fun hsent m hm => ?_, fun hreq => ?_⟩
  · obtain ⟨c, hc⟩ := List.exists_mem_of_ne_nil _ hsent
    exact step_remoteCall (hinv.sent c hc).2 (hinv.bound (hinv.sent c hc).1) hm
  · obtain ⟨hb, hr⟩ := hinv.sent _ hreq
    obtain ⟨⟨g, hg, hl⟩, hscreen⟩ := hinv.requested hreq
    refine ⟨?_, fun m hm =>
      step_remoteCall hr ((hinv.bound hb).append hscreen) hm⟩
    obtain ⟨k, hk⟩ := Option.isSome_iff_exists.mp hl
    -- the listener of the runtime listens
    have hpoints := hinv.points k (by rw [hg]; exact hk)
    obtain ⟨b, hb, rfl⟩ := (Option.any_eq_true _ _).mp hpoints
    exact List.mem_of_getElem? hb

/-- The service is created and a session requested. -/
private def firstSession : List Label :=
  [.onCreate, .init true, .init true, .remoteCall "carplayAvailable", .init true, .init true,
    .init true, .init true, .startCarplaySession, .session true, .session true, .session true,
    .session true, .remoteCall "screenStreamStop", .session true, .session true, .session true]

theorem sessions_ready_firstSession : ∃ s, Run.Reached step initial firstSession s ∧
    s.answered = [("carplayAvailable", none), ("screenStreamStop", some .handleScreenStreamStop)] ∧
    s.sent = [.startWirelessCarplaySession] ∧ true ∈ s.listeners := by
  obtain ⟨s, hs, ha, hsent⟩ : ∃ s, Run.exec step initial firstSession = some s ∧
      s.answered = [("carplayAvailable", none),
        ("screenStreamStop", some .handleScreenStreamStop)] ∧
      s.sent = [.startWirelessCarplaySession] := ⟨_, rfl, rfl, rfl⟩
  have hreached := Run.reached_of_exec hs
  exact ⟨s, hreached, ha, hsent,
    ((sessions_ready hreached).2.2.2.2 (by rw [hsent]; exact List.mem_singleton_self _)).1⟩

end Process

end Carplay.Rpc.Sessions

/-
The manager's operations with their waits: the mutex, the blocking `read` of a
reader coroutine, and `cancelAndJoin`.

An operation is a thread of a pool here, one step for each thing it does under
the mutex.  A reader is part of its channel's `Endpoint`: it tests `isActive`,
reads, and hands over what it has read (`onData` is a `tryEmit`, which never
waits).

* `solo_start`, `solo_stop` — an operation that runs alone does what the
  manager's function does;
* `Inv.progress` — as long as no stop has cancelled a reader blocked in a silent
  read, a pending operation never leaves the coroutines without a step;
* `stop_never_waits_iff` — and that is exactly when;
* `deadlock_lasts` — a stop that waits for such a reader holds the manager until
  the peer does something;
* `quiet_stop_deadlocks` — one start and one stop of a phone that stays silent.
-/
import GrpcJniClient.Ownership
import GrpcJniClient.RfcommList
import GrpcJniClient.ThreadPool

open ThreadPool

namespace Carplay.Rfcomm

/-- Where the coroutine that `readLoop` launches stands. -/
inductive ReaderPc where
  /-- `readLoop` has not been called. -/
  | unlaunched
  /-- At the test of the loop, or not dispatched yet. -/
  | isActive
  /-- In `mInput?.read(buffer)`. -/
  | read
  /-- In `onData`. -/
  | onData (bytes : Bytes)
  | completed
  deriving DecidableEq, Repr

/-- A channel object, its reader, and what its peer has sent. -/
structure Endpoint where
  channel : BluetoothRfcommChannel
  reader : ReaderPc
  /-- The reader's job has been cancelled. -/
  cancelled : Bool
  /-- The bytes that no `read` has returned yet. -/
  inbox : Bytes
  /-- The peer has ended the stream. -/
  ended : Bool
  deriving DecidableEq, Repr

namespace Endpoint

def new (channel : BluetoothRfcommChannel) : Endpoint := ⟨channel, .unlaunched, false, [], false⟩

def launch (e : Endpoint) : Endpoint :=
  { e with channel := e.channel.readLoop, reader := .isActive }

/-- The reader coroutine ends, and with it its job. -/
def complete (e : Endpoint) : Endpoint :=
  { e with channel := e.channel.cancelAndJoin, reader := .completed }

def cancel (e : Endpoint) : Endpoint := { e with cancelled := true }

/-- `BluetoothRfcommChannel.close`, which cancels the reader's scope first. -/
def close (e : Endpoint) : Endpoint := { e with channel := e.channel.close, cancelled := true }

/-- The socket has been closed on this side, or its field nulled. -/
def isClosed (e : Endpoint) : Bool := !e.channel.mInput || e.channel.socket.any (·.closed)

def isDropped (e : Endpoint) : Bool := e.channel.socket.any (·.dropped)

/-- `read` has nothing to return and nothing to throw. -/
def silent (e : Endpoint) : Bool :=
  !e.isClosed && e.inbox.isEmpty && !e.isDropped && !e.ended

/-- The reader is blocked in a silent read. -/
def blocked (e : Endpoint) : Bool := e.reader == .read && e.silent

/-- One step of `readLoop`.  At the end of the stream `read` returns -1 and the
loop goes on. -/
def step (e : Endpoint) : Option Endpoint :=
  match e.reader with
  | .unlaunched | .completed => none
  | .isActive => some (if e.cancelled then e.complete else { e with reader := .read })
  | .read =>
      if e.isClosed then some e.complete
      else if !e.inbox.isEmpty then
        some { e with reader := .onData (e.inbox.take 1024), inbox := e.inbox.drop 1024 }
      else if e.isDropped then some e.complete
      else if e.ended then some { e with reader := .isActive }
      else none
  | .onData _ => some { e with reader := .isActive }

/-- The peer sends. -/
def receive (bytes : Bytes) (e : Endpoint) : Endpoint := { e with inbox := e.inbox ++ bytes }

/-- The peer ends the stream. -/
def endStream (e : Endpoint) : Endpoint := { e with ended := true }

/-- The peer drops the link. -/
def drop (e : Endpoint) : Endpoint :=
  { e with channel := { e.channel with socket := e.channel.socket.map (·.drop) } }

end Endpoint

/-- A call on the manager. -/
inductive ManagerCall where
  | startRfcommTransportJob (device : BluetoothDevice) (uuid : UUID)
  | stopRfcommTransportJob (device : BluetoothDevice) (uuid : UUID)
  deriving DecidableEq, Repr

/-- Where an operation stands. -/
inductive OperationPc where
  /-- In `mutex.withLock`, before the lock is taken. -/
  | lock (call : ManagerCall)
  | connect (device : BluetoothDevice) (uuid : UUID)
  | readLoop (c : ℕ)
  | add (c : ℕ)
  | closeFailed (c : ℕ)
  | query (device : BluetoothDevice) (uuid : UUID)
  | cancel (t : BluetoothRfcommTransform)
  | join (t : BluetoothRfcommTransform)
  | close (t : BluetoothRfcommTransform)
  | remove (t : BluetoothRfcommTransform)
  | unlock
  | finished
  deriving DecidableEq, Repr

namespace Blocking

/-- The manager's objects, and whether its mutex is locked. -/
structure Shared where
  endpoints : List Endpoint
  rfcommTransformList : List BluetoothRfcommTransform
  mutex : Bool
  deriving DecidableEq, Repr

namespace Shared

/-- The manager as its functions see it. -/
def manager (s : Shared) : BluetoothRfcommManager :=
  ⟨s.endpoints.map (·.channel), s.rfcommTransformList⟩

def modify (s : Shared) (c : ℕ) (f : Endpoint → Endpoint) : Shared :=
  { s with endpoints := s.endpoints.modify c f }

/-- The job of the transform's reader has completed. -/
def joined (s : Shared) (t : BluetoothRfcommTransform) : Bool :=
  (s.endpoints[t.channel]?).any (·.reader == .completed)

end Shared

/-- One step of an operation; `o` is how `connect` ends. -/
def prim (s : Shared) (o : ConnectOutcome) :
    OperationPc → Option (Shared × OperationPc × List OperationPc)
  | .lock call =>
      if s.mutex then none
      else some ({ s with mutex := true },
        match call with
        | .startRfcommTransportJob device uuid => .connect device uuid
        | .stopRfcommTransportJob device uuid => .query device uuid, [])
  | .connect device uuid =>
      let (connected, channel) := (BluetoothRfcommChannel.new device uuid).connect o
      some ({ s with endpoints := s.endpoints ++ [.new channel] },
        match connected with
        | true => .readLoop s.endpoints.length
        | false => .closeFailed s.endpoints.length, [])
  | .readLoop c => some (s.modify c Endpoint.launch, .add c, [])
  | .add c =>
      some ({ s with rfcommTransformList := s.rfcommTransformList ++ [⟨c⟩] }, .unlock, [])
  | .closeFailed c => some (s.modify c Endpoint.close, .unlock, [])
  | .query device uuid =>
      some (s,
        match s.manager.queryRfcommTransform device uuid with
        | some t => .cancel t
        | none => .unlock, [])
  | .cancel t => some (s.modify t.channel Endpoint.cancel, .join t, [])
  | .join t => if s.joined t then some (s, .close t, []) else none
  | .close t => some (s.modify t.channel Endpoint.close, .remove t, [])
  | .remove t =>
      some ({ s with rfcommTransformList := s.rfcommTransformList.erase t }, .unlock, [])
  | .unlock => some ({ s with mutex := false }, .finished, [])
  | .finished => none

abbrev System := Pool Shared OperationPc

inductive Label where
  | call (call : ManagerCall)
  | operation (i : ℕ) (o : ConnectOutcome)
  | reader (c : ℕ)
  | peerSends (c : ℕ) (bytes : Bytes)
  | peerEnds (c : ℕ)
  | peerDrops (c : ℕ)
  deriving DecidableEq, Repr

/-- The step is taken by a coroutine of the process. -/
def Label.isOwn : Label → Bool
  | .operation _ _ | .reader _ => true
  | _ => false

/-- The channel whose peer takes the step. -/
def Label.peer : Label → Option ℕ
  | .peerSends c _ | .peerEnds c | .peerDrops c => some c
  | _ => none

def initial : System := ⟨⟨[], [], false⟩, []⟩

/-- A partial step of one endpoint. -/
def onEndpoint (p : System) (c : ℕ) (f : Endpoint → Option Endpoint) : Option System :=
  ((p.shared.endpoints[c]?).bind f).map fun e =>
    { p with shared := p.shared.modify c fun _ => e }

/-- A step of an endpoint's peer, while the link is up. -/
def onPeer (p : System) (c : ℕ) (f : Endpoint → Endpoint) : Option System :=
  onEndpoint p c fun e => if e.channel.alive then some (f e) else none

def step (p : System) : Label → Option System
  | .call call => some (p.spawn (.lock call))
  | .operation i o => p.move prim i o
  | .reader c => onEndpoint p c Endpoint.step
  | .peerSends c bytes => onPeer p c (Endpoint.receive bytes)
  | .peerEnds c => onPeer p c Endpoint.endStream
  | .peerDrops c => onPeer p c Endpoint.drop

end Blocking

/-! ### What an endpoint's steps keep -/

namespace Endpoint

/-- A completed reader has completed its job. -/
def JobJoined (e : Endpoint) : Prop :=
  e.reader = .completed → e.channel.cancelAndJoin = e.channel

/-- A launched reader stays launched, and a cancelled one that is not blocked
never blocks again. -/
structure Advances (e e' : Endpoint) : Prop where
  launched : e.reader ≠ .unlaunched → e'.reader ≠ .unlaunched
  released : e.cancelled = true → e.blocked = false → e'.cancelled = true ∧ e'.blocked = false
  jobJoined : e.JobJoined → e'.JobJoined

theorem Advances.refl (e : Endpoint) : Advances e e := ⟨id, fun h₁ h₂ => ⟨h₁, h₂⟩, id⟩

theorem blocked_iff {e : Endpoint} : e.blocked = true ↔ e.reader = .read ∧ e.silent = true := by
  rw [blocked, Bool.and_eq_true, beq_iff_eq]

theorem blocked_of_reader {e : Endpoint} (h : e.reader ≠ .read) : e.blocked = false := by
  rw [Bool.eq_false_iff, Ne, blocked_iff]
  exact fun hb => h hb.1

/-- A read that does not find silence ends. -/
theorem step_isSome {e : Endpoint} (hlaunched : e.reader ≠ .unlaunched)
    (hrunning : e.reader ≠ .completed) (hb : e.blocked = false) : e.step.isSome = true := by
  unfold step
  split
  · contradiction
  · contradiction
  · rfl
  · rename_i hread
    have hsilent : e.silent ≠ true := fun h =>
      absurd (blocked_iff.mpr ⟨hread, h⟩) (by simp [hb])
    split
    · rfl
    split
    · rfl
    split
    · rfl
    split
    · rfl
    · -- open, nothing to read, not dropped and not ended: that is silence
      exact absurd (by simp_all [silent]) hsilent
  · rfl

theorem step_eq_none {e : Endpoint} (hb : e.blocked = true) : e.step = none := by
  obtain ⟨hread, hsilent⟩ := blocked_iff.mp hb
  simp only [silent, Bool.and_eq_true, Bool.not_eq_true'] at hsilent
  obtain ⟨⟨⟨hclosed, hinbox⟩, hdropped⟩, hended⟩ := hsilent
  simp [step, hread, hclosed, hinbox, hdropped, hended]

/-- An update that neither silences the stream nor touches the reader or its
cancellation. -/
theorem Advances.of_silent {e e' : Endpoint} (hreader : e'.reader = e.reader)
    (hcancelled : e.cancelled = true → e'.cancelled = true)
    (hsilent : e'.silent = true → e.silent = true) (hjob : e.JobJoined → e'.JobJoined) :
    Advances e e' where
  launched := fun h => by rwa [hreader]
  released := by
    intro hc hb
    refine ⟨hcancelled hc, Bool.eq_false_iff.mpr fun hb' => ?_⟩
    obtain ⟨hread, hs⟩ := blocked_iff.mp hb'
    exact absurd (blocked_iff.mpr ⟨hreader ▸ hread, hsilent hs⟩) (by simp [hb])
  jobJoined := hjob

/-- An update that takes the reader out of `read`. -/
theorem Advances.of_reader {e e' : Endpoint} (hlaunched : e'.reader ≠ .unlaunched)
    (hread : e'.reader ≠ .read) (hcancelled : e'.cancelled = e.cancelled)
    (hjob : e'.JobJoined) : Advances e e' :=
  ⟨fun _ => hlaunched, fun hc _ => ⟨hcancelled ▸ hc, blocked_of_reader hread⟩, fun _ => hjob⟩

theorem advances_launch (e : Endpoint) : Advances e e.launch :=
  .of_reader (by simp [launch]) (by simp [launch]) rfl (by simp [JobJoined, launch])

theorem advances_complete (e : Endpoint) : Advances e e.complete := by
  refine .of_reader (by simp [complete]) (by simp [complete]) rfl fun _ => ?_
  simp only [complete, BluetoothRfcommChannel.cancelAndJoin, Option.map_map]
  rfl

theorem advances_cancel (e : Endpoint) : Advances e e.cancel :=
  .of_silent rfl (fun _ => rfl) id id

theorem advances_close (e : Endpoint) : Advances e e.close := by
  refine .of_silent rfl (fun _ => rfl) (fun h => ?_) fun hj hc => ?_
  · simp [silent, isClosed, close, BluetoothRfcommChannel.close] at h
  · have hchannel := hj hc
    simp only [close, BluetoothRfcommChannel.close, BluetoothRfcommChannel.cancelAndJoin] at *
    rw [BluetoothRfcommChannel.mk.injEq] at hchannel
    rw [hchannel.2.2.2.2.2.2]

theorem advances_receive (bytes : Bytes) (e : Endpoint) : Advances e (e.receive bytes) := by
  refine .of_silent rfl id (fun h => ?_) id
  simp_all [silent, isClosed, isDropped, receive]

theorem advances_endStream (e : Endpoint) : Advances e e.endStream := by
  refine .of_silent rfl id (fun h => ?_) id
  simp [silent, endStream] at h

theorem advances_drop (e : Endpoint) : Advances e e.drop := by
  refine .of_silent rfl id (fun h => ?_) fun hj hc => ?_
  · cases hs : e.channel.socket with
    | none => simpa [silent, isClosed, isDropped, drop, hs] using h
    | some socket => simp [silent, isDropped, drop, hs, BluetoothSocket.drop] at h
  · have hchannel := hj hc
    simp only [drop, BluetoothRfcommChannel.cancelAndJoin] at *
    rw [BluetoothRfcommChannel.mk.injEq] at hchannel
    rw [hchannel.2.2.2.2.2.2]

theorem advances_step {e e' : Endpoint} (h : e.step = some e') : Advances e e' := by
  unfold step at h
  split at h
  · cases h
  · cases h
  · rename_i hreader
    obtain rfl := Option.some_inj.mp h
    split
    · exact advances_complete e
    · rename_i hc
      exact ⟨fun _ => by simp, fun hc' => absurd hc' hc, fun _ => by simp [JobJoined]⟩
  · split at h
    · obtain rfl := Option.some_inj.mp h
      exact advances_complete e
    split at h
    · obtain rfl := Option.some_inj.mp h
      exact .of_reader (by simp) (by simp) rfl (by simp [JobJoined])
    split at h
    · obtain rfl := Option.some_inj.mp h
      exact advances_complete e
    split at h
    · obtain rfl := Option.some_inj.mp h
      exact .of_reader (by simp) (by simp) rfl (by simp [JobJoined])
    · cases h
  · obtain rfl := Option.some_inj.mp h
    exact .of_reader (by simp) (by simp) rfl (by simp [JobJoined])

end Endpoint

namespace Blocking

/-- Every endpoint is still there and has advanced, and the others are new. -/
structure Shared.Advances (s s' : Shared) : Prop where
  kept : ∀ (c : ℕ) (e : Endpoint), s.endpoints[c]? = some e →
    ∃ e', s'.endpoints[c]? = some e' ∧ e.Advances e'
  new : ∀ e' ∈ s'.endpoints, e'.reader = .unlaunched ∨ ∃ e ∈ s.endpoints, e.Advances e'

namespace Shared

theorem getElem?_modify_self (s : Shared) {c : ℕ} {e : Endpoint} {f : Endpoint → Endpoint}
    (he : s.endpoints[c]? = some e) : (s.modify c f).endpoints[c]? = some (f e) := by
  simp [modify, he]

theorem Advances.of_eq {s s' : Shared} (h : s'.endpoints = s.endpoints) : Advances s s' where
  kept := fun _ e he => ⟨e, h ▸ he, .refl e⟩
  new := fun e he => .inr ⟨e, h ▸ he, .refl e⟩

theorem Advances.append (s : Shared) (channel : BluetoothRfcommChannel) :
    Advances s { s with endpoints := s.endpoints ++ [.new channel] } where
  kept := by
    intro c e he
    refine ⟨e, ?_, .refl e⟩
    rw [List.getElem?_append_left (List.getElem?_eq_some_iff.mp he).choose, he]
  new := by
    intro e he
    rcases List.mem_append.mp he with he | he
    · exact .inr ⟨e, he, .refl e⟩
    · rw [List.mem_singleton.mp he]
      exact .inl rfl

theorem Advances.modify (s : Shared) (c : ℕ) {f : Endpoint → Endpoint}
    (hf : ∀ e, s.endpoints[c]? = some e → e.Advances (f e)) : Advances s (s.modify c f) where
  kept := by
    intro c' e he
    rw [Shared.modify, List.getElem?_modify, he]
    -- the endpoint itself, or another
    by_cases hc : c = c'
    · subst hc
      exact ⟨f e, by simp, hf e he⟩
    · exact ⟨e, by simp [hc], .refl e⟩
  new := by
    intro e' he'
    obtain ⟨c', hc'⟩ := List.mem_iff_getElem?.mp he'
    rw [Shared.modify, List.getElem?_modify] at hc'
    obtain ⟨e, he, rfl⟩ := Option.map_eq_some_iff.mp hc'
    refine .inr ⟨e, List.mem_of_getElem? he, ?_⟩
    split
    · rename_i hc
      exact hf e (hc ▸ he)
    · exact .refl e

theorem Advances.jobJoined {s s' : Shared} (h : Advances s s')
    (hs : ∀ e ∈ s.endpoints, e.JobJoined) : ∀ e ∈ s'.endpoints, e.JobJoined := by
  intro e' he'
  rcases h.new e' he' with hnew | ⟨e, he, hadv⟩
  · intro hdone
    rw [hnew] at hdone
    cases hdone
  · exact hadv.jobJoined (hs e he)

/-- Endpoint `c` has a reader. -/
def Launched (s : Shared) (c : ℕ) : Prop :=
  ∃ e, s.endpoints[c]? = some e ∧ e.reader ≠ .unlaunched

/-- Endpoint `c` has a cancelled reader that is not blocked. -/
def Released (s : Shared) (c : ℕ) : Prop :=
  ∃ e, s.endpoints[c]? = some e ∧ e.reader ≠ .unlaunched ∧ e.cancelled = true ∧ e.blocked = false

theorem Advances.launched {s s' : Shared} (h : Advances s s') {c : ℕ} (hc : s.Launched c) :
    s'.Launched c := by
  obtain ⟨e, he, hlaunched⟩ := hc
  obtain ⟨e', he', hadv⟩ := h.kept c e he
  exact ⟨e', he', hadv.launched hlaunched⟩

theorem Advances.released {s s' : Shared} (h : Advances s s') {c : ℕ} (hc : s.Released c) :
    s'.Released c := by
  obtain ⟨e, he, hlaunched, hcancelled, hb⟩ := hc
  obtain ⟨e', he', hadv⟩ := h.kept c e he
  exact ⟨e', he', hadv.launched hlaunched, hadv.released hcancelled hb⟩

end Shared

end Blocking

namespace OperationPc

/-- The operation holds the mutex. -/
def critical : OperationPc → Bool
  | .lock _ | .finished => false
  | _ => true

open Blocking

/-- What an operation has made sure of. -/
def Sound (s : Shared) : OperationPc → Prop
  | .readLoop c => ∃ e, s.endpoints[c]? = some e
  | .add c => s.Launched c
  | .cancel t => s.Launched t.channel
  | .join t => s.Released t.channel
  | _ => True

theorem Sound.advances {s s' : Shared} {k : OperationPc} (hk : k.Sound s)
    (h : Shared.Advances s s') : k.Sound s' := by
  cases k with
  | readLoop c =>
    obtain ⟨e, he⟩ := hk
    obtain ⟨e', he', -⟩ := h.kept c e he
    exact ⟨e', he'⟩
  | add c => exact h.launched hk
  | cancel t => exact h.launched hk
  | join t => exact h.released hk
  | _ => trivial

end OperationPc

namespace Blocking

/-- The invariant of the manager under its mutex. -/
structure Inv (p : System) : Prop where
  /-- The mutex is held by one operation. -/
  mutex : p.threads.countP OperationPc.critical = if p.shared.mutex then 1 else 0
  /-- What is listed has a reader. -/
  listed : ∀ t ∈ p.shared.rfcommTransformList, p.shared.Launched t.channel
  sound : ∀ k ∈ p.threads, k.Sound p.shared
  jobJoined : ∀ e ∈ p.shared.endpoints, e.JobJoined

theorem Inv.initial : Inv initial where
  mutex := rfl
  listed := fun _ ht => absurd ht List.not_mem_nil
  jobJoined := fun _ he => absurd he List.not_mem_nil
  sound := fun _ hk => absurd hk List.not_mem_nil

/-- The stop does not cancel a reader that is blocked in a silent read. -/
def CancelsResponsive (p : System) : Label → Prop
  | .operation i _ => ∀ t, p.threads[i]? = some (.cancel t) →
      ∀ e, p.shared.endpoints[t.channel]? = some e → e.blocked = false
  | _ => True

variable {p q : System}

/-- A step of the endpoints alone. -/
theorem Inv.of_endpoints (hI : Inv p) {s : Shared} (hadv : Shared.Advances p.shared s)
    (hmutex : s.mutex = p.shared.mutex)
    (hlist : s.rfcommTransformList = p.shared.rfcommTransformList) :
    Inv { p with shared := s } where
  mutex := by
    rw [hmutex]
    exact hI.mutex
  listed := by
    intro t ht
    rw [hlist] at ht
    exact hadv.launched (hI.listed t ht)
  sound := fun k hk => (hI.sound k hk).advances hadv
  jobJoined := hadv.jobJoined hI.jobJoined

theorem of_onEndpoint {c : ℕ} {f : Endpoint → Option Endpoint} (h : onEndpoint p c f = some q) :
    ∃ e e', p.shared.endpoints[c]? = some e ∧ f e = some e' ∧
      q = { p with shared := p.shared.modify c fun _ => e' } := by
  obtain ⟨e', he', rfl⟩ := Option.map_eq_some_iff.mp h
  obtain ⟨e, he, hf⟩ := Option.bind_eq_some_iff.mp he'
  exact ⟨e, e', he, hf, rfl⟩

theorem onEndpoint_eq {c : ℕ} {f : Endpoint → Option Endpoint} {e e' : Endpoint}
    (he : p.shared.endpoints[c]? = some e) (hf : f e = some e') :
    onEndpoint p c f = some { p with shared := p.shared.modify c fun _ => e' } := by
  rw [onEndpoint, he, Option.bind_some, hf, Option.map_some]

theorem Inv.onEndpoint (hI : Inv p) {c : ℕ} {f : Endpoint → Option Endpoint}
    (hf : ∀ e e', f e = some e' → e.Advances e') (h : onEndpoint p c f = some q) : Inv q := by
  obtain ⟨e, e', he, hfe, rfl⟩ := of_onEndpoint h
  refine hI.of_endpoints (.modify _ _ fun e₀ he₀ => ?_) rfl rfl
  obtain rfl := Option.some_inj.mp (he.symm.trans he₀)
  exact hf e e' hfe

theorem Inv.onPeer (hI : Inv p) {c : ℕ} {f : Endpoint → Endpoint}
    (hf : ∀ e : Endpoint, e.Advances (f e)) (h : onPeer p c f = some q) : Inv q := by
  refine hI.onEndpoint (fun e e' he => ?_) h
  split at he
  · obtain rfl := Option.some_inj.mp he
    exact hf e
  · cases he

/-- What a step of an operation from `k` to `k'` keeps. -/
structure Keeps (s s' : Shared) (k k' : OperationPc) : Prop where
  advances : Shared.Advances s s'
  listed : ∀ t ∈ s'.rfcommTransformList, s'.Launched t.channel
  sound : k'.Sound s'
  /-- The mutex goes with the operation. -/
  mutex : (if k'.critical then 1 else 0) + (if s.mutex then 1 else 0)
    = (if k.critical then 1 else 0) + (if s'.mutex then 1 else 0)

/-- A step inside the mutex that leaves the list alone. -/
theorem Keeps.of_advances {s s' : Shared} {k k' : OperationPc}
    (hlisted : ∀ t ∈ s.rfcommTransformList, s.Launched t.channel)
    (hadv : Shared.Advances s s') (hlist : s'.rfcommTransformList = s.rfcommTransformList)
    (hmutex : s'.mutex = s.mutex) (hcritical : k'.critical = k.critical) (hk : k'.Sound s') :
    Keeps s s' k k' where
  advances := hadv
  listed := by
    intro t ht
    rw [hlist] at ht
    exact hadv.launched (hlisted t ht)
  sound := hk
  mutex := by rw [hmutex, hcritical]

/-- The step of an operation, case by case. -/
theorem keeps_of_prim {s s' : Shared} {o : ConnectOutcome} {k k' : OperationPc}
    {forks : List OperationPc} (h : prim s o k = some (s', k', forks))
    (hlisted : ∀ t ∈ s.rfcommTransformList, s.Launched t.channel)
    (hmutex : k.critical = true → s.mutex = true) (hk : k.Sound s)
    (hcancel : ∀ t, k = .cancel t → ∀ e, s.endpoints[t.channel]? = some e → e.blocked = false) :
    forks = [] ∧ Keeps s s' k k' := by
  cases k with
  | lock call =>
    simp only [prim] at h
    split at h
    · cases h
    · -- the mutex is free, and the operation takes it
      rename_i hfree
      obtain ⟨rfl, rfl, rfl⟩ := h
      refine ⟨rfl, .of_eq rfl, hlisted, ?_, ?_⟩
      · cases call <;> trivial
      · rw [if_neg hfree]
        cases call <;> rfl
  | connect device uuid =>
    simp only [prim] at h
    obtain ⟨rfl, rfl, rfl⟩ := h
    -- the new channel is not listed yet
    refine ⟨rfl, .of_advances hlisted (.append _ _) rfl rfl ?_ ?_⟩
    · split <;> rfl
    · split
      · exact ⟨_, List.getElem?_concat_length⟩
      · trivial
  | readLoop c =>
    cases h
    obtain ⟨e, he⟩ := hk
    refine ⟨rfl, .of_advances hlisted (.modify _ _ fun e _ => e.advances_launch) rfl rfl rfl ?_⟩
    -- the reader is there before the channel is listed
    exact ⟨e.launch, s.getElem?_modify_self he, by simp [Endpoint.launch]⟩
  | add c =>
    cases h
    refine ⟨rfl, .of_eq rfl, fun t ht => ?_, trivial, rfl⟩
    rcases List.mem_append.mp ht with ht | ht
    · exact hlisted t ht
    · rw [List.mem_singleton.mp ht]
      exact hk
  | closeFailed c =>
    cases h
    exact ⟨rfl, .of_advances hlisted (.modify _ _ fun e _ => e.advances_close) rfl rfl rfl trivial⟩
  | query device uuid =>
    cases h
    refine ⟨rfl, .of_advances hlisted (.of_eq rfl) rfl rfl ?_ ?_⟩
    · split <;> rfl
    · split
      · rename_i t hq
        exact hlisted t (BluetoothRfcommManager.mem_of_query hq)
      · trivial
  | cancel t =>
    -- the one step that asks something of the reader
    cases h
    obtain ⟨e, he, hlaunched⟩ := hk
    refine ⟨rfl, .of_advances hlisted (.modify _ _ fun e _ => e.advances_cancel) rfl rfl rfl ?_⟩
    exact ⟨e.cancel, s.getElem?_modify_self he, hlaunched, rfl, hcancel t rfl e he⟩
  | join t =>
    rw [prim] at h
    split at h
    · obtain ⟨rfl, rfl, rfl⟩ := h
      exact ⟨rfl, .of_advances hlisted (.of_eq rfl) rfl rfl rfl trivial⟩
    · cases h
  | close t =>
    cases h
    exact ⟨rfl, .of_advances hlisted (.modify _ _ fun e _ => e.advances_close) rfl rfl rfl trivial⟩
  | remove t =>
    cases h
    exact ⟨rfl, .of_eq rfl, fun t' ht' => hlisted t' (List.mem_of_mem_erase ht'), trivial, rfl⟩
  | unlock =>
    cases h
    refine ⟨rfl, .of_eq rfl, hlisted, trivial, ?_⟩
    -- the operation held the mutex, and gives it back
    rw [hmutex rfl]
    rfl
  | finished => cases h

theorem Inv.locked (hI : Inv p) {k : OperationPc} (hk : k ∈ p.threads)
    (hcritical : k.critical = true) : p.shared.mutex = true := by
  have hpos : 0 < p.threads.countP OperationPc.critical := List.countP_pos_iff.mpr ⟨k, hk, hcritical⟩
  -- a free mutex is held by nobody
  by_contra hfree
  rw [hI.mutex, if_neg hfree] at hpos
  omega

/-- **The step lemma.** -/
theorem Inv.step {l : Label} (hI : Inv p) (hC : CancelsResponsive p l)
    (h : Blocking.step p l = some q) : Inv q := by
  cases l with
  | call call =>
    obtain rfl := Option.some_inj.mp h
    refine ⟨?_, hI.listed, fun k hk => ?_, hI.jobJoined⟩
    · rw [Pool.spawn, List.countP_append, hI.mutex]
      rfl
    · rcases List.mem_append.mp hk with hk | hk
      · exact hI.sound k hk
      · rw [List.mem_singleton.mp hk]
        trivial
  | operation i o =>
    obtain ⟨k, s, k', forks, hk, hprim, rfl⟩ := Pool.of_move h
    have hmem : k ∈ p.threads := List.mem_of_getElem? hk
    obtain ⟨rfl, hkeeps⟩ := keeps_of_prim hprim hI.listed (hI.locked hmem) (hI.sound k hmem)
      fun t ht => hC t (ht ▸ hk)
    refine ⟨?_, hkeeps.listed, fun x hx => ?_, hkeeps.advances.jobJoined hI.jobJoined⟩
    · -- the mutex goes with the operation, so the count still matches it
      have hcount := Pool.countP_moved OperationPc.critical k' [] hk
      have hpassed := hkeeps.mutex
      have hheld := hI.mutex
      rw [List.countP_nil] at hcount
      show (p.threads.set i k' ++ []).countP OperationPc.critical = if s.mutex then 1 else 0
      omega
    · rcases Pool.mem_move hx with rfl | hx | hx
      · exact hkeeps.sound
      · exact (hI.sound x hx).advances hkeeps.advances
      · cases hx
  | reader c => exact hI.onEndpoint (fun e e' he => Endpoint.advances_step he) h
  | peerSends c bytes => exact hI.onPeer (Endpoint.advances_receive bytes) h
  | peerEnds c => exact hI.onPeer Endpoint.advances_endStream h
  | peerDrops c => exact hI.onPeer Endpoint.advances_drop h

/-! ### An operation that runs alone -/

/-- An update of an endpoint as the manager sees it. -/
theorem Shared.manager_modify (s : Shared) (c : ℕ) {f : Endpoint → Endpoint}
    {g : BluetoothRfcommChannel → BluetoothRfcommChannel}
    (hfg : ∀ e, s.endpoints[c]? = some e → (f e).channel = g e.channel) :
    (s.modify c f).manager = s.manager.modifyChannel c g := by
  refine BluetoothRfcommManager.mk.injEq _ _ _ _ ▸ ⟨List.ext_getElem? fun i => ?_, rfl⟩
  simp only [Shared.modify, Shared.manager, List.getElem?_map, List.getElem?_modify]
  cases hi : s.endpoints[i]? with
  | none => rfl
  | some e =>
    by_cases hc : c = i
    · subst hc
      simp [hfg e hi]
    · simp [hc]

/-- How many steps a start takes. -/
def startSteps : ConnectOutcome → ℕ
  | .success => 5
  | _ => 4

/-- A start that runs alone is the manager's `startRfcommTransportJob`. -/
theorem solo_start (s : Shared) (hfree : s.mutex = false) (device : BluetoothDevice) (uuid : UUID)
    (o : ConnectOutcome) :
    ∃ s', Pool.solo prim s (.lock (.startRfcommTransportJob device uuid)) []
        (List.replicate (startSteps o) o) = some (s', .finished, []) ∧ s'.mutex = false ∧
      s'.manager = (s.manager.startRfcommTransportJob device uuid o).2 := by
  cases o with
  | success =>
    refine ⟨_, by simp [startSteps, List.replicate, Pool.solo, prim, hfree]; rfl, rfl, ?_⟩
    simp [Shared.manager, Shared.modify, Ownership.modify_concat, Endpoint.launch, Endpoint.new,
      BluetoothRfcommManager.startRfcommTransportJob, BluetoothRfcommChannel.connect]
  | _ =>
    refine ⟨_, by simp [startSteps, List.replicate, Pool.solo, prim, hfree]; rfl, rfl, ?_⟩
    simp [Shared.manager, Shared.modify, Ownership.modify_concat, Endpoint.close, Endpoint.new,
      BluetoothRfcommManager.startRfcommTransportJob, BluetoothRfcommChannel.connect]

/-- How many steps a stop takes. -/
def stopSteps (s : Shared) (device : BluetoothDevice) (uuid : UUID) : ℕ :=
  match s.manager.queryRfcommTransform device uuid with
  | some _ => 7
  | none => 3

/-- A stop that runs alone, of a reader that has completed, is the manager's
`stopRfcommTransportJob`. -/
theorem solo_stop (s : Shared) (hfree : s.mutex = false) (hjob : ∀ e ∈ s.endpoints, e.JobJoined)
    (device : BluetoothDevice) (uuid : UUID) (o : ConnectOutcome)
    (hdone : ∀ t, s.manager.queryRfcommTransform device uuid = some t → s.joined t = true) :
    ∃ s', Pool.solo prim s (.lock (.stopRfcommTransportJob device uuid)) []
        (List.replicate (stopSteps s device uuid) o) = some (s', .finished, []) ∧
      s'.mutex = false ∧ s'.manager = s.manager.stopRfcommTransportJob device uuid := by
  have hquery : ({ s with mutex := true } : Shared).manager = s.manager := rfl
  cases hq : s.manager.queryRfcommTransform device uuid with
  | none =>
    refine ⟨{ s with mutex := false }, ?_, rfl, ?_⟩
    · simp [stopSteps, hq, List.replicate, Pool.solo, prim, hfree, hquery]
    · rw [BluetoothRfcommManager.stopRfcommTransportJob, hq]
      rfl
  | some t =>
    -- cancelling a completed reader leaves it completed
    have hjoined : (({ s with mutex := true } : Shared).modify t.channel Endpoint.cancel).joined t
        = true := by
      have h := hdone t hq
      simp only [Shared.joined, Shared.modify, List.getElem?_modify_eq] at h ⊢
      cases he : s.endpoints[t.channel]? with
      | none => simp [he] at h
      | some e => simpa [he, Endpoint.cancel] using h
    refine ⟨_, by simp [stopSteps, hq, List.replicate, Pool.solo, prim, hfree, hquery, hjoined]; rfl,
      rfl, ?_⟩
    -- the job has completed, so joining it changes nothing
    have hcancel : (s.modify t.channel Endpoint.cancel).manager
        = s.manager.modifyChannel t.channel fun ch => ch.cancelAndJoin := by
      refine s.manager_modify t.channel fun e he => ?_
      have h := hdone t hq
      rw [Shared.joined, he, Option.any_some, beq_iff_eq] at h
      exact (hjob e (List.mem_of_getElem? he) h).symm
    have hclose : ((s.modify t.channel Endpoint.cancel).modify t.channel Endpoint.close).manager
        = s.manager.modifyChannel t.channel fun ch => ch.cancelAndJoin.close := by
      rw [Shared.manager_modify _ t.channel (g := fun ch => ch.close) fun _ _ => rfl, hcancel,
        BluetoothRfcommManager.modifyChannel, BluetoothRfcommManager.modifyChannel,
        List.modify_modify_eq]
      rfl
    rw [BluetoothRfcommManager.stopRfcommTransportJob, hq]
    exact congrArg (fun m => { m with rfcommTransformList := m.rfcommTransformList.erase t }) hclose

/-! ### Progress -/

/-- While an operation is pending, some coroutine of the process has a step. -/
def Progress (p : System) : Prop :=
  (∃ k ∈ p.threads, k ≠ .finished) → ∃ l q, l.isOwn = true ∧ step p l = some q

/-- A stop waits for a reader that is blocked in a silent read. -/
def Deadlocked (p : System) : Prop :=
  ∃ (t : BluetoothRfcommTransform) (e : Endpoint), .join t ∈ p.threads ∧
    p.shared.endpoints[t.channel]? = some e ∧ e.blocked = true

/-- The manager cannot get stuck here. -/
structure Live (p : System) : Prop where
  progress : Progress p
  notDeadlocked : ¬ Deadlocked p

/-- An operation's step is enabled unless it waits for the mutex or for a
reader. -/
theorem prim_isSome {s : Shared} {k : OperationPc} (hcritical : k.critical = true)
    (hjoin : ∀ t, k = .join t → s.joined t = true) : (prim s .success k).isSome = true := by
  cases k with
  | lock call => cases hcritical
  | join t =>
    rw [prim, if_pos (hjoin t rfl)]
    rfl
  | finished => cases hcritical
  | _ => rfl

theorem step_operation {i : ℕ} {k : OperationPc} (hk : p.threads[i]? = some k)
    (h : (prim p.shared .success k).isSome = true) :
    ∃ l q, l.isOwn = true ∧ step p l = some q := by
  obtain ⟨⟨s, k', forks⟩, hprim⟩ := Option.isSome_iff_exists.mp h
  exact ⟨.operation i .success, _, rfl, Pool.move_eq hk hprim⟩

theorem Inv.progress (hI : Inv p) : Progress p := by
  rintro ⟨k, hk, hpending⟩
  by_cases hmutex : p.shared.mutex = true
  · -- the operation that holds the mutex has a step, or the reader it waits for
    have hpos : 0 < p.threads.countP OperationPc.critical := by
      rw [hI.mutex, if_pos hmutex]
      exact Nat.one_pos
    obtain ⟨k', hk', hcritical⟩ := List.countP_pos_iff.mp hpos
    obtain ⟨i, hi⟩ := List.mem_iff_getElem?.mp hk'
    by_cases hjoin : ∃ t, k' = .join t ∧ p.shared.joined t = false
    · obtain ⟨t, rfl, hjoined⟩ := hjoin
      -- a stop that joins has cancelled its reader, which is not blocked
      obtain ⟨e, he, hlaunched, -, hb⟩ := hI.sound _ hk'
      have hrunning : e.reader ≠ .completed := by
        intro hdone
        rw [Shared.joined, he, Option.any_some, hdone] at hjoined
        cases hjoined
      obtain ⟨e', he'⟩ := Option.isSome_iff_exists.mp (Endpoint.step_isSome hlaunched hrunning hb)
      exact ⟨.reader t.channel, _, rfl, onEndpoint_eq he he'⟩
    · refine step_operation hi (prim_isSome hcritical fun t ht => ?_)
      by_contra hnot
      exact hjoin ⟨t, ht, Bool.eq_false_iff.mpr hnot⟩
  · -- every pending operation can take the mutex
    obtain ⟨i, hi⟩ := List.mem_iff_getElem?.mp hk
    refine step_operation hi ?_
    cases k with
    | lock call =>
      rw [Bool.not_eq_true] at hmutex
      simp [prim, hmutex]
    | finished => exact absurd rfl hpending
    | _ => exact absurd (hI.locked hk rfl) hmutex

theorem Inv.live (hI : Inv p) : Live p where
  progress := hI.progress
  notDeadlocked := by
    rintro ⟨t, e, ht, he, hb⟩
    obtain ⟨e', he', -, -, hb'⟩ := hI.sound _ ht
    obtain rfl := Option.some_inj.mp (he.symm.trans he')
    rw [hb] at hb'
    cases hb'

/-! ### A deadlock lasts -/

/-- The mutex is held by a stop that waits for reader `c`, which is blocked in a
silent read. -/
structure Stuck (c : ℕ) (p : System) : Prop where
  mutex : p.shared.mutex = true
  alone : p.threads.countP OperationPc.critical = 1
  waits : .join ⟨c⟩ ∈ p.threads
  blocked : ∃ e, p.shared.endpoints[c]? = some e ∧ e.blocked = true

theorem Stuck.deadlocked {c : ℕ} (hS : Stuck c p) : Deadlocked p :=
  have ⟨e, he, hb⟩ := hS.blocked
  ⟨⟨c⟩, e, hS.waits, he, hb⟩

/-- A stop that cancels a reader blocked in a silent read waits for it next. -/
theorem Inv.stuck_of_cancel (hI : Inv p) {l : Label} (h : ¬ CancelsResponsive p l) :
    ∃ q c, Blocking.step p l = some q ∧ Stuck c q := by
  cases l with
  | operation i o =>
    simp only [CancelsResponsive, not_forall, Bool.not_eq_false] at h
    obtain ⟨t, ht, e, he, hb⟩ := h
    have hmutex := hI.locked (List.mem_of_getElem? ht) rfl
    refine ⟨_, t.channel, Pool.move_eq ht rfl, hmutex, ?_, ?_, e.cancel,
      p.shared.getElem?_modify_self he, hb⟩
    · have hcount := Pool.countP_moved OperationPc.critical (.join t) [] ht
      have hheld := hI.mutex
      rw [if_pos hmutex] at hheld
      rw [List.countP_nil] at hcount
      simp only [OperationPc.critical, if_true] at hcount
      show (p.threads.set i (.join t) ++ []).countP OperationPc.critical = 1
      omega
    · exact List.mem_of_getElem? (Pool.getElem?_moved ht)
  | _ => exact absurd trivial h

/-- No operation has a step while the manager is stuck. -/
theorem Stuck.move_eq_none {c i : ℕ} {o : ConnectOutcome} (hS : Stuck c p) :
    p.move prim i o = none := by
  by_contra hmove
  obtain ⟨q, hq⟩ := Option.ne_none_iff_exists'.mp hmove
  obtain ⟨k, s, k', forks, hk, hprim, -⟩ := Pool.of_move hq
  have hmem := List.mem_of_getElem? hk
  -- the operation that waits is the one inside, and the others wait for the mutex
  by_cases hcritical : k.critical = true
  · obtain rfl := Pool.eq_of_countP_le_one hS.alone.le hmem hS.waits hcritical rfl
    obtain ⟨e, he, hb⟩ := hS.blocked
    have hread := (Endpoint.blocked_iff.mp hb).1
    simp [prim, Shared.joined, he, hread] at hprim
  · cases k with
    | lock call => simp [prim, hS.mutex] at hprim
    | finished => cases hprim
    | _ => exact hcritical rfl

theorem Stuck.onEndpoint {c c' : ℕ} {f : Endpoint → Option Endpoint} (hS : Stuck c p)
    (hc : c' = c → ∀ e : Endpoint, e.blocked = true → f e = none)
    (h : onEndpoint p c' f = some q) : Stuck c q ∧ q.threads = p.threads := by
  obtain ⟨e, e', he, hf, rfl⟩ := of_onEndpoint h
  obtain ⟨e₀, he₀, hb⟩ := hS.blocked
  refine ⟨⟨hS.mutex, hS.alone, hS.waits, e₀, ?_, hb⟩, rfl⟩
  by_cases hcc : c' = c
  · subst hcc
    obtain rfl := Option.some_inj.mp (he.symm.trans he₀)
    rw [hc rfl e hb] at hf
    cases hf
  · rw [Shared.modify, List.getElem?_modify_ne _ _ hcc, he₀]

/-- A step that is not the silent peer's leaves the manager stuck and every
operation where it is. -/
theorem Stuck.step {c : ℕ} {l : Label} (hS : Stuck c p) (hl : l.peer ≠ some c)
    (h : Blocking.step p l = some q) :
    Stuck c q ∧ ∃ calls : List ManagerCall, q.threads = p.threads ++ calls.map .lock := by
  have unmoved : Stuck c q ∧ q.threads = p.threads →
      Stuck c q ∧ ∃ calls : List ManagerCall, q.threads = p.threads ++ calls.map .lock :=
    fun h => ⟨h.1, [], by rw [h.2, List.map_nil, List.append_nil]⟩
  have hpeer : ∀ {c' : ℕ} {f : Endpoint → Endpoint}, l.peer = some c' →
      onPeer p c' f = some q → Stuck c q ∧ q.threads = p.threads := fun hc' hq =>
    hS.onEndpoint (fun heq => absurd (heq ▸ hc') hl) hq
  cases l with
  | call call =>
    obtain rfl := Option.some_inj.mp h
    refine ⟨⟨hS.mutex, ?_, List.mem_append_left _ hS.waits, hS.blocked⟩, [call], rfl⟩
    rw [Pool.spawn, List.countP_append, hS.alone]
    rfl
  | operation i o =>
    rw [Blocking.step, hS.move_eq_none] at h
    cases h
  | reader c' => exact unmoved (hS.onEndpoint (fun _ e => Endpoint.step_eq_none) h)
  | peerSends c' bytes => exact unmoved (hpeer rfl h)
  | peerEnds c' => exact unmoved (hpeer rfl h)
  | peerDrops c' => exact unmoved (hpeer rfl h)

/-- **A deadlock lasts.**  Until the silent peer does something, no operation
gets any further, and those that are called queue up behind it. -/
theorem deadlock_lasts {c : ℕ} {ls : List Label} (hS : Stuck c p)
    (hls : ∀ l ∈ ls, l.peer ≠ some c) (h : Run.exec step p ls = some q) :
    Stuck c q ∧ ∃ calls : List ManagerCall, q.threads = p.threads ++ calls.map .lock := by
  refine Run.exec_invariant (C := fun _ l => l.peer ≠ some c)
    (I := fun q => Stuck c q ∧ ∃ calls : List ManagerCall, q.threads = p.threads ++ calls.map .lock)
    ?_ ⟨hS, [], (List.append_nil _).symm⟩ (Run.along_of_forall (fun l hl _ => hls l hl) p) h
  rintro r l r' ⟨hr, calls, hcalls⟩ hl hstep
  obtain ⟨hr', calls', hcalls'⟩ := hr.step hl hstep
  refine ⟨hr', calls ++ calls', ?_⟩
  rw [hcalls', hcalls, List.append_assoc, List.map_append]

end Blocking

open Blocking

/-- **No stop waits for a silent reader, exactly when none cancels one.**  Along
every run of the manager, its readers and their peers: in each state a pending
operation leaves some coroutine of the process a step, and no stop waits for a
reader blocked in a silent read — if and only if no stop of the run cancels a
reader while it is blocked in one. -/
theorem stop_never_waits_iff (ls : List Blocking.Label) :
    (∀ p, Run.Reached Blocking.step Blocking.initial ls p → Live p) ↔
      Run.Along Blocking.step CancelsResponsive Blocking.initial ls := by
  refine Run.forall_reached_iff_along (I := Inv) (fun p => Inv.live)
    (fun p l q => Inv.step) (fun p l hI hC => ?_) Inv.initial
  -- the first stop that cancels a blocked reader leads to a deadlock
  obtain ⟨q, c, hq, hS⟩ := hI.stuck_of_cancel hC
  exact ⟨q, hq, fun hlive => hlive.notDeadlocked hS.deadlocked⟩

/-- The phone that connects and then stays silent. -/
private def quiet : BluetoothDevice := ⟨"AA:BB:CC:DD:EE:FF"⟩

/-- A start connects, its reader reads, and a stop gets to `cancelAndJoin`. -/
private def quietStop : List Blocking.Label :=
  .call (.startRfcommTransportJob quiet 0) :: List.replicate 5 (.operation 0 .success) ++
    .reader 0 :: .call (.stopRfcommTransportJob quiet 0) ::
    List.replicate 3 (.operation 1 .success)

private theorem exec_quietStop : ∃ p e, Run.exec Blocking.step Blocking.initial quietStop = some p ∧
    p.threads = [.finished, .join ⟨0⟩] ∧ p.shared.endpoints = [e] ∧ e.blocked = true :=
  ⟨_, _, rfl, rfl, rfl, rfl⟩

theorem deadlock_lasts_quiet :
    ∃ p q, Run.exec Blocking.step Blocking.initial quietStop = some p ∧ Stuck 0 p ∧
      Run.exec Blocking.step p [.call (.startRfcommTransportJob quiet 1)] = some q ∧
      Stuck 0 q := by
  obtain ⟨p, hp, hS⟩ : ∃ p, Run.exec Blocking.step Blocking.initial quietStop = some p ∧
      Stuck 0 p := ⟨_, rfl, rfl, rfl, List.mem_of_getElem? (i := 1) rfl, _, rfl, rfl⟩
  obtain ⟨q, hq⟩ : ∃ q, Run.exec Blocking.step p [.call (.startRfcommTransportJob quiet 1)]
      = some q := ⟨_, rfl⟩
  exact ⟨p, q, hp, hS, hq, (deadlock_lasts hS (by simp [Label.peer]) hq).1⟩

/-- **Stopping a quiet channel deadlocks the manager.**  The stop waits for the
reader to complete, and only the close that comes next would make it. -/
theorem quiet_stop_deadlocks :
    ¬ ∀ (ls : List Blocking.Label) (p : System),
      Run.Reached Blocking.step Blocking.initial ls p → Live p := by
  intro h
  obtain ⟨p, e, hp, hthreads, hendpoints, hb⟩ := exec_quietStop
  refine (h quietStop p (Run.reached_of_exec hp)).notDeadlocked ⟨⟨0⟩, e, ?_, ?_, hb⟩
  · simp [hthreads]
  · simp [hendpoints]

end Carplay.Rfcomm

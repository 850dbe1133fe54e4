/-
What a failed `startRfcommTransportJob` releases, with every call on the platform
free to throw.

`connect` and `close` run their calls under `runCatching`, up to the first that
throws.

* `startThrowing` — `startRfcommTransportJob` with the calls that it makes; but
  for these it is the one of `RfcommManager`, `startThrowing_eq`;
* `releases_iff` — a failed start has closed the socket that it has created
  exactly if it is not the socket's own `connect` that has thrown;
* `connect_exception_leaks_socket` — the field through which `close` finds the
  socket is set behind that call.
-/
import GrpcJniClient.RfcommManager

namespace Carplay.Rfcomm

/-- The calls of `connect` and `close` that may throw. -/
inductive SocketCall where
  | createRfcommSocketToServiceRecord
  | connect
  | inputStream
  | outputStream
  | closeSocket
  | closeInput
  | closeOutput
  deriving DecidableEq, Repr

/-- A channel object and the calls that have been made for it. -/
structure Attempt where
  channel : BluetoothRfcommChannel
  calls : List SocketCall
  deriving DecidableEq, Repr

/-- The body of a `runCatching`. -/
abbrev Body := ExceptT SocketCall (StateM Attempt) Unit

namespace Attempt

/-- A call; `throws` says which calls throw. -/
def call (throws : SocketCall → Bool) (c : SocketCall) : Body := do
  modify fun a => { a with calls := a.calls ++ [c] }
  if throws c then throw c

def update (f : BluetoothRfcommChannel → BluetoothRfcommChannel) : Body :=
  modify fun a => { a with channel := f a.channel }

/-- `runCatching`: whether the body has succeeded. -/
def runCatching (body : Body) (a : Attempt) : Bool × Attempt :=
  match StateT.run (ExceptT.run body) a with
  | (.ok _, a) => (true, a)
  | (.error _, a) => (false, a)

/-- `BluetoothRfcommChannel.connect`. -/
def connect (throws : SocketCall → Bool) : Attempt → Bool × Attempt :=
  runCatching do
    call throws .createRfcommSocketToServiceRecord
    update fun ch => { ch with socket := some .create }
    call throws .connect
    update fun ch => { ch with socket := ch.socket.map (·.connect) }
    -- only from here on does `close` find the socket
    update fun ch => { ch with mSocket := true }
    call throws .inputStream
    update fun ch => { ch with mInput := true }
    call throws .outputStream
    update fun ch => { ch with mOutput := true }

/-- The end of `close`. -/
def closeStreams (throws : SocketCall → Bool) (ch : BluetoothRfcommChannel) : Body := do
  if ch.mInput then call throws .closeInput
  if ch.mOutput then call throws .closeOutput

/-- `BluetoothRfcommChannel.close`; the cancellation of the scope does not
throw. -/
def close (throws : SocketCall → Bool) (a : Attempt) : Attempt :=
  let (_, a) := a.runCatching do
    if a.channel.mSocket then
      update fun ch => { ch with socket := ch.socket.map (·.close) }
      call throws .closeSocket
    closeStreams throws a.channel
  { a with channel := { a.channel with mSocket := false, mInput := false, mOutput := false } }

end Attempt

/-- `BluetoothRfcommManager.startRfcommTransportJob`, with the calls that it
makes. -/
def BluetoothRfcommManager.startThrowing (m : BluetoothRfcommManager) (device : BluetoothDevice)
    (uuid : UUID) (throws : SocketCall → Bool) :
    (Bool × BluetoothRfcommManager) × List SocketCall :=
  match Attempt.connect throws ⟨.new device uuid, []⟩ with
  | (true, a) =>
      ((true,
        { channels := m.channels ++ [a.channel.readLoop]
          rfcommTransformList := m.rfcommTransformList ++ [⟨m.channels.length⟩] }), a.calls)
  | (false, a) =>
      let a := a.close throws
      ((false, { m with channels := m.channels ++ [a.channel] }), a.calls)

/-- How far `connect` gets. -/
def outcome (throws : SocketCall → Bool) : ConnectOutcome :=
  if throws .createRfcommSocketToServiceRecord then .createThrows
  else if throws .connect then .connectThrows
  else if throws .inputStream then .inputStreamThrows
  else if throws .outputStream then .outputStreamThrows
  else .success

namespace Attempt

variable {throws : SocketCall → Bool} {a : Attempt}

/-! ### Bodies -/

theorem runCatching_call (c : SocketCall) (rest : Unit → Body) (a : Attempt) :
    runCatching (call throws c >>= rest) a
      = if throws c then (false, { a with calls := a.calls ++ [c] })
        else runCatching (rest ()) { a with calls := a.calls ++ [c] } := by
  cases hthrows : throws c with
  | true =>
    rw [call, hthrows]
    rfl
  | false =>
    rw [call, hthrows]
    rfl

theorem runCatching_update (f : BluetoothRfcommChannel → BluetoothRfcommChannel)
    (rest : Unit → Body) (a : Attempt) :
    runCatching (update f >>= rest) a = runCatching (rest ()) { a with channel := f a.channel } :=
  rfl

@[simp] theorem runCatching_pure (a : Attempt) : runCatching (pure ()) a = (true, a) := rfl

theorem runCatching_call_last (c : SocketCall) (a : Attempt) :
    runCatching (call throws c) a = (!throws c, { a with calls := a.calls ++ [c] }) := by
  have hcall := @runCatching_call throws c pure a
  rw [bind_pure] at hcall
  rw [hcall]
  cases throws c <;> rfl

theorem runCatching_update_last (f : BluetoothRfcommChannel → BluetoothRfcommChannel)
    (a : Attempt) : runCatching (update f) a = (true, { a with channel := f a.channel }) := rfl

/-- The calls of `connect`, as far as they come. -/
def connectCalls : ConnectOutcome → List SocketCall
  | .createThrows => [.createRfcommSocketToServiceRecord]
  | .connectThrows => [.createRfcommSocketToServiceRecord, .connect]
  | .inputStreamThrows => [.createRfcommSocketToServiceRecord, .connect, .inputStream]
  | .outputStreamThrows | .success =>
      [.createRfcommSocketToServiceRecord, .connect, .inputStream, .outputStream]

/-- `connect` is the one of `RfcommManager`. -/
theorem connect_new (throws : SocketCall → Bool) (device : BluetoothDevice) (uuid : UUID) :
    connect throws ⟨.new device uuid, []⟩
      = ((BluetoothRfcommChannel.connect (.new device uuid) (outcome throws)).1,
        ⟨(BluetoothRfcommChannel.connect (.new device uuid) (outcome throws)).2,
          connectCalls (outcome throws)⟩) := by
  simp only [connect, runCatching_call, runCatching_update, runCatching_update_last, outcome]
  cases throws .createRfcommSocketToServiceRecord with
  | true => rfl
  | false =>
    cases throws .connect with
    | true => rfl
    | false =>
      cases throws .inputStream with
      | true => rfl
      | false => cases throws .outputStream <;> rfl

/-- What the calls on the streams leave alone. -/
theorem closeStreams_eq (throws : SocketCall → Bool) (ch : BluetoothRfcommChannel) (a : Attempt) :
    (runCatching (closeStreams throws ch) a).2.channel = a.channel ∧
      (.closeSocket ∈ (runCatching (closeStreams throws ch) a).2.calls
        ↔ .closeSocket ∈ a.calls) := by
  rw [closeStreams]
  cases ch.mInput with
  | true =>
    simp only [if_true, runCatching_call]
    split
    · simp
    · cases ch.mOutput with
      | true => simp [runCatching_call_last]
      | false => simp
  | false =>
    cases ch.mOutput with
    | true => simp [runCatching_call_last]
    | false => simp

/-- `close` is the one of `RfcommManager`, whatever throws, and closes the socket
that it finds in `mSocket`. -/
theorem close_eq (throws : SocketCall → Bool) (a : Attempt) :
    (a.close throws).channel = a.channel.close ∧
      (.closeSocket ∈ (a.close throws).calls ↔
        .closeSocket ∈ a.calls ∨ a.channel.mSocket = true) := by
  obtain ⟨ch, calls⟩ := a
  -- where closing the socket throws the streams are left, and the fields nulled all the same
  cases hsocket : ch.mSocket with
  | true =>
    simp only [close, hsocket, if_true, runCatching_update, runCatching_call]
    split
    · simp [BluetoothRfcommChannel.close, hsocket]
    · obtain ⟨hchannel, hcalls⟩ := closeStreams_eq throws ch
        ⟨{ ch with socket := ch.socket.map (·.close) }, calls ++ [.closeSocket]⟩
      simp only [hsocket] at hchannel hcalls ⊢
      simp [BluetoothRfcommChannel.close, hsocket, hchannel, hcalls]
  | false =>
    obtain ⟨hchannel, hcalls⟩ := closeStreams_eq throws ch ⟨ch, calls⟩
    simp [close, BluetoothRfcommChannel.close, hsocket, hchannel, hcalls]

end Attempt

variable (m : BluetoothRfcommManager) (device : BluetoothDevice) (uuid : UUID)
  (throws : SocketCall → Bool)

/-- But for the calls that it records, `startThrowing` is `startRfcommTransportJob`. -/
theorem startThrowing_eq :
    (m.startThrowing device uuid throws).1
      = m.startRfcommTransportJob device uuid (outcome throws) := by
  rw [BluetoothRfcommManager.startThrowing, Attempt.connect_new,
    BluetoothRfcommManager.startRfcommTransportJob]
  rcases hconnect : BluetoothRfcommChannel.connect (.new device uuid) (outcome throws) with ⟨ok, ch⟩
  cases ok with
  | true => rfl
  | false => simp [(Attempt.close_eq throws ⟨ch, _⟩).1]

/-- The channel of a failed start and its calls. -/
theorem startThrowing_of_failed {ch : BluetoothRfcommChannel}
    (hconnect : BluetoothRfcommChannel.connect (.new device uuid) (outcome throws) = (false, ch)) :
    (m.startThrowing device uuid throws).1
        = (false, { m with channels := m.channels ++ [ch.close] }) ∧
      (.closeSocket ∈ (m.startThrowing device uuid throws).2 ↔ ch.mSocket = true) := by
  constructor
  · rw [startThrowing_eq, BluetoothRfcommManager.startRfcommTransportJob, hconnect]
  · rw [BluetoothRfcommManager.startThrowing, Attempt.connect_new, hconnect]
    refine (Attempt.close_eq throws ⟨ch, _⟩).2.trans (or_iff_right ?_)
    cases outcome throws <;> simp [Attempt.connectCalls]

/-- A failed start has left the list as it was, and `close` has been called on every
socket that it has created. -/
def ReleasesAll (m : BluetoothRfcommManager)
    (r : (Bool × BluetoothRfcommManager) × List SocketCall) : Prop :=
  r.1.1 = false →
    r.1.2.rfcommTransformList = m.rfcommTransformList ∧
      ∀ ch ∈ r.1.2.channels.drop m.channels.length, ∀ socket ∈ ch.socket,
        socket.closed = true ∧ .closeSocket ∈ r.2

/-- A start releases what its `connect` has created exactly if `close` finds it. -/
theorem releasesAll_iff_of_failed {ch : BluetoothRfcommChannel}
    (hconnect : BluetoothRfcommChannel.connect (.new device uuid) (outcome throws) = (false, ch)) :
    ReleasesAll m (m.startThrowing device uuid throws) ↔
      (ch.socket = none ∨ ch.mSocket = true) := by
  obtain ⟨hresult, hcalls⟩ := startThrowing_of_failed m device uuid throws hconnect
  rw [ReleasesAll, hresult, hcalls]
  cases hsocket : ch.socket <;> cases hfield : ch.mSocket <;>
    simp [BluetoothRfcommChannel.close, BluetoothSocket.close, hsocket, hfield]

theorem releasesAll_iff_outcome :
    ReleasesAll m (m.startThrowing device uuid throws) ↔ outcome throws ≠ .connectThrows := by
  have hiff := fun ch => @releasesAll_iff_of_failed m device uuid throws ch
  cases hout : outcome throws with
  | createThrows => simp [hiff _ (by rw [hout]; rfl), BluetoothRfcommChannel.new]
  | connectThrows => simp [hiff _ (by rw [hout]; rfl), BluetoothRfcommChannel.new]
  | inputStreamThrows => simp [hiff _ (by rw [hout]; rfl)]
  | outputStreamThrows => simp [hiff _ (by rw [hout]; rfl)]
  | success =>
    refine iff_of_true (fun hfailed => ?_) (by simp)
    simp [startThrowing_eq, hout, BluetoothRfcommManager.startRfcommTransportJob,
      BluetoothRfcommChannel.connect] at hfailed

theorem outcome_eq_connectThrows_iff :
    outcome throws = .connectThrows ↔
      throws .createRfcommSocketToServiceRecord = false ∧ throws .connect = true := by
  rw [outcome]
  cases throws .createRfcommSocketToServiceRecord <;> cases throws .connect <;>
    cases throws .inputStream <;> cases throws .outputStream <;> simp

/-- A failed start releases the socket that it has created, unless it is the `connect`
of the socket that has thrown. -/
theorem releases_iff :
    ReleasesAll m (m.startThrowing device uuid throws) ↔
      (throws .createRfcommSocketToServiceRecord = true ∨ throws .connect = false) := by
  rw [releasesAll_iff_outcome, ne_eq, outcome_eq_connectThrows_iff]
  cases throws .createRfcommSocketToServiceRecord <;> simp

/-- `connect` throws behind `createRfcommSocketToServiceRecord`: the socket is in no field
that `close` reads, and stays open. -/
theorem connect_exception_leaks_socket :
    ¬ ReleasesAll .initial
      (BluetoothRfcommManager.initial.startThrowing ⟨"00:11:22:33:44:55"⟩ 0x1101 (· == .connect)) := by
  unfold ReleasesAll
  decide

end Carplay.Rfcomm

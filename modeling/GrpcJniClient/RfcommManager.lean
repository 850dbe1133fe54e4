/-
`BluetoothRfcommManager` and `BluetoothRfcommChannel`.

Channel objects are numbered in the order in which they are constructed, and a
transform in the manager's list refers to its channel by that number.  A channel
record carries, besides the fields of the class, the socket that `connect`
created for it, so that a socket stays in view after the fields have been
nulled.

Every operation is one step here: `startRfcommTransportJob` and
`stopRfcommTransportJob` run under the manager's mutex.  What is free in a step
(how far `connect` gets, which peer drops its link) is part of its label.
-/
import GrpcJniClient.BluetoothExt
import GrpcJniClient.Run

namespace Carplay.Rfcomm

/-- The platform's `BluetoothSocket` with its two streams. -/
structure BluetoothSocket where
  /-- `connect()` has returned. -/
  connected : Bool
  /-- The peer has dropped the link. -/
  dropped : Bool
  /-- `close()` has been called on this side. -/
  closed : Bool
  /-- The arrays the output stream took, in order. -/
  written : List Bytes
  /-- The arrays whose write threw an `IOException`. -/
  failed : List Bytes
  deriving DecidableEq, Repr

namespace BluetoothSocket

/-- The socket `createRfcommSocketToServiceRecord` returns. -/
def create : BluetoothSocket := ⟨false, false, false, [], []⟩

def connect (s : BluetoothSocket) : BluetoothSocket := { s with connected := true }

def close (s : BluetoothSocket) : BluetoothSocket := { s with closed := true }

def drop (s : BluetoothSocket) : BluetoothSocket := { s with dropped := true }

/-- The link is up on both sides. -/
def alive (s : BluetoothSocket) : Bool := s.connected && !s.dropped && !s.closed

/-- `outputStream.write`, with the exception that `BluetoothRfcommChannel.write`
swallows. -/
def write (s : BluetoothSocket) (data : Bytes) : BluetoothSocket :=
  if s.alive then { s with written := s.written ++ [data] }
  else { s with failed := s.failed ++ [data] }

end BluetoothSocket

/-- How far `BluetoothRfcommChannel.connect` gets before an exception. -/
inductive ConnectOutcome where
  | createThrows
  | connectThrows
  | inputStreamThrows
  | outputStreamThrows
  | success
  deriving DecidableEq, Repr

/-- The state of a coroutine's `Job`. -/
inductive JobState where
  | active
  | completed
  deriving DecidableEq, Repr

/-- A `BluetoothRfcommChannel` object. -/
structure BluetoothRfcommChannel where
  device : BluetoothDevice
  uuid : UUID
  /-- The socket that `connect` created; not a field of the class. -/
  socket : Option BluetoothSocket
  /-- Whether the field `mSocket` refers to `socket`. -/
  mSocket : Bool
  /-- Whether the field `mInput` refers to the input stream of `socket`. -/
  mInput : Bool
  /-- Whether the field `mOutput` refers to the output stream of `socket`. -/
  mOutput : Bool
  /-- The job `readLoop` returned. -/
  job : Option JobState
  deriving DecidableEq, Repr

namespace BluetoothRfcommChannel

/-- The constructor. -/
def new (device : BluetoothDevice) (uuid : UUID) : BluetoothRfcommChannel :=
  ⟨device, uuid, none, false, false, false, none⟩

/-- `BluetoothRfcommChannel.connect`; `false` is `Result.failure`. -/
def connect (ch : BluetoothRfcommChannel) : ConnectOutcome → Bool × BluetoothRfcommChannel
  | .createThrows => (false, ch)
  | .connectThrows => (false, { ch with socket := some .create })
  | .inputStreamThrows =>
      (false, { ch with socket := some BluetoothSocket.create.connect, mSocket := true })
  | .outputStreamThrows =>
      (false, { ch with
        socket := some BluetoothSocket.create.connect, mSocket := true, mInput := true })
  | .success =>
      (true, { ch with
        socket := some BluetoothSocket.create.connect
        mSocket := true, mInput := true, mOutput := true })

/-- `BluetoothRfcommChannel.write`. -/
def write (ch : BluetoothRfcommChannel) (data : Bytes) : BluetoothRfcommChannel :=
  if ch.mOutput then { ch with socket := ch.socket.map (·.write data) } else ch

/-- `BluetoothRfcommChannel.readLoop`: the coroutine is launched. -/
def readLoop (ch : BluetoothRfcommChannel) : BluetoothRfcommChannel :=
  { ch with job := some .active }

/-- `job.cancelAndJoin()`, once it has returned. -/
def cancelAndJoin (ch : BluetoothRfcommChannel) : BluetoothRfcommChannel :=
  { ch with job := ch.job.map fun _ => .completed }

/-- `BluetoothRfcommChannel.close`. -/
def close (ch : BluetoothRfcommChannel) : BluetoothRfcommChannel :=
  { ch with
    socket := if ch.mSocket then ch.socket.map (·.close) else ch.socket
    mSocket := false
    mInput := false
    mOutput := false }

/-- The peer drops the link and `readLoop` ends with an `IOException`. -/
def drop (ch : BluetoothRfcommChannel) : BluetoothRfcommChannel :=
  { ch with socket := ch.socket.map (·.drop), job := ch.job.map fun _ => .completed }

/-- The channel is connected and its peer has not dropped it. -/
def alive (ch : BluetoothRfcommChannel) : Bool := ch.socket.any (·.alive)

/-- The channel belongs to the key `(device, uuid)`. -/
def hasKey (device : BluetoothDevice) (uuid : UUID) (ch : BluetoothRfcommChannel) : Bool :=
  ch.device == device && ch.uuid == uuid

/-- The arrays written to the channel's socket. -/
def written (ch : BluetoothRfcommChannel) : List Bytes := (ch.socket.map (·.written)).getD []

end BluetoothRfcommChannel

/-- A `BluetoothRfcommTransform`; its `job` is the one its channel carries. -/
structure BluetoothRfcommTransform where
  channel : ℕ
  deriving DecidableEq, Repr

/-- A `BluetoothRfcommManager` and the channel objects it has constructed. -/
structure BluetoothRfcommManager where
  channels : List BluetoothRfcommChannel
  rfcommTransformList : List BluetoothRfcommTransform
  deriving DecidableEq, Repr

namespace BluetoothRfcommManager

/-- A manager as `BluetoothService.onCreate` makes it. -/
def initial : BluetoothRfcommManager := ⟨[], []⟩

/-- Run `f` on the channel object `c`. -/
def modifyChannel (m : BluetoothRfcommManager) (c : ℕ)
    (f : BluetoothRfcommChannel → BluetoothRfcommChannel) : BluetoothRfcommManager :=
  { m with channels := m.channels.modify c f }

/-- The transform's channel belongs to the key `(device, uuid)`. -/
def keyed (m : BluetoothRfcommManager) (device : BluetoothDevice) (uuid : UUID)
    (t : BluetoothRfcommTransform) : Bool :=
  (m.channels[t.channel]?).any (BluetoothRfcommChannel.hasKey device uuid)

/-- `BluetoothRfcommManager.queryRfcommTransform`: the first match. -/
def queryRfcommTransform (m : BluetoothRfcommManager) (device : BluetoothDevice) (uuid : UUID) :
    Option BluetoothRfcommTransform :=
  m.rfcommTransformList.find? (m.keyed device uuid)

/-- `BluetoothRfcommManager.startRfcommTransportJob`. -/
def startRfcommTransportJob (m : BluetoothRfcommManager) (device : BluetoothDevice) (uuid : UUID)
    (o : ConnectOutcome) : Bool × BluetoothRfcommManager :=
  match (BluetoothRfcommChannel.new device uuid).connect o with
  | (true, rfcommChannel) =>
      (true,
        { channels := m.channels ++ [rfcommChannel.readLoop]
          rfcommTransformList := m.rfcommTransformList ++ [⟨m.channels.length⟩] })
  | (false, rfcommChannel) =>
      (false, { m with channels := m.channels ++ [rfcommChannel.close] })

/-- `BluetoothRfcommManager.stopRfcommTransportJob`. -/
def stopRfcommTransportJob (m : BluetoothRfcommManager) (device : BluetoothDevice) (uuid : UUID) :
    BluetoothRfcommManager :=
  match m.queryRfcommTransform device uuid with
  | none => m
  | some t =>
      { m.modifyChannel t.channel fun ch => ch.cancelAndJoin.close with
        rfcommTransformList := m.rfcommTransformList.erase t }

/-- `BluetoothRfcommManager.sendDataByRfcomm`. -/
def sendDataByRfcomm (m : BluetoothRfcommManager) (device : BluetoothDevice) (uuid : UUID)
    (data : Bytes) : BluetoothRfcommManager :=
  match m.queryRfcommTransform device uuid with
  | none => m
  | some t => m.modifyChannel t.channel (·.write data)

/-- The peer of channel `c` drops its link; the manager is not told. -/
def peerClose (m : BluetoothRfcommManager) (c : ℕ) : Option BluetoothRfcommManager :=
  if (m.channels[c]?).any (·.job == some .active) then some (m.modifyChannel c (·.drop)) else none

end BluetoothRfcommManager

/-- What can happen to a manager. -/
inductive RfcommOp where
  | start (device : BluetoothDevice) (uuid : UUID) (o : ConnectOutcome)
  | stop (device : BluetoothDevice) (uuid : UUID)
  | send (device : BluetoothDevice) (uuid : UUID) (data : Bytes)
  | peerClose (c : ℕ)
  deriving DecidableEq, Repr

/-- One operation on the manager. -/
def step (m : BluetoothRfcommManager) : RfcommOp → Option BluetoothRfcommManager
  | .start device uuid o => some (m.startRfcommTransportJob device uuid o).2
  | .stop device uuid => some (m.stopRfcommTransportJob device uuid)
  | .send device uuid data => some (m.sendDataByRfcomm device uuid data)
  | .peerClose c => m.peerClose c

/-! ### What each operation does to one channel -/

namespace BluetoothSocket

@[simp] theorem alive_write (s : BluetoothSocket) (data : Bytes) :
    (s.write data).alive = s.alive := by
  unfold write
  split <;> rfl

theorem written_write_of_alive {s : BluetoothSocket} (h : s.alive = true) (data : Bytes) :
    (s.write data).written = s.written ++ [data] := by
  rw [write, if_pos h]

@[simp] theorem alive_close (s : BluetoothSocket) : s.close.alive = false := by
  simp [alive, close]

@[simp] theorem alive_drop (s : BluetoothSocket) : s.drop.alive = false := by
  simp [alive, drop]

end BluetoothSocket

namespace BluetoothRfcommChannel

@[simp] theorem hasKey_write (ch : BluetoothRfcommChannel) (data : Bytes) (device : BluetoothDevice)
    (uuid : UUID) : (ch.write data).hasKey device uuid = ch.hasKey device uuid := by
  unfold write
  split <;> rfl

@[simp] theorem hasKey_cancelAndJoin_close (ch : BluetoothRfcommChannel) (device : BluetoothDevice)
    (uuid : UUID) : ch.cancelAndJoin.close.hasKey device uuid = ch.hasKey device uuid := rfl

@[simp] theorem hasKey_drop (ch : BluetoothRfcommChannel) (device : BluetoothDevice)
    (uuid : UUID) : ch.drop.hasKey device uuid = ch.hasKey device uuid := rfl

@[simp] theorem alive_write (ch : BluetoothRfcommChannel) (data : Bytes) :
    (ch.write data).alive = ch.alive := by
  unfold write alive
  split
  · cases ch.socket <;> simp
  · rfl

@[simp] theorem mOutput_write (ch : BluetoothRfcommChannel) (data : Bytes) :
    (ch.write data).mOutput = ch.mOutput := by
  unfold write
  split <;> rfl

@[simp] theorem mSocket_write (ch : BluetoothRfcommChannel) (data : Bytes) :
    (ch.write data).mSocket = ch.mSocket := by
  unfold write
  split <;> rfl

@[simp] theorem alive_drop (ch : BluetoothRfcommChannel) : ch.drop.alive = false := by
  unfold drop alive
  cases ch.socket <;> simp

/-- A channel that still holds its socket is dead once closed. -/
theorem alive_close {ch : BluetoothRfcommChannel} (h : ch.mSocket = true) :
    ch.close.alive = false := by
  unfold close alive
  rw [if_pos h]
  cases ch.socket <;> simp

theorem written_write {ch : BluetoothRfcommChannel} (hout : ch.mOutput = true)
    (halive : ch.alive = true) (data : Bytes) :
    (ch.write data).written = ch.written ++ [data] := by
  unfold alive at halive
  rw [write, if_pos hout]
  -- a channel that is alive has a socket
  rcases hs : ch.socket with _ | s
  · simp [hs] at halive
  · rw [hs, Option.any_some] at halive
    simp only [written, hs, Option.map_some, Option.getD_some]
    exact BluetoothSocket.written_write_of_alive halive data

end BluetoothRfcommChannel

end Carplay.Rfcomm

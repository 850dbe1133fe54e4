/-
The screen stream threads of `CarplayRpcRuntime`, as they share one codec.

Every RPC that concerns the stream runs on a thread of its own: the
`screenLooper` that `screenStreamStart` launches, the `outputLoop` that
`initMediaCodec` launches, `stopMediaCodec`, and `queueInputBuffer` in the
retry loops of `screenStreamConfiguration` and of the pull listener.  One step
is one `AMediaCodec` call, one read or write of `kScreenStreamMediaCodec`, of
`kScreenStreamMediaCodecStatus` or of `gRenderQuit`, or the launch of a thread.
A call reads the shared handle afresh, so it is two steps: `load` and `issue`.

The waits between two attempts, the frames and the drawing have no part here.
-/
import GrpcJniClient.Run
import GrpcJniClient.ThreadPool

open ThreadPool

namespace Carplay.Screen

/-- `MediaCodecStatus`. -/
inductive MediaCodecStatus where
  | IDLE
  | STARTED
  | AVAILABLE
  | STOPPED
  deriving DecidableEq, Repr

/-- The underlying `int`. -/
def MediaCodecStatus.value : MediaCodecStatus → ℕ
  | IDLE => 0
  | STARTED => 1
  | AVAILABLE => 2
  | STOPPED => 3

/-- An `AMediaCodec*`. -/
inductive AMediaCodec where
  | null
  /-- What an uninitialised pointer holds when it is not null. -/
  | wild
  /-- The `i`-th codec created. -/
  | codec (i : ℕ)
  deriving DecidableEq, Repr

/-- Who calls `queueInputBuffer`. -/
inductive Caller where
  | configuration
  | pullListener
  deriving DecidableEq, Repr

/-- The `AMediaCodec` calls on the shared handle. -/
inductive Site where
  | configure
  | start
  | dequeueOutputBuffer
  | releaseOutputBuffer
  | getOutputFormat
  | dequeueInputBuffer (caller : Caller)
  | getInputBuffer (caller : Caller)
  | queueInputBuffer (caller : Caller)
  | stop
  | delete
  deriving DecidableEq, Repr

/-- The step a thread takes next. -/
inductive Pc where
  /-- `createOesSurfaceTexture` up to `ANativeWindow_acquire`. -/
  | createSurface
  | createDecoder
  /-- The result of `createDecoderByType` is stored. -/
  | storeCodec (codec : AMediaCodec)
  | testCreated
  | storeStarted
  | launchOutput
  | storeRenderQuit
  /-- The render loop of `screenLooper`. -/
  | render
  | outputTestStatus
  | outputTestHandle
  | inputTestHandle (caller : Caller)
  | inputTestStatus (caller : Caller)
  | storeAvailable
  | storeStopped
  | stopTestHandle
  | storeNull
  /-- The handle is read for a call. -/
  | load (site : Site)
  /-- The call is made. -/
  | issue (site : Site) (codec : AMediaCodec)
  | done
  deriving DecidableEq, Repr

/-- How a call ends; `formatChanged` is a result of `dequeueOutputBuffer`. -/
inductive Result where
  | success
  | failure
  | formatChanged
  deriving DecidableEq, Repr

/-- What the threads share, and what the codec service knows. -/
structure Shared where
  kScreenStreamMediaCodec : AMediaCodec
  kScreenStreamMediaCodecStatus : MediaCodecStatus
  gRenderQuit : Bool
  /-- The number of codecs created. -/
  created : ℕ
  /-- The handles passed to `AMediaCodec_delete`. -/
  deleted : List AMediaCodec
  /-- The calls made on a handle that was no live codec. -/
  deadCalls : List (Site × AMediaCodec)
  deriving DecidableEq, Repr

/-- The handle is of a codec that has been created and not deleted. -/
def Shared.live (s : Shared) : AMediaCodec → Bool
  | .codec i => decide (i < s.created) && !s.deleted.contains (.codec i)
  | _ => false

/-- The calls that need a live codec here: all but those of `initMediaCodec` and
`getOutputFormat`. -/
def Site.needsLive : Site → Bool
  | configure | start | getOutputFormat => false
  | _ => true

/-- An `AMediaCodec` call on `h`. -/
def Shared.call (s : Shared) (site : Site) (h : AMediaCodec) : Shared :=
  { s with
    deleted := if site = .delete then s.deleted ++ [h] else s.deleted
    deadCalls := if site.needsLive && !s.live h then s.deadCalls ++ [(site, h)] else s.deadCalls }

/-- The next step after a call has returned. -/
def Site.next : Site → Result → Pc
  | configure, .success => .load .start
  | configure, _ => .storeRenderQuit
  | start, .success => .storeStarted
  | start, _ => .storeRenderQuit
  | dequeueOutputBuffer, .success => .load .releaseOutputBuffer
  | dequeueOutputBuffer, .formatChanged => .load .getOutputFormat
  | dequeueOutputBuffer, .failure => .outputTestStatus
  | releaseOutputBuffer, _ => .outputTestStatus
  | getOutputFormat, _ => .outputTestStatus
  | dequeueInputBuffer caller, .success => .load (.getInputBuffer caller)
  | dequeueInputBuffer caller, _ => .inputTestHandle caller
  | getInputBuffer caller, .success => .load (.queueInputBuffer caller)
  | getInputBuffer caller, _ => .inputTestHandle caller
  | queueInputBuffer .configuration, .success => .storeAvailable
  | queueInputBuffer .pullListener, .success => .done
  | queueInputBuffer caller, _ => .inputTestHandle caller
  | stop, _ => .load .delete
  | delete, _ => .storeNull

/-- One step of a thread. -/
def prim (s : Shared) (r : Result) : Pc → Option (Shared × Pc × List Pc)
  -- `screenLooper` and `initMediaCodec`
  | .createSurface => some (s, if r = .success then .createDecoder else .storeRenderQuit, [])
  | .createDecoder =>
      if r = .success then
        some ({ s with created := s.created + 1 }, .storeCodec (.codec s.created), [])
      else some (s, .storeCodec .null, [])
  | .storeCodec h => some ({ s with kScreenStreamMediaCodec := h }, .testCreated, [])
  | .testCreated =>
      some (s, if s.kScreenStreamMediaCodec = .null then .storeRenderQuit else .load .configure, [])
  | .storeStarted =>
      some ({ s with kScreenStreamMediaCodecStatus := .STARTED }, .launchOutput, [])
  | .launchOutput => some (s, .storeRenderQuit, [.outputTestStatus])
  | .storeRenderQuit => some ({ s with gRenderQuit := false }, .render, [])
  | .render => some (s, if s.gRenderQuit then .done else .render, [])
  -- `outputLoop`
  | .outputTestStatus =>
      some (s, if MediaCodecStatus.STARTED.value ≤ s.kScreenStreamMediaCodecStatus.value
        then .outputTestHandle else .done, [])
  | .outputTestHandle =>
      some (s, if s.kScreenStreamMediaCodec = .null then .done else .load .dequeueOutputBuffer, [])
  -- `queueInputBuffer` in a caller's loop
  | .inputTestHandle caller =>
      some (s, if s.kScreenStreamMediaCodec = .null then .inputTestHandle caller
        else .inputTestStatus caller, [])
  | .inputTestStatus caller =>
      some (s, if s.kScreenStreamMediaCodecStatus.value < MediaCodecStatus.STARTED.value
        then .inputTestHandle caller else .load (.dequeueInputBuffer caller), [])
  | .storeAvailable => some ({ s with kScreenStreamMediaCodecStatus := .AVAILABLE }, .done, [])
  -- `stopMediaCodec`
  | .storeStopped =>
      some ({ s with kScreenStreamMediaCodecStatus := .STOPPED }, .stopTestHandle, [])
  | .stopTestHandle =>
      some (s, if s.kScreenStreamMediaCodec = .null then .done else .load .stop, [])
  | .storeNull => some ({ s with kScreenStreamMediaCodec := .null }, .done, [])
  -- the calls
  | .load site => some (s, .issue site s.kScreenStreamMediaCodec, [])
  | .issue site h => some (s.call site h, site.next r, [])
  | .done => none

abbrev Runtime := Pool Shared Pc

/-- A freshly constructed `CarplayRpcRuntime`; the member
`kScreenStreamMediaCodec` has no initializer. -/
def initial (wild : Bool) : Runtime :=
  ⟨⟨if wild then .wild else .null, .IDLE, false, 0, [], []⟩, []⟩

/-- What can happen: an RPC or a received frame starts a thread, or a thread
takes a step. -/
inductive Label where
  | screenStreamStart
  | screenStreamStop
  | screenStreamConfiguration
  | receive
  | step (i : ℕ) (r : Result)
  deriving DecidableEq, Repr

def step (p : Runtime) : Label → Option Runtime
  | .screenStreamStart => some (p.spawn .createSurface)
  | .screenStreamStop => some (p.spawn .storeStopped)
  | .screenStreamConfiguration => some (p.spawn (.inputTestHandle .configuration))
  | .receive => some (p.spawn (.inputTestHandle .pullListener))
  | .step i r => p.move prim i r

end Carplay.Screen

/-
The streams of requests between this process and the peer.

The native methods hand over a request only while the dial has been started, so what
becomes of a call depends on the native side as it is then.

* `phone_reaches_peer` — the peer reads the link requests and the chunks that the
  runtime has passed on meanwhile, in their order; the chunks are all that the phone
  has sent exactly if no buffer has forgotten one and each request was handed over;
* `peer_reaches_phone` — and the other way round the phone is sent the packets of
  the peer's requests;
* `touches_reach_peer` — of a run of gestures the peer reads some of the
  listener's reports, in order, and after the end of a gesture the last one.
-/
import GrpcJniClient.Ambient
import GrpcJniClient.InboundPipeline
import GrpcJniClient.OutboundPipeline
import GrpcJniClient.RpcEncoding
import GrpcJniClient.TouchReports

open Flatbuffers SharedFlow

namespace Carplay.Rpc

/-- A string of the model as the virtual machine has it. -/
def javaString (s : String) : JavaString := Utf16.encode s.toList

theorem length_javaString_le (s : String) : (javaString s).length ≤ 2 * s.length := by
  rw [javaString, ← String.length_toList]
  induction s.toList with
  | nil => exact Nat.le_refl _
  | cons c cs ih =>
    have hc : (Utf16.ofChar c).length ≤ 2 := by
      rw [Utf16.ofChar]
      split <;> simp only [List.length_cons, List.length_nil] <;> omega
    rw [Utf16.encode, List.flatMap_cons, List.length_append, List.length_cons]
    rw [Utf16.encode] at ih
    omega

/-- What a handler of the peer gets of a request: nothing if there is none, or
if it is rejected or cannot be read. -/
def peerGets {α : Type} (verify : Bytes → ℕ → Verifying Bool) (handler : Bytes → ℕ → Except Fault α)
    (request : Option Bytes) : Option α :=
  request.bind fun buf => match registered verify handler buf with
    | .ok a => a
    | .error _ => none

theorem peerGets_eq {α : Type} {verify : Bytes → ℕ → Verifying Bool}
    {handler : Bytes → ℕ → Except Fault α} {request : Option Bytes} {a : α}
    (h : ∃ buf, request = some buf ∧ registered verify handler buf = .ok (some a)) :
    peerGets verify handler request = some a := by
  obtain ⟨buf, rfl, hbuf⟩ := h
  rw [peerGets, Option.bind_some, hbuf]

/-! ### The Bluetooth collector's requests -/

/-- What the peer reads of a request of the Bluetooth collector. -/
inductive Incoming where
  | startBtIap2Link (macString : JavaString)
  | receiveRfcommDataFromBt (data : Bytes)
  deriving DecidableEq, Repr

/-- What the peer reads of the request that a call makes. -/
def peerReads : NativeSide × RuntimeCall → Option Incoming
  | (native, .startBtIap2Link macString) =>
      (peerGets StringRequest.verify
        (fun buf table => do newStringUTF buf (← StringRequest.value buf table))
        (native.startBtIap2Link (javaString macString))).join.map .startBtIap2Link
  | (native, .receiveBtIap2Data rfcommData dataLength) =>
      (peerGets BtRfcommData.verify
        (fun buf table => do vectorBytes buf (← BtRfcommData.data buf table))
        (native.receiveBtIap2Data rfcommData dataLength)).map .receiveRfcommDataFromBt
  | _ => none

/-- The call gets as far as `rpcRemoteCall`. -/
def NativeSide.sends (native : NativeSide) : RuntimeCall → Bool
  | .startBtIap2Link _ => native.checkPeerRpcDialAvailable
  | .receiveBtIap2Data _ _ => native.checkPeerRpcDialAvailable && native.elements
  | _ => false

/-- What a call is meant to tell the peer. -/
def meantBy : RuntimeCall → Option Incoming
  | .startBtIap2Link macString => some (.startBtIap2Link (javaString macString))
  | .receiveBtIap2Data rfcommData _ => some (.receiveRfcommDataFromBt rfcommData)
  | _ => none

/-- What it tells the peer where it gets that far. -/
def toldBy (x : NativeSide × RuntimeCall) : Option Incoming :=
  if x.1.sends x.2 then meantBy x.2 else none

/-- A link address has seventeen characters, a chunk no more bytes than the
buffer of `readLoop`; the length is that of the chunk. -/
def CallFits : RuntimeCall → Prop
  | .startBtIap2Link macString => macString.length ≤ 17
  | .receiveBtIap2Data rfcommData dataLength =>
      dataLength = rfcommData.length ∧ rfcommData.length ≤ 1024
  | _ => True

theorem peerReads_eq_toldBy {x : NativeSide × RuntimeCall} (h : CallFits x.2) :
    peerReads x = toldBy x := by
  obtain ⟨native, c⟩ := x
  cases c with
  | startBtIap2Link macString =>
    have hlen := length_javaString_le macString
    have hmac : macString.length ≤ 17 := h
    have hroom : 3 * (javaString macString).length + 2 ^ 17 ≤ maxBufferSize := by
      rw [maxBufferSize_eq]
      omega
    rw [peerReads, toldBy, NativeSide.startBtIap2Link, NativeSide.sends]
    split
    · rw [peerGets_eq (startBtIap2Link_spec _ hroom)]
      rfl
    · rfl
  | receiveBtIap2Data rfcommData dataLength =>
    obtain ⟨rfl, hsize⟩ := h
    have hroom : rfcommData.length + 2 ^ 17 ≤ maxBufferSize := by
      rw [maxBufferSize_eq]
      omega
    rw [peerReads, toldBy, NativeSide.receiveBtIap2Data, NativeSide.sends]
    cases native.checkPeerRpcDialAvailable with
    | false => rfl
    | true =>
      cases native.elements with
      | false => rfl
      | true =>
        simp only [if_true, Bool.and_self]
        rw [peerGets_eq (receiveBtIap2Data_spec _ _ (Nat.le_refl _) hroom), List.take_length]
        rfl
  | _ => rfl

/-- The chunk that the peer reads. -/
def Incoming.data : Incoming → Option Bytes
  | receiveRfcommDataFromBt data => some data
  | startBtIap2Link _ => none

open Inbound

/-- An event whose request fits. -/
def EventFits : BluetoothEvent → Prop
  | .bondChanged device _ => device.address.length ≤ 17
  | .rfcommTransform _ _ data => data.length ≤ 1024
  | _ => True

theorem callFits_of_eventFits {d : Option BluetoothDevice} {event : BluetoothEvent}
    (h : EventFits event) : ∀ c ∈ (collectBluetoothEvent d event).2, CallFits c := by
  cases event with
  | bondChanged device changedValue =>
    intro c hc
    rw [collectBluetoothEvent] at hc
    split at hc
    · -- a bond asks for a link and for a transport
      rw [uuidString2SUUID_IAP2_BT_DEVICE] at hc
      rcases List.mem_cons.mp hc with rfl | hc
      · exact h
      · rw [List.mem_singleton.mp hc]
        trivial
    · exact absurd hc List.not_mem_nil
  | rfcommTransform device uuid data =>
    intro c hc
    rw [List.mem_singleton.mp hc]
    exact ⟨rfl, h⟩
  | _ => exact fun c hc => absurd hc List.not_mem_nil

/-- What a run brings into the pipeline fits. -/
def MoveFits : Move → Prop
  | .read bytes => bytes.length ≤ 1024
  | .observe event => EventFits event
  | _ => True

/-- Everything in the pipeline fits. -/
structure Fitting (s : Pipeline) : Prop where
  rfcomm : ∀ item ∈ s.rfcomm.emitted, item.byteArray.length ≤ 1024
  bluetooth : ∀ event ∈ s.bluetooth.emitted, EventFits event
  calls : ∀ c ∈ s.calls, CallFits c

theorem Fitting.step {device : BluetoothDevice} {uuid : UUID} {s t : Pipeline} {m : Move}
    (hs : Fitting s) (hm : MoveFits m) (h : Inbound.step device uuid s m = some t) : Fitting t := by
  cases m with
  | read bytes =>
    rw [Inbound.step] at h
    split at h
    · obtain rfl := Option.some_inj.mp h
      refine ⟨fun item hitem => ?_, hs.bluetooth, hs.calls⟩
      rcases List.mem_append.mp hitem with hitem | hitem
      · exact hs.rfcomm item hitem
      · rw [List.mem_singleton.mp hitem]
        exact hm
    · obtain rfl := Option.some_inj.mp h
      exact hs
  | forwardTake =>
    obtain ⟨c, hc, rfl⟩ := Option.map_eq_some_iff.mp h
    obtain ⟨_, -, -, -, -, he⟩ := Collector.of_take hc
    exact ⟨fun item hitem => hs.rfcomm item (he ▸ hitem), hs.bluetooth, hs.calls⟩
  | forwardEmit =>
    obtain ⟨⟨item, c⟩, hc, rfl⟩ := Option.map_eq_some_iff.mp h
    obtain ⟨-, -, -, -, he⟩ := Collector.of_handle hc
    refine ⟨fun i hi => hs.rfcomm i (he ▸ hi), fun event hevent => ?_, hs.calls⟩
    rcases List.mem_append.mp hevent with hevent | hevent
    · exact hs.bluetooth event hevent
    · rw [List.mem_singleton.mp hevent]
      exact hs.rfcomm item (Collector.mem_emitted_of_handle hc)
  | observe event =>
    rw [Inbound.step] at h
    split at h
    · exact absurd h (by simp)
    · obtain rfl := Option.some_inj.mp h
      refine ⟨hs.rfcomm, fun e he => ?_, hs.calls⟩
      rcases List.mem_append.mp he with he | he
      · exact hs.bluetooth e he
      · rw [List.mem_singleton.mp he]
        exact hm
  | collectTake =>
    obtain ⟨c, hc, rfl⟩ := Option.map_eq_some_iff.mp h
    obtain ⟨_, -, -, -, -, he⟩ := Collector.of_take hc
    exact ⟨hs.rfcomm, fun event hevent => hs.bluetooth event (he ▸ hevent), hs.calls⟩
  | collectHandle =>
    obtain ⟨⟨event, c⟩, hc, rfl⟩ := Option.map_eq_some_iff.mp h
    obtain ⟨-, -, -, -, he⟩ := Collector.of_handle hc
    refine ⟨hs.rfcomm, fun e hevent => hs.bluetooth e (he ▸ hevent), fun call hcall => ?_⟩
    rcases List.mem_append.mp hcall with hcall | hcall
    · exact hs.calls call hcall
    · -- the calls are those for an event that has been emitted
      have hevent := hs.bluetooth event (Collector.mem_emitted_of_handle hc)
      exact callFits_of_eventFits hevent call hcall

theorem Fitting.of_exec {device : BluetoothDevice} {uuid : UUID} {ls : List Move} {t : Pipeline}
    (hls : ∀ m ∈ ls, MoveFits m) (h : Run.exec (Inbound.step device uuid) Inbound.initial ls = some t) :
    Fitting t :=
  Run.exec_invariant (C := fun _ m => MoveFits m) (fun _ _ _ hs hm hst => hs.step hm hst)
    ⟨fun _ h => absurd h List.not_mem_nil, fun _ h => absurd h List.not_mem_nil,
      fun _ h => absurd h List.not_mem_nil⟩ (Run.along_of_forall (fun m hm _ => hls m hm) _) h

/-- The pipeline in front of the native methods, with its calls as they found the native
side. -/
abbrev Calling := Ambient.System Pipeline NativeSide RuntimeCall

/-- The pipeline moves, or the native side changes. -/
def callingStep (device : BluetoothDevice) (uuid : UUID) :
    Calling → Ambient.Move Move NativeSide → Option Calling :=
  Ambient.step (Inbound.step device uuid) Pipeline.calls

/-- No emission of the step finds its flow full with a chunk as the oldest value, and a
chunk is handled while the native side hands it over. -/
def DeliversChunks (s : Calling) : Ambient.Move Move NativeSide → Prop
  | .inner .collectHandle => ∀ event ∈ s.inner.bluetooth.holding, (chunkOf event).isSome →
      s.env.checkPeerRpcDialAvailable ∧ s.env.elements
  | .inner m => KeepsChunks s.inner m
  | .change _ => True

/-- The call of a chunk gets as far as `rpcRemoteCall`. -/
def ChunkSent (x : NativeSide × RuntimeCall) : Prop :=
  (receivedOf x.2).isSome → x.1.sends x.2 = true

/-- Handling an event sends its chunk, if it has one. -/
theorem chunkSent_collectBluetoothEvent (native : NativeSide) (d : Option BluetoothDevice)
    (event : BluetoothEvent) :
    (∀ c ∈ (collectBluetoothEvent d event).2, ChunkSent (native, c)) ↔
      ((chunkOf event).isSome → native.checkPeerRpcDialAvailable ∧ native.elements) := by
  cases event with
  | bondChanged device changedValue =>
    refine iff_of_true (fun c hc hsome => ?_) (fun hsome => absurd hsome Bool.false_ne_true)
    rw [collectBluetoothEvent] at hc
    split at hc
    · rw [uuidString2SUUID_IAP2_BT_DEVICE] at hc
      rcases List.mem_cons.mp hc with rfl | hc
      · exact absurd hsome Bool.false_ne_true
      · rw [List.mem_singleton.mp hc] at hsome
        exact absurd hsome Bool.false_ne_true
    · exact absurd hc List.not_mem_nil
  | rfcommTransform device uuid data =>
    rw [collectBluetoothEvent, List.forall_mem_singleton, ChunkSent, NativeSide.sends,
      Bool.and_eq_true]
    rfl
  | _ =>
    refine iff_of_true (fun c hc => absurd hc List.not_mem_nil) fun hsome => ?_
    exact absurd hsome Bool.false_ne_true

/-- No chunk has been forgotten, and each that was handled has been sent. -/
def AllSent (s : Calling) : Prop := KeptAll s.inner ∧ ∀ x ∈ s.record, ChunkSent x

theorem allSent_step {device : BluetoothDevice} {uuid : UUID} {s t : Calling}
    {l : Ambient.Move Move NativeSide} (h : callingStep device uuid s l = some t) :
    AllSent t ↔ AllSent s ∧ DeliversChunks s l := by
  cases l with
  | change native =>
    obtain rfl := Option.some_inj.mp h
    exact (and_iff_left trivial).symm
  | inner m =>
    obtain ⟨u, hu, hinner⟩ := Option.map_eq_some_iff.mp h
    have hcalls : t.inner.calls = s.inner.calls ++ newCalls s.inner m := by
      rw [← hinner]
      exact calls_step hu
    have hrecord := Ambient.record_of_step h hcalls
    have hkept : KeptAll t.inner ↔ KeptAll s.inner ∧ KeepsChunks s.inner m := by
      rw [← hinner]
      exact keptAll_step hu
    -- only the handling of an event makes calls
    have hnew : (∀ x ∈ (newCalls s.inner m).map (s.env, ·), ChunkSent x) ∧ KeepsChunks s.inner m ↔
        DeliversChunks s (.inner m) := by
      cases m with
      | collectHandle =>
        refine (and_iff_left trivial).trans ?_
        rw [newCalls, DeliversChunks, List.forall_mem_map]
        cases hholding : s.inner.bluetooth.holding with
        | none => simp
        | some event =>
          rw [Option.elim_some, chunkSent_collectBluetoothEvent]
          simp
      | _ => exact and_iff_right fun x hx => absurd hx List.not_mem_nil
    rw [AllSent, AllSent, hrecord, List.forall_mem_append, hkept, ← hnew]
    tauto

/-- The chunk of a call that gets through. -/
def sentChunk (x : NativeSide × RuntimeCall) : Option Bytes :=
  if x.1.sends x.2 then receivedOf x.2 else none

theorem sentChunk_eq_or (x : NativeSide × RuntimeCall) :
    sentChunk x = none ∨ sentChunk x = receivedOf x.2 := by
  rw [sentChunk]
  split
  · exact Or.inr rfl
  · exact Or.inl rfl

theorem sentChunk_eq_iff (x : NativeSide × RuntimeCall) :
    sentChunk x = receivedOf x.2 ↔ ChunkSent x := by
  rw [ChunkSent, sentChunk]
  split
  case isTrue htrue => exact iff_of_true rfl fun _ => htrue
  case isFalse hfalse => cases receivedOf x.2 <;> simp [hfalse]

/-- The chunks among what the calls tell the peer are those that get through. -/
theorem filterMap_data_toldBy (record : List (NativeSide × RuntimeCall)) :
    (record.filterMap toldBy).filterMap Incoming.data = record.filterMap sentChunk := by
  rw [List.filterMap_filterMap]
  refine List.filterMap_congr fun x _ => ?_
  rw [toldBy, sentChunk]
  split
  · cases x.2 <;> rfl
  · rfl

/-- **What a phone sends reaches the peer.**  In every run whose reads fit into the
buffer of `readLoop`, the peer reads what the runtime's calls are meant to tell it
where they find the dial started, in their order; once everything is drained, the
chunks among that are those that were read exactly if no emission found its flow
full with a chunk as the oldest value and each chunk was handled while its request
could be handed over. -/
theorem phone_reaches_peer (device : BluetoothDevice) (uuid : UUID) (native : NativeSide)
    (ls : List (Ambient.Move Move NativeSide)) (t : Calling)
    (hls : ∀ m ∈ ls.filterMap Ambient.Move.inner?, MoveFits m)
    (h : Run.exec (callingStep device uuid) ⟨Inbound.initial, native, []⟩ ls = some t) :
    t.record.map Prod.snd = t.inner.calls ∧
      t.record.filterMap peerReads = t.record.filterMap toldBy ∧
      ((t.record.filterMap peerReads).filterMap Incoming.data).Sublist
        (chunksRead (ls.filterMap Ambient.Move.inner?)) ∧
      (t.inner.Drained → ((t.record.filterMap peerReads).filterMap Incoming.data =
          chunksRead (ls.filterMap Ambient.Move.inner?) ↔
        Run.Along (callingStep device uuid) DeliversChunks ⟨Inbound.initial, native, []⟩ ls)) := by
  have hinner := Ambient.exec_inner h
  have hF := Fitting.of_exec hls hinner
  have hL := Linked.of_exec hinner
  have hcalls : t.record.map Prod.snd = t.inner.calls :=
    Ambient.map_snd_record (fun _ _ _ hst => ⟨_, (calls_step hst).symm⟩) rfl h
  have hreads : t.record.filterMap peerReads = t.record.filterMap toldBy := by
    refine List.filterMap_congr fun x hx => peerReads_eq_toldBy (hF.calls x.2 ?_)
    rw [← hcalls]
    exact List.mem_map_of_mem hx
  -- a chunk is read if its call gets through, and nothing else is
  have hdata : (t.record.filterMap peerReads).filterMap Incoming.data =
      t.record.filterMap sentChunk := by
    rw [hreads, filterMap_data_toldBy]
  have hdelivered : t.inner.delivered = t.record.filterMap fun x => receivedOf x.2 := by
    rw [Pipeline.delivered, ← hcalls, List.filterMap_map]
    rfl
  have hread : t.inner.rfcomm.emitted.map (·.byteArray) =
      chunksRead (ls.filterMap Ambient.Move.inner?) := emitted_eq_chunksRead hinner
  have hsub : ((t.record.filterMap peerReads).filterMap Incoming.data).Sublist
      t.inner.delivered := by
    rw [hdata, hdelivered]
    exact Ambient.sublist_filterMap fun x _ => sentChunk_eq_or x
  have hsub' : t.inner.delivered.Sublist (chunksRead (ls.filterMap Ambient.Move.inner?)) :=
    hread ▸ hL.delivered_sublist.trans (handled_sublist t.inner)
  refine ⟨hcalls, hreads, hsub.trans hsub', fun hD => ?_⟩
  have hsent : (t.record.filterMap peerReads).filterMap Incoming.data = t.inner.delivered ↔
      ∀ x ∈ t.record, ChunkSent x := by
    rw [hdata, hdelivered, Ambient.filterMap_eq_iff fun x _ => sentChunk_eq_or x]
    exact forall₂_congr fun x _ => sentChunk_eq_iff x
  have hkept : t.inner.delivered = chunksRead (ls.filterMap Ambient.Move.inner?) ↔
      KeptAll t.inner := hread ▸ hL.delivered_eq_iff hD
  rw [← Run.exec_iff_along (fun _ _ _ hst => allSent_step hst)
    ⟨⟨Collector.lossless_initial _, Collector.lossless_initial _⟩,
      fun _ hx => absurd hx List.not_mem_nil⟩ h, AllSent, ← hkept, ← hsent]
  constructor
  · -- both stages are sublists, so neither loses length
    intro heq
    have hmid := hsub'.antisymm (heq ▸ hsub)
    exact ⟨hmid, heq.trans hmid.symm⟩
  · rintro ⟨hmid, hread⟩
    exact hread.trans hmid

/-- A chunk that goes through. -/
private def oneChunk (bytes : Bytes) : List Move :=
  [.read bytes, .forwardTake, .forwardEmit, .collectTake, .collectHandle]

/-- One before the dial has started, and one after. -/
private def twoChunks : List (Ambient.Move Move NativeSide) :=
  (oneChunk [1, 0, 3]).map .inner ++ .change ⟨true, true⟩ :: (oneChunk [7]).map .inner

theorem phone_reaches_peer_two :
    ∃ t, Run.exec (callingStep ⟨"AA:BB:CC:DD:EE:FF"⟩ 0) ⟨Inbound.initial, ⟨false, true⟩, []⟩
        twoChunks = some t ∧
      t.record.filterMap peerReads = [.receiveRfcommDataFromBt [7]] ∧
      ((t.record.filterMap peerReads).filterMap Incoming.data).Sublist [[1, 0, 3], [7]] :=
  have hls : ∀ m ∈ twoChunks.filterMap Ambient.Move.inner?, MoveFits m := by
    show ∀ m ∈ oneChunk [1, 0, 3] ++ oneChunk [7], MoveFits m
    simp [oneChunk, MoveFits]
  have h := phone_reaches_peer ⟨"AA:BB:CC:DD:EE:FF"⟩ 0 ⟨false, true⟩ twoChunks _ hls rfl
  ⟨_, rfl, h.2.1, h.2.2.1⟩

/-! ### The packets for the phone -/

section Packets

open Outbound Rfcomm

/-- What happens around the RPC collector: requests of the peer, and its own
moves. -/
inductive PeerMove where
  | remoteCall (r : Request)
  | mediaCodecFormatChanged
  | collectTake
  | collectHandle
  | runStop (i : ℕ)
  deriving DecidableEq, Repr

section

-- `NewStringUTF` of the JNI.
variable (newStringUTF : Bytes → String)

/-- The callback of `CarplayRpcManager` that a handler calls. -/
def HandlerCall.toCallback : HandlerCall → Option RpcCallback
  | .callbackWithByteArray data => some (.callbackWithByteArray data)
  | .callbackCarplayAvailable wiredAvailable usbStr wirelessAvailable btStr =>
      some (.callbackCarplayAvailable wiredAvailable (some (newStringUTF usbStr)) wirelessAvailable
        (some (newStringUTF btStr)))
  | .disableBluetooth addr => some (.disableBluetooth (newStringUTF addr))
  | .queueInputBuffer _ => none

/-- The callback that a request of the peer ends in: its buffer is built there, and
goes through the wrapper here. -/
def Request.callback (r : Request) : Option RpcCallback :=
  (Builder.build r.create).bind fun buf => match r.method.wrapper buf with
    | .ok call => call.join.bind (HandlerCall.toCallback newStringUTF)
    | .error _ => none

/-- The moves of the pipeline. -/
def PeerMove.moves : PeerMove → List Outbound.Move
  | remoteCall r => (r.callback newStringUTF).toList.map .callback
  | mediaCodecFormatChanged => [.callback .mediaCodecFormatChanged]
  | collectTake => [.collectTake]
  | collectHandle => [.collectHandle]
  | runStop i => [.runStop i]

end

/-- The packet that the peer sends, if it has any bytes. -/
def PeerMove.packet : PeerMove → Option Bytes
  | remoteCall (.btRfcommData data _) => if data = [] then none else some data
  | _ => none

/-- The request fits into a builder. -/
def PeerMove.Fits : PeerMove → Prop
  | remoteCall r => r.size + 2 ^ 17 ≤ maxBufferSize
  | _ => True

/-- The peer does not ask for Bluetooth to be disabled. -/
def PeerMove.LeavesBluetooth : PeerMove → Prop
  | remoteCall r => r.method ≠ .disableBluetooth
  | _ => True

section

variable {newStringUTF : Bytes → String}

/-- A request that fits ends in the callback that its handler is meant to call. -/
theorem Request.callback_eq {r : Request} (h : r.size + 2 ^ 17 ≤ maxBufferSize) :
    r.callback newStringUTF = r.handlerCall.bind (HandlerCall.toCallback newStringUTF) := by
  have hbuilt : ∃ buf, Builder.build r.create = some buf ∧
      r.method.wrapper buf = .ok (some r.handlerCall) := by
    cases r with
    | btRfcommData data length => exact BtRfcommData.round_trip data length h
    | carPlayAvailability wired usb wireless bluetooth =>
      exact CarPlayAvailability.round_trip wired usb wireless bluetooth h
    | stringRequest value => exact StringRequest.round_trip value h
    | bytesRequest value => exact BytesRequest.round_trip value h
  obtain ⟨buf, hbuild, hwrapper⟩ := hbuilt
  rw [Request.callback, hbuild, Option.bind_some, hwrapper]
  rfl

theorem PeerMove.packets_moves {l : PeerMove} (h : l.Fits) :
    packets (l.moves newStringUTF) = l.packet.toList := by
  cases l with
  | remoteCall r =>
    rw [moves, Request.callback_eq h]
    cases r with
    | btRfcommData data length =>
      rw [packet, Request.handlerCall]
      by_cases hdata : data = []
      · rw [if_pos hdata, if_pos hdata]
        rfl
      · rw [if_neg hdata, if_neg hdata]
        rfl
    | _ => rfl
  | _ => rfl

theorem PeerMove.keepsBluetooth {l : PeerMove} (h : l.Fits) (hl : l.LeavesBluetooth) :
    ∀ mv ∈ l.moves newStringUTF, KeepsBluetooth mv := by
  cases l with
  | remoteCall r =>
    rw [moves, Request.callback_eq h]
    cases r with
    | btRfcommData data length =>
      rw [Request.handlerCall]
      split <;> simp [HandlerCall.toCallback, KeepsBluetooth]
    | stringRequest value => exact absurd rfl hl
    | _ => simp [Request.handlerCall, HandlerCall.toCallback, KeepsBluetooth]
  | _ => simp [moves, KeepsBluetooth]

theorem packets_flatMap_moves {ls : List PeerMove} (hls : ∀ l ∈ ls, l.Fits) :
    packets (ls.flatMap (PeerMove.moves newStringUTF)) = ls.filterMap PeerMove.packet := by
  induction ls with
  | nil => rfl
  | cons l ls ih =>
    rw [List.forall_mem_cons] at hls
    have happend : ∀ a b : List Outbound.Move, packets (a ++ b) = packets a ++ packets b :=
      fun a b => List.filterMap_append
    rw [List.flatMap_cons, happend, PeerMove.packets_moves hls.1, ih hls.2, List.filterMap_cons]
    cases l.packet <;> rfl

/-- **What the peer sends reaches the phone.**  While `mBtRfcommDevice` is set and its
channel is connected, and the peer does not ask for Bluetooth to be disabled, what is
written to the channel is some of the packets of the peer's requests, in order and
each once; and once the flow is drained it is all of them exactly if no emission
found the flow full with a packet as the oldest value. -/
theorem peer_reaches_phone (newStringUTF : Bytes → String) (device : BluetoothDevice)
    (m : BluetoothRfcommManager) (c : ℕ) (hR : Ready device m c) (ls : List PeerMove)
    (hls : ∀ l ∈ ls, l.Fits) (hkeep : ∀ l ∈ ls, l.LeavesBluetooth) (t : Outbound.Pipeline)
    (h : Run.exec Outbound.step (Outbound.initial (some device) m)
      (ls.flatMap (PeerMove.moves newStringUTF)) = some t) :
    ∃ sent, writtenTo t.mBluetoothRfcommManager c = writtenTo m c ++ sent ∧
      sent.Sublist (ls.filterMap PeerMove.packet) ∧
      (t.rpc.Drained → (sent = ls.filterMap PeerMove.packet ↔
        Run.Along Outbound.step KeepsPackets (Outbound.initial (some device) m)
          (ls.flatMap (PeerMove.moves newStringUTF)))) := by
  have hkeeps : ∀ mv ∈ ls.flatMap (PeerMove.moves newStringUTF), KeepsBluetooth mv := by
    intro mv hmv
    obtain ⟨l, hl, hmv⟩ := List.mem_flatMap.mp hmv
    exact PeerMove.keepsBluetooth (hls l hl) (hkeep l hl) mv hmv
  have hS : Sent device m c t :=
    Run.exec_invariant (fun _ _ _ hS hmv hst => hS.step hmv hst) (Sent.initial hR)
      (Run.along_of_forall (fun l hl _ => hkeeps l hl) _) h
  have hpackets : t.rpc.emitted.filterMap packetOf = ls.filterMap PeerMove.packet := by
    rw [Outbound.emitted_eq_packets h, packets_flatMap_moves hls]
    rfl
  refine ⟨t.rpc.handled.filterMap packetOf, hS.written, ?_, fun hD => ?_⟩
  · rw [← hpackets]
    exact ((List.sublist_append_left _ _).trans t.rpc.kept_sublist).filterMap _
  · rw [← hpackets, ← hD.kept_eq, ← Collector.lossless_iff_filterMap]
    exact Run.exec_iff_along (fun _ _ _ hst => Outbound.lossless_step hst)
      (Collector.lossless_initial _) h

end

/-- A connected phone. -/
private def linked : BluetoothRfcommManager :=
  (BluetoothRfcommManager.initial.startRfcommTransportJob ⟨"AA:BB:CC:DD:EE:FF"⟩
    0x00000000DECAFADEDECADEAFDECACAFE#128 .success).2

private theorem ready_linked : Ready ⟨"AA:BB:CC:DD:EE:FF"⟩ linked 0 where
  found := by
    intro uuid hu
    obtain rfl := Option.some_inj.mp (uuidString2SUUID_IAP2_BT_DEVICE.symm.trans hu)
    rfl
  open_ := ⟨_, rfl, rfl, rfl⟩

/-- A packet of three bytes and one of none. -/
private def twoPackets : List PeerMove :=
  [.remoteCall (.btRfcommData [1, 0, 3] 3), .remoteCall (.btRfcommData [] 0), .collectTake,
    .collectHandle]

theorem peer_reaches_phone_two :
    ∃ t sent, Run.exec Outbound.step (Outbound.initial (some ⟨"AA:BB:CC:DD:EE:FF"⟩) linked)
        (twoPackets.flatMap (PeerMove.moves fun _ => "")) = some t ∧
      writtenTo t.mBluetoothRfcommManager 0 = writtenTo linked 0 ++ sent ∧
      sent.Sublist [[1, 0, 3]] := by
  have hfits : ∀ l ∈ twoPackets, l.Fits := by
    simp [twoPackets, PeerMove.Fits, Request.size, maxBufferSize_eq]
  have hkeep : ∀ l ∈ twoPackets, l.LeavesBluetooth := by
    simp [twoPackets, PeerMove.LeavesBluetooth, Request.method]
  obtain ⟨t, ht⟩ : ∃ t, Run.exec Outbound.step
      (Outbound.initial (some ⟨"AA:BB:CC:DD:EE:FF"⟩) linked)
      (twoPackets.flatMap (PeerMove.moves fun _ => "")) = some t := by
    have hfirst : (Request.btRfcommData [1, 0, 3] 3).callback (fun _ => "") =
        some (.callbackWithByteArray [1, 0, 3]) := Request.callback_eq (by decide)
    have hsecond : (Request.btRfcommData [] 0).callback (fun _ => "") = none :=
      Request.callback_eq (by decide)
    have hmoves : twoPackets.flatMap (PeerMove.moves fun _ => "") =
        [.callback (.callbackWithByteArray [1, 0, 3]), .collectTake, .collectHandle] := by
      rw [twoPackets, List.flatMap_cons, List.flatMap_cons, PeerMove.moves, PeerMove.moves,
        hfirst, hsecond]
      rfl
    rw [hmoves]
    exact ⟨_, rfl⟩
  obtain ⟨sent, hsent, hsublist, -⟩ := peer_reaches_phone (fun _ => "") ⟨"AA:BB:CC:DD:EE:FF"⟩
    linked 0 ready_linked twoPackets hfits hkeep t ht
  exact ⟨t, sent, ht, hsent, hsublist⟩

end Packets

/-! ### The touch reports -/

open Touch

/-- The report that the peer reads of the request that is made of a value. -/
def peerReport (x : NativeSide × BitVec 64) : Option (Report (BitVec 12)) :=
  (peerGets Int64Request.verify Int64Request.value (x.1.touchScreenHid x.2)).map decode

theorem peerReport_eq (x : NativeSide × BitVec 64) : peerReport x =
    if x.1.checkPeerRpcDialAvailable then some (decode x.2) else none := by
  rw [peerReport, NativeSide.touchScreenHid]
  split
  · rw [peerGets_eq (touchScreenHid_spec x.2)]
    rfl
  · rfl

/-- A report with its coordinates cut to twelve bits. -/
def cut (r : Report (BitVec 32)) : Report (BitVec 12) :=
  ⟨⟨r.touch1.state, r.touch1.x.setWidth 12, r.touch1.y.setWidth 12⟩,
    ⟨r.touch2.state, r.touch2.x.setWidth 12, r.touch2.y.setWidth 12⟩⟩

/-- The reports that the listener makes in a run. -/
def reports (ls : List HidPipeline.Move) : List (Report (BitVec 32)) :=
  ls.filterMap fun
    | .touch event => listener event
    | _ => none

/-- What is emitted is what the listener reports since the activity has bound the
service. -/
theorem emitted_sublist {ls : List HidPipeline.Move} {t : HidPipeline}
    (h : Run.exec HidPipeline.step HidPipeline.initial ls = some t) :
    t.ui.emitted.Sublist ((reports ls).map updateUiMotionEventChanged) := by
  refine Run.exec_history (R := fun ls t =>
    t.ui.emitted.Sublist ((reports ls).map updateUiMotionEventChanged)) ?_ (List.Sublist.refl _) h
  intro ls s m t hs hst
  have happ : reports (ls ++ [m]) = reports ls ++ reports [m] := List.filterMap_append
  rw [happ, List.map_append]
  cases m with
  | bound =>
    obtain rfl := Option.some_inj.mp hst
    exact hs.trans (List.sublist_append_left _ _)
  | touch event =>
    obtain ⟨fingers, -, hst⟩ := Option.bind_eq_some_iff.mp hst
    obtain ⟨r, hr, rfl⟩ := Option.map_eq_some_iff.mp hst
    have hone : reports [.touch event] = [r] := List.filterMap_cons_some hr
    rw [hone]
    show (if s.mUiServiceBinder then s.ui.tryEmit (updateUiMotionEventChanged r)
      else s.ui).emitted.Sublist _
    split
    · exact hs.append_right _
    · exact hs.trans (List.sublist_append_left _ _)
  | take =>
    obtain ⟨c, hc, rfl⟩ := Option.map_eq_some_iff.mp hst
    obtain ⟨_, -, -, -, -, he⟩ := Collector.of_take hc
    rw [he]
    exact hs.trans (List.sublist_append_left _ _)
  | handle =>
    obtain ⟨⟨v, c⟩, hc, rfl⟩ := Option.map_eq_some_iff.mp hst
    obtain ⟨-, -, -, -, he⟩ := Collector.of_handle hc
    rw [he]
    exact hs.trans (List.sublist_append_left _ _)

/-- The value that a step passes on. -/
def newValue (s : HidPipeline) : HidPipeline.Move → List (BitVec 64)
  | .handle => s.ui.holding.toList
  | _ => []

theorem touchScreenHid_step {s t : HidPipeline} {m : HidPipeline.Move}
    (h : HidPipeline.step s m = some t) :
    t.touchScreenHid = s.touchScreenHid ++ newValue s m := by
  cases m with
  | bound =>
    obtain rfl := Option.some_inj.mp h
    exact (List.append_nil _).symm
  | touch event =>
    obtain ⟨fingers, -, h⟩ := Option.bind_eq_some_iff.mp h
    obtain ⟨r, -, rfl⟩ := Option.map_eq_some_iff.mp h
    exact (List.append_nil _).symm
  | take =>
    obtain ⟨c, -, rfl⟩ := Option.map_eq_some_iff.mp h
    exact (List.append_nil _).symm
  | handle =>
    obtain ⟨⟨v, c⟩, hc, rfl⟩ := Option.map_eq_some_iff.mp h
    obtain ⟨hholding, -⟩ := Collector.of_handle hc
    rw [newValue, hholding]
    rfl

/-- The touch pipeline in front of `touchScreenHid`. -/
abbrev Touching := Ambient.System HidPipeline NativeSide (BitVec 64)

def touchingStep : Touching → Ambient.Move HidPipeline.Move NativeSide → Option Touching :=
  Ambient.step HidPipeline.step HidPipeline.touchScreenHid

/-- A value is passed on while the dial is started. -/
def DialedWhenHandled (s : Touching) : Ambient.Move HidPipeline.Move NativeSide → Prop
  | .inner .handle => s.env.checkPeerRpcDialAvailable
  | _ => True

theorem dialed_step {s t : Touching} {l : Ambient.Move HidPipeline.Move NativeSide}
    (h : touchingStep s l = some t) :
    (∀ x ∈ t.record, x.1.checkPeerRpcDialAvailable) ↔
      (∀ x ∈ s.record, x.1.checkPeerRpcDialAvailable) ∧ DialedWhenHandled s l := by
  cases l with
  | change native =>
    obtain rfl := Option.some_inj.mp h
    exact (and_iff_left trivial).symm
  | inner m =>
    obtain ⟨u, hu, hinner⟩ := Option.map_eq_some_iff.mp h
    have hvalues : t.inner.touchScreenHid = s.inner.touchScreenHid ++ newValue s.inner m := by
      rw [← hinner]
      exact touchScreenHid_step hu
    rw [Ambient.record_of_step h hvalues, List.forall_mem_append]
    refine and_congr_right fun _ => ?_
    cases m with
    | handle =>
      obtain ⟨⟨v, c⟩, hc, -⟩ := Option.map_eq_some_iff.mp hu
      obtain ⟨hholding, -⟩ := Collector.of_handle hc
      rw [newValue, hholding]
      exact List.forall_mem_singleton
    | _ => exact iff_of_true (fun x hx => absurd hx List.not_mem_nil) trivial

/-- **The touch reports reach the peer.**  In every run of gestures the peer reads one
report for each value that the collector passes on while the dial is started, so one
for every value exactly if none is passed on while it is not; these are some of the
listener's reports, in order and with their coordinates cut to twelve bits; and once
the buffer is drained after the end of a gesture, the last value passed on says that
no finger is down, and so does the last report if the dial was started then. -/
theorem touches_reach_peer (native : NativeSide)
    (ls : List (Ambient.Move HidPipeline.Move NativeSide)) (t : Touching)
    (h : Run.exec touchingStep ⟨HidPipeline.initial, native, []⟩ ls = some t) :
    t.record.map Prod.snd = t.inner.touchScreenHid ∧
      t.record.filterMap peerReport =
        (t.record.filter (·.1.checkPeerRpcDialAvailable)).map (fun x => decode x.2) ∧
      ((t.record.filterMap peerReport).length = t.inner.touchScreenHid.length ↔
        Run.Along touchingStep DialedWhenHandled ⟨HidPipeline.initial, native, []⟩ ls) ∧
      (t.record.filterMap peerReport).Sublist
        ((reports (ls.filterMap Ambient.Move.inner?)).map cut) ∧
      (t.inner.fingers = [] → t.inner.ui.Drained → t.inner.ui.emitted ≠ [] →
        ∃ last, t.record.getLast? = some last ∧ Released last.2 ∧
          (last.1.checkPeerRpcDialAvailable →
            ∃ r, (t.record.filterMap peerReport).getLast? = some r ∧
              r.touch1.state = false ∧ r.touch2.state = false)) := by
  have hinner := Ambient.exec_inner h
  have hI := HidPipeline.Inv.of_exec hinner
  have hvalues : t.record.map Prod.snd = t.inner.touchScreenHid :=
    Ambient.map_snd_record (fun _ _ _ hst => ⟨_, (touchScreenHid_step hst).symm⟩) rfl h
  have hreads : t.record.filterMap peerReport =
      (t.record.filter (·.1.checkPeerRpcDialAvailable)).map (fun x => decode x.2) := by
    rw [← List.filterMap_eq_map, List.filterMap_filter]
    exact List.filterMap_congr fun x _ => peerReport_eq x
  refine ⟨hvalues, hreads, ?_, ?_, fun hup hD hne => ?_⟩
  · rw [← Run.exec_iff_along (fun _ _ _ hst => dialed_step hst)
      (fun _ hx => absurd hx List.not_mem_nil) h, hreads, ← hvalues, List.length_map,
      List.length_map, List.length_filter_eq_length_iff]
  · have hcut : (reports (ls.filterMap Ambient.Move.inner?)).map cut =
        ((reports (ls.filterMap Ambient.Move.inner?)).map
          updateUiMotionEventChanged).map decode := by
      rw [List.map_map]
      exact List.map_congr_left fun r _ => (decode_updateUiMotionEventChanged r).symm
    have hpassed : t.inner.touchScreenHid.Sublist t.inner.ui.emitted := by
      rw [hI.passed]
      exact (List.sublist_append_left _ _).trans t.inner.ui.kept_sublist
    have hdialed : ((t.record.filter (·.1.checkPeerRpcDialAvailable)).map Prod.snd).Sublist
        t.inner.touchScreenHid := hvalues ▸ List.filter_sublist.map _
    have hsub := ((hdialed.trans hpassed).trans (emitted_sublist hinner)).map decode
    rw [List.map_map] at hsub
    rw [hreads, hcut]
    exact hsub
  · have hv := List.getLast?_eq_some_getLast hne
    have hlast : t.inner.touchScreenHid.getLast? = some (t.inner.ui.emitted.getLast hne) := by
      rw [hI.passed, ← hD.kept_eq, hI.last, hv]
    have hreleased := hI.released hup _ hv
    rw [← hvalues, List.getLast?_map] at hlast
    obtain ⟨last, hlast, hvlast⟩ := Option.map_eq_some_iff.mp hlast
    rw [← hvlast] at hreleased
    refine ⟨last, hlast, hreleased, fun hdial => ⟨decode last.2, ?_, hreleased⟩⟩
    -- the last value is among those that are read
    obtain ⟨pre, hpre⟩ := List.getLast?_eq_some_iff.mp hlast
    rw [hpre, List.filterMap_append,
      List.filterMap_cons_some ((peerReport_eq last).trans (if_pos hdial)), List.filterMap_nil,
      List.getLast?_concat]

/-- The dial starts; a finger comes down and lifts at `(10, 4100)`; then the collector
moves. -/
private def tapBelow : List (Ambient.Move HidPipeline.Move NativeSide) :=
  .change ⟨true, true⟩ :: (
    [.bound, .touch ⟨.ACTION_DOWN, 0, [⟨0, 10, 4100⟩]⟩, .touch ⟨.ACTION_UP, 0, [⟨0, 10, 4100⟩]⟩,
      .take, .handle, .take, .handle] : List HidPipeline.Move).map .inner

theorem touches_reach_peer_tap :
    ∃ t, Run.exec touchingStep ⟨HidPipeline.initial, ⟨false, true⟩, []⟩ tapBelow = some t ∧
      (t.record.filterMap peerReport).length = 2 ∧
      ∃ r, (t.record.filterMap peerReport).getLast? = some r ∧
        r.touch1.state = false ∧ r.touch2.state = false := by
  have h := touches_reach_peer ⟨false, true⟩ tapBelow _ rfl
  obtain ⟨last, hlast, -, hread⟩ := h.2.2.2.2 rfl ⟨rfl, rfl⟩ (by decide)
  refine ⟨_, rfl, congrArg List.length h.2.1, hread ?_⟩
  obtain rfl := Option.some_inj.mp hlast
  rfl

end Carplay.Rpc

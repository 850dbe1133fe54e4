/-
The iAP2 streams of several phones are kept apart exactly by the steps that are
in step.

* `ordered_onBonded_iff`, `ordered_read_iff`, `ordered_forwardEmit_iff` — what
  keeps the pending events in order;
* `Inv.step` — a step in step keeps the invariant;
* `OutOfOrder.exists_mixed`, `Astray.exists_mixed` — what is out of order, or read
  for the wrong phone, is mixed once the collectors get there;
* `streams_apart` — no run mixes anything whose steps are all in step, and from
  right after a step that is not some continuation does;
* `first_phone_reaches_second_link` — a chunk of the phone that bonded first.
-/
import GrpcJniClient.PhoneLinks

open SharedFlow

namespace Carplay.Links

open Carplay.Inbound Carplay.Rfcomm

namespace State

variable {s t : State} {device d : BluetoothDevice} {uuid : UUID} {event : BluetoothEvent}

/-! ### The pending events -/

theorem inOrder_append {xs ys : List BluetoothEvent} : s.InOrder (xs ++ ys) ↔
    s.InOrder xs ∧ Demux.InOrder bondedDevice chunkDevice (s.linkedAfter xs) ys :=
  Demux.inOrder_append

theorem bondedDevice_of_waiting {e : BluetoothEvent} (he : e ∈ s.waiting) :
    bondedDevice e = none := by
  obtain ⟨item, -, rfl⟩ := List.mem_map.mp he
  rfl

/-- Chunks do not change the link. -/
theorem linkedAfter_append_data {xs ys : List BluetoothEvent}
    (h : ∀ e ∈ ys, bondedDevice e = none) : s.linkedAfter (xs ++ ys) = s.linkedAfter xs := by
  rw [linkedAfter, Demux.current_append, Demux.current_data h]
  rfl

/-- What an emission leaves of the events that wait for the Bluetooth collector. -/
theorem items_tryEmit (s : State) (event : BluetoothEvent) :
    (s.bluetooth.tryEmit event).flow.items = s.spared ++ [event] :=
  Buffer.offer_items_concat s.bluetooth.flow event (by omega)

theorem ordered_onBonded_iff (h : s.step (.onBonded device) = some t) :
    t.InOrder t.pending ↔ s.InStep (.onBonded device) := by
  obtain rfl := Option.some_inj.mp h
  have hpending : pending { s with
      bluetooth := s.bluetooth.tryEmit (.bondChanged device BOND_STATE_BONDED) } =
      (s.held ++ s.spared) ++ (.bondChanged device BOND_STATE_BONDED :: s.waiting) := by
    rw [pending, items_tryEmit, List.append_assoc, List.append_assoc, List.append_assoc]
    rfl
  have hwaiting : Demux.InOrder bondedDevice chunkDevice (some device) s.waiting ↔
      ∀ e ∈ s.waiting, ∀ d, chunkDevice e = some d → d = device := by
    rw [Demux.inOrder_data fun e he => bondedDevice_of_waiting he]
    simp only [Option.some_inj, eq_comm]
  rw [hpending, InStep, InOrder, Demux.inOrder_append, Demux.inOrder_cons, ← hwaiting]
  exact and_congr_right fun _ => and_iff_right fun d hd => by cases hd

theorem ordered_forwardEmit_iff (h : s.step .forwardEmit = some t) :
    t.InOrder t.pending ↔ s.InStep .forwardEmit := by
  obtain ⟨⟨item, c⟩, hc, rfl⟩ := Option.map_eq_some_iff.mp h
  obtain ⟨hhold, hnone, hflow, -, -⟩ := Collector.of_handle hc
  have hpending : pending { s with rfcomm := c, bluetooth := s.bluetooth.tryEmit item.toEvent } =
      s.held ++ s.spared ++ s.waiting := by
    rw [pending, items_tryEmit, waiting, waiting, hhold]
    simp [hnone, hflow, held, Collector.tryEmit]
  rw [hpending]
  rfl

/-- Behind the pending events a chunk is in order exactly if its device will be
linked. -/
theorem ordered_read_iff {c : ℕ} {bytes : Bytes} (hs : s.InOrder s.pending)
    (h : s.step (.read c bytes) = some t) :
    t.InOrder t.pending ↔ s.InStep (.read c bytes) := by
  obtain ⟨ch, hch, h⟩ := Option.bind_eq_some_iff.mp h
  split_ifs at h with hjob hlen
  · obtain rfl := Option.some_inj.mp h
    set chunk : BluetoothRfcommChannelItem := ⟨ch.device, ch.uuid, bytes⟩ with hchunk
    set kept : List BluetoothEvent := (s.rfcomm.holding.toList ++
      s.rfcomm.flow.items.drop (s.rfcomm.flow.items.length + 1 - 5)).map (·.toEvent) with hkept
    have hsub : kept.Sublist s.waiting :=
      ((List.drop_sublist _ _).append_left _).map _
    have hpending : pending { s with rfcomm := s.rfcomm.tryEmit chunk } =
        (s.held ++ s.bluetooth.flow.items ++ kept) ++ [chunk.toEvent] := by
      have hitems : (s.rfcomm.tryEmit chunk).flow.items =
          s.rfcomm.flow.items.drop (s.rfcomm.flow.items.length + 1 - 5) ++ [chunk] :=
        Buffer.offer_items_concat s.rfcomm.flow chunk (by omega)
      rw [pending, waiting, hitems, hkept]
      simp [held, Collector.tryEmit]
    have hkeptInOrder : s.InOrder (s.held ++ s.bluetooth.flow.items ++ kept) :=
      Demux.InOrder.sublist_data (fun e he => bondedDevice_of_waiting he) hsub hs
    have hlinked : s.linkedAfter (s.held ++ s.bluetooth.flow.items ++ kept) =
        s.linkedAfter s.pending := by
      rw [pending, linkedAfter_append_data fun e he => bondedDevice_of_waiting he,
        linkedAfter_append_data fun e he => bondedDevice_of_waiting (hsub.subset he)]
    have hlast : Demux.InOrder bondedDevice chunkDevice (s.linkedAfter s.pending) [chunk.toEvent] ↔
        s.linkedAfter s.pending = some ch.device := by
      rw [Demux.inOrder_cons, and_iff_left Demux.inOrder_nil]
      exact ⟨fun h => h ch.device rfl, fun h d hd => h.trans hd⟩
    have hstep : s.InStep (.read c bytes) ↔ s.linkedAfter s.pending = some ch.device := by
      rw [InStep]
      constructor
      · intro hC
        exact hC hlen ch hch
      · intro hdev _ ch' hch'
        rwa [Option.some_inj.mp (hch'.symm.trans hch)]
    rw [hpending, hstep, ← hlast, ← hlinked]
    exact inOrder_append.trans (and_iff_right hkeptInOrder)
  · obtain rfl := Option.some_inj.mp h
    exact ⟨fun _ hpos => absurd hpos hlen, fun _ => hs⟩

theorem pending_forwardTake (h : s.step .forwardTake = some t) : t.pending = s.pending := by
  obtain ⟨c, hc, rfl⟩ := Option.map_eq_some_iff.mp h
  obtain ⟨item, hnone, hitems, hhold, -, -⟩ := Collector.of_take hc
  rw [pending, pending, waiting, waiting, hnone, hitems, hhold]
  rfl

theorem pending_bluetoothTake (hlinking : s.linking = false) (h : s.step .bluetoothTake = some t) :
    t.pending = s.pending := by
  obtain ⟨c, hc, rfl⟩ := Option.map_eq_some_iff.mp h
  obtain ⟨item, hnone, hitems, hhold, -, -⟩ := Collector.of_take hc
  rw [pending, pending, held, held, hlinking, hnone, hitems, hhold]
  rfl

/-- The link call takes the bond off the pending events. -/
theorem ordered_startBtIap2Link_iff (h : s.step .startBtIap2Link = some t) :
    t.InOrder t.pending ↔ s.InOrder s.pending := by
  rw [step] at h
  split_ifs at h with hlinking
  rw [Bool.not_eq_true] at hlinking
  obtain ⟨device, hdevice, rfl⟩ := Option.map_eq_some_iff.mp h
  obtain ⟨event, hhold, hevent⟩ := Option.bind_eq_some_iff.mp hdevice
  have hpending : s.pending = event :: (s.bluetooth.flow.items ++ s.waiting) := by
    rw [pending, held, hlinking, hhold]
    rfl
  have hchunk : ∀ d, chunkDevice event = some d → s.linked = some d := by
    intro d hd
    rw [bondedDevice_of_chunk hd] at hevent
    cases hevent
  rw [hpending, InOrder, InOrder, Demux.inOrder_cons, hevent, and_iff_right hchunk]
  rfl

/-- What handling an event passes on is not mixed if the event finds its link. -/
theorem receptions_iff : (∀ x ∈ s.receptions event, x.linked = some x.device) ↔
    ∀ d, chunkDevice event = some d → s.linked = some d := by
  rw [receptions, filterMap_collectBluetoothEvent]
  cases event with
  | rfcommTransform device uuid data => simp [chunkOf, chunkDevice]
  | _ => simp [chunkOf, chunkDevice]

/-- What the collector does with the first of the pending events. -/
theorem ordered_bluetoothHandle_iff (h : s.step .bluetoothHandle = some t) :
    ∃ event, t.received = s.received ++ s.receptions event ∧
      (s.InOrder s.pending ↔
        (∀ x ∈ s.receptions event, x.linked = some x.device) ∧ t.InOrder t.pending) := by
  obtain ⟨⟨event, c⟩, hc, h⟩ := Option.bind_eq_some_iff.mp h
  rw [Option.ite_none_right_eq_some, Option.some_inj] at h
  obtain ⟨hlinking, rfl⟩ := h
  obtain ⟨hhold, hnone, hflow, -, -⟩ := Collector.of_handle hc
  have hpending : (s.collected event c).pending = s.bluetooth.flow.items ++ s.waiting := by
    rw [pending, held, collected, hnone, hflow]
    rfl
  refine ⟨event, rfl, ?_⟩
  rw [hpending, receptions_iff]
  rcases hbonded : bondedDevice event with _ | device
  · rw [hbonded] at hlinking
    have hs : s.pending = event :: (s.bluetooth.flow.items ++ s.waiting) := by
      rw [pending, held, hlinking, hhold]
      rfl
    rw [hs, InOrder, Demux.inOrder_cons, hbonded]
    rfl
  · -- the bond has been acted on by the link call
    rw [hbonded] at hlinking
    have hs : s.pending = s.bluetooth.flow.items ++ s.waiting := by
      rw [pending, held, hlinking]
      rfl
    have hchunk : ∀ d, chunkDevice event = some d → s.linked = some d := by
      intro d hd
      rw [bondedDevice_of_chunk hd] at hbonded
      cases hbonded
    rw [hs, and_iff_right hchunk]
    rfl

/-! ### The outbound arrays -/

/-- A send writes exactly if a transport of its device is listed. -/
theorem send_cases (s : State) (d : BluetoothDevice) (uuid : UUID) (data : Bytes) :
    (s.mBluetoothRfcommManager.queryRfcommTransform d uuid).isSome = false ∧
        (s.send d uuid data).sent = s.sent ∨
      (s.mBluetoothRfcommManager.queryRfcommTransform d uuid).isSome = true ∧
        (s.send d uuid data).sent = s.sent ++ [⟨data, d, s.linked⟩] := by
  rcases hq : s.mBluetoothRfcommManager.queryRfcommTransform d uuid with _ | t
  · exact Or.inl ⟨rfl, by simp [send, hq]⟩
  · obtain ⟨ch, hch, hkey⟩ :=
      (Option.any_eq_true _ _).mp (BluetoothRfcommManager.keyed_of_query hq)
    obtain ⟨rfl, -⟩ := BluetoothRfcommManager.hasKey_iff.mp hkey
    exact Or.inr ⟨rfl, by simp [send, hq, hch]⟩

/-- What the RPC collector does with a packet. -/
theorem rpcHandle_cases (hpackets : ∀ e ∈ s.rpc.emitted, ∃ data, e = .iap2Data data)
    (h : s.step .rpcHandle = some t) : ∃ field data c, s.it = some field ∧
      s.rpc.handle = some (.iap2Data data, c) ∧
      t = match field with
        | some device =>
            { s with rpc := c, it := none }.send device 0x00000000DECAFADEDECADEAFDECACAFE#128 data
        | none => { s with rpc := c, it := none } := by
  obtain ⟨field, hit, h⟩ := Option.bind_eq_some_iff.mp h
  obtain ⟨⟨event, c⟩, hc, rfl⟩ := Option.map_eq_some_iff.mp h
  have hmem : event ∈ s.rpc.emitted := by
    refine s.rpc.inOrder.subset ?_
    rw [(Collector.of_handle hc).1]
    simp
  obtain ⟨data, rfl⟩ := hpackets event hmem
  refine ⟨field, data, c, hit, hc, ?_⟩
  cases field with
  | none => rfl
  | some device =>
    simp only [collectRpcEvent, uuidString2SUUID_IAP2_BT_DEVICE]
    rfl

/-- A transport that has just been started was to be started. -/
theorem Reaches.of_startTransport {k : ℕ} {o : ConnectOutcome}
    (hR : BluetoothRfcommManager.Registered s.mBluetoothRfcommManager)
    (h : s.step (.startTransport k o) = some t) (hd : t.Reaches d) : s.Reaches d := by
  obtain ⟨⟨device, u⟩, hk, rfl⟩ := Option.map_eq_some_iff.mp h
  obtain ⟨uuid, huuid, hd⟩ := hd
  refine ⟨uuid, huuid, ?_⟩
  rcases hd with hlisted | hlaunched
  · by_cases hkey : device = d ∧ u = uuid
    · obtain ⟨rfl, rfl⟩ := hkey
      exact Or.inr (List.mem_of_getElem? hk)
    · -- another key is listed as it was
      left
      have hstart : Rfcomm.step s.mBluetoothRfcommManager (.start device u o) =
        some (s.mBluetoothRfcommManager.startRfcommTransportJob device u o).2 := rfl
      have hcount : (s.mBluetoothRfcommManager.startRfcommTransportJob device u o).2.listedFor d uuid
          = s.mBluetoothRfcommManager.listedFor d uuid := by
        rw [hR.listedFor_step hstart]
        cases o with
        | success =>
          rw [RfcommOp.effect, if_neg hkey]
          rfl
        | _ => rfl
      rw [Option.isSome_iff_ne_none, Ne, ← BluetoothRfcommManager.listedFor_eq_zero_iff] at hlisted ⊢
      rwa [← hcount]
  · exact Or.inr (List.mem_of_mem_eraseIdx hlaunched)

/-! ### Steps in step -/

theorem Inv.initial : Inv initial where
  ordered := trivial
  linking := fun h => by cases h
  field := fun _ => rfl
  it := fun d h => by cases h
  holds := fun h => by cases h
  packets := fun e he => by cases he
  registered := BluetoothRfcommManager.Registered.initial
  unmixed := fun x hx => by cases hx

/-- The collector still holds the bond it has linked. -/
theorem Inv.bond (hs : s.Inv) (h : s.linking = true) :
    (s.bluetooth.holding.bind bondedDevice).isSome = true := by
  obtain ⟨hbond, hsome⟩ := hs.linking h
  rw [hbond]
  exact hsome

/-- A collector that holds nothing is not in the middle of a bond. -/
theorem not_linking_of_holding
    (hbond : s.linking = true → (s.bluetooth.holding.bind bondedDevice).isSome = true)
    (h : s.bluetooth.holding = none) : s.linking = false := by
  rw [← Bool.not_eq_true]
  -- in the middle of a bond the collector holds its event
  intro hlinking
  have hsome := hbond hlinking
  rw [h] at hsome
  cases hsome

theorem Inv.bluetoothTake (hs : s.Inv) (h : s.step .bluetoothTake = some t) : t.Inv := by
  obtain ⟨c, hc, ht⟩ := Option.map_eq_some_iff.mp h
  obtain ⟨event, hnone, -, -, -, -⟩ := Collector.of_take hc
  have hlinking := not_linking_of_holding hs.bond hnone
  have hpending := pending_bluetoothTake hlinking h
  subst ht
  exact { hs with
    ordered := hpending ▸ hs.ordered
    linking := fun hl => absurd (hlinking.symm.trans hl) (by decide) }

theorem Inv.startBtIap2Link (hs : s.Inv) (hC : s.InStep .startBtIap2Link)
    (h : s.step .startBtIap2Link = some t) : t.Inv := by
  have hordered := (ordered_startBtIap2Link_iff h).mpr hs.ordered
  rw [step] at h
  split_ifs at h with hlinking
  obtain ⟨device, hdevice, rfl⟩ := Option.map_eq_some_iff.mp h
  have hit : ∀ d, s.it = some (some d) → s.Reaches d → some device = some d := by
    intro d hit hd
    rw [hC device d hdevice hit hd]
  exact { hs with
    ordered := hordered
    linking := fun _ => ⟨hdevice, rfl⟩
    field := fun hl => absurd hl (by simp)
    it := hit }

theorem Inv.bluetoothHandle (hs : s.Inv) (h : s.step .bluetoothHandle = some t) : t.Inv := by
  obtain ⟨event', hreceived, hiff⟩ := ordered_bluetoothHandle_iff h
  obtain ⟨hreceptions, hordered⟩ := hiff.mp hs.ordered
  obtain ⟨⟨event, c⟩, hc, h⟩ := Option.bind_eq_some_iff.mp h
  rw [Option.ite_none_right_eq_some, Option.some_inj] at h
  obtain ⟨hlinking, rfl⟩ := h
  -- a bond that is handled has been linked
  have hlinked : ∀ device, bondedDevice event = some device → s.linked = some device := by
    intro device hdevice
    rw [hdevice] at hlinking
    have hbond := (hs.linking hlinking).1
    rwa [(Collector.of_handle hc).1, Option.bind_some, hdevice, eq_comm] at hbond
  -- the field keeps the device of the last bond that was handled
  have hfield : (collectBluetoothEvent s.mBtRfcommDevice event).1 = s.linked := by
    rw [collectBluetoothEvent_fst]
    rcases hbond : bondedDevice event with _ | device
    · rw [hbond] at hlinking
      rw [Option.none_or, hs.field hlinking]
    · rw [Option.some_or, hlinked device hbond]
  -- a transport that the handling launches is the linked device's
  have hit : ∀ d, s.it = some (some d) → (s.collected event c).Reaches d → s.linked = some d := by
    rintro d hit ⟨uuid, huuid, hlisted | hlaunched⟩
    · exact hs.it d hit ⟨uuid, huuid, Or.inl hlisted⟩
    · rw [collected, startOf_collectBluetoothEvent _ _ huuid] at hlaunched
      rcases List.mem_append.mp hlaunched with hold | hnew
      · exact hs.it d hit ⟨uuid, huuid, Or.inr hold⟩
      · obtain ⟨device, hdevice, hpair⟩ := Option.map_eq_some_iff.mp (Option.mem_toList.mp hnew)
        rw [Prod.mk.injEq] at hpair
        exact hpair.1 ▸ hlinked device hdevice
  -- the chunk of the event, if it has one, is among the next receptions
  have hunmixed : (s.collected event c).Unmixed := by
    intro x hx
    rw [hreceived] at hx
    rcases List.mem_append.mp hx with hx | hx
    · rcases List.mem_append.mp hx with hx | hx
      · exact hs.unmixed x (List.mem_append_left _ hx)
      · exact hreceptions x hx
    · exact hs.unmixed x (List.mem_append_right _ hx)
  exact { hs with
    ordered := hordered
    linking := fun hl => absurd hl (by simp [collected])
    field := fun _ => hfield
    it := hit
    unmixed := hunmixed }

/-- A send to the linked device, by a collector that has read no field since. -/
theorem Inv.send {data : Bytes} (hs : s.Inv) (hit : s.it = none)
    (hlinked : (s.mBluetoothRfcommManager.queryRfcommTransform d uuid).isSome = true →
      s.linked = some d) : (s.send d uuid data).Inv := by
  have hsend : Rfcomm.step s.mBluetoothRfcommManager (.send d uuid data) =
    some (s.mBluetoothRfcommManager.sendDataByRfcomm d uuid data) := rfl
  -- nothing is written unless the device is listed, and then it is the linked one
  have hunmixed : (s.send d uuid data).Unmixed := by
    intro x hx
    rcases send_cases s d uuid data with ⟨-, hsent⟩ | ⟨hq, hsent⟩
    · rw [hsent] at hx
      exact hs.unmixed x hx
    · rw [hsent, ← List.append_assoc] at hx
      rcases List.mem_append.mp hx with hx | hx
      · exact hs.unmixed x hx
      · obtain rfl := List.mem_singleton.mp hx
        exact hlinked hq
  exact { hs with
    it := fun d' hit' => absurd (hit.symm.trans hit') (by simp)
    registered := hs.registered.step hsend
    unmixed := hunmixed }

theorem Inv.rpcHandle (hs : s.Inv) (h : s.step .rpcHandle = some t) : t.Inv := by
  obtain ⟨field, data, c, hit, hc, rfl⟩ := rpcHandle_cases hs.packets h
  obtain ⟨-, -, -, -, hemitted⟩ := Collector.of_handle hc
  have hpackets : ∀ e ∈ c.emitted, ∃ data, e = RpcEvent.iap2Data data := hemitted ▸ hs.packets
  have hread : ({ s with rpc := c, it := none } : State).Inv := by
    exact { hs with
      it := fun d h => absurd h (by simp)
      holds := fun h => absurd h (by simp)
      packets := hpackets }
  cases field with
  | none => exact hread
  | some device =>
    refine hread.send rfl ?_
    intro hlisted
    exact hs.it device hit ⟨_, uuidString2SUUID_IAP2_BT_DEVICE, Or.inl hlisted⟩

theorem Inv.startTransport {k : ℕ} {o : ConnectOutcome} (hs : s.Inv)
    (h : s.step (.startTransport k o) = some t) : t.Inv := by
  -- a transport that comes up was launched before
  have hreaches : ∀ d, t.Reaches d → s.Reaches d := fun d hd => hd.of_startTransport hs.registered h
  obtain ⟨⟨device, u⟩, -, rfl⟩ := Option.map_eq_some_iff.mp h
  have hstart : Rfcomm.step s.mBluetoothRfcommManager (.start device u o) =
    some (s.mBluetoothRfcommManager.startRfcommTransportJob device u o).2 := rfl
  exact { hs with
    it := fun d hit hd => hs.it d hit (hreaches d hd)
    registered := hs.registered.step hstart }

/-- A step in step keeps the streams apart. -/
theorem Inv.step {l : Label} (hs : s.Inv) (hC : s.InStep l) (h : s.step l = some t) : t.Inv := by
  cases l with
  | onBonded device =>
    have hordered := (ordered_onBonded_iff h).mpr hC
    obtain rfl := Option.some_inj.mp h
    exact { hs with ordered := hordered }
  | read c bytes =>
    have hordered := (ordered_read_iff hs.ordered h).mpr hC
    obtain ⟨ch, -, h⟩ := Option.bind_eq_some_iff.mp h
    split_ifs at h with hjob hlen
    · obtain rfl := Option.some_inj.mp h
      exact { hs with ordered := hordered }
    · obtain rfl := Option.some_inj.mp h
      exact hs
  | forwardTake =>
    have hpending := pending_forwardTake h
    obtain ⟨c, -, rfl⟩ := Option.map_eq_some_iff.mp h
    exact { hs with ordered := hpending ▸ hs.ordered }
  | forwardEmit =>
    have hordered := (ordered_forwardEmit_iff h).mpr hC
    obtain ⟨⟨item, c⟩, -, rfl⟩ := Option.map_eq_some_iff.mp h
    exact { hs with ordered := hordered }
  | bluetoothTake => exact hs.bluetoothTake h
  | startBtIap2Link => exact hs.startBtIap2Link hC h
  | bluetoothHandle => exact hs.bluetoothHandle h
  | callbackWithByteArray data =>
    obtain rfl := Option.some_inj.mp h
    have hpackets : ∀ e ∈ s.rpc.emitted ++ [.iap2Data data], ∃ data, e = RpcEvent.iap2Data data := by
      intro e he
      rcases List.mem_append.mp he with he | he
      · exact hs.packets e he
      · exact ⟨data, List.mem_singleton.mp he⟩
    exact { hs with packets := hpackets }
  | rpcTake =>
    obtain ⟨c, hc, rfl⟩ := Option.map_eq_some_iff.mp h
    obtain ⟨e, -, -, hhold, -, hemitted⟩ := Collector.of_take hc
    have hsome : c.holding.isSome = true := by
      rw [hhold]
      rfl
    exact { hs with holds := fun _ => hsome, packets := hemitted ▸ hs.packets }
  | readDevice =>
    rw [State.step, Option.ite_none_right_eq_some, Option.some_inj] at h
    obtain ⟨⟨hhold, -⟩, rfl⟩ := h
    exact { hs with
      it := fun d hit hd => hC d (Option.some_inj.mp hit) hd
      holds := fun _ => hhold }
  | rpcHandle => exact hs.rpcHandle h
  | startTransport k o => exact hs.startTransport h

/-! ### What a step out of step leads to -/

/-- How far the pending events still have to go. -/
def distance (s : State) : ℕ :=
  5 * s.rfcomm.flow.items.length + 4 * s.rfcomm.holding.toList.length +
    3 * s.bluetooth.flow.items.length +
    if s.linking then 1 else 2 * s.bluetooth.holding.toList.length

/-- Some pending event will not find its link. -/
structure OutOfOrder (s : State) : Prop where
  disordered : ¬ s.InOrder s.pending
  linking : s.linking = true → (s.bluetooth.holding.bind bondedDevice).isSome = true

/-- The step can be taken, and it mixes a chunk or brings one nearer to that. -/
def Advances (s : State) (l : Label) : Prop :=
  ∃ t, s.step l = some t ∧ (¬ t.Unmixed ∨ t.OutOfOrder ∧ t.distance < s.distance)

theorem OutOfOrder.forwardTake (hs : s.OutOfOrder) (hnone : s.rfcomm.holding = none)
    (hne : s.rfcomm.flow.items ≠ []) : s.Advances .forwardTake := by
  obtain ⟨c, hc⟩ := Collector.exists_take hnone hne
  have hstep : s.step .forwardTake = some { s with rfcomm := c } := by
    rw [step, hc]
    rfl
  have hpending := pending_forwardTake hstep
  obtain ⟨item, -, hitems, hhold, -, -⟩ := Collector.of_take hc
  refine ⟨_, hstep, Or.inr ⟨⟨hpending ▸ hs.disordered, hs.linking⟩, ?_⟩⟩
  simp only [distance, hnone, hitems, hhold, Option.toList_none, Option.toList_some,
    List.length_nil, List.length_cons]
  omega

/-- With nothing before it, the next chunk is forwarded into an empty flow. -/
theorem OutOfOrder.forwardEmit {item : BluetoothRfcommChannelItem} (hs : s.OutOfOrder)
    (hhold : s.rfcomm.holding = some item) (hempty : s.bluetooth.flow.items = []) :
    s.Advances .forwardEmit := by
  obtain ⟨c, hc⟩ := Collector.exists_handle hhold
  have hstep : s.step .forwardEmit =
      some { s with rfcomm := c, bluetooth := s.bluetooth.tryEmit item.toEvent } := by
    rw [step, hc]
    rfl
  -- the flow is empty, so the new event drops nothing
  have hspared : s.spared = s.bluetooth.flow.items := by
    rw [spared, hempty]
    rfl
  have hdisordered : ¬ s.InStep .forwardEmit := by
    rw [InStep, hspared]
    exact hs.disordered
  obtain ⟨-, hnone, hflow, -, -⟩ := Collector.of_handle hc
  refine ⟨_, hstep, Or.inr ⟨⟨mt (ordered_forwardEmit_iff hstep).mp hdisordered, hs.linking⟩, ?_⟩⟩
  have hbluetooth : (s.bluetooth.tryEmit item.toEvent).holding = s.bluetooth.holding := rfl
  simp only [distance, items_tryEmit, hspared, hempty, hhold, hnone, hflow, hbluetooth,
    Option.toList_none, Option.toList_some, List.nil_append, List.length_nil, List.length_singleton]
  omega

theorem OutOfOrder.bluetoothTake (hs : s.OutOfOrder) (hnone : s.bluetooth.holding = none)
    (hne : s.bluetooth.flow.items ≠ []) : s.Advances .bluetoothTake := by
  have hlinking := not_linking_of_holding hs.linking hnone
  obtain ⟨c, hc⟩ := Collector.exists_take hnone hne
  have hstep : s.step .bluetoothTake = some { s with bluetooth := c } := by
    rw [step, hc]
    rfl
  have hpending := pending_bluetoothTake hlinking hstep
  obtain ⟨event, -, hitems, hhold, -, -⟩ := Collector.of_take hc
  refine ⟨_, hstep, Or.inr ⟨⟨hpending ▸ hs.disordered, fun hl => ?_⟩, ?_⟩⟩
  · exact absurd (hlinking.symm.trans hl) Bool.false_ne_true
  · simp only [distance, hlinking, hnone, hitems, hhold, Option.toList_none, Option.toList_some,
      List.length_nil, List.length_cons, Bool.false_eq_true, if_false]
    omega

theorem OutOfOrder.startBtIap2Link (hs : s.OutOfOrder) (hlinking : s.linking = false)
    (hhold : s.bluetooth.holding = some event) (hbond : bondedDevice event = some device) :
    s.Advances .startBtIap2Link := by
  have hstep : s.step .startBtIap2Link =
      some { s with linking := true, linked := some device } := by
    rw [step, hlinking, if_neg Bool.false_ne_true, hhold, Option.bind_some, hbond]
    rfl
  refine ⟨_, hstep, Or.inr ⟨⟨mt (ordered_startBtIap2Link_iff hstep).mp hs.disordered, ?_⟩, ?_⟩⟩
  · intro _
    show (s.bluetooth.holding.bind bondedDevice).isSome = true
    rw [hhold, Option.bind_some, hbond]
    rfl
  · simp only [distance, hlinking, hhold, Option.toList_some, List.length_singleton,
      Bool.false_eq_true, if_false, if_true]
    omega

/-- Handling an event passes on a mixed chunk, or leaves the rest out of order. -/
theorem OutOfOrder.bluetoothHandle (hs : s.OutOfOrder) (hhold : s.bluetooth.holding = some event)
    (hlinking : s.linking = (bondedDevice event).isSome) : s.Advances .bluetoothHandle := by
  obtain ⟨c, hc⟩ := Collector.exists_handle hhold
  have hstep : s.step .bluetoothHandle = some (s.collected event c) := by
    rw [step, hc, Option.bind_some]
    exact if_pos hlinking
  refine ⟨_, hstep, ?_⟩
  obtain ⟨event', hreceived, hiff⟩ := ordered_bluetoothHandle_iff hstep
  -- either what is handled now is mixed already, or what comes later will be
  by_cases hmixed : ∀ x ∈ s.receptions event', x.linked = some x.device
  · right
    refine ⟨⟨fun hordered => hs.disordered (hiff.mpr ⟨hmixed, hordered⟩), fun hl => by cases hl⟩, ?_⟩
    obtain ⟨-, hnone, hflow, -, -⟩ := Collector.of_handle hc
    simp only [distance, collected, hnone, hflow, hhold, Option.toList_none, Option.toList_some,
      List.length_nil, List.length_singleton, Bool.false_eq_true, if_false]
    split <;> omega
  · left
    intro hunmixed
    refine hmixed fun x hx => hunmixed x (List.mem_append_left _ ?_)
    rw [hreceived]
    exact List.mem_append_right _ hx

/-- The collectors can move on until a chunk is mixed. -/
theorem OutOfOrder.exists_advances (hs : s.OutOfOrder) : ∃ l, s.Advances l := by
  rcases hhold : s.bluetooth.holding with _ | event
  · by_cases hitems : s.bluetooth.flow.items = []
    · rcases hrfcomm : s.rfcomm.holding with _ | item
      · refine ⟨.forwardTake, hs.forwardTake hrfcomm fun hchunks => ?_⟩
        -- something is pending
        refine hs.disordered ?_
        rw [pending, held, not_linking_of_holding hs.linking hhold, hhold, hitems, waiting, hrfcomm,
          hchunks]
        trivial
      · exact ⟨.forwardEmit, hs.forwardEmit hrfcomm hitems⟩
    · exact ⟨.bluetoothTake, hs.bluetoothTake hhold hitems⟩
  · rcases hlinking : s.linking with _ | _
    · rcases hbond : bondedDevice event with _ | device
      · exact ⟨.bluetoothHandle, hs.bluetoothHandle hhold (by rw [hlinking, hbond]; rfl)⟩
      · exact ⟨.startBtIap2Link, hs.startBtIap2Link hlinking hhold hbond⟩
    · have hsome := hs.linking hlinking
      rw [hhold, Option.bind_some] at hsome
      exact ⟨.bluetoothHandle, hs.bluetoothHandle hhold (hlinking.trans hsome.symm)⟩

theorem OutOfOrder.exists_mixed (hs : s.OutOfOrder) :
    ∃ ls u, Run.exec step s ls = some u ∧ ¬ u.Unmixed :=
  Run.exists_exec_of_measure distance (fun _ hI => hI.exists_advances) hs

/-- The RPC collector is about to send to a phone that is not the linked one. -/
structure Astray (s : State) (device : BluetoothDevice) : Prop where
  it : s.it = some (some device)
  reaches : s.Reaches device
  linked : s.linked ≠ some device
  holds : s.rpc.holding.isSome = true
  packets : ∀ e ∈ s.rpc.emitted, ∃ data, e = .iap2Data data

/-- A packet for a listed transport is written astray. -/
theorem Astray.rpcHandle (hs : s.Astray device) (huuid : uuidString2SUUID IAP2_BT_DEVICE = some uuid)
    (hq : (s.mBluetoothRfcommManager.queryRfcommTransform device uuid).isSome = true) :
    ∃ t, s.step .rpcHandle = some t ∧ ¬ t.Unmixed := by
  obtain ⟨event, hhold⟩ := Option.isSome_iff_exists.mp hs.holds
  obtain ⟨c, hc⟩ := Collector.exists_handle hhold
  obtain ⟨t, ht⟩ : ∃ t, s.step .rpcHandle = some t := by
    rw [step, hs.it, hc]
    exact ⟨_, rfl⟩
  refine ⟨t, ht, fun hunmixed => hs.linked ?_⟩
  obtain ⟨field, data, c', hit, -, rfl⟩ := rpcHandle_cases hs.packets ht
  obtain rfl := Option.some_inj.mp (hit.symm.trans hs.it)
  obtain rfl := Option.some_inj.mp (huuid.symm.trans uuidString2SUUID_IAP2_BT_DEVICE)
  -- the device is listed, so the packet is written to it and not to the linked one
  rcases send_cases { s with rpc := c', it := none } device _ data with ⟨hnone, -⟩ | ⟨-, hsent⟩
  · exact absurd (hq.symm.trans hnone) (by decide)
  · refine hunmixed ⟨data, device, s.linked⟩ (List.mem_append_right _ ?_)
    exact hsent ▸ List.mem_append_right _ (List.mem_singleton_self _)

/-- A start that connects lists its device. -/
theorem isSome_query_start (m : BluetoothRfcommManager) (device : BluetoothDevice) (uuid : UUID) :
    ((m.startRfcommTransportJob device uuid .success).2.queryRfcommTransform
      device uuid).isSome = true := by
  rw [Option.isSome_iff_ne_none]
  intro hnone
  have hkeyed := BluetoothRfcommManager.query_eq_none.mp hnone ⟨m.channels.length⟩
    (List.mem_append_right _ (List.mem_singleton_self _))
  have hnew : (m.startRfcommTransportJob device uuid .success).2.channels[m.channels.length]? =
      some ((BluetoothRfcommChannel.new device uuid).connect .success).2.readLoop :=
    List.getElem?_concat_length
  rw [BluetoothRfcommManager.keyed, hnew, Option.any_some, Bool.eq_false_iff] at hkeyed
  exact hkeyed (BluetoothRfcommManager.hasKey_iff.mpr ⟨rfl, rfl⟩)

/-- The transport comes up, if it is not listed yet, and the packet goes astray. -/
theorem Astray.exists_mixed (hs : s.Astray device) :
    ∃ ls u, Run.exec step s ls = some u ∧ ¬ u.Unmixed := by
  obtain ⟨uuid, huuid, hlisted | hlaunched⟩ := hs.reaches
  · obtain ⟨t, ht, hmixed⟩ := hs.rpcHandle huuid hlisted
    exact ⟨[.rpcHandle], t, by rw [Run.exec_cons, ht]; rfl, hmixed⟩
  · obtain ⟨k, hk⟩ := List.mem_iff_getElem?.mp hlaunched
    obtain ⟨t, ht, htR⟩ : ∃ t, s.step (.startTransport k .success) = some t ∧ t =
        { s with
          launched := s.launched.eraseIdx k
          mBluetoothRfcommManager :=
            (s.mBluetoothRfcommManager.startRfcommTransportJob device uuid .success).2 } := by
      rw [step, hk]
      exact ⟨_, rfl, rfl⟩
    have hq : (t.mBluetoothRfcommManager.queryRfcommTransform device uuid).isSome = true := by
      rw [htR]
      exact isSome_query_start _ _ _
    -- the start changes the manager only
    have hastray : t.Astray device := by
      refine ⟨?_, ⟨uuid, huuid, Or.inl hq⟩, ?_, ?_, ?_⟩
      · rw [htR, ← hs.it]
      · rw [htR]
        exact hs.linked
      · rw [htR]
        exact hs.holds
      · rw [htR]
        exact hs.packets
    obtain ⟨u, hu, hmixed⟩ := hastray.rpcHandle huuid hq
    refine ⟨[.startTransport k .success, .rpcHandle], u, ?_, hmixed⟩
    rw [Run.exec_cons, ht, Option.bind_some, Run.exec_cons, hu]
    rfl

/-- From right after a step out of step the collectors can mix the streams. -/
theorem Inv.exists_mixed {l : Label} (hs : s.Inv) (hC : ¬ s.InStep l) (h : s.step l = some t) :
    ∃ ls u, Run.exec State.step t ls = some u ∧ ¬ u.Unmixed := by
  cases l with
  | onBonded device =>
    have hordered := mt (ordered_onBonded_iff h).mp hC
    obtain rfl := Option.some_inj.mp h
    exact OutOfOrder.exists_mixed ⟨hordered, hs.bond⟩
  | read c bytes =>
    have hordered := mt (ordered_read_iff hs.ordered h).mp hC
    obtain ⟨ch, -, h⟩ := Option.bind_eq_some_iff.mp h
    split_ifs at h with hjob hlen
    · obtain rfl := Option.some_inj.mp h
      exact OutOfOrder.exists_mixed ⟨hordered, hs.bond⟩
    · exact absurd (fun hpos => absurd hpos hlen) hC
  | forwardEmit =>
    have hordered := mt (ordered_forwardEmit_iff h).mp hC
    obtain ⟨⟨item, c⟩, -, rfl⟩ := Option.map_eq_some_iff.mp h
    exact OutOfOrder.exists_mixed ⟨hordered, hs.bond⟩
  | startBtIap2Link =>
    simp only [InStep, not_forall] at hC
    obtain ⟨device, d, hbond, hit, hreaches, hne⟩ := hC
    rw [State.step] at h
    split_ifs at h
    rw [hbond, Option.map_some, Option.some_inj] at h
    subst h
    -- linking another phone does not reach the field that was read
    have hastray : Astray { s with linking := true, linked := some device } d :=
      ⟨hit, hreaches, fun heq => hne (Option.some_inj.mp heq).symm, hs.holds (hit ▸ rfl), hs.packets⟩
    exact hastray.exists_mixed
  | readDevice =>
    simp only [InStep, not_forall] at hC
    obtain ⟨d, hfield, hreaches, hne⟩ := hC
    rw [State.step, Option.ite_none_right_eq_some, Option.some_inj] at h
    obtain ⟨⟨hholds, -⟩, rfl⟩ := h
    have hastray : Astray { s with it := some s.mBtRfcommDevice } d :=
      ⟨congrArg some hfield, hreaches, hne, hholds, hs.packets⟩
    exact hastray.exists_mixed
  | _ => exact absurd trivial hC

end State

open State

/-- **The streams of different phones.**  No run mixes anything whose steps are
all in step: each array passed to `receiveBtIap2DataBinder` was read from, and
each array sent was written to, the phone of the most recent link.  And if a step
of a run is not, from right after the first such step the run can go on to mix an
array. -/
theorem streams_apart (ls : List Label) :
    (Run.Along State.step InStep State.initial ls →
      ∀ s, Run.Reached State.step State.initial ls s → s.Unmixed) ∧
    ((Run.exec State.step State.initial ls).isSome = true →
      ¬ Run.Along State.step InStep State.initial ls →
      Run.Strays State.step InStep (fun s => ¬ s.Unmixed) State.initial ls) := by
  have keep : ∀ s l t, s.Inv → s.InStep l → State.step s l = some t → t.Inv :=
    fun _ _ _ hs hC h => hs.step hC h
  exact Run.forall_reached_and_strays (fun _ hs => hs.unmixed) keep
    (fun _ _ _ hs hC h => hs.exists_mixed hC h) Inv.initial

/-- The phone bonds, is linked, and its transport comes up. -/
private def bondAndLink (device : BluetoothDevice) : List Label :=
  [.onBonded device, .bluetoothTake, .startBtIap2Link, .bluetoothHandle, .startTransport 0 .success]

/-- The phone sends a byte, and is sent one. -/
private def bothWays : List Label :=
  bondAndLink ⟨"AA"⟩ ++ [.read 0 [1], .forwardTake, .forwardEmit, .bluetoothTake,
    .bluetoothHandle, .callbackWithByteArray [2], .rpcTake, .readDevice, .rpcHandle]

/-- Both bytes are passed on, to and from the phone that is linked. -/
theorem streams_apart_bothWays :
    Run.Along State.step InStep State.initial bothWays ∧
      ∃ s, Run.exec State.step State.initial bothWays = some s ∧
        s.received.map (·.data) = [[1]] ∧ s.sent.map (·.data) = [[2]] ∧ s.Unmixed := by
  have hinStep : Run.Along State.step InStep State.initial bothWays := by decide +kernel
  obtain ⟨s, hs, hreceived, hsent⟩ : ∃ s, Run.exec State.step State.initial bothWays = some s ∧
      s.received.map (·.data) = [[1]] ∧ s.sent.map (·.data) = [[2]] := ⟨_, rfl, rfl, rfl⟩
  exact ⟨hinStep, s, hs, hreceived, hsent,
    (streams_apart bothWays).1 hinStep s (Run.reached_of_exec hs)⟩

/-- Two phones bond one after the other, and then the first one sends a byte. -/
private def firstPhoneSends : List Label :=
  bondAndLink ⟨"AA"⟩ ++ bondAndLink ⟨"BB"⟩ ++
    [.read 0 [1], .forwardTake, .forwardEmit, .bluetoothTake, .bluetoothHandle]

/-- **The first phone's byte reaches the second phone's link.** -/
theorem first_phone_reaches_second_link :
    ¬ ∀ (ls : List Label) (s : State), Run.exec State.step State.initial ls = some s →
      s.Unmixed := by
  intro h
  have hcheck : (Run.exec State.step State.initial firstPhoneSends).any (fun s =>
      s.received == [⟨[1], ⟨"AA"⟩, some ⟨"BB"⟩⟩]) = true := by rfl
  obtain ⟨s, hs, hreceived⟩ := (Option.any_eq_true _ _).mp hcheck
  rw [beq_iff_eq] at hreceived
  have hx := h _ s hs ⟨[1], ⟨"AA"⟩, some ⟨"BB"⟩⟩ (by rw [hreceived]; exact List.mem_cons_self)
  exact absurd hx (by decide)

end Carplay.Links

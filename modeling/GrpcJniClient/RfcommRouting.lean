/-
Where `sendDataByRfcomm` sends.

The list of transforms is searched from its old end, nothing removes a
transform whose peer has dropped the link, and nothing stops a second start for
a key that is already listed.  So a send reaches the latest live channel of its
key exactly as long as every start that connects finds its key unlisted:

* `ListedExactly` — the invariant of such runs: the list holds one transform for
  a key, and every live channel is listed;
* `Registered.listedFor_le_one` — each operation keeps it;
* `sends_routed_iff_starts_fresh` — the equivalence, over every run;
* `sends_of_run_routed` — so it is with the sends that such a run makes;
* `reconnect_sends_to_dead_link` — a reconnect after a drop sends into the old
  link.
-/
import GrpcJniClient.RfcommList

namespace Carplay.Rfcomm

namespace BluetoothRfcommManager

/-- Channel `c` belongs to the key, is connected and not dropped by its peer. -/
def AliveAt (m : BluetoothRfcommManager) (device : BluetoothDevice) (uuid : UUID) (c : ℕ) : Prop :=
  ∃ ch, m.channels[c]? = some ch ∧ ch.hasKey device uuid = true ∧ ch.alive = true

/-- `c` is the most recently started live channel of the key. -/
def IsLatestAlive (m : BluetoothRfcommManager) (device : BluetoothDevice) (uuid : UUID)
    (c : ℕ) : Prop :=
  m.AliveAt device uuid c ∧ ∀ c', m.AliveAt device uuid c' → c' ≤ c

/-- Between `m` and `m'`, `data` has been written to channel `c` and no other
channel object has been touched. -/
structure WrittenOnlyTo (m m' : BluetoothRfcommManager) (c : ℕ) (data : Bytes) : Prop where
  written : (m'.channels[c]?).map (·.written) = (m.channels[c]?).map (·.written ++ [data])
  others : ∀ i, i ≠ c → m'.channels[i]? = m.channels[i]?

/-- In the state `m` any send for a key with a live channel goes to the latest
of them and nowhere else. -/
def SendsRouted (m : BluetoothRfcommManager) : Prop :=
  ∀ device uuid data c, m.IsLatestAlive device uuid c →
    WrittenOnlyTo m (m.sendDataByRfcomm device uuid data) c data

/-- A start that connects finds no transform of its key in the list. -/
def StartFresh (m : BluetoothRfcommManager) : RfcommOp → Prop
  | .start device uuid .success => m.queryRfcommTransform device uuid = none
  | _ => True

/-! ### The invariant of runs whose starts are fresh -/

/-- The list of transforms says exactly which channels are in use. -/
structure ListedExactly (m : BluetoothRfcommManager) : Prop where
  /-- A listed channel object exists and holds its socket and output stream. -/
  holds : ∀ t ∈ m.rfcommTransformList, ∃ ch, m.channels[t.channel]? = some ch ∧
    ch.mSocket = true ∧ ch.mOutput = true
  /-- A live channel is listed. -/
  listed : ∀ c ch, m.channels[c]? = some ch → ch.alive = true → ⟨c⟩ ∈ m.rfcommTransformList
  /-- A key is listed once. -/
  unique : ∀ device uuid, ∀ t ∈ m.rfcommTransformList, ∀ t' ∈ m.rfcommTransformList,
    m.keyed device uuid t = true → m.keyed device uuid t' = true → t = t'
  nodup : m.rfcommTransformList.Nodup

/-- A manager whose keys are each listed at most once. -/
theorem Registered.listedExactly {m : BluetoothRfcommManager} (hR : Registered m)
    (hle : ∀ device uuid, m.listedFor device uuid ≤ 1) : ListedExactly m where
  holds := by
    intro t ht
    obtain ⟨ch, hch, hs, ho, -⟩ := hR.holds t ht
    exact ⟨ch, hch, hs, ho⟩
  listed := fun c ch hch ha => hR.listed c ch hch (BluetoothRfcommChannel.isOpen_of_alive ha)
  unique := by
    intro device uuid t ht t' ht' hk hk'
    have hlen := hle device uuid
    rw [listedFor, List.countP_eq_length_filter] at hlen
    have hmem := List.mem_filter.mpr ⟨ht, hk⟩
    have hmem' := List.mem_filter.mpr ⟨ht', hk'⟩
    obtain ⟨x, hx⟩ := List.length_eq_one_iff.mp
      (Nat.le_antisymm hlen (List.length_pos_of_mem hmem))
    rw [hx, List.mem_singleton] at hmem hmem'
    exact hmem.trans hmem'.symm
  nodup := hR.nodup

/-- A fresh start lists a key that was not listed. -/
theorem Registered.listedFor_le_one {m m' : BluetoothRfcommManager} {op : RfcommOp}
    (hR : Registered m) (hle : ∀ device uuid, m.listedFor device uuid ≤ 1)
    (hfresh : StartFresh m op) (h : Rfcomm.step m op = some m') (device : BluetoothDevice) (uuid : UUID) :
    m'.listedFor device uuid ≤ 1 := by
  rw [hR.listedFor_step h]
  have hone := hle device uuid
  cases op with
  | start d u o =>
    cases o with
    | success =>
      rw [RfcommOp.effect]
      split
      · rename_i hkey
        obtain ⟨rfl, rfl⟩ := hkey
        rw [listedFor_eq_zero_iff.mpr hfresh]
        exact Nat.le_refl _
      · exact hone
    | _ => exact hone
  | stop d u =>
    rw [RfcommOp.effect]
    split
    · exact (Nat.sub_le _ _).trans hone
    · exact hone
  | send d u data => exact hone
  | peerClose c => exact hone

/-! ### Routing -/

/-- Under the invariant every send is routed right. -/
theorem ListedExactly.sendsRouted {m : BluetoothRfcommManager} (hI : ListedExactly m) :
    SendsRouted m := by
  rintro device uuid data c ⟨⟨ch, hch, hkey, halive⟩, -⟩
  have hmem := hI.listed c ch hch halive
  have hk : m.keyed device uuid ⟨c⟩ = true := by
    unfold keyed
    rw [hch, Option.any_some, hkey]
  have hq : m.queryRfcommTransform device uuid = some ⟨c⟩ := by
    rcases hq : m.queryRfcommTransform device uuid with _ | t
    · rw [query_eq_none.mp hq ⟨c⟩ hmem] at hk
      exact absurd hk Bool.false_ne_true
    · rw [hI.unique device uuid t (mem_of_query hq) ⟨c⟩ hmem (keyed_of_query hq) hk]
  have hout : ch.mOutput = true := by
    obtain ⟨ch', hch', _, ho⟩ := hI.holds ⟨c⟩ hmem
    rwa [Option.some_inj.mp (hch'.symm.trans hch)] at ho
  rw [sendDataByRfcomm, hq]
  constructor
  · rw [channels_modify_self, hch, Option.map_some, Option.map_some, Option.map_some,
      BluetoothRfcommChannel.written_write hout halive]
  · exact fun i hi => channels_modify_ne m _ hi

/-- A lookup that succeeds does not see what is added after it. -/
theorem Registered.query_append {m : BluetoothRfcommManager} (hR : Registered m)
    {device : BluetoothDevice} {uuid : UUID} {t : BluetoothRfcommTransform}
    (h : m.queryRfcommTransform device uuid = some t) (chs : List BluetoothRfcommChannel)
    (l : List BluetoothRfcommTransform) :
    (⟨m.channels ++ chs, m.rfcommTransformList ++ l⟩ : BluetoothRfcommManager).queryRfcommTransform
      device uuid = some t := by
  unfold queryRfcommTransform at h ⊢
  have hkeyed : ∀ t' ∈ m.rfcommTransformList,
      (⟨m.channels ++ chs, m.rfcommTransformList ++ l⟩ : BluetoothRfcommManager).keyed
        device uuid t' = m.keyed device uuid t' :=
    fun t' ht' => keyed_append_of_lt device uuid (hR.channel_lt ht')
  rw [List.find?_append, List.find?_congr hkeyed, h, Option.some_or]

/-- Right after a start that connects for a key already listed, the next send for
that key goes to the older channel. -/
theorem Registered.not_sendsRouted {m : BluetoothRfcommManager} (hR : Registered m)
    {device : BluetoothDevice} {uuid : UUID}
    (hq : m.queryRfcommTransform device uuid ≠ none) :
    ¬ SendsRouted (m.startRfcommTransportJob device uuid .success).2 := by
  intro hr
  set m' := (m.startRfcommTransportJob device uuid .success).2 with hm'
  obtain ⟨t, ht⟩ := Option.ne_none_iff_exists'.mp hq
  have hlt := hR.channel_lt (mem_of_query ht)
  have hnew : m'.channels[m.channels.length]? =
      some ((BluetoothRfcommChannel.new device uuid).connect .success).2.readLoop :=
    List.getElem?_concat_length
  -- the new channel is the latest live one
  have hlatest : m'.IsLatestAlive device uuid m.channels.length := by
    refine ⟨⟨_, hnew, ?_, rfl⟩, ?_⟩
    · simp [BluetoothRfcommChannel.hasKey, BluetoothRfcommChannel.connect,
        BluetoothRfcommChannel.new, BluetoothRfcommChannel.readLoop]
    · rintro c' ⟨ch, hch, -, -⟩
      have := (List.getElem?_eq_some_iff.mp hch).choose
      rw [hm', startRfcommTransportJob, BluetoothRfcommChannel.connect] at this
      simp only [List.length_append, List.length_singleton] at this
      omega
  -- the lookup still finds the older transform
  have hq' : m'.queryRfcommTransform device uuid = some t := hR.query_append ht _ _
  have hw := (hr device uuid [] _ hlatest).written
  rw [sendDataByRfcomm, hq', channels_modify_ne m' _ (Nat.ne_of_gt hlt), hnew] at hw
  simp [BluetoothRfcommChannel.written] at hw

end BluetoothRfcommManager

open BluetoothRfcommManager

/-- **Sends are routed right exactly when starts are fresh.**  All along a run,
every send would reach the latest live channel of its key and no other channel,
if and only if every start that connects finds its key unlisted. -/
theorem sends_routed_iff_starts_fresh (ops : List RfcommOp) :
    (∀ m, Run.Reached step initial ops m → SendsRouted m) ↔
      Run.Along step StartFresh initial ops := by
  refine Run.forall_reached_iff_along
    (I := fun m => Registered m ∧ ∀ device uuid, m.listedFor device uuid ≤ 1)
    (fun m hI => (hI.1.listedExactly hI.2).sendsRouted)
    (fun m op m' hI hC h => ⟨hI.1.step h, hI.1.listedFor_le_one hI.2 hC h⟩)
    (fun m op hI hC => ?_) ⟨Registered.initial, fun _ _ => Nat.zero_le _⟩
  rcases op with ⟨device, uuid, o⟩ | _ | _ | _
  · cases o with
    | success => exact ⟨_, rfl, hI.1.not_sendsRouted hC⟩
    | _ => exact absurd trivial hC
  · exact absurd trivial hC
  · exact absurd trivial hC
  · exact absurd trivial hC

/-- After a run whose starts are fresh any send is routed right. -/
theorem sendsRouted_of_along {ops : List RfcommOp} {m : BluetoothRfcommManager}
    (hfresh : Run.Along step StartFresh initial ops) (hm : Run.exec step initial ops = some m) :
    SendsRouted m := by
  obtain ⟨hR, hle⟩ := Run.exec_invariant
    (I := fun m => Registered m ∧ ∀ device uuid, m.listedFor device uuid ≤ 1)
    (fun m op m' hI hC h => ⟨hI.1.step h, hI.1.listedFor_le_one hI.2 hC h⟩)
    ⟨Registered.initial, fun _ _ => Nat.zero_le _⟩ hfresh hm
  exact (hR.listedExactly hle).sendsRouted

/-- **The sends of a run.**  In a run whose starts are fresh, each send for a key with a
live channel writes its bytes to the latest of them and touches no other. -/
theorem sends_of_run_routed {ops pre post : List RfcommOp} {device : BluetoothDevice}
    {uuid : UUID} {data : Bytes} (hfresh : Run.Along step StartFresh initial ops)
    (hops : ops = pre ++ .send device uuid data :: post) {m m' : BluetoothRfcommManager}
    (hm : Run.exec step initial pre = some m) (hm' : step m (.send device uuid data) = some m')
    {c : ℕ} (hc : m.IsLatestAlive device uuid c) : WrittenOnlyTo m m' c data := by
  subst hops
  obtain rfl := Option.some_inj.mp hm'
  -- up to the send the run is fresh as well
  have hpre := ((Run.along_append _ _ _).mp hfresh).1
  exact sendsRouted_of_along hpre hm device uuid data c hc

/-- A phone and its iAP2 service. -/
private def phone : BluetoothDevice := ⟨"AA:BB:CC:DD:EE:FF"⟩

/-- Connect, lose the link, connect again. -/
private def reconnect : List RfcommOp :=
  [.start phone 0 .success, .peerClose 0, .start phone 0 .success]

/-- **A reconnect sends into the dead link.**  After a drop and a second start
channel 1 is the latest live one, yet the bytes sent next end up as a failed
write on channel 0. -/
theorem reconnect_sends_to_dead_link :
    ¬ ∀ (ops : List RfcommOp) (m : BluetoothRfcommManager), Run.exec step initial ops = some m →
      SendsRouted m := by
  intro h
  obtain ⟨m, hm⟩ : ∃ m, Run.exec step initial reconnect = some m := ⟨_, rfl⟩
  have hlatest : m.IsLatestAlive phone 0 1 := by
    obtain rfl := Option.some_inj.mp hm
    refine ⟨⟨_, rfl, by decide, by decide⟩, ?_⟩
    rintro c ⟨ch, hch, -, -⟩
    have := (List.getElem?_eq_some_iff.mp hch).choose
    exact Nat.le_of_lt_succ this
  have hw := (h reconnect m hm phone 0 [1] 1 hlatest).others 0 (by decide)
  obtain rfl := Option.some_inj.mp hm
  exact absurd hw (by decide)

end Carplay.Rfcomm

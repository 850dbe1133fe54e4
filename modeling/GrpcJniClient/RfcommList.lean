/-
What the manager's list of transforms says about its channels.

* `Registered` — every open channel is listed, and what is listed holds an open
  socket; no operation breaks this (`Registered.step`);
* `listedFor` — how many transforms of a key are listed; over a run these are
  the connected starts of the key that no stop has answered
  (`registered_and_listedFor_of_exec`).
-/
import GrpcJniClient.Backlog
import GrpcJniClient.RfcommManager
import Mathlib.Data.List.Count
import Mathlib.Data.List.Find
import Mathlib.Data.List.Nodup

open Backlog

namespace Carplay.Rfcomm

/-! ### Open channels -/

/-- The socket is connected and has not been closed on this side. -/
def BluetoothSocket.isOpen (s : BluetoothSocket) : Bool := s.connected && !s.closed

namespace BluetoothRfcommChannel

/-- The channel's socket is open, whether or not its peer has dropped it. -/
def isOpen (ch : BluetoothRfcommChannel) : Bool := ch.socket.any (·.isOpen)

theorem isOpen_of_alive {ch : BluetoothRfcommChannel} (h : ch.alive = true) :
    ch.isOpen = true := by
  obtain ⟨s, hs, halive⟩ := (Option.any_eq_true _ _).mp h
  rw [BluetoothSocket.alive, Bool.and_eq_true, Bool.and_eq_true] at halive
  rw [isOpen, hs, Option.any_some, BluetoothSocket.isOpen, halive.1.1, halive.2]
  rfl

@[simp] theorem isOpen_write (ch : BluetoothRfcommChannel) (data : Bytes) :
    (ch.write data).isOpen = ch.isOpen := by
  rw [write]
  split
  · rw [isOpen, isOpen, Option.any_map]
    refine congrArg (Option.any · ch.socket) (funext fun s => ?_)
    show (s.write data).isOpen = s.isOpen
    rw [BluetoothSocket.write]
    split <;> rfl
  · rfl

@[simp] theorem isOpen_drop (ch : BluetoothRfcommChannel) : ch.drop.isOpen = ch.isOpen := by
  rw [isOpen, isOpen, drop, Option.any_map]
  rfl

/-- A channel that still holds its socket is not open once closed. -/
theorem isOpen_close {ch : BluetoothRfcommChannel} (h : ch.mSocket = true) :
    ch.close.isOpen = false := by
  rw [isOpen, close, if_pos h, Option.any_map]
  cases ch.socket with
  | none => rfl
  | some s => exact Bool.and_false _

end BluetoothRfcommChannel

namespace BluetoothRfcommManager

variable {m m' : BluetoothRfcommManager} {device : BluetoothDevice} {uuid : UUID}

/-! ### Lookup and update -/

theorem query_eq_none : m.queryRfcommTransform device uuid = none ↔
    ∀ t ∈ m.rfcommTransformList, m.keyed device uuid t = false := by
  simp [queryRfcommTransform]

theorem mem_of_query {t : BluetoothRfcommTransform}
    (h : m.queryRfcommTransform device uuid = some t) : t ∈ m.rfcommTransformList :=
  List.mem_of_find?_eq_some h

theorem keyed_of_query {t : BluetoothRfcommTransform}
    (h : m.queryRfcommTransform device uuid = some t) : m.keyed device uuid t = true :=
  List.find?_some h

theorem channels_modify_self (m : BluetoothRfcommManager) (c : ℕ)
    (f : BluetoothRfcommChannel → BluetoothRfcommChannel) :
    (m.modifyChannel c f).channels[c]? = (m.channels[c]?).map f :=
  List.getElem?_modify_eq f c m.channels

theorem channels_modify_ne (m : BluetoothRfcommManager) {c i : ℕ}
    (f : BluetoothRfcommChannel → BluetoothRfcommChannel) (h : i ≠ c) :
    (m.modifyChannel c f).channels[i]? = m.channels[i]? :=
  List.getElem?_modify_ne f m.channels h.symm

/-- An update that keeps the key of its channel keeps every lookup. -/
theorem keyed_modify {c : ℕ} {f : BluetoothRfcommChannel → BluetoothRfcommChannel}
    (hf : ∀ ch device uuid, (f ch).hasKey device uuid = ch.hasKey device uuid)
    (device : BluetoothDevice) (uuid : UUID) (t : BluetoothRfcommTransform) :
    (m.modifyChannel c f).keyed device uuid t = m.keyed device uuid t := by
  rw [keyed, keyed]
  by_cases h : t.channel = c
  · rw [h, channels_modify_self]
    cases m.channels[c]? <;> simp [hf]
  · rw [channels_modify_ne m f h]

theorem keyed_append_of_lt {chs : List BluetoothRfcommChannel} {l : List BluetoothRfcommTransform}
    {t : BluetoothRfcommTransform} (device : BluetoothDevice) (uuid : UUID)
    (h : t.channel < m.channels.length) :
    (⟨m.channels ++ chs, l⟩ : BluetoothRfcommManager).keyed device uuid t
      = m.keyed device uuid t := by
  rw [keyed, keyed, List.getElem?_append_left h]

theorem getElem?_concat_eq_some {chs : List BluetoothRfcommChannel}
    {ch ch' : BluetoothRfcommChannel} {c : ℕ} (h : (chs ++ [ch])[c]? = some ch') :
    chs[c]? = some ch' ∨ c = chs.length ∧ ch' = ch := by
  rw [List.getElem?_append] at h
  split at h
  · exact Or.inl h
  · rename_i hc
    have hc₀ : c - chs.length = 0 := by
      have := (List.getElem?_eq_some_iff.mp h).choose
      rw [List.length_singleton] at this
      omega
    rw [hc₀, List.getElem?_cons_zero, Option.some_inj] at h
    exact Or.inr ⟨by omega, h.symm⟩

/-! ### What is open is listed -/

/-- The list says which channels are open. -/
structure Registered (m : BluetoothRfcommManager) : Prop where
  /-- A listed channel object holds its socket and output stream and is open. -/
  holds : ∀ t ∈ m.rfcommTransformList, ∃ ch, m.channels[t.channel]? = some ch ∧
    ch.mSocket = true ∧ ch.mOutput = true ∧ ch.isOpen = true
  /-- An open channel is listed. -/
  listed : ∀ c ch, m.channels[c]? = some ch → ch.isOpen = true → ⟨c⟩ ∈ m.rfcommTransformList
  nodup : m.rfcommTransformList.Nodup

theorem Registered.initial : Registered initial where
  holds := fun t ht => absurd ht List.not_mem_nil
  listed := fun c ch h => by simp [BluetoothRfcommManager.initial] at h
  nodup := List.nodup_nil

/-- A listed transform refers to an object that has been constructed. -/
theorem Registered.channel_lt (hR : Registered m) {t : BluetoothRfcommTransform}
    (ht : t ∈ m.rfcommTransformList) : t.channel < m.channels.length := by
  obtain ⟨ch, hch, _⟩ := hR.holds t ht
  exact (List.getElem?_eq_some_iff.mp hch).choose

/-- An update of one channel object that keeps its fields and its socket open. -/
theorem Registered.modify (hR : Registered m) (c : ℕ)
    {f : BluetoothRfcommChannel → BluetoothRfcommChannel}
    (hsocket : ∀ ch, (f ch).mSocket = ch.mSocket) (hout : ∀ ch, (f ch).mOutput = ch.mOutput)
    (hopen : ∀ ch, (f ch).isOpen = ch.isOpen) : Registered (m.modifyChannel c f) where
  holds := by
    intro t ht
    obtain ⟨ch, hch, hs, ho, hop⟩ := hR.holds t ht
    by_cases h : t.channel = c
    · refine ⟨f ch, ?_, (hsocket ch).trans hs, (hout ch).trans ho, (hopen ch).trans hop⟩
      rw [h, channels_modify_self, ← h, hch, Option.map_some]
    · exact ⟨ch, (channels_modify_ne m f h).trans hch, hs, ho, hop⟩
  listed := by
    intro i ch hch ha
    by_cases h : i = c
    · rw [h, channels_modify_self, Option.map_eq_some_iff] at hch
      obtain ⟨ch₀, h₀, rfl⟩ := hch
      rw [h]
      exact hR.listed c ch₀ h₀ ((hopen ch₀).symm.trans ha)
    · rw [channels_modify_ne m f h] at hch
      exact hR.listed i ch hch ha
  nodup := hR.nodup

/-- A start that does not connect constructs a channel that is not open. -/
theorem Registered.appendDead (hR : Registered m) {ch : BluetoothRfcommChannel}
    (hdead : ch.isOpen = false) : Registered { m with channels := m.channels ++ [ch] } where
  holds := by
    intro t ht
    obtain ⟨ch₀, h₀, hrest⟩ := hR.holds t ht
    exact ⟨ch₀, (List.getElem?_append_left (hR.channel_lt ht)).trans h₀, hrest⟩
  listed := by
    intro c ch₀ h₀ ha
    rcases getElem?_concat_eq_some h₀ with h | ⟨_, rfl⟩
    · exact hR.listed c ch₀ h ha
    · rw [hdead] at ha
      exact absurd ha Bool.false_ne_true
  nodup := hR.nodup

/-- A start that connects lists its channel. -/
theorem Registered.appendLive (hR : Registered m) {ch : BluetoothRfcommChannel}
    (hs : ch.mSocket = true) (ho : ch.mOutput = true) (hopen : ch.isOpen = true) :
    Registered ⟨m.channels ++ [ch], m.rfcommTransformList ++ [⟨m.channels.length⟩]⟩ where
  holds := by
    intro t ht
    rw [List.mem_append, List.mem_singleton] at ht
    rcases ht with ht | rfl
    · obtain ⟨ch₀, h₀, hrest⟩ := hR.holds t ht
      exact ⟨ch₀, (List.getElem?_append_left (hR.channel_lt ht)).trans h₀, hrest⟩
    · exact ⟨ch, List.getElem?_concat_length, hs, ho, hopen⟩
  listed := by
    intro c ch₀ h₀ ha
    rw [List.mem_append, List.mem_singleton]
    rcases getElem?_concat_eq_some h₀ with h | ⟨rfl, _⟩
    · exact Or.inl (hR.listed c ch₀ h ha)
    · exact Or.inr rfl
  nodup := by
    rw [List.nodup_append]
    refine ⟨hR.nodup, List.nodup_singleton _, fun t ht t' ht' h => ?_⟩
    rw [List.mem_singleton] at ht'
    have := hR.channel_lt ht
    rw [h, ht'] at this
    exact Nat.lt_irrefl _ this

/-- A stop closes the channel it finds and takes it off the list. -/
theorem Registered.erase (hR : Registered m) {t : BluetoothRfcommTransform}
    (ht : t ∈ m.rfcommTransformList) :
    Registered { m.modifyChannel t.channel fun ch => ch.cancelAndJoin.close with
      rfcommTransformList := m.rfcommTransformList.erase t } where
  holds := by
    intro t' ht'
    obtain ⟨hne, hmem⟩ := hR.nodup.mem_erase_iff.mp ht'
    obtain ⟨ch, hch, hrest⟩ := hR.holds t' hmem
    have hc : t'.channel ≠ t.channel := fun h => hne (by cases t; cases t'; cases h; rfl)
    exact ⟨ch, (channels_modify_ne m _ hc).trans hch, hrest⟩
  listed := by
    intro c ch hch ha
    obtain ⟨ch₀, h₀, hs, _⟩ := hR.holds t ht
    have hc : c ≠ t.channel := by
      -- the channel just closed is not open
      rintro rfl
      have h := channels_modify_self m t.channel fun ch => ch.cancelAndJoin.close
      rw [h₀, Option.map_some] at h
      have hclosed : ch₀.cancelAndJoin.close.isOpen = false :=
        BluetoothRfcommChannel.isOpen_close hs
      rw [Option.some_inj.mp (hch.symm.trans h), hclosed] at ha
      exact Bool.false_ne_true ha
    have hmem := hR.listed c ch ((channels_modify_ne m _ hc).symm.trans hch) ha
    exact hR.nodup.mem_erase_iff.mpr
      ⟨fun h => hc (congrArg BluetoothRfcommTransform.channel h), hmem⟩
  nodup := hR.nodup.erase t

/-- Every operation keeps the list in step with the channels. -/
theorem Registered.step {op : RfcommOp} (hR : Registered m) (h : step m op = some m') :
    Registered m' := by
  cases op with
  | start device uuid o =>
    obtain rfl := Option.some_inj.mp h
    cases o with
    | success => exact hR.appendLive rfl rfl rfl
    | _ => exact hR.appendDead rfl
  | stop device uuid =>
    obtain rfl := Option.some_inj.mp h
    rw [stopRfcommTransportJob]
    split
    · exact hR
    · rename_i t hq
      exact hR.erase (mem_of_query hq)
  | send device uuid data =>
    obtain rfl := Option.some_inj.mp h
    rw [sendDataByRfcomm]
    split
    · exact hR
    · exact hR.modify _ (fun ch => ch.mSocket_write data) (fun ch => ch.mOutput_write data)
        fun ch => ch.isOpen_write data
  | peerClose c =>
    rw [Rfcomm.step, peerClose] at h
    split at h
    · obtain rfl := Option.some_inj.mp h
      exact hR.modify c (fun _ => rfl) (fun _ => rfl) BluetoothRfcommChannel.isOpen_drop
    · cases h

/-! ### How many transforms of a key are listed -/

/-- The number of listed transforms of the key. -/
def listedFor (m : BluetoothRfcommManager) (device : BluetoothDevice) (uuid : UUID) : ℕ :=
  m.rfcommTransformList.countP (m.keyed device uuid)

theorem listedFor_eq_zero_iff :
    m.listedFor device uuid = 0 ↔ m.queryRfcommTransform device uuid = none := by
  rw [listedFor, List.countP_eq_zero, query_eq_none]
  simp only [Bool.not_eq_true]

/-- A key has an open channel exactly if a transform of it is listed. -/
theorem Registered.listedFor_pos_iff (hR : Registered m) : 0 < m.listedFor device uuid ↔
    ∃ (c : ℕ) (ch : BluetoothRfcommChannel), m.channels[c]? = some ch ∧
      ch.hasKey device uuid = true ∧ ch.isOpen = true := by
  rw [listedFor, List.countP_pos_iff]
  constructor
  · rintro ⟨t, ht, hk⟩
    obtain ⟨ch, hch, -, -, hopen⟩ := hR.holds t ht
    rw [keyed, hch, Option.any_some] at hk
    exact ⟨t.channel, ch, hch, hk, hopen⟩
  · rintro ⟨c, ch, hch, hk, hopen⟩
    exact ⟨⟨c⟩, hR.listed c ch hch hopen, by rw [keyed, hch, Option.any_some, hk]⟩

end BluetoothRfcommManager

/-- What an operation does to the number of transforms of a key. -/
def RfcommOp.effect (device : BluetoothDevice) (uuid : UUID) : RfcommOp → Effect
  | .start d u .success => if d = device ∧ u = uuid then .arrival else .neither
  | .stop d u => if d = device ∧ u = uuid then .service else .neither
  | _ => .neither

namespace BluetoothRfcommManager

variable {m m' : BluetoothRfcommManager} {device : BluetoothDevice} {uuid : UUID}

theorem listedFor_modify {c : ℕ} {f : BluetoothRfcommChannel → BluetoothRfcommChannel}
    (hf : ∀ ch device uuid, (f ch).hasKey device uuid = ch.hasKey device uuid) :
    (m.modifyChannel c f).listedFor device uuid = m.listedFor device uuid :=
  List.countP_congr fun t _ => by rw [keyed_modify hf]

theorem hasKey_iff {ch : BluetoothRfcommChannel} :
    ch.hasKey device uuid = true ↔ ch.device = device ∧ ch.uuid = uuid := by
  rw [BluetoothRfcommChannel.hasKey, Bool.and_eq_true, beq_iff_eq, beq_iff_eq]

/-- A transform belongs to no two keys. -/
theorem keyed_iff_of_keyed {d : BluetoothDevice} {u : UUID} {t : BluetoothRfcommTransform}
    (h : m.keyed d u t = true) : m.keyed device uuid t = true ↔ d = device ∧ u = uuid := by
  obtain ⟨ch, hch, hkey⟩ := (Option.any_eq_true _ _).mp h
  obtain ⟨rfl, rfl⟩ := hasKey_iff.mp hkey
  rw [keyed, hch, Option.any_some, hasKey_iff]

/-- The channels that were there keep their places when one is added. -/
theorem Registered.countP_append (hR : Registered m) (ch : BluetoothRfcommChannel)
    (l : List BluetoothRfcommTransform) :
    m.rfcommTransformList.countP
        ((⟨m.channels ++ [ch], l⟩ : BluetoothRfcommManager).keyed device uuid)
      = m.listedFor device uuid :=
  List.countP_congr fun t ht => by rw [keyed_append_of_lt device uuid (hR.channel_lt ht)]

theorem Registered.listedFor_appendLive (hR : Registered m) (ch : BluetoothRfcommChannel) :
    (⟨m.channels ++ [ch], m.rfcommTransformList ++ [⟨m.channels.length⟩]⟩ :
        BluetoothRfcommManager).listedFor device uuid
      = m.listedFor device uuid + if ch.hasKey device uuid then 1 else 0 := by
  rw [listedFor, List.countP_append, hR.countP_append, List.countP_singleton, keyed,
    List.getElem?_concat_length, Option.any_some]

theorem listedFor_erase {t : BluetoothRfcommTransform} (ht : t ∈ m.rfcommTransformList) :
    ({ m.modifyChannel t.channel fun ch => ch.cancelAndJoin.close with
        rfcommTransformList := m.rfcommTransformList.erase t } :
        BluetoothRfcommManager).listedFor device uuid
      = m.listedFor device uuid - if m.keyed device uuid t then 1 else 0 := by
  have hkeyed : (m.modifyChannel t.channel fun ch => ch.cancelAndJoin.close).keyed device uuid
      = m.keyed device uuid :=
    funext (keyed_modify BluetoothRfcommChannel.hasKey_cancelAndJoin_close device uuid)
  show (m.rfcommTransformList.erase t).countP
    ((m.modifyChannel t.channel fun ch => ch.cancelAndJoin.close).keyed device uuid) = _
  rw [hkeyed, List.countP_erase, listedFor]
  simp only [ht, true_and]

/-- One operation adds or answers a transform of the key, or leaves their number
as it is. -/
theorem Registered.listedFor_step (hR : Registered m) {op : RfcommOp}
    (h : Rfcomm.step m op = some m') :
    m'.listedFor device uuid = (op.effect device uuid).apply (m.listedFor device uuid) := by
  cases op with
  | start d u o =>
    obtain rfl := Option.some_inj.mp h
    cases o with
    | success =>
      refine (hR.listedFor_appendLive _).trans ?_
      rw [RfcommOp.effect]
      by_cases hkey : d = device ∧ u = uuid
      · rw [if_pos hkey, if_pos (hasKey_iff.mpr hkey)]
        rfl
      · rw [if_neg hkey, if_neg (mt hasKey_iff.mp hkey)]
        rfl
    | _ => exact hR.countP_append _ _
  | stop d u =>
    obtain rfl := Option.some_inj.mp h
    rw [stopRfcommTransportJob, RfcommOp.effect]
    split
    · -- nothing is found, so a stop of the key answers nothing
      rename_i hq
      split
      · rename_i hkey
        obtain ⟨rfl, rfl⟩ := hkey
        rw [listedFor_eq_zero_iff.mpr hq]
        rfl
      · rfl
    · rename_i t hq
      rw [listedFor_erase (mem_of_query hq), if_congr (keyed_iff_of_keyed (keyed_of_query hq)) rfl rfl]
      split <;> rfl
  | send d u data =>
    obtain rfl := Option.some_inj.mp h
    rw [sendDataByRfcomm]
    split
    · rfl
    · exact listedFor_modify fun ch => ch.hasKey_write data
  | peerClose c =>
    rw [Rfcomm.step, peerClose] at h
    split at h
    · obtain rfl := Option.some_inj.mp h
      exact listedFor_modify BluetoothRfcommChannel.hasKey_drop
    · cases h

/-- **What is listed for a key is its backlog**: the connected starts that no
stop has answered. -/
theorem registered_and_listedFor_of_exec {ops : List RfcommOp}
    (h : Run.exec step initial ops = some m) :
    Registered m ∧
      ∀ device uuid, m.listedFor device uuid = backlog (RfcommOp.effect device uuid) ops := by
  induction ops using List.reverseRecOn generalizing m with
  | nil =>
    obtain rfl := Option.some_inj.mp h
    exact ⟨Registered.initial, fun _ _ => rfl⟩
  | append_singleton ops op ih =>
    rw [Run.exec_append, Option.bind_eq_some_iff] at h
    obtain ⟨m₀, h₀, hlast⟩ := h
    obtain ⟨hR, hcount⟩ := ih h₀
    obtain ⟨m₁, hstep, hm⟩ := Option.bind_eq_some_iff.mp hlast
    obtain rfl := Option.some_inj.mp hm
    refine ⟨hR.step hstep, fun device uuid => ?_⟩
    rw [hR.listedFor_step hstep, hcount, backlog_append_singleton]

end BluetoothRfcommManager

end Carplay.Rfcomm

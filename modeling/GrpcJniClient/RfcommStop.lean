/-
What a stop leaves behind.

`stopRfcommTransportJob` closes the channel of the first transform it finds and
takes that transform off the list.  Other keys are not touched, but of its own
key a stop leaves all transforms but one.

* `Registered.stop_local` — the other keys' transforms and channels stay;
* `stop_complete_iff` — nothing of the key is left exactly if no end of the run
  has two more connected starts of the key than stops of it;
* `second_start_survives_stop` — after two connected starts one stop leaves an
  open channel.
-/
import GrpcJniClient.RfcommList

open Backlog

namespace Carplay.Rfcomm

namespace BluetoothRfcommManager

/-- Between `m` and `m'` all that belongs to the key has been stopped and
nothing else has changed. -/
structure StopsAll (m m' : BluetoothRfcommManager) (device : BluetoothDevice) (uuid : UUID) :
    Prop where
  /-- No transform of the key is listed. -/
  unlisted : ∀ t ∈ m'.rfcommTransformList, m'.keyed device uuid t = false
  /-- No channel of the key is open. -/
  closed : ∀ (c : ℕ) (ch : BluetoothRfcommChannel), m'.channels[c]? = some ch →
    ch.hasKey device uuid = true → ch.isOpen = false
  /-- The transforms of the other keys are as they were, in their order. -/
  transforms : (m'.rfcommTransformList.filter fun t => !m'.keyed device uuid t)
    = m.rfcommTransformList.filter fun t => !m.keyed device uuid t
  /-- The channel objects of the other keys are as they were. -/
  channels : ∀ (c : ℕ) (ch : BluetoothRfcommChannel), ch.hasKey device uuid = false →
    (m'.channels[c]? = some ch ↔ m.channels[c]? = some ch)

variable {m : BluetoothRfcommManager} {device : BluetoothDevice} {uuid : UUID}

/-- A channel object whose key is another is not the one that a stop closes. -/
theorem channels_stop {t : BluetoothRfcommTransform} (ht : m.keyed device uuid t = true) (c : ℕ)
    {ch : BluetoothRfcommChannel} (hkey : ch.hasKey device uuid = false) :
    (m.modifyChannel t.channel fun ch => ch.cancelAndJoin.close).channels[c]? = some ch ↔
      m.channels[c]? = some ch := by
  by_cases hc : c = t.channel
  · obtain ⟨ch₀, h₀, hkey₀⟩ := (Option.any_eq_true _ _).mp ht
    rw [hc, channels_modify_self, h₀, Option.map_some]
    constructor
    · intro h
      rw [← Option.some_inj.mp h, BluetoothRfcommChannel.hasKey_cancelAndJoin_close, hkey₀] at hkey
      cases hkey
    · intro h
      rw [← Option.some_inj.mp h, hkey₀] at hkey
      cases hkey
  · rw [channels_modify_ne m _ hc]

/-- **A stop is local.**  What does not belong to its key stays as it is. -/
theorem Registered.stop_local (hR : Registered m) (device : BluetoothDevice) (uuid : UUID) :
    ((m.stopRfcommTransportJob device uuid).rfcommTransformList.filter fun t =>
        !(m.stopRfcommTransportJob device uuid).keyed device uuid t)
      = (m.rfcommTransformList.filter fun t => !m.keyed device uuid t) ∧
    ∀ (c : ℕ) (ch : BluetoothRfcommChannel), ch.hasKey device uuid = false →
      ((m.stopRfcommTransportJob device uuid).channels[c]? = some ch ↔
        m.channels[c]? = some ch) := by
  rw [stopRfcommTransportJob]
  split
  · exact ⟨rfl, fun _ _ _ => Iff.rfl⟩
  · rename_i t hq
    have hkeyed := keyed_of_query hq
    refine ⟨?_, fun c ch hkey => channels_stop hkeyed c hkey⟩
    show (m.rfcommTransformList.erase t).filter (fun t' =>
      !(m.modifyChannel t.channel fun ch => ch.cancelAndJoin.close).keyed device uuid t') = _
    simp only [keyed_modify BluetoothRfcommChannel.hasKey_cancelAndJoin_close]
    rw [hR.nodup.erase_eq_filter, List.filter_filter]
    refine List.filter_congr fun t' _ => ?_
    -- a transform of another key is not the one erased
    by_cases ht' : t' = t
    · rw [ht', hkeyed]
      rfl
    · rw [bne_iff_ne.mpr ht', Bool.and_true]

end BluetoothRfcommManager

open BluetoothRfcommManager

/-- **A stop is complete exactly after at most one unanswered start.**  Whatever
the manager has done before, a stop leaves nothing of its key and everything of
the others if and only if no end of that run has two more connected starts of
the key than stops of it. -/
theorem stop_complete_iff (ops : List RfcommOp) (m : BluetoothRfcommManager)
    (h : Run.exec step initial ops = some m) (device : BluetoothDevice) (uuid : UUID) :
    StopsAll m (m.stopRfcommTransportJob device uuid) device uuid ↔
      ∀ s, s <:+ ops → arrivals (RfcommOp.effect device uuid) s ≤
        services (RfcommOp.effect device uuid) s + 1 := by
  obtain ⟨hR, hcount⟩ := registered_and_listedFor_of_exec h
  have hstop : step m (.stop device uuid) = some (m.stopRfcommTransportJob device uuid) := rfl
  have hR' := hR.step hstop
  -- the stop answers one start
  have hleft : (m.stopRfcommTransportJob device uuid).listedFor device uuid
      = m.listedFor device uuid - 1 := by
    rw [hR.listedFor_step hstop, RfcommOp.effect, if_pos ⟨rfl, rfl⟩]
    rfl
  have hends : (∀ s, s <:+ ops → arrivals (RfcommOp.effect device uuid) s ≤
      services (RfcommOp.effect device uuid) s + 1) ↔ m.listedFor device uuid ≤ 1 := by
    rw [hcount, ← not_lt, Nat.lt_iff_add_one_le, le_backlog_iff]
    push Not
    exact forall₂_congr fun s _ => by omega
  rw [hends]
  constructor
  · intro hall
    have hzero : (m.stopRfcommTransportJob device uuid).listedFor device uuid = 0 :=
      listedFor_eq_zero_iff.mpr (query_eq_none.mpr hall.unlisted)
    omega
  · intro hle
    have hzero : (m.stopRfcommTransportJob device uuid).listedFor device uuid = 0 := by omega
    have hunlisted := query_eq_none.mp (listedFor_eq_zero_iff.mp hzero)
    obtain ⟨htransforms, hchannels⟩ := hR.stop_local device uuid
    refine ⟨hunlisted, fun c ch hch hkey => ?_, htransforms, hchannels⟩
    -- an open channel would be listed
    by_contra hopen
    have hpos := hR'.listedFor_pos_iff.mpr ⟨c, ch, hch, hkey, Bool.not_eq_false _ ▸ hopen⟩
    omega

/-- A phone that has bonded. -/
private def bonded : BluetoothDevice := ⟨"AA:BB:CC:DD:EE:FF"⟩

/-- `n` starts that connect. -/
private def starts (n : ℕ) : List RfcommOp := List.replicate n (.start bonded 0 .success)

theorem stop_complete_iff_one_start :
    ∃ m, Run.exec step initial (starts 1) = some m ∧
      (StopsAll m (m.stopRfcommTransportJob bonded 0) bonded 0 ↔
        ∀ s, s <:+ starts 1 → arrivals (RfcommOp.effect bonded 0) s ≤
          services (RfcommOp.effect bonded 0) s + 1) :=
  ⟨_, rfl, stop_complete_iff (starts 1) _ rfl bonded 0⟩

/-- **The second start survives the stop.**  Two starts connect; the stop closes
channel 0 and leaves channel 1 listed and open. -/
theorem second_start_survives_stop :
    ¬ ∀ (ops : List RfcommOp) (m : BluetoothRfcommManager), Run.exec step initial ops = some m →
      ∀ device uuid, StopsAll m (m.stopRfcommTransportJob device uuid) device uuid := by
  intro h
  have hS := h (starts 2) _ rfl bonded 0
  have hopen := hS.closed 1 _ rfl (by decide)
  exact absurd hopen (by decide)

end Carplay.Rfcomm

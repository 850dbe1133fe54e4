/-
What becomes of a hotspot request whose call on the platform throws.

Here `stopHotspotAndroid12PlusReflectWithCallback` and
`startHotspotAndroid12PlusReflect` are taken apart: the steps of their blocks, each
of which may throw into the `runCatching` around them, and the callbacks that the
platform makes once one is registered.  The other steps of a request are those of
`HostapdService`.

* `Reported` — a call that has thrown before the platform has accepted the request
  is resumed with `false` or an exception, and one that is suspended has a callback
  to wait for;
* `failures_reported_iff` — so it is exactly until a step throws that early;
* `Reported.not_lost`, `Request.step_of_resumed` — so it is not lost, and goes on when
  it is resumed;
* `lost_for_good` — the coroutine of such a request stays where it is for ever, so
  that a failed stop starts nothing;
* `failed_stop_is_swallowed` — as when the callback class is missing.
-/
import GrpcJniClient.CallbackBridges
import GrpcJniClient.HostapdService

open Coroutine ThreadPool

namespace Carplay.Hostapd

/-! ### The blocks -/

/-- The steps of the blocks, with the name of what they look up or call. -/
inductive ReflectiveStep where
  | getSystemService (name : String)
  | forName (name : String)
  | getDeclaredConstructor
  | getMethod (name : String)
  | getDeclaredMethod (name : String)
  | setAccessible (name : String)
  | newInstance
  | newProxyInstance
  | invoke (name : String)
  | invokeOnCancellation
  deriving DecidableEq, Repr

inductive HotspotBridge where
  | stop
  | start
  deriving DecidableEq, Repr

namespace HotspotBridge

/-- The block, step by step. -/
def steps : HotspotBridge → List ReflectiveStep
  | stop =>
      [.getSystemService "tethering", .getDeclaredMethod "stopTethering",
        .setAccessible "stopTethering", .getSystemService "wifi",
        .forName "android.net.wifi.WifiManager$SoftApCallback",
        .newProxyInstance, .getMethod "registerSoftApCallback", .invoke "registerSoftApCallback",
        .invoke "stopTethering", .invokeOnCancellation]
  | start =>
      [.getSystemService "tethering",
        .forName "android.net.TetheringManager$TetheringRequest$Builder",
        .getDeclaredConstructor, .setAccessible "Builder", .newInstance, .getDeclaredMethod "build",
        .setAccessible "build", .invoke "build",
        .forName "android.net.TetheringManager$StartTetheringCallback", .newProxyInstance,
        .getDeclaredMethod "startTethering", .setAccessible "startTethering",
        .invoke "startTethering"]

/-- The step that registers the callback. -/
def registering : HotspotBridge → ReflectiveStep
  | stop => .invoke "registerSoftApCallback"
  | start => .invoke "startTethering"

/-- The step with which the platform accepts the request. -/
def accepting : HotspotBridge → ReflectiveStep
  | stop => .invoke "stopTethering"
  | start => .invoke "startTethering"

def effect : HotspotBridge → ProxyCall → Effect Bool
  | stop => softApCallback
  | start => startTetheringCallback

def platformCall : HotspotBridge → PlatformCall
  | stop => .stopHotspotAndroid12PlusReflectWithCallback
  | start => .startHotspotAndroid12PlusReflect

end HotspotBridge

/-- A call of one of the two functions. -/
structure HotspotCall where
  bridge : HotspotBridge
  /-- The steps that its block has still to take. -/
  left : List ReflectiveStep
  cont : Continuation (Except ReflectiveStep Bool)
  registered : Bool
  accepted : Bool
  /-- A step has thrown before the platform has accepted the request. -/
  failed : Bool
  deriving DecidableEq, Repr

namespace HotspotCall

def enter (b : HotspotBridge) : HotspotCall := ⟨b, b.steps, .active, false, false, false⟩

/-- A step `s` of the block, before `left`; what it throws, `runCatching` keeps. -/
def next (c : HotspotCall) (s : ReflectiveStep) (left : List ReflectiveStep) (throws : Bool) :
    HotspotCall :=
  if throws then { c with left := [], failed := c.failed || !c.accepted }
  else { c with
    left := left
    registered := c.registered || s = c.bridge.registering
    accepted := c.accepted || s = c.bridge.accepting }

/-- A call on the proxy; the guarded callback unregisters itself, and there is no step
where the resumption throws. -/
def callback (c : HotspotCall) (method : ProxyCall) : Option HotspotCall :=
  if c.registered then
    match c.bridge.effect method with
    | .nothing => some c
    | .resume a => (c.cont.resume (.ok a)).map fun k => { c with cont := k }
    | .resumeIfActive a => some { c with
        cont := if c.cont.isActive then .resumed (.ok a) else c.cont
        registered := false }
  else none

end HotspotCall

/-! ### Requests -/

/-- The coroutine of a request. -/
inductive Request where
  | plain (k : Pc)
  | calling (c : HotspotCall)
  deriving DecidableEq, Repr

def Request.of : Pc → Request
  | .stopHotspot => .calling (.enter .stop)
  | .startHotspot => .calling (.enter .start)
  | k => .plain k

/-- Where `getCarplayCompatSoftApConfigure` goes on behind a call that has been
resumed; it does not look at the result. -/
def Request.resumed (b : HotspotBridge) : Except ReflectiveStep Bool → Request
  | .error _ => .plain .done
  | .ok _ =>
      match b with
      | .stop => .of .startHotspot
      | .start => .plain .done

/-- One step of the coroutine of a request. -/
def Request.step (s : Shared) (r : Result) (throws : Bool) : Request → Option (Shared × Request)
  | .plain k => (prim s r k).map fun (s, k, _) => (s, .of k)
  | .calling c =>
      match c.left with
      | reflective :: left =>
          let c' := c.next reflective left throws
          some (if c'.accepted && !c.accepted then
              { s with platformCalls := s.platformCalls ++ [c.bridge.platformCall] }
            else s, .calling c')
      | [] =>
          match c.cont with
          | .resumed o => some (s, .resumed c.bridge o)
          | _ => none

/-- The service and the requests made to it. -/
structure Requested where
  service : Service
  requests : List Request

namespace Requested

inductive Label where
  /-- What is not the doing of a request. -/
  | service (l : Hostapd.Label)
  | getCarplayCompatSoftApConfigure
  | request (i : ℕ) (r : Result) (throws : Bool)
  | callback (i : ℕ) (method : ProxyCall)
  deriving DecidableEq, Repr

def step (v : Requested) : Label → Option Requested
  | .service .getCarplayCompatSoftApConfigure => none
  | .service l => (Hostapd.step v.service l).map fun w => { v with service := w }
  | .getCarplayCompatSoftApConfigure =>
      some { v with requests := v.requests ++ [.of .checkEnable] }
  | .request i r throws =>
      (v.requests[i]?.bind (Request.step v.service.pool.shared r throws)).map fun (s, q) =>
        ⟨v.service.setShared s, v.requests.set i q⟩
  | .callback i method =>
      match v.requests[i]? with
      | some (.calling c) =>
          (c.callback method).map fun c => { v with requests := v.requests.set i (.calling c) }
      | _ => none

def initial (softAp : SoftAp) : Requested := ⟨Hostapd.initial softAp, []⟩

end Requested

/-! ### What is reported -/

/-- A failure resumes the coroutine with `false` or an exception, and a suspended
coroutine has a callback to wait for. -/
structure HotspotCall.Reported (c : HotspotCall) : Prop where
  failure : c.failed = true → ∃ o, c.cont = .resumed o ∧ o ≠ .ok true
  suspended : c.left = [] → c.cont = .active → c.registered = true

def Request.Reported : Request → Prop
  | .plain _ => True
  | .calling c => c.Reported

def Reported (v : Requested) : Prop := ∀ q ∈ v.requests, q.Reported

/-- The step throws before the platform has accepted the request. -/
def ThrowsEarly (v : Requested) (l : Requested.Label) : Prop :=
  ∃ i r c, l = .request i r true ∧ v.requests[i]? = some (.calling c) ∧ c.left ≠ [] ∧
    c.accepted = false

/-! ### One call -/

/-- The callback is registered no later than the request is accepted. -/
theorem HotspotBridge.registering_not_after (b : HotspotBridge) (left : List ReflectiveStep)
    (h : b.accepting :: left <:+ b.steps) : b.registering ∉ left := by
  -- both bridges, and each of their steps
  have hall : ∀ b : HotspotBridge, ∀ l ∈ b.steps.tails, l.head? = some b.accepting →
      b.registering ∉ l.tail := by
    rintro (_ | _) <;> decide
  exact hall b _ ((List.mem_tails _ _).mpr h) rfl

/-- The only callback that is guarded reports a hotspot that is down. -/
theorem HotspotBridge.effect_cases (b : HotspotBridge) (method : ProxyCall) :
    b.effect method = .nothing ∨ (b = .start ∧ ∃ a, b.effect method = .resume a) ∨
      b.effect method = .resumeIfActive true := by
  cases b with
  | stop =>
    show softApCallback method = _ ∨ _ ∨ softApCallback method = _
    rw [softApCallback]
    split
    · split <;> simp
    · simp
  | start =>
    show startTetheringCallback method = _ ∨ (_ ∧ ∃ a, startTetheringCallback method = _) ∨ _
    rw [startTetheringCallback]
    split
    · simp
    · split <;> simp

namespace HotspotCall

/-- A call none of whose steps has thrown before the request was accepted. -/
structure Sound (c : HotspotCall) : Prop where
  suffix : c.left <:+ c.bridge.steps
  notFailed : c.failed = false
  accepting : c.accepted = false → c.bridge.accepting ∈ c.left
  registering : c.registered = false → c.cont = .active →
    c.accepted = false ∧ c.bridge.registering ∈ c.left
  /-- Before that only the callback of a stop can have resumed it. -/
  early : c.accepted = false → c.cont = .active ∨ c.cont = .resumed (.ok true)
  start : c.bridge = .start → c.registered = true → c.accepted = true

variable {c d : HotspotCall} {s : ReflectiveStep} {left : List ReflectiveStep}

theorem sound_enter (b : HotspotBridge) : (enter b).Sound where
  suffix := List.suffix_refl _
  notFailed := rfl
  accepting _ := by cases b <;> decide
  registering _ _ := ⟨rfl, by cases b <;> decide⟩
  early _ := Or.inl rfl
  start _ h := by cases h

theorem Sound.reported (hc : c.Sound) : c.Reported where
  failure h := by
    rw [hc.notFailed] at h
    cases h
  suspended hleft hactive := by
    by_contra hregistered
    -- else the step that registers would still be to come
    have hmem := (hc.registering (Bool.eq_false_iff.mpr hregistered) hactive).2
    rw [hleft] at hmem
    cases hmem

theorem Sound.next (hc : c.Sound) (hleft : c.left = s :: left) : (c.next s left false).Sound := by
  have hsuffix := hc.suffix
  rw [hleft] at hsuffix
  have hkept : ∀ s', s ≠ s' → s' ∈ c.left → s' ∈ left := by
    intro s' hne hmem
    rw [hleft] at hmem
    exact (List.mem_cons.mp hmem).resolve_left (Ne.symm hne)
  refine ⟨(List.suffix_cons s left).trans hsuffix, hc.notFailed, fun haccepted => ?_,
    fun hregistered hactive => ?_, fun haccepted => ?_, fun hstart hregistered => ?_⟩
  all_goals
    simp only [HotspotCall.next, Bool.false_eq_true, if_false, Bool.or_eq_false_iff,
      Bool.or_eq_true, decide_eq_false_iff_not, decide_eq_true_eq] at *
  · exact hkept _ haccepted.2 (hc.accepting haccepted.1)
  · -- the callback is still to be registered, so this step does not accept the request
    obtain ⟨haccepted, hmem⟩ := hc.registering hregistered.1 hactive
    have hmem := hkept _ hregistered.2 hmem
    refine ⟨⟨haccepted, fun hs => ?_⟩, hmem⟩
    subst hs
    exact c.bridge.registering_not_after left hsuffix hmem
  · exact hc.early haccepted.1
  · rcases hregistered with hregistered | rfl
    · exact Or.inl (hc.start hstart hregistered)
    · rw [hstart]
      exact Or.inr rfl

theorem Sound.next_throws (hc : c.Sound) (haccepted : c.accepted = true) :
    (c.next s left true).Sound := by
  have hnext : c.next s left true = { c with left := [], failed := false } := by
    rw [HotspotCall.next, if_pos rfl, hc.notFailed, haccepted]
    rfl
  rw [hnext]
  refine ⟨List.nil_suffix, rfl, fun h => ?_, fun hregistered hactive => ?_, fun h => ?_, hc.start⟩
  · exact absurd (haccepted.symm.trans h) (by simp)
  · exact absurd (haccepted.symm.trans (hc.registering hregistered hactive).1) (by simp)
  · exact hc.early h

theorem Sound.callback {method : ProxyCall} (hc : c.Sound) (h : c.callback method = some d) :
    d.Sound := by
  rw [HotspotCall.callback, Option.ite_none_right_eq_some] at h
  obtain ⟨hregistered, h⟩ := h
  rcases c.bridge.effect_cases method with heffect | ⟨hstart, a, heffect⟩ | heffect <;>
    rw [heffect] at h
  · obtain rfl := Option.some_inj.mp h
    exact hc
  · -- the callback of a start is registered by the step that is accepted
    obtain ⟨k, hk, rfl⟩ := Option.map_eq_some_iff.mp h
    have haccepted := hc.start hstart hregistered
    have hactive : k ≠ .active := by
      rintro rfl
      cases hcont : c.cont <;> rw [hcont] at hk <;> cases hk
    exact ⟨hc.suffix, hc.notFailed, hc.accepting, fun _ h => absurd h hactive,
      fun h => absurd (haccepted.symm.trans h) (by simp), hc.start⟩
  · obtain rfl := Option.some_inj.mp h
    cases hcont : c.cont.isActive with
    | true =>
      exact ⟨hc.suffix, hc.notFailed, hc.accepting, fun _ h => by simp at h,
        fun _ => Or.inr (by simp), fun _ h => by simp at h⟩
    | false =>
      refine ⟨hc.suffix, hc.notFailed, hc.accepting, fun _ h => ?_, fun h => ?_,
        fun _ h => by simp at h⟩
      · simp only [Bool.false_eq_true, if_false] at h
        rw [h] at hcont
        cases hcont
      · simpa [hcont] using hc.early h

/-- A step that throws early is not reported. -/
theorem Sound.not_reported (hc : c.Sound) (haccepted : c.accepted = false) :
    ¬ (c.next s left true).Reported := by
  intro h
  obtain ⟨o, hresumed, hne⟩ := h.failure (by simp [HotspotCall.next, haccepted])
  have hcont : c.cont = .resumed o := hresumed
  -- the coroutine is suspended still, or was resumed as if the stop had worked
  rcases hc.early haccepted with hactive | htrue
  · rw [hactive] at hcont
    cases hcont
  · rw [htrue] at hcont
    cases hcont
    exact hne rfl

end HotspotCall

/-! ### Runs -/

def Request.Sound : Request → Prop
  | .plain _ => True
  | .calling c => c.Sound

def Sound (v : Requested) : Prop := ∀ q ∈ v.requests, q.Sound

theorem Request.sound_of (k : Pc) : (Request.of k).Sound := by
  cases k <;> first | trivial | exact HotspotCall.sound_enter _

theorem Request.sound_resumed (b : HotspotBridge) (o : Except ReflectiveStep Bool) :
    (Request.resumed b o).Sound := by
  cases o with
  | error => trivial
  | ok =>
    cases b with
    | stop => exact HotspotCall.sound_enter .start
    | start => trivial

variable {v w : Requested} {l : Requested.Label}

/-- What a step of the coroutine of a request is. -/
theorem Request.sound_step {s m : Shared} {r : Result} {throws : Bool} {q q' : Request}
    (hq : q.Sound) (hearly : ∀ c, q = .calling c → throws = true → c.left ≠ [] → c.accepted = true)
    (h : q.step s r throws = some (m, q')) : q'.Sound := by
  cases q with
  | plain k =>
    obtain ⟨⟨m', k', forks⟩, -, heq⟩ := Option.map_eq_some_iff.mp h
    cases heq
    exact Request.sound_of k'
  | calling c =>
    rw [Request.step] at h
    split at h
    · next reflective left hleft =>
      cases h
      cases throws with
      | false => exact HotspotCall.Sound.next hq hleft
      | true => exact HotspotCall.Sound.next_throws hq (hearly c rfl rfl (by simp [hleft]))
    · split at h
      · cases h
        exact Request.sound_resumed _ _
      · cases h

/-- What a step does to the requests. -/
theorem Requested.step_cases (h : v.step l = some w) :
    w.requests = v.requests ∨ w.requests = v.requests ++ [.of .checkEnable] ∨
    (∃ i r throws q m q', l = .request i r throws ∧ v.requests[i]? = some q ∧
      q.step v.service.pool.shared r throws = some (m, q') ∧ w.requests = v.requests.set i q') ∨
    ∃ i method c d, v.requests[i]? = some (.calling c) ∧ c.callback method = some d ∧
      w.requests = v.requests.set i (.calling d) := by
  cases l with
  | service l =>
    rw [Requested.step] at h
    · obtain ⟨u, -, rfl⟩ := Option.map_eq_some_iff.mp h
      exact Or.inl rfl
    · rintro rfl
      cases h
  | getCarplayCompatSoftApConfigure =>
    cases h
    exact Or.inr (Or.inl rfl)
  | request i r throws =>
    obtain ⟨⟨m, q'⟩, hq', rfl⟩ := Option.map_eq_some_iff.mp h
    obtain ⟨q, hq, hq'⟩ := Option.bind_eq_some_iff.mp hq'
    exact Or.inr (Or.inr (Or.inl ⟨i, r, throws, q, m, q', rfl, hq, hq', rfl⟩))
  | callback i method =>
    rw [Requested.step] at h
    split at h
    · next c hc =>
      obtain ⟨d, hd, rfl⟩ := Option.map_eq_some_iff.mp h
      exact Or.inr (Or.inr (Or.inr ⟨i, method, c, d, hc, hd, rfl⟩))
    · cases h

theorem sound_step (hv : Sound v) (hearly : ¬ ThrowsEarly v l) (hstep : v.step l = some w) :
    Sound w := by
  -- one request changes, and the others stay sound
  have hset : ∀ i (q : Request), q.Sound → w.requests = v.requests.set i q → Sound w := by
    intro i q hq hw q' hq'
    rw [hw] at hq'
    rcases List.mem_or_eq_of_mem_set hq' with hq' | rfl
    · exact hv q' hq'
    · exact hq
  rcases Requested.step_cases hstep with hw | hw | ⟨i, r, throws, q, m, q', rfl, hq, hq', hw⟩ |
    ⟨i, method, c, d, hc, hd, hw⟩
  · intro q hq
    rw [hw] at hq
    exact hv q hq
  · intro q hq
    rw [hw] at hq
    rcases List.mem_append.mp hq with hq | hq
    · exact hv q hq
    · rw [List.mem_singleton.mp hq]
      trivial
  · refine hset i q' (Request.sound_step (hv q (List.mem_of_getElem? hq)) ?_ hq') hw
    rintro c rfl rfl hleft
    by_contra haccepted
    exact hearly ⟨i, r, c, rfl, hq, hleft, Bool.eq_false_iff.mpr haccepted⟩
  · exact hset i (.calling d) (HotspotCall.Sound.callback (hv _ (List.mem_of_getElem? hc)) hd) hw

/-- A step that throws early can be taken, and is not reported. -/
theorem not_reported_of_throwsEarly (hv : Sound v) (hearly : ThrowsEarly v l) :
    ∃ w, v.step l = some w ∧ ¬ Reported w := by
  obtain ⟨i, r, c, rfl, hc, hleft, haccepted⟩ := hearly
  obtain ⟨s, left, hleft⟩ := List.exists_cons_of_ne_nil hleft
  have hstep : Request.step v.service.pool.shared r true (.calling c)
      = some (v.service.pool.shared, .calling (c.next s left true)) := by
    simp [Request.step, hleft, HotspotCall.next, haccepted]
  refine ⟨⟨v.service.setShared v.service.pool.shared,
    v.requests.set i (.calling (c.next s left true))⟩, ?_, fun hreported => ?_⟩
  · rw [Requested.step, hc, Option.bind_some, hstep]
    rfl
  · have hi := (List.getElem?_eq_some_iff.mp hc).1
    have hsound : c.Sound := hv _ (List.mem_of_getElem? hc)
    exact hsound.not_reported haccepted (hreported _ (List.mem_set hi _))

/-- **A failed call is reported exactly until one throws early.**  In every run, with
any requests, callbacks and failures, the states are all such that what has failed
is reported and what is suspended can be resumed, if and only if no step of a
request throws before the platform has accepted it. -/
theorem failures_reported_iff (softAp : SoftAp) (ls : List Requested.Label) :
    (∀ v, Run.Reached Requested.step (.initial softAp) ls v → Reported v) ↔
      Run.Along Requested.step (fun v l => ¬ ThrowsEarly v l) (.initial softAp) ls := by
  refine Run.forall_reached_iff_along (I := Sound) (fun v hv q hq => ?_) (fun _ _ _ => sound_step)
    (fun v l hv hC => not_reported_of_throwsEarly hv (not_not.mp hC)) ?_
  · cases q with
    | plain k => trivial
    | calling c => exact HotspotCall.Sound.reported (hv _ hq)
  · intro q hq
    cases hq

/-! ### Requests that are lost -/

/-- The coroutine is suspended, and nothing is left that could resume it. -/
structure HotspotCall.Lost (c : HotspotCall) : Prop where
  left : c.left = []
  active : c.cont = .active
  registered : c.registered = false

/-- A reported call is not lost. -/
theorem HotspotCall.Reported.not_lost {c : HotspotCall} (hc : c.Reported) : ¬ c.Lost := by
  intro hlost
  have hregistered := hc.suspended hlost.left hlost.active
  rw [hlost.registered] at hregistered
  cases hregistered

/-- One that is resumed goes on, whatever it is resumed with. -/
theorem Request.step_of_resumed {c : HotspotCall} {o : Except ReflectiveStep Bool}
    (hleft : c.left = []) (hcont : c.cont = .resumed o) (s : Shared) (r : Result) (throws : Bool) :
    Request.step s r throws (.calling c) = some (s, .resumed c.bridge o) := by
  rw [Request.step, hleft, hcont]

theorem lost_step {i : ℕ} {c : HotspotCall} (hc : v.requests[i]? = some (.calling c))
    (hlost : c.Lost) (hstep : v.step l = some w) : w.requests[i]? = some (.calling c) := by
  have hi := (List.getElem?_eq_some_iff.mp hc).1
  rcases Requested.step_cases hstep with hw | hw | ⟨j, r, throws, q, m, q', -, hq, hq', hw⟩ |
    ⟨j, method, c', d, hc', hd, hw⟩
  · rw [hw, hc]
  · rw [hw, List.getElem?_append_left hi, hc]
  · rw [hw, List.getElem?_set_ne ?_, hc]
    rintro rfl
    obtain rfl := Option.some_inj.mp (hc.symm.trans hq)
    -- it has no step left, and waits
    simp [Request.step, hlost.left, hlost.active] at hq'
  · rw [hw, List.getElem?_set_ne ?_, hc]
    rintro rfl
    cases Option.some_inj.mp (hc.symm.trans hc')
    -- and no callback reaches it
    simp [HotspotCall.callback, hlost.registered] at hd

/-- **What is lost is lost for good.** -/
theorem lost_for_good {i : ℕ} {c : HotspotCall} (hc : v.requests[i]? = some (.calling c))
    (hlost : c.Lost) {ls : List Requested.Label} (hrun : Run.exec Requested.step v ls = some w) :
    w.requests[i]? = some (.calling c) :=
  Run.exec_invariant (C := fun _ _ => True)
    (I := fun v : Requested => v.requests[i]? = some (.calling c))
    (fun _ _ _ hc _ => lost_step hc hlost) hc (Run.along_true _ _) hrun

/-- A request for an enabled hotspot, whose fifth step throws. -/
private def failedStop : List Requested.Label :=
  .getCarplayCompatSoftApConfigure ::
    (List.replicate 7 (.request 0 ⟨true, "", ""⟩ false) ++ [.request 0 ⟨true, "", ""⟩ true])

/-- **A failed stop is swallowed.**  The class of the callback is missing: nobody is told,
nothing is registered, and the coroutine never gets to its start. -/
theorem failed_stop_is_swallowed :
    ¬ ∀ (softAp : SoftAp) (ls : List Requested.Label) (v : Requested),
      Run.Reached Requested.step (.initial softAp) ls v → Reported v := by
  intro h
  have hv := h ⟨WIFI_AP_STATE_ENABLED, none⟩ failedStop _ (Run.reached_of_exec rfl)
  obtain ⟨o, ho, -⟩ := HotspotCall.Reported.failure (hv _ (List.mem_cons_self)) rfl
  cases ho

end Carplay.Hostapd

/-
The functions that suspend until the platform calls back.

`bindService` and `startHotspotAndroid12PlusReflect` resume in every callback;
`stopHotspotAndroid12PlusReflectWithCallback` asks `isActive` first.  The platform
may call back as often as it likes.

* `resumed_at_most_once_iff` — the guarded one never throws; the others do exactly
  if one call gets two resuming callbacks, not cancelled before the first;
* `reconnection_resumes_twice` — as when a bound service is connected again.
-/
import GrpcJniClient.Continuation
import Mathlib.Data.Int.Notation

open Coroutine

namespace Carplay

/-! ### ServiceBinderManager -/

section ServiceBinderManager

variable {Cls IBinder : Type*} [DecidableEq Cls]

/-- The callbacks of `ServiceConnection`. -/
inductive ServiceConnection (IBinder : Type*) where
  | onServiceConnected (service : IBinder)
  | onServiceDisconnected
  deriving DecidableEq, Repr

/-- `ServiceBinderManager`. -/
structure ServiceBinderManager (Cls IBinder : Type*) where
  binders : Cls → Option IBinder

/-- `ServiceBinderManager.bindService`, by its callbacks. -/
def bindService :
    Bridge (ServiceBinderManager Cls IBinder) Cls (ServiceConnection IBinder) IBinder where
  update cls
    | .onServiceConnected service, m => ⟨Function.update m.binders cls (some service)⟩
    | .onServiceDisconnected, m => ⟨Function.update m.binders cls none⟩
  effect
    | .onServiceConnected service => .resume service
    | .onServiceDisconnected => .nothing

end ServiceBinderManager

/-! ### HostapdService -/

/-- A call on a callback proxy: the method's name and its first argument. -/
structure ProxyCall where
  name : String
  arg : Option ℤ
  deriving DecidableEq, Repr

/-- The invocation handler of `startHotspotAndroid12PlusReflect`. -/
def startTetheringCallback (method : ProxyCall) : Effect Bool :=
  if method.name = "onTetheringStarted" then .resume true
  else if method.name = "onTetheringFailed" then .resume false
  else .nothing

/-- The invocation handler of `stopHotspotAndroid12PlusReflectWithCallback`. -/
def softApCallback (method : ProxyCall) : Effect Bool :=
  if method.name = "onStateChanged" then
    if method.arg.getD (-1) = 11 then .resumeIfActive true else .nothing
  else .nothing

/-- `HostapdService.startHotspotAndroid12PlusReflect`, by its callbacks. -/
def startHotspotAndroid12PlusReflect : Bridge Unit Unit ProxyCall Bool where
  update _ _ s := s
  effect := startTetheringCallback

/-- `HostapdService.stopHotspotAndroid12PlusReflectWithCallback`, by its callbacks. -/
def stopHotspotAndroid12PlusReflectWithCallback : Bridge Unit Unit ProxyCall Bool where
  update _ _ s := s
  effect := softApCallback

theorem unguarded_bindService {Cls IBinder : Type*} [DecidableEq Cls] :
    (bindService : Bridge _ Cls _ IBinder).Unguarded := by
  intro k a h
  cases k <;> cases h

theorem unguarded_startHotspot : startHotspotAndroid12PlusReflect.Unguarded := by
  intro k a h
  have heffect : startTetheringCallback k = .resumeIfActive a := h
  rw [startTetheringCallback] at heffect
  split at heffect
  · cases heffect
  · split at heffect <;> cases heffect

theorem guarded_stopHotspot : stopHotspotAndroid12PlusReflectWithCallback.Guarded := by
  intro k a h
  have heffect : softApCallback k = .resume a := h
  rw [softApCallback] at heffect
  split at heffect
  · split at heffect <;> cases heffect
  · cases heffect

/-- **Which callbacks throw.**  Whatever the platform calls and whenever a call is
cancelled: a callback of `bindService` or of `startHotspotAndroid12PlusReflect` throws
exactly if one of the calls gets two that resume without having been cancelled
before the first, and one of `stopHotspotAndroid12PlusReflectWithCallback` never does. -/
theorem resumed_at_most_once_iff {C B : Type*} [DecidableEq C] :
    (∀ (m : ServiceBinderManager C B) (es : List (Event C (ServiceConnection B)))
        (t : Calls _ _ B), Run.exec bindService.step (.initial m) es = some t →
      (t.main ≠ .crashed ↔ ∀ i, AtMostOnce (bindService.ops i es))) ∧
    (∀ (es : List (Event Unit ProxyCall)) (t : Calls _ _ Bool),
        Run.exec startHotspotAndroid12PlusReflect.step (.initial ()) es = some t →
      (t.main ≠ .crashed ↔ ∀ i, AtMostOnce (startHotspotAndroid12PlusReflect.ops i es))) ∧
    ∀ (es : List (Event Unit ProxyCall)) (t : Calls _ _ Bool),
      Run.exec stopHotspotAndroid12PlusReflectWithCallback.step (.initial ()) es = some t →
        t.main ≠ .crashed :=
  ⟨fun _ _ _ => Bridge.crashes_iff unguarded_bindService,
    fun _ _ => Bridge.crashes_iff unguarded_startHotspot,
    fun _ _ => Bridge.never_crashes_of_guarded guarded_stopHotspot⟩

/-- A bind that is cancelled before the service is connected twice, a start that
succeeds, and a stop that is cancelled between its check and its resumption. -/
theorem resumed_at_most_once_iff_runs :
    (∀ i, AtMostOnce ((bindService : Bridge (ServiceBinderManager ℕ ℕ) _ _ _).ops i
      [.call 0, .cancel 0, .callback 0 (.onServiceConnected 7),
        .callback 0 (.onServiceConnected 8)])) ∧
    (∀ i, AtMostOnce (startHotspotAndroid12PlusReflect.ops i
      [.call (), .callback 0 ⟨"onTetheringStarted", none⟩])) ∧
    ∀ t : Calls Unit Unit Bool,
      Run.exec stopHotspotAndroid12PlusReflectWithCallback.step (.initial ())
        [.call (), .callback 0 ⟨"onStateChanged", some 11⟩, .cancel 0, .resume] = some t →
      t.main ≠ .crashed :=
  ⟨((resumed_at_most_once_iff (C := ℕ) (B := ℕ)).1 ⟨fun _ => none⟩ _ _ rfl).mp (by decide),
    ((resumed_at_most_once_iff (C := ℕ) (B := ℕ)).2.1 _ _ rfl).mp (by decide),
    (resumed_at_most_once_iff (C := ℕ) (B := ℕ)).2.2 _⟩

/-- The service's process dies and Android connects it again: the second
`onServiceConnected` throws. -/
theorem reconnection_resumes_twice :
    ¬ ∀ (es : List (Event ℕ (ServiceConnection ℕ))) (t : Calls (ServiceBinderManager ℕ ℕ) _ _),
      Run.exec bindService.step (.initial ⟨fun _ => none⟩) es = some t → t.main ≠ .crashed := by
  intro h
  exact h [.call 0, .callback 0 (.onServiceConnected 7), .callback 0 .onServiceDisconnected,
    .callback 0 (.onServiceConnected 8)] _ rfl rfl

end Carplay

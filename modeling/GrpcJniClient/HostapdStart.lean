/-
What a hotspot request does.

`getCarplayCompatSoftApConfigure` combines the live state of the hotspot with
the cached `HostapdInfo`, which only an ENABLED broadcast writes and nothing
clears.

* `requestRun` — the request, with its coroutine run to its end or to its wait;
* `exec_requestRun` — what that adds up to;
* `BroughtUp` — the hotspot is started if it is down, reconfigured if its
  security type is unsupported, and up with a supported one in the end;
* `request_brings_up_iff` — so it is exactly unless the cached type is supported
  while the hotspot itself is down or of another type;
* `stale_cache_starts_nothing` — a request after a disable starts nothing.
-/
import GrpcJniClient.HostapdService

open ThreadPool

namespace Carplay.Hostapd

/-- The hotspot is enabled. -/
def SoftAp.enabled (ap : SoftAp) : Bool := ap.state = WIFI_AP_STATE_ENABLED

/-- The configuration of the hotspot is of a type that CarPlay can use. -/
def SoftAp.supported (ap : SoftAp) : Bool :=
  ap.configuration.any (·.mapSecurityType.compatible)

/-- The number of steps that the coroutine of a request takes, up to its end or
to its wait for a notification. -/
def requestSteps (s : Shared) : ℕ :=
  if s.softAp.enabled then if s.isHostapdSecurityTypeCorrect then 3 else 5
  else if s.isHostapdSecurityTypeCorrect then 2 else 4

/-- A request whose coroutine runs alone, with every platform call succeeding. -/
def requestRun (v : Service) (ssid passphrase : String) : List Label :=
  .getCarplayCompatSoftApConfigure ::
    (List.replicate (requestSteps v.pool.shared) (⟨true, ssid, passphrase⟩ : Result)).map
      (.run v.pool.threads.length)

/-- The calls that a request makes. -/
def requestCalls (s : Shared) : List PlatformCall :=
  if s.isHostapdSecurityTypeCorrect then []
  else if s.softAp.enabled then
    [.setSoftApConfigAndroid12Plus, .stopHotspotAndroid12PlusReflectWithCallback,
      .startHotspotAndroid12PlusReflect]
  else [.setSoftApConfigAndroid12Plus, .startHotspotAndroid12PlusReflect]

/-- The hotspot after a request. -/
def requestSoftAp (s : Shared) (r : Result) : SoftAp :=
  if s.isHostapdSecurityTypeCorrect then s.softAp
  else ⟨WIFI_AP_STATE_ENABLED, some r.configuration⟩

/-- The shared state after a request. -/
def requestShared (s : Shared) (r : Result) : Shared :=
  { s with
    softAp := requestSoftAp s r
    platformCalls := s.platformCalls ++ requestCalls s
    subscribers :=
      if s.softAp.enabled && s.isHostapdSecurityTypeCorrect then s.subscribers ++ [.empty]
      else s.subscribers }

/-- Where the coroutine of a request ends or waits. -/
def requestPc (s : Shared) : Pc :=
  if s.softAp.enabled && s.isHostapdSecurityTypeCorrect then .await none s.subscribers.length
  else .done

/-! ### The coroutine by itself -/

theorem exec_run (v : Service) (i : ℕ) (rs : List Result) :
    Run.exec step v (rs.map (.run i))
      = (Run.exec (fun (p : Coroutines) r => p.move prim i r) v.pool rs).map
          fun p => { v with pool := p } :=
  Run.exec_map (fun p => { v with pool := p }) (Label.run i) (fun _ _ => rfl) v.pool rs

theorem solo_request (s : Shared) (ssid passphrase : String) :
    Pool.solo prim s .checkEnable [] (List.replicate (requestSteps s) ⟨true, ssid, passphrase⟩)
      = some (requestShared s ⟨true, ssid, passphrase⟩, requestPc s, []) := by
  by_cases henabled : s.softAp.state = WIFI_AP_STATE_ENABLED <;>
    by_cases hcorrect : s.isHostapdSecurityTypeCorrect = true <;>
    simp [requestSteps, requestShared, requestSoftAp, requestCalls, requestPc, SoftAp.enabled,
      henabled, hcorrect, Pool.solo, prim, Shared.isCancelled, List.replicate]

/-- What a request that runs alone adds up to. -/
theorem exec_requestRun (v : Service) (ssid passphrase : String) :
    Run.exec step v (requestRun v ssid passphrase) = some { v with
      pool := ⟨requestShared v.pool.shared ⟨true, ssid, passphrase⟩,
        v.pool.threads ++ [requestPc v.pool.shared]⟩ } := by
  rw [requestRun, Run.exec_cons, step, Option.bind_some, exec_run]
  show (Run.exec _ (⟨v.pool.shared, v.pool.threads ++ Pc.checkEnable :: []⟩ : Coroutines) _).map _
    = _
  rw [Pool.exec_solo (solo_request v.pool.shared ssid passphrase)]
  rfl

/-! ### Bringing the hotspot up -/

/-- Between `s` and `t` the hotspot has been brought up with a supported type:
started if it was down, and set, stopped and started if it was up with an
unsupported one. -/
structure BroughtUp (s t : Shared) : Prop where
  started : s.softAp.enabled = false →
    ∃ calls, t.platformCalls = s.platformCalls ++ calls ∧ .startHotspotAndroid12PlusReflect ∈ calls
  restarted : s.softAp.enabled = true → s.softAp.supported = false →
    t.platformCalls = s.platformCalls ++ [.setSoftApConfigAndroid12Plus,
      .stopHotspotAndroid12PlusReflectWithCallback, .startHotspotAndroid12PlusReflect]
  enabled : t.softAp.enabled = true
  supported : t.softAp.supported = true

/-- The type of the cached info is one that CarPlay can use only if the hotspot
is up with such a type. -/
def CacheTells (s : Shared) : Prop :=
  s.isHostapdSecurityTypeCorrect = true → s.softAp.enabled = true ∧ s.softAp.supported = true

/-- **A request brings the hotspot up exactly if the cache tells the truth**: from
whatever state, with whatever hotspot, the coroutine of a request ends or waits,
and the hotspot has been brought up compatibly if and only if the cached type is
unsupported or the hotspot was up with a supported one. -/
theorem request_brings_up_iff (v : Service) (ssid passphrase : String) :
    ∃ w, Run.exec step v (requestRun v ssid passphrase) = some w ∧
      w.pool.threads = v.pool.threads ++ [requestPc v.pool.shared] ∧
      (BroughtUp v.pool.shared w.pool.shared ↔ CacheTells v.pool.shared) := by
  refine ⟨_, exec_requestRun v ssid passphrase, rfl, ?_⟩
  set s := v.pool.shared with hs
  set t := requestShared s ⟨true, ssid, passphrase⟩ with ht
  show BroughtUp s t ↔ CacheTells s
  have hcalls : t.platformCalls = s.platformCalls ++ requestCalls s := rfl
  have hap : t.softAp = requestSoftAp s ⟨true, ssid, passphrase⟩ := rfl
  cases hcorrect : s.isHostapdSecurityTypeCorrect with
  | true =>
    -- nothing is called, and the hotspot stays as it is
    rw [requestCalls, hcorrect, if_pos rfl, List.append_nil] at hcalls
    rw [requestSoftAp, hcorrect, if_pos rfl] at hap
    constructor
    · intro hB _
      exact ⟨hap ▸ hB.enabled, hap ▸ hB.supported⟩
    · intro hC
      obtain ⟨henabled, hsupported⟩ := hC hcorrect
      refine ⟨fun h => ?_, fun _ h => ?_, by rw [hap, henabled], by rw [hap, hsupported]⟩
      · rw [henabled] at h
        cases h
      · rw [hsupported] at h
        cases h
  | false =>
    rw [requestCalls, hcorrect, if_neg Bool.false_ne_true] at hcalls
    rw [requestSoftAp, hcorrect, if_neg Bool.false_ne_true] at hap
    refine iff_of_true ⟨fun h => ?_, fun h _ => ?_, by rw [hap]; rfl, by rw [hap]; rfl⟩ fun h => ?_
    · rw [h, if_neg Bool.false_ne_true] at hcalls
      exact ⟨_, hcalls, List.mem_cons_of_mem _ (List.mem_singleton_self _)⟩
    · rw [hcalls, h]
      rfl
    · rw [hcorrect] at h
      cases h

/-- A WPA3 configuration. -/
private def wpa3 : SoftApConfiguration :=
  ⟨some "AP_0000", some "passphrase", SECURITY_TYPE_WPA3_SAE, none⟩

/-- The hotspot is enabled with WPA3 and disabled again. -/
private def enableDisable : List Label :=
  [.softApChanges ⟨WIFI_AP_STATE_ENABLED, some wpa3⟩,
    .broadcast WIFI_AP_STATE_ENABLED (some wpa3) "fe80::1", .receive,
    .softApChanges ⟨WIFI_AP_STATE_DISABLED, some wpa3⟩, .broadcast WIFI_AP_STATE_DISABLED none ""]

/-- **A stale cache starts nothing.**  After a disable the request finds a
supported type in the cache and leaves the hotspot down. -/
theorem stale_cache_starts_nothing :
    ¬ ∀ (softAp : SoftAp) (ls : List Label) (v w : Service) (ssid passphrase : String),
      Run.exec step (initial softAp) ls = some v →
        Run.exec step v (requestRun v ssid passphrase) = some w →
          BroughtUp v.pool.shared w.pool.shared := by
  intro h
  have hB := h ⟨WIFI_AP_STATE_DISABLED, none⟩ enableDisable _ _ "" "" rfl
    (exec_requestRun _ "" "")
  exact absurd hB.enabled (by decide)

end Carplay.Hostapd

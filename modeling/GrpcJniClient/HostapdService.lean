/-
`HostapdService` and the flow it shares with `NetService` and `CarplayRuntime`.

Broadcasts are delivered one at a time on the main thread; `onReceive` stores
the configuration and then, as a step of its own, checks it and replaces the
tracked job.  Coroutines of `mNetServiceScope` are the threads of a pool.  The
flow has no replay and drops its oldest value, so every subscriber has a buffer
of five of its own.

A `HostapdInfo` is an object that the state flow and the events refer to, since
its address is written in place.  Cancelling a job takes effect up to the point
where its coroutine takes an event.  The last broadcast, what was published and
which notification it goes back to are recorded on the side.
-/
import GrpcJniClient.Run
import GrpcJniClient.SharedFlow
import GrpcJniClient.ThreadPool
import Mathlib.Data.Int.Notation

open SharedFlow ThreadPool

namespace Carplay.Hostapd

/-! ### Data -/

/-- `HostapdSecurityType`. -/
inductive HostapdSecurityType where
  | WPA3_PERSONAL_TRANSITION_MODEL
  | WPA3_PERSONAL_ONLY
  | WPA3_PERSONAL_ERROR
  deriving DecidableEq, Repr

def HostapdSecurityType.value : HostapdSecurityType → ℤ
  | WPA3_PERSONAL_TRANSITION_MODEL => 3
  | WPA3_PERSONAL_ONLY => 4
  | WPA3_PERSONAL_ERROR => -1

def WIFI_AP_STATE_DISABLED : ℤ := 11
def WIFI_AP_STATE_ENABLED : ℤ := 13
def WIFI_AP_STATE_FAILED : ℤ := 14

def SECURITY_TYPE_WPA3_SAE_TRANSITION : ℤ := 2
def SECURITY_TYPE_WPA3_SAE : ℤ := 3

/-- The platform's `SoftApConfiguration`. -/
structure SoftApConfiguration where
  ssid : Option String
  passphrase : Option String
  securityType : ℤ
  /-- The first entry of its `channels`; `none` when they cannot be read. -/
  bandAndChannel : Option (Option ℤ × Option ℤ)
  deriving DecidableEq, Repr

/-- `SoftApConfiguration.mapSecurityType`. -/
def SoftApConfiguration.mapSecurityType (c : SoftApConfiguration) : HostapdSecurityType :=
  if c.securityType = SECURITY_TYPE_WPA3_SAE_TRANSITION then .WPA3_PERSONAL_TRANSITION_MODEL
  else if c.securityType = SECURITY_TYPE_WPA3_SAE then .WPA3_PERSONAL_ONLY
  else .WPA3_PERSONAL_ERROR

/-- `HostapdInfo`. -/
structure HostapdInfo where
  mHostapdSsid : Option String
  mHostapdPassphrase : Option String
  mHostapdBand : Option ℤ
  mHostapdChannel : Option ℤ
  mHostapdIPAddressV6 : Option String
  mHostapdSecurityType : HostapdSecurityType
  deriving DecidableEq, Repr

/-- The info that `onReceive` makes of a configuration. -/
def SoftApConfiguration.toInfo (c : SoftApConfiguration) (inetIpv6Address : String) :
    HostapdInfo where
  mHostapdSsid := c.ssid
  mHostapdPassphrase := c.passphrase
  mHostapdBand := c.bandAndChannel.bind (·.1)
  mHostapdChannel := c.bandAndChannel.bind (·.2)
  mHostapdIPAddressV6 := some inetIpv6Address
  mHostapdSecurityType := c.mapSecurityType

/-- The security type is one that CarPlay can use. -/
def HostapdSecurityType.compatible : HostapdSecurityType → Bool
  | WPA3_PERSONAL_ONLY | WPA3_PERSONAL_TRANSITION_MODEL => true
  | WPA3_PERSONAL_ERROR => false

/-- `NetEvent`; an info is given by its object's number. -/
inductive NetEvent where
  | kernelNetLinkChanged (inetName inetAddress : String)
  | hostapdConfigurationChanged (info : Option ℕ)
  deriving DecidableEq, Repr

/-- A value of `mHostapdEventSharedFlow`, with the number of the notification it
goes back to. -/
structure Emission where
  event : NetEvent
  cause : ℕ
  deriving DecidableEq, Repr

/-- The address of a notification for the hotspot's interface. -/
def Emission.wlan2Address (e : Emission) : Option String :=
  match e.event with
  | .kernelNetLinkChanged inetName inetAddress =>
      if inetName = "wlan2" then some inetAddress else none
  | .hostapdConfigurationChanged _ => none

/-- An ENABLED or DISABLED broadcast, with the configuration that could be
read. -/
inductive Broadcast where
  | enabled (configuration : Option SoftApConfiguration)
  | disabled
  deriving DecidableEq, Repr

/-- A `HostapdConfigurationChangedEvent` at the moment it is emitted. -/
structure Publication where
  cause : ℕ
  address : String
  info : Option HostapdInfo
  lastBroadcast : Option Broadcast
  deriving DecidableEq, Repr

/-- A `startCarplaySession` call. -/
structure CarplaySession where
  hostapdSsid : String
  hostapdPwd : String
  hostapdChannel : ℤ
  hostapdNetInterfaceV6Address : String
  hostapdSecurityType : ℤ
  cause : ℕ
  deriving DecidableEq, Repr

/-- The calls on the platform that change the hotspot. -/
inductive PlatformCall where
  | setSoftApConfigAndroid12Plus
  | stopHotspotAndroid12PlusReflectWithCallback
  | startHotspotAndroid12PlusReflect
  deriving DecidableEq, Repr

/-- The hotspot itself. -/
structure SoftAp where
  state : ℤ
  configuration : Option SoftApConfiguration
  deriving DecidableEq, Repr

/-! ### State -/

/-- The step a coroutine takes next. -/
inductive Pc where
  -- `getCarplayCompatSoftApConfigure`
  | checkEnable
  | checkSecurityType (enabled : Bool)
  | setSoftApConfig (enabled : Bool)
  | stopHotspot
  | startHotspot
  -- a waiter, which the job of `onReceive` is from the start
  | subscribe (job : Option ℕ)
  | await (job : Option ℕ) (slot : ℕ)
  | readForAddress (cause : ℕ) (address : String)
  | writeAddress (cause : ℕ) (address : String) (info : Option ℕ)
  | readForEvent (cause : ℕ) (address : String)
  | emit (cause : ℕ) (address : String) (info : Option ℕ)
  | done
  deriving DecidableEq, Repr

structure Shared where
  /-- The `HostapdInfo` objects. -/
  infos : List HostapdInfo
  mSoftApConfigurationStateFlow : Option ℕ
  /-- The number of the tracked job's coroutine. -/
  mHostapdIpv6Job : Option ℕ
  /-- The jobs that have been cancelled. -/
  cancelled : List ℕ
  /-- The buffers of the coroutines that have subscribed, in that order. -/
  subscribers : List (Buffer 5 Emission)
  /-- The hostapd collector of `CarplayRuntime`. -/
  runtime : Collector 5 Emission
  softAp : SoftAp
  platformCalls : List PlatformCall
  lastBroadcast : Option Broadcast
  published : List Publication
  sessions : List CarplaySession

/-- `mSoftApConfigurationStateFlow.value`, the object's content. -/
def Shared.value (s : Shared) : Option HostapdInfo :=
  s.mSoftApConfigurationStateFlow.bind (s.infos[·]?)

/-- A store to `mSoftApConfigurationStateFlow`, which keeps an equal value. -/
def Shared.setValue (s : Shared) (info : HostapdInfo) : Shared :=
  if s.value = some info then s
  else { s with
    infos := s.infos ++ [info]
    mSoftApConfigurationStateFlow := some s.infos.length }

/-- `HostapdService.isHostapdSecurityTypeCorrect`. -/
def Shared.isHostapdSecurityTypeCorrect (s : Shared) : Bool :=
  match s.value with
  | none => false
  | some info => info.mHostapdSecurityType.compatible

/-- `mHostapdEventSharedFlow.tryEmit`. -/
def Shared.tryEmit (s : Shared) (e : Emission) : Shared :=
  { s with
    subscribers := s.subscribers.map (·.offer e)
    runtime := s.runtime.tryEmit e }

/-- `info?.mHostapdIPAddressV6 = address`. -/
def Shared.setAddress (s : Shared) (info : Option ℕ) (address : String) : Shared :=
  match info with
  | none => s
  | some n =>
      { s with infos := s.infos.modify n fun i => { i with mHostapdIPAddressV6 := some address } }

/-- The job has been cancelled. -/
def Shared.isCancelled (s : Shared) (job : Option ℕ) : Bool :=
  job.any (s.cancelled.contains ·)

/-- What a platform call gives: whether it succeeds, and the credentials drawn
for a new configuration. -/
structure Result where
  success : Bool
  ssid : String
  passphrase : String
  deriving DecidableEq, Repr

/-- The configuration that `setSoftApConfigAndroid12Plus` sets. -/
def Result.configuration (r : Result) : SoftApConfiguration where
  ssid := some r.ssid
  passphrase := some r.passphrase
  securityType := SECURITY_TYPE_WPA3_SAE_TRANSITION
  bandAndChannel := some (some 2, some 149)

/-- One step of a coroutine.  A waiter with nothing to take is suspended, and so
for good is one whose stop request fails. -/
def prim (s : Shared) (r : Result) : Pc → Option (Shared × Pc × List Pc)
  | .checkEnable =>
      some (s, .checkSecurityType
        ((if r.success then s.softAp.state else WIFI_AP_STATE_FAILED) = WIFI_AP_STATE_ENABLED), [])
  | .checkSecurityType enabled =>
      some (s,
        if s.isHostapdSecurityTypeCorrect then
          if enabled then .subscribe none else .done
        else .setSoftApConfig enabled, [])
  | .setSoftApConfig enabled =>
      some ({ s with
        softAp := if r.success then { s.softAp with configuration := some r.configuration }
          else s.softAp
        platformCalls := s.platformCalls ++ [.setSoftApConfigAndroid12Plus] },
        if enabled then .stopHotspot else .startHotspot, [])
  | .stopHotspot =>
      if r.success then
        some ({ s with
          softAp := { s.softAp with state := WIFI_AP_STATE_DISABLED }
          platformCalls := s.platformCalls ++ [.stopHotspotAndroid12PlusReflectWithCallback] },
          .startHotspot, [])
      else none
  | .startHotspot =>
      some ({ s with
        softAp := if r.success then { s.softAp with state := WIFI_AP_STATE_ENABLED } else s.softAp
        platformCalls := s.platformCalls ++ [.startHotspotAndroid12PlusReflect] }, .done, [])
  | .subscribe job =>
      if s.isCancelled job then some (s, .done, [])
      else some ({ s with subscribers := s.subscribers ++ [.empty] },
        .await job s.subscribers.length, [])
  | .await job slot =>
      if s.isCancelled job then some (s, .done, [])
      else
        (s.subscribers[slot]?.bind Buffer.poll).map fun (e, b) =>
          ({ s with subscribers := s.subscribers.set slot b },
            match e.wlan2Address with
            | some address => .readForAddress e.cause address
            | none => .await job slot, [])
  | .readForAddress cause address =>
      some (s, .writeAddress cause address s.mSoftApConfigurationStateFlow, [])
  | .writeAddress cause address info =>
      some (s.setAddress info address, .readForEvent cause address, [])
  | .readForEvent cause address => some (s, .emit cause address s.mSoftApConfigurationStateFlow, [])
  | .emit cause address info =>
      some ({ s.tryEmit ⟨.hostapdConfigurationChanged info, cause⟩ with
        published := s.published ++
          [⟨cause, address, info.bind (s.infos[·]?), s.lastBroadcast⟩] }, .done, [])
  | .done => none

abbrev Coroutines := Pool Shared Pc

/-- `job.isActive`. -/
def isActive (p : Coroutines) (job : ℕ) : Bool :=
  (p.threads[job]?).any (· ≠ .done) && !p.shared.cancelled.contains job

/-- Cancel the tracked job if it is active, as both branches of `onReceive` do. -/
def cancelHostapdIpv6Job (p : Coroutines) : Coroutines :=
  match p.shared.mHostapdIpv6Job with
  | some job =>
      if isActive p job then
        { p with shared := { p.shared with
          cancelled := job :: p.shared.cancelled, mHostapdIpv6Job := none } }
      else p
  | none => p

/-- The service; `receiving` while `onReceive` is between its store and its
check. -/
structure Service where
  pool : Coroutines
  receiving : Bool

/-- `onReceive`, up to the check of the stored configuration. -/
def onReceive (p : Coroutines) (hostapdState : ℤ) (configuration : Option SoftApConfiguration)
    (inetIpv6Address : String) : Service :=
  if hostapdState = WIFI_AP_STATE_ENABLED then
    let s := { p.shared with lastBroadcast := some (.enabled configuration) }
    match configuration with
    | some c => ⟨{ p with shared := s.setValue (c.toInfo inetIpv6Address) }, true⟩
    | none => ⟨{ p with shared := s }, false⟩
  else if hostapdState = WIFI_AP_STATE_DISABLED then
    ⟨cancelHostapdIpv6Job { p with shared := { p.shared with lastBroadcast := some .disabled } },
      false⟩
  else ⟨p, false⟩

/-- The rest of `onReceive` for a configuration. -/
def launchHostapdIpv6Job (p : Coroutines) : Coroutines :=
  if p.shared.isHostapdSecurityTypeCorrect then
    let q := cancelHostapdIpv6Job p
    ({ q with shared := { q.shared with mHostapdIpv6Job := some q.threads.length } } :
      Coroutines).spawn (.subscribe (some q.threads.length))
  else p

/-- The hostapd collector of `CarplayRuntime` on one event. -/
def collectNetEvent (infos : List HostapdInfo) (e : Emission) : Option CarplaySession :=
  match e.event with
  | .hostapdConfigurationChanged info =>
      let info := info.bind (infos[·]?)
      some {
        hostapdSsid := (info.bind (·.mHostapdSsid)).getD ""
        hostapdPwd := (info.bind (·.mHostapdPassphrase)).getD ""
        hostapdChannel := (info.bind (·.mHostapdChannel)).getD 149
        hostapdNetInterfaceV6Address := (info.bind (·.mHostapdIPAddressV6)).getD ""
        hostapdSecurityType := (info.map (·.mHostapdSecurityType.value)).getD
          HostapdSecurityType.WPA3_PERSONAL_TRANSITION_MODEL.value
        cause := e.cause }
  | .kernelNetLinkChanged _ _ => none

/-- What can happen to the service. -/
inductive Label where
  | broadcast (hostapdState : ℤ) (configuration : Option SoftApConfiguration)
      (inetIpv6Address : String)
  /-- `onReceive` goes on. -/
  | receive
  | getCarplayCompatSoftApConfigure
  | onIpv6Ready (inetName ipv6Address : String)
  /-- The hotspot changes by itself. -/
  | softApChanges (softAp : SoftAp)
  | run (i : ℕ) (r : Result)
  | collectTake
  | collectHandle
  deriving DecidableEq, Repr

def Service.setShared (v : Service) (s : Shared) : Service :=
  { v with pool := { v.pool with shared := s } }

def step (v : Service) : Label → Option Service
  | .broadcast hostapdState configuration inetIpv6Address =>
      if v.receiving then none
      else some (onReceive v.pool hostapdState configuration inetIpv6Address)
  | .receive => if v.receiving then some ⟨launchHostapdIpv6Job v.pool, false⟩ else none
  | .getCarplayCompatSoftApConfigure => some { v with pool := v.pool.spawn .checkEnable }
  | .onIpv6Ready inetName ipv6Address =>
      some (v.setShared (v.pool.shared.tryEmit
        ⟨.kernelNetLinkChanged inetName ipv6Address, v.pool.shared.runtime.emitted.length⟩))
  | .softApChanges softAp => some (v.setShared { v.pool.shared with softAp := softAp })
  | .run i r => (v.pool.move prim i r).map fun p => { v with pool := p }
  | .collectTake =>
      v.pool.shared.runtime.take.map fun c => v.setShared { v.pool.shared with runtime := c }
  | .collectHandle =>
      v.pool.shared.runtime.handle.map fun (e, c) =>
        v.setShared { v.pool.shared with
          runtime := c
          sessions := v.pool.shared.sessions ++ (collectNetEvent v.pool.shared.infos e).toList }

/-- The service after `onCreate`, with the runtime's collector subscribed. -/
def initial (softAp : SoftAp) : Service where
  pool := ⟨⟨[], none, none, [], [], .initial, softAp, [], none, [], []⟩, []⟩
  receiving := false

end Carplay.Hostapd

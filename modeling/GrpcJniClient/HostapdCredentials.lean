/-
The credentials of a hotspot that the service has configured, as the peer reads them.

`setSoftApConfigAndroid12Plus` draws an SSID and a passphrase with the defaults of
`generateSsid` and `generatePassword`.  Here the platform keeps the configuration that
was set, and reports it when the hotspot comes up.

* `Own.step` — the configuration in effect has credentials that were drawn;
* `Own.labels` — and so has every one that is broadcast;
* `credentials_reach_peer` — so the peer reads an SSID of four digits and a strong
  passphrase, the channel and the security type that were set.
-/
import GrpcJniClient.HostapdPassword
import GrpcJniClient.HostapdSsid
import GrpcJniClient.SessionRequests

open ThreadPool

namespace Carplay.Hostapd

open Password Rpc

/-! ### Configurations -/

/-- The credentials are what `generateSsid()` and `generatePassword()` return. -/
structure Drawn (ssid passphrase : String) : Prop where
  ssid : ∃ nextInt fuel, generateSsid defaultPrefix defaultDigits nextInt fuel =
    .ok (some (javaString ssid))
  passphrase : ∃ nextInt shuffling, ∃ fuel : ℕ, defaultLength ≤ fuel ∧
    generatePassword defaultLength nextInt shuffling fuel = .ok (some (javaString passphrase))

theorem Drawn.exists_digits {ssid passphrase : String} (h : Drawn ssid passphrase) :
    ∃ nextInt, javaString ssid = defaultPrefix ++ digitPart defaultDigits nextInt := by
  obtain ⟨nextInt, fuel, hssid⟩ := h.ssid
  rw [generateSsid_defaults] at hssid
  exact ⟨nextInt, (Option.some_inj.mp (Except.ok.inj hssid)).symm⟩

theorem Drawn.strong {ssid passphrase : String} (h : Drawn ssid passphrase) :
    Strong defaultLength (javaString passphrase) := by
  obtain ⟨nextInt, shuffling, fuel, hfuel, hpassphrase⟩ := h.passphrase
  rw [generatePassword_eq (by decide) nextInt shuffling hfuel] at hpassphrase
  rw [← Option.some_inj.mp (Except.ok.inj hpassphrase)]
  exact (strong_drawn nextInt (by decide)).of_perm (shuffling.perm _)

/-- A string has at least one unit for each character. -/
theorem length_le_javaString (s : String) : s.length ≤ (javaString s).length := by
  rw [javaString, ← String.length_toList]
  induction s.toList with
  | nil => exact Nat.le_refl _
  | cons c cs ih =>
    have hc : 1 ≤ (Utf16.ofChar c).length := by
      rw [Utf16.ofChar]
      split <;> simp
    rw [Utf16.encode, List.flatMap_cons, List.length_append, List.length_cons]
    rw [Utf16.encode] at ih
    omega

theorem length_ofChar_digit (i : Fin 10) : (Utf16.ofChar (digit i)).length = 1 := by
  revert i
  decide

theorem length_digitPart (digits : ℤ) (nextInt : ℕ → Fin 10) :
    (digitPart digits nextInt).length = digits.toNat := by
  have hks : ∀ ks : List ℕ,
      (Utf16.encode (ks.map fun k => digit (nextInt k))).length = ks.length := by
    intro ks
    induction ks with
    | nil => rfl
    | cons k ks ih =>
      rw [List.map_cons, Utf16.encode, List.flatMap_cons, List.length_append,
        length_ofChar_digit, List.length_cons, Nat.add_comm]
      exact congrArg (· + 1) ih
  rw [digitPart, hks, List.length_range]

theorem Drawn.length_ssid {ssid passphrase : String} (h : Drawn ssid passphrase) :
    ssid.length ≤ 7 := by
  obtain ⟨nextInt, hssid⟩ := h.exists_digits
  have hle := length_le_javaString ssid
  rw [hssid, List.length_append, length_digitPart] at hle
  exact hle

theorem Drawn.length_passphrase {ssid passphrase : String} (h : Drawn ssid passphrase) :
    passphrase.length ≤ 12 := by
  have hle := length_le_javaString passphrase
  have hlength : ((javaString passphrase).length : ℤ) = 12 := h.strong.length_eq
  omega

/-- A configuration that the service has set. -/
def SoftApConfiguration.Own (c : SoftApConfiguration) : Prop :=
  ∃ r : Result, Drawn r.ssid r.passphrase ∧ c = r.configuration

/-! ### Runs -/

/-- The platform reports the configuration that is in effect, which only the service
changes; credentials are drawn, and addresses fit into a request. -/
def Faithful (v : Service) : Label → Prop
  | .broadcast _ configuration inetIpv6Address =>
      (∀ c ∈ configuration, c ∈ v.pool.shared.softAp.configuration) ∧
        inetIpv6Address.length ≤ 2 ^ 20
  | .onIpv6Ready _ ipv6Address => ipv6Address.length ≤ 2 ^ 20
  | .softApChanges softAp => softAp.configuration = v.pool.shared.softAp.configuration
  | .run _ r => Drawn r.ssid r.passphrase
  | _ => True

/-- The configuration in effect is one that the service has set. -/
def Own (v : Service) : Prop := ∀ c ∈ v.pool.shared.softAp.configuration, c.Own

variable {v w : Service} {s m : Shared} {r : Result} {k k' : Pc} {forks : List Pc} {l : Label}
  {ls : List Label}

theorem prim_configuration (h : prim s r k = some (m, k', forks)) :
    m.softAp.configuration = s.softAp.configuration ∨
      m.softAp.configuration = some r.configuration := by
  cases k with
  | setSoftApConfig enabled =>
    cases h
    -- only this step may set the configuration
    show (if r.success then _ else s.softAp : SoftAp).configuration = _ ∨ _
    split
    · exact .inr rfl
    · exact .inl rfl
  | stopHotspot =>
    rw [prim] at h
    split at h <;> cases h
    exact .inl rfl
  | startHotspot =>
    cases h
    refine .inl ?_
    show (if r.success then _ else s.softAp : SoftAp).configuration = _
    split <;> rfl
  | subscribe job =>
    rw [prim] at h
    split at h <;> cases h <;> exact .inl rfl
  | await job slot =>
    rw [prim] at h
    split at h
    · cases h
      exact .inl rfl
    · obtain ⟨p, -, heq⟩ := Option.map_eq_some_iff.mp h
      cases heq
      exact .inl rfl
  | writeAddress cause address info =>
    cases h
    cases info <;> exact .inl rfl
  | done => cases h
  | _ =>
    cases h
    exact .inl rfl

theorem softAp_cancel (p : Coroutines) :
    (cancelHostapdIpv6Job p).shared.softAp = p.shared.softAp := by
  rcases cancelHostapdIpv6Job_cases p with h | ⟨job, -, h⟩ <;> rw [h]

theorem softAp_onReceive (p : Coroutines) (hostapdState : ℤ)
    (configuration : Option SoftApConfiguration) (inetIpv6Address : String) :
    (onReceive p hostapdState configuration inetIpv6Address).pool.shared.softAp =
      p.shared.softAp := by
  rw [onReceive]
  split
  · cases configuration with
    | none => rfl
    | some c =>
      simp only [Shared.setValue]
      split <;> rfl
  · split
    · exact softAp_cancel _
    · rfl

theorem softAp_launch (p : Coroutines) :
    (launchHostapdIpv6Job p).shared.softAp = p.shared.softAp := by
  rw [launchHostapdIpv6Job]
  split
  · exact softAp_cancel p
  · rfl

theorem Own.step (hv : Own v) (hl : Faithful v l) (h : Hostapd.step v l = some w) : Own w := by
  cases l with
  | broadcast hostapdState configuration inetIpv6Address =>
    rw [Hostapd.step] at h
    split at h <;> cases h
    rwa [Own, softAp_onReceive]
  | receive =>
    rw [Hostapd.step] at h
    split at h <;> cases h
    rwa [Own, softAp_launch]
  | getCarplayCompatSoftApConfigure =>
    cases h
    exact hv
  | onIpv6Ready inetName ipv6Address =>
    cases h
    exact hv
  | softApChanges softAp =>
    cases h
    have heq : softAp.configuration = v.pool.shared.softAp.configuration := hl
    -- the platform changes its state, not the configuration
    show ∀ c ∈ softAp.configuration, c.Own
    rwa [heq]
  | run i r =>
    obtain ⟨p, hp, rfl⟩ := Option.map_eq_some_iff.mp h
    obtain ⟨k, m, k', forks, -, hprim, rfl⟩ := Pool.of_move hp
    show ∀ c ∈ m.softAp.configuration, c.Own
    -- what the step sets is what its result has drawn
    rcases prim_configuration hprim with heq | heq <;> rw [heq]
    · exact hv
    · rintro c ⟨⟩
      exact ⟨r, hl, rfl⟩
  | collectTake =>
    obtain ⟨c, -, rfl⟩ := Option.map_eq_some_iff.mp h
    exact hv
  | collectHandle =>
    obtain ⟨c, -, rfl⟩ := Option.map_eq_some_iff.mp h
    exact hv

/-- What is broadcast in a state with drawn credentials has them, and fits. -/
theorem Own.label (hv : Own v) (hl : Faithful v l) :
    l.Fits ∧ ∀ hostapdState c inetIpv6Address,
      l = .broadcast hostapdState (some c) inetIpv6Address → c.Own := by
  cases l with
  | broadcast hostapdState configuration inetIpv6Address =>
    obtain ⟨hconfiguration, haddress⟩ := hl
    cases configuration with
    | none => exact ⟨trivial, by rintro - - - ⟨⟩⟩
    | some c =>
      -- drawn credentials are short, so a request has room for them
      obtain ⟨r, hr, rfl⟩ := hv c (hconfiguration c rfl)
      refine ⟨⟨hr.length_ssid.trans (by decide), hr.length_passphrase.trans (by decide),
        haddress⟩, ?_⟩
      rintro - - - ⟨⟩
      exact ⟨r, hr, rfl⟩
  | onIpv6Ready inetName ipv6Address => exact ⟨hl, by rintro - - - ⟨⟩⟩
  | _ => exact ⟨trivial, by rintro - - - ⟨⟩⟩

/-- So it is all along a run. -/
theorem Own.labels (hv : Own v) (hls : Run.Along Hostapd.step Faithful v ls)
    (h : Run.exec Hostapd.step v ls = some w) :
    ∀ l ∈ ls, l.Fits ∧ ∀ hostapdState c inetIpv6Address,
      l = .broadcast hostapdState (some c) inetIpv6Address → c.Own := by
  induction ls generalizing v with
  | nil => exact fun l hl => absurd hl List.not_mem_nil
  | cons l ls ih =>
    obtain ⟨hl, hrest⟩ := hls
    rw [Run.exec_cons, Option.bind_eq_some_iff] at h
    obtain ⟨u, hu, hw⟩ := h
    exact List.forall_mem_cons.mpr ⟨hv.label hl, ih (hv.step hl hu) (hrest u hu) hw⟩

/-- **The peer is told the credentials that were drawn.**  Where only the service sets
the hotspot's configuration and the platform reports the one in effect, the peer reads
in each session request an SSID of the default prefix and four digits, a strong
passphrase, channel 149 and the transition mode. -/
theorem credentials_reach_peer (softAp : SoftAp) (hsoftAp : ∀ c ∈ softAp.configuration, c.Own)
    (ls : List Label) (v : Service) (hls : Run.Along step Faithful (Hostapd.initial softAp) ls)
    (h : Run.exec step (Hostapd.initial softAp) ls = some v) :
    ∀ x ∈ v.pool.shared.sessions, ∃ read nextInt passphrase, x.peerReads = some read ∧
      read.hostapdSsid = some (defaultPrefix ++ digitPart defaultDigits nextInt) ∧
      read.hostapdPassphrase = some passphrase ∧ Strong defaultLength passphrase ∧
      read.hostapdChannel = 149 ∧
      read.hostapdSecurityType =
        BitVec.ofInt 32 HostapdSecurityType.WPA3_PERSONAL_TRANSITION_MODEL.value := by
  intro x hx
  have hown : Own (Hostapd.initial softAp) := hsoftAp
  have hlabels := hown.labels hls h
  obtain ⟨info, ⟨c, inetIpv6Address, address, hc, ha, rfl⟩, heq⟩ :=
    (Grounded.of_exec h).sessions x hx
  obtain ⟨⟨hssid, hpwd, hinet⟩, hcown⟩ := hlabels _ hc
  -- the request goes back to a broadcast of a configuration that the service has drawn
  obtain ⟨r, hr, rfl⟩ := hcown _ _ _ rfl
  have haddress : address.length ≤ 2 ^ 20 := by
    rcases ha with rfl | ha
    · exact hinet
    · exact (hlabels _ ha).1
  obtain ⟨nextInt, hdigits⟩ := hr.exists_digits
  refine ⟨r.configuration.announcement address, nextInt, javaString r.passphrase, ?_, ?_, rfl,
    hr.strong, rfl, rfl⟩
  · rw [heq]
    exact peerReads_session hssid hpwd haddress
  · exact congrArg some hdigits

/-- Credentials that are drawn with the same index every time. -/
private def drawnResult : Result := ⟨true, "AP_7777", "Aa0!AAAAAAAA"⟩

private theorem drawn_drawnResult : Drawn drawnResult.ssid drawnResult.passphrase where
  ssid := ⟨fun _ => 7, 0, by rw [generateSsid_defaults]; rfl⟩
  passphrase := by
    refine ⟨fun _ => .ofIndex fun _ => 0, ⟨id, List.Perm.refl⟩, 12, by decide, ?_⟩
    rw [generatePassword_eq (by decide) _ _ (by decide)]
    rfl

/-- The service configures the hotspot and starts it. -/
private def configured : List Label :=
  .getCarplayCompatSoftApConfigure :: List.replicate 4 (.run 0 drawnResult)

/-- A job waits for the address, and the collector moves. -/
private def addressed : List Label :=
  [.receive, .run 1 drawnResult, .onIpv6Ready "wlan2" "fe80::1"] ++
    List.replicate 5 (.run 1 drawnResult) ++
    [.collectTake, .collectHandle, .collectTake, .collectHandle]

theorem credentials_reach_peer_configured :
    ∃ v x, Run.exec step (Hostapd.initial ⟨WIFI_AP_STATE_DISABLED, none⟩)
      (configured ++ .broadcast WIFI_AP_STATE_ENABLED (some drawnResult.configuration) "" ::
        addressed) = some v ∧
      v.pool.shared.sessions = [x] ∧ ∃ read passphrase, x.peerReads = some read ∧
        read.hostapdPassphrase = some passphrase ∧ Strong defaultLength passphrase := by
  obtain ⟨v, x, hv, hx⟩ : ∃ v x, Run.exec step
      (Hostapd.initial ⟨WIFI_AP_STATE_DISABLED, none⟩)
      (configured ++ .broadcast WIFI_AP_STATE_ENABLED (some drawnResult.configuration) "" ::
        addressed) = some v ∧ v.pool.shared.sessions = [x] := ⟨_, _, rfl, rfl⟩
  have hconfigured : ∀ l ∈ configured, ∀ u, Faithful u l := by
    simp [configured, Faithful, drawn_drawnResult]
  have haddressed : ∀ l ∈ addressed, ∀ u, Faithful u l := by
    simp [addressed, Faithful, drawn_drawnResult]
    exact fun _ => by decide
  have hfaithful : Run.Along step Faithful (Hostapd.initial ⟨WIFI_AP_STATE_DISABLED, none⟩)
      (configured ++ .broadcast WIFI_AP_STATE_ENABLED (some drawnResult.configuration) "" ::
        addressed) := by
    rw [Run.along_append]
    refine ⟨Run.along_of_forall hconfigured _, fun t ht => ⟨?_, fun u _ =>
      Run.along_of_forall haddressed u⟩⟩
    obtain rfl := Option.some_inj.mp ht
    -- the broadcast reports the configuration in effect
    exact ⟨fun c hc => hc, by decide⟩
  obtain ⟨read, -, passphrase, hread, -, hpassphrase, hstrong, -⟩ :=
    credentials_reach_peer ⟨WIFI_AP_STATE_DISABLED, none⟩ (fun c hc => absurd hc (by simp))
      _ v hfaithful hv x (by simp [hx])
  exact ⟨v, x, hv, hx, read, passphrase, hread, hpassphrase, hstrong⟩

end Carplay.Hostapd

/-
`HostapdService.generateSsid`.

The name is the prefix with random digits behind it.  While its UTF-8 form is
longer than 32 bytes the loop drops the last unit of the prefix, but always of
the prefix it was called with.

* `generateSsid_eq_some_iff` — what can be returned: the name is short enough at
  once, or without a prefix, or after one unit has been dropped;
* `shortening_ends_iff` — so the loop ends exactly in these cases;
* `generateSsid_usable_iff` — what is returned is usable unless the one unit is
  half of a surrogate pair;
* `long_ssid_never_ends`, `emoji_is_split` — both go wrong.
-/
import GrpcJniClient.JavaString
import GrpcJniClient.Loop
import Mathlib.Data.Int.Notation

namespace Carplay.Hostapd

/-- `maxBytes`. -/
def maxBytes : ℕ := 32

/-- `'0' + i`. -/
def digit (i : Fin 10) : Char := Char.ofNat ('0'.toNat + i)

/-- The digits; `nextInt k` is what the `k`-th `mSecureRandom.nextInt(10)`
returns. -/
def digitPart (digits : ℤ) (nextInt : ℕ → Fin 10) : JavaString :=
  Utf16.encode ((List.range digits.toNat).map fun k => digit (nextInt k))

/-- The variable of the loop, and whether it has come to the `break`. -/
structure Shortening where
  ssid : JavaString
  broken : Bool
  deriving DecidableEq, Repr

/-- One iteration of the loop. -/
def shorten (ssidPrefix digitPart : JavaString) (s : Shortening) : Option Shortening :=
  if s.broken then none
  else if maxBytes < s.ssid.toByteArray.length then
    if ssidPrefix ≠ [] then
      -- `prefix` is the parameter, not what the iteration before has left of it
      let newPrefix := ssidPrefix.dropLast
      some { s with ssid := newPrefix ++ digitPart }
    else
      -- only digits are left: the bytes are cut, and the loop is left by `break`
      let bytes := s.ssid.toByteArray
      let truncated := bytes.take maxBytes
      some ⟨JavaString.ofByteArray truncated, true⟩
  else none

/-- `HostapdService.generateSsid`, with a limit on the iterations: an
`IllegalArgumentException`, or what is returned, `none` if that takes more of
them. -/
def generateSsid (ssidPrefix : JavaString) (digits : ℤ) (nextInt : ℕ → Fin 10) (fuel : ℕ) :
    Except String (Option JavaString) :=
  if 1 ≤ digits then
    .ok ((Loop.exec (shorten ssidPrefix (digitPart digits nextInt)) fuel
      ⟨ssidPrefix ++ digitPart digits nextInt, false⟩).map fun (_, t) => t.ssid)
  else .error "Failed requirement."

/-- The default of `prefix`. -/
def defaultPrefix : JavaString := Utf16.encode "AP_".toList

/-- The default of `digits`. -/
def defaultDigits : ℤ := 4

/-- Well-formed, at most 32 bytes, and all the digits after a part of the prefix
where 32 bytes have room for them. -/
structure Usable (ssidPrefix : JavaString) (digits : ℤ) (digitPart ssid : JavaString) : Prop where
  wellFormed : JavaString.ofByteArray ssid.toByteArray = ssid
  short : ssid.toByteArray.length ≤ maxBytes
  digits : digits ≤ maxBytes → ∃ start, start <+: ssidPrefix ∧ ssid = start ++ digitPart

variable {ssidPrefix ssid : JavaString} {digits : ℤ} {nextInt : ℕ → Fin 10} {cs : List Char}

/-! ### Sizes -/

theorem utf8Size_digit (i : Fin 10) : (digit i).utf8Size = 1 := by
  revert i
  decide

theorem length_utf8_digits (ks : List ℕ) :
    (Utf8.encode (ks.map fun k => digit (nextInt k))).length = ks.length := by
  induction ks with
  | nil => rfl
  | cons k ks ih =>
    rw [List.map_cons, Utf8.encode, List.flatMap_cons, List.length_append,
      String.length_utf8EncodeChar, utf8Size_digit, List.length_cons, Nat.add_comm]
    exact congrArg (· + 1) ih

/-- The digits take a byte each, whatever they stand behind. -/
theorem length_toByteArray_append_digitPart (s : JavaString) :
    (JavaString.toByteArray (s ++ digitPart digits nextInt)).length
      = s.toByteArray.length + digits.toNat := by
  rw [digitPart, JavaString.toByteArray_append_encode, List.length_append, length_utf8_digits,
    List.length_range]

/-- As many characters of the digits as there are bytes to take. -/
theorem take_utf8_digits (n : ℕ) (ks : List ℕ) :
    (Utf8.encode (ks.map fun k => digit (nextInt k))).take n
      = Utf8.encode ((ks.take n).map fun k => digit (nextInt k)) := by
  induction ks generalizing n with
  | nil => rw [List.take_nil]; exact List.take_nil
  | cons k ks ih =>
    cases n with
    | zero => rfl
    | succ n =>
      have hlen : (String.utf8EncodeChar (digit (nextInt k))).length = 1 := by
        rw [String.length_utf8EncodeChar, utf8Size_digit]
      rw [List.take_succ_cons, List.map_cons, List.map_cons, Utf8.encode, List.flatMap_cons,
        Nat.add_comm n 1, ← hlen, List.take_length_add_append, Utf8.encode, List.flatMap_cons]
      exact congrArg (String.utf8EncodeChar (digit (nextInt k)) ++ ·) (ih n)

/-! ### The loop -/

/-- What the loop leaves: the name it starts with if that is short enough, the
first bytes of it if there is no prefix, and otherwise the name with one unit
less, if that is short enough. -/
inductive Shortened (ssidPrefix digitPart : JavaString) : JavaString → Prop
  | short : (ssidPrefix ++ digitPart).toByteArray.length ≤ maxBytes →
      Shortened ssidPrefix digitPart (ssidPrefix ++ digitPart)
  | truncated : maxBytes < (ssidPrefix ++ digitPart).toByteArray.length → ssidPrefix = [] →
      Shortened ssidPrefix digitPart
        (JavaString.ofByteArray ((ssidPrefix ++ digitPart).toByteArray.take maxBytes))
  | dropped : maxBytes < (ssidPrefix ++ digitPart).toByteArray.length → ssidPrefix ≠ [] →
      (JavaString.toByteArray (ssidPrefix.dropLast ++ digitPart)).length ≤ maxBytes →
      Shortened ssidPrefix digitPart (ssidPrefix.dropLast ++ digitPart)

variable {dp : JavaString} {visited : List Shortening} {t : Shortening}

theorem shorten_short (h : ssid.toByteArray.length ≤ maxBytes) :
    shorten ssidPrefix dp ⟨ssid, false⟩ = none := by
  simp [shorten, Nat.not_lt.mpr h]

theorem shorten_dropped (h : maxBytes < ssid.toByteArray.length) (hne : ssidPrefix ≠ []) :
    shorten ssidPrefix dp ⟨ssid, false⟩ = some ⟨ssidPrefix.dropLast ++ dp, false⟩ := by
  simp [shorten, h, hne]

theorem shorten_truncated (h : maxBytes < ssid.toByteArray.length) :
    shorten [] dp ⟨ssid, false⟩
      = some ⟨JavaString.ofByteArray (ssid.toByteArray.take maxBytes), true⟩ := by
  simp [shorten, h]

/-- The second iteration does what the first did. -/
theorem not_ends (hne : ssidPrefix ≠ [])
    (h : maxBytes < (JavaString.toByteArray (ssidPrefix.dropLast ++ dp)).length)
    (hssid : maxBytes < ssid.toByteArray.length) :
    ¬ Loop.Ends (shorten ssidPrefix dp) ⟨ssid, false⟩ :=
  Loop.not_ends (I := fun s => s.broken = false ∧ maxBytes < s.ssid.toByteArray.length)
    (fun ⟨_, _⟩ ⟨hb, hs⟩ => by
      obtain rfl := hb
      exact ⟨_, shorten_dropped hs hne, rfl, h⟩)
    ⟨rfl, hssid⟩

theorem exists_runs_iff :
    (∃ visited t, Loop.Runs (shorten ssidPrefix dp) ⟨ssidPrefix ++ dp, false⟩ visited t ∧
      t.ssid = ssid) ↔ Shortened ssidPrefix dp ssid := by
  constructor
  · rintro ⟨visited, t, hruns, rfl⟩
    -- one iteration at most: a name that is too long after it stays so
    rcases Nat.lt_or_ge maxBytes (ssidPrefix ++ dp).toByteArray.length with hlong | hshort
    · by_cases hne : ssidPrefix = []
      · subst hne
        obtain ⟨-, rfl⟩ := hruns.unique (.iterate (shorten_truncated hlong) (.leave rfl))
        exact .truncated hlong rfl
      · rcases Nat.lt_or_ge maxBytes (JavaString.toByteArray (ssidPrefix.dropLast ++ dp)).length with h | h
        · exact absurd ⟨visited, t, hruns⟩ (not_ends hne h hlong)
        · obtain ⟨-, rfl⟩ :=
            hruns.unique (.iterate (shorten_dropped hlong hne) (.leave (shorten_short h)))
          exact .dropped hlong hne h
    · obtain ⟨-, rfl⟩ := hruns.unique (.leave (shorten_short hshort))
      exact .short hshort
  · rintro (hshort | ⟨hlong, rfl⟩ | ⟨hlong, hne, h⟩)
    · exact ⟨[], _, .leave (shorten_short hshort), rfl⟩
    · exact ⟨_, _, .iterate (shorten_truncated hlong) (.leave rfl), rfl⟩
    · exact ⟨_, _, .iterate (shorten_dropped hlong hne) (.leave (shorten_short h)), rfl⟩

/-- What can be returned. -/
theorem generateSsid_eq_some_iff (hdigits : 1 ≤ digits) :
    (∃ fuel, generateSsid ssidPrefix digits nextInt fuel = .ok (some ssid)) ↔
      Shortened ssidPrefix (digitPart digits nextInt) ssid := by
  rw [← exists_runs_iff]
  simp only [generateSsid, if_pos hdigits, Except.ok.injEq, Option.map_eq_some_iff, Prod.exists,
    Loop.runs_iff_exec]
  constructor
  · rintro ⟨fuel, visited, t, h, ht⟩
    exact ⟨visited, t, ⟨fuel, h⟩, ht⟩
  · rintro ⟨visited, t, ⟨fuel, h⟩, ht⟩
    exact ⟨fuel, visited, t, h, ht⟩

/-- The loop ends if the prefix is empty, short enough, or short enough without
its last unit; dropping more units never helps. -/
theorem shortening_ends_iff (ssidPrefix : JavaString) (digits : ℤ) (nextInt : ℕ → Fin 10)
    (hdigits : 1 ≤ digits) :
    (∃ fuel ssid, generateSsid ssidPrefix digits nextInt fuel = .ok (some ssid)) ↔
      ssidPrefix = [] ∨ ssidPrefix.toByteArray.length + digits ≤ maxBytes ∨
        (JavaString.toByteArray ssidPrefix.dropLast).length + digits ≤ maxBytes := by
  have hsize : ∀ s : JavaString, (s ++ digitPart digits nextInt).toByteArray.length ≤ maxBytes ↔
      s.toByteArray.length + digits ≤ maxBytes := by
    intro s
    rw [length_toByteArray_append_digitPart]
    omega
  rw [exists_comm]
  simp only [generateSsid_eq_some_iff hdigits, ← hsize]
  constructor
  · rintro ⟨ssid, hshort | ⟨_, hnil⟩ | ⟨_, _, h⟩⟩
    · exact .inr (.inl hshort)
    · exact .inl hnil
    · exact .inr (.inr h)
  · intro h
    rcases Nat.lt_or_ge maxBytes (ssidPrefix ++ digitPart digits nextInt).toByteArray.length
      with hlong | hshort
    · by_cases hnil : ssidPrefix = []
      · exact ⟨_, .truncated hlong hnil⟩
      · rcases h with h | h | h
        · exact absurd h hnil
        · exact absurd h (Nat.not_le.mpr hlong)
        · exact ⟨_, .dropped hlong hnil h⟩
    · exact ⟨_, .short hshort⟩

/-- Twenty-nine letters and four digits need one unit less. -/
theorem shortening_ends_iff_dropped :
    (1 : ℤ) ≤ 4 ∧ ∃ fuel ssid, generateSsid (Utf16.encode (List.replicate 29 'A')) 4 (fun _ => 7)
      fuel = .ok (some ssid) :=
  ⟨by decide, (shortening_ends_iff (Utf16.encode (List.replicate 29 'A')) 4 (fun _ => 7)
    (by decide)).mpr (.inr (.inr (by decide +kernel)))⟩

/-- Thirty letters and four digits need two units less. -/
theorem long_ssid_never_ends :
    ¬ ∃ fuel ssid, generateSsid (Utf16.encode (List.replicate 30 'A')) 4 (fun _ => 0) fuel
      = .ok (some ssid) := by
  rw [exists_comm]
  simp only [generateSsid_eq_some_iff (show (1 : ℤ) ≤ 4 by decide)]
  rintro ⟨ssid, hshort | ⟨_, hnil⟩ | ⟨_, _, h⟩⟩
  · exact absurd hshort (by decide +kernel)
  · exact absurd hnil (by decide +kernel)
  · exact absurd h (by decide +kernel)

/-- The defaults do not enter the loop. -/
theorem generateSsid_defaults (nextInt : ℕ → Fin 10) (fuel : ℕ) :
    generateSsid defaultPrefix defaultDigits nextInt fuel
      = .ok (some (defaultPrefix ++ digitPart defaultDigits nextInt)) := by
  have hshort : (defaultPrefix ++ digitPart defaultDigits nextInt).toByteArray.length ≤ maxBytes := by
    rw [length_toByteArray_append_digitPart]
    decide
  have hruns : Loop.Runs (shorten defaultPrefix (digitPart defaultDigits nextInt)) _ [] _ :=
    .leave (shorten_short hshort)
  rw [generateSsid, if_pos (by decide), hruns.exec (Nat.zero_le fuel)]
  rfl

/-! ### What is returned -/

/-- Whole characters of the prefix, and the digits. -/
theorem usable_append {start : List Char} (hstart : Utf16.encode start <+: ssidPrefix)
    (h : (JavaString.toByteArray (Utf16.encode start ++ digitPart digits nextInt)).length
      ≤ maxBytes) :
    Usable ssidPrefix digits (digitPart digits nextInt)
      (Utf16.encode start ++ digitPart digits nextInt) where
  wellFormed := by
    refine JavaString.ofByteArray_toByteArray_iff.mpr
      ⟨start ++ (List.range digits.toNat).map fun k => digit (nextInt k), ?_⟩
    exact List.flatMap_append.symm
  short := h
  digits _ := ⟨_, hstart, rfl⟩

/-- The first 32 digits of more than 32. -/
theorem usable_truncated (hlong : maxBytes < (digitPart digits nextInt).toByteArray.length) :
    Usable [] digits (digitPart digits nextInt)
      (JavaString.ofByteArray ((digitPart digits nextInt).toByteArray.take maxBytes)) := by
  have htake : (digitPart digits nextInt).toByteArray.take maxBytes
      = Utf8.encode (((List.range digits.toNat).take maxBytes).map fun k => digit (nextInt k)) := by
    rw [digitPart, JavaString.toByteArray_encode, take_utf8_digits]
  have hsize : (digitPart digits nextInt).toByteArray.length = digits.toNat := by
    rw [digitPart, JavaString.toByteArray_encode, length_utf8_digits, List.length_range]
  rw [htake, JavaString.ofByteArray, Utf8.decode_encode]
  refine ⟨JavaString.ofByteArray_toByteArray_iff.mpr ⟨_, rfl⟩, ?_, fun h => ?_⟩
  · rw [JavaString.toByteArray_encode, length_utf8_digits, List.length_take]
    exact Nat.min_le_left _ _
  · rw [hsize] at hlong
    omega

/-- Without its last unit the prefix is characters only, unless that was half of
a pair. -/
theorem usable_dropped {start : List Char} {c : Char} (hc : Utf16.isSupplementary c = false)
    (h : (JavaString.toByteArray
      ((Utf16.encode (start ++ [c])).dropLast ++ digitPart digits nextInt)).length ≤ maxBytes) :
    Usable (Utf16.encode (start ++ [c])) digits (digitPart digits nextInt)
      ((Utf16.encode (start ++ [c])).dropLast ++ digitPart digits nextInt) := by
  have hdrop : (Utf16.encode (start ++ [c])).dropLast = Utf16.encode start := by
    rw [Utf16.dropLast_encode_concat, hc, if_neg Bool.false_ne_true, List.append_nil]
  have hstart := List.dropLast_prefix (Utf16.encode (start ++ [c]))
  rw [hdrop] at h hstart ⊢
  exact usable_append hstart h

theorem dropLast_encode_supplementary {c : Char} (hc : Utf16.isSupplementary c = true)
    (start : List Char) :
    (Utf16.encode (start ++ [c])).dropLast = Utf16.encode start ++ [Utf16.highSurrogate c] := by
  rw [Utf16.dropLast_encode_concat, if_pos hc]

theorem not_usable_dropped {c : Char} (hc : Utf16.isSupplementary c = true) (start : List Char) :
    ¬ Usable ssidPrefix digits (digitPart digits nextInt)
      ((Utf16.encode (start ++ [c])).dropLast ++ digitPart digits nextInt) := by
  intro h
  have hwell := h.wellFormed
  rw [dropLast_encode_supplementary hc, digitPart] at hwell
  exact JavaString.not_wellFormed_high (Utf16.isHighSurrogate_highSurrogate hc) start _ hwell

/-- Half of a pair takes one byte where the pair took four. -/
theorem length_dropped (digits : ℤ) (nextInt : ℕ → Fin 10) {c : Char}
    (hc : Utf16.isSupplementary c = true) (start : List Char) :
    (JavaString.toByteArray
      ((Utf16.encode (start ++ [c])).dropLast ++ digitPart digits nextInt)).length + 3
        = (Utf8.encode (start ++ [c])).length + digits.toNat := by
  have hhigh := Utf16.isHighSurrogate_highSurrogate hc
  rw [length_toByteArray_append_digitPart, dropLast_encode_supplementary hc,
    JavaString.length_toByteArray_high hhigh, Utf8.length_encode_append, Utf8.length_encode_cons,
    Utf8.utf8Size_of_isSupplementary hc, show (Utf8.encode []).length = 0 from rfl]
  omega

/-- What is returned for a well-formed prefix is usable, unless the prefix ends
with a surrogate pair and the name is one to three bytes too long: then one unit
of the pair stays. -/
theorem generateSsid_usable_iff (cs : List Char) (digits : ℤ) (nextInt : ℕ → Fin 10)
    (hdigits : 1 ≤ digits) :
    (∀ fuel ssid,
        generateSsid (Utf16.encode cs) digits nextInt fuel = .ok (some ssid) →
          Usable (Utf16.encode cs) digits (digitPart digits nextInt) ssid) ↔
      ∀ c ∈ cs.getLast?, Utf16.isSupplementary c = true →
        (Utf8.encode cs).length + digits ≤ maxBytes ∨
          maxBytes + 3 < (Utf8.encode cs).length + digits := by
  have hreturned : (∀ fuel ssid,
      generateSsid (Utf16.encode cs) digits nextInt fuel = .ok (some ssid) →
        Usable (Utf16.encode cs) digits (digitPart digits nextInt) ssid) ↔
      ∀ ssid, Shortened (Utf16.encode cs) (digitPart digits nextInt) ssid →
        Usable (Utf16.encode cs) digits (digitPart digits nextInt) ssid := by
    simp only [← generateSsid_eq_some_iff hdigits, forall_exists_index]
    exact forall_comm
  have hsize : (JavaString.toByteArray (Utf16.encode cs ++ digitPart digits nextInt)).length
      = (Utf8.encode cs).length + digits.toNat := by
    rw [length_toByteArray_append_digitPart, JavaString.toByteArray_encode]
  rw [hreturned]
  constructor
  · intro h c hc hsupp
    obtain ⟨start, rfl⟩ := List.getLast?_eq_some_iff.mp hc
    have hdropped := length_dropped digits nextInt hsupp start
    have hne : Utf16.encode (start ++ [c]) ≠ [] := by
      intro hnil
      have hdrop := dropLast_encode_supplementary hsupp start
      rw [hnil] at hdrop
      exact absurd hdrop.symm (by simp)
    -- otherwise the loop ends with half of the pair
    by_contra hcon
    rw [not_or] at hcon
    refine not_usable_dropped hsupp start (h _ (.dropped ?_ hne ?_))
    · rw [hsize]
      omega
    · omega
  · rintro h ssid (hshort | ⟨hlong, hnil⟩ | ⟨hlong, hne, hshort⟩)
    · exact usable_append List.prefix_rfl hshort
    · rw [hnil, List.nil_append] at hlong ⊢
      exact usable_truncated hlong
    · rcases List.eq_nil_or_concat' cs with rfl | ⟨start, c, rfl⟩
      · exact absurd rfl hne
      -- what was dropped is the last character, or half of it
      · rcases hsupp : Utf16.isSupplementary c with _ | _
        · exact usable_dropped hsupp hshort
        · have hdropped := length_dropped digits nextInt hsupp start
          rw [hsize] at hlong
          have := h c List.getLast?_concat hsupp
          omega

/-- Behind 28 letters and with four digits, a letter of two bytes is dropped. -/
theorem generateSsid_usable_iff_accent :
    ∃ fuel ssid,
      generateSsid (Utf16.encode (List.replicate 28 'A' ++ ['é'])) 4 (fun _ => 7) fuel
          = .ok (some ssid) ∧
        Usable (Utf16.encode (List.replicate 28 'A' ++ ['é'])) 4 (digitPart 4 fun _ => 7) ssid := by
  have hdropped : Shortened (Utf16.encode (List.replicate 28 'A' ++ ['é']))
      (digitPart 4 fun _ => 7) _ :=
    .dropped (by decide +kernel) (by decide +kernel) (by decide +kernel)
  obtain ⟨fuel, h⟩ := (generateSsid_eq_some_iff (by decide)).mpr hdropped
  refine ⟨fuel, _, h, (generateSsid_usable_iff (List.replicate 28 'A' ++ ['é']) 4
    (fun _ => 7) (by decide)).mpr ?_ fuel _ h⟩
  -- the letter is one unit
  intro c hc hsupp
  obtain rfl := Option.some_inj.mp (List.getLast?_concat.symm.trans hc)
  exact absurd hsupp (by decide)

/-- Behind 25 letters and with four digits, one unit of the emoji stays. -/
theorem emoji_is_split :
    ∃ fuel ssid,
      generateSsid (Utf16.encode (List.replicate 25 'A' ++ ['😀'])) 4 (fun _ => 0) fuel
          = .ok (some ssid) ∧
        ¬ Usable (Utf16.encode (List.replicate 25 'A' ++ ['😀'])) 4
          (digitPart 4 fun _ => 0) ssid := by
  have hdropped : Shortened (Utf16.encode (List.replicate 25 'A' ++ ['😀']))
      (digitPart 4 fun _ => 0) _ :=
    .dropped (by decide +kernel) (by decide +kernel) (by decide +kernel)
  obtain ⟨fuel, h⟩ := (generateSsid_eq_some_iff (by decide)).mpr hdropped
  exact ⟨fuel, _, h, not_usable_dropped (by decide) _⟩

end Carplay.Hostapd

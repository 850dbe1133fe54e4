/-
Modified UTF-8, in which native code reads the strings of the Java virtual
machine.

Every UTF-16 unit is written on its own, half a surrogate pair like any other,
and U+0000 in two bytes:

* `zero_not_mem_encode` — no byte is zero, so a C string holds the whole string;
* `decode_encode` — every string comes back, well-formed or not.
-/
import GrpcJniClient.JavaString

namespace ModifiedUtf8

/-- The bytes of a unit. -/
def encodeUnit (u : UInt16) : List UInt8 :=
  let n := u.toNat
  if n ≠ 0 ∧ n < 0x80 then [UInt8.ofNat n]
  else if n < 0x800 then [UInt8.ofNat (0xC0 + n / 0x40), UInt8.ofNat (0x80 + n % 0x40)]
  else [UInt8.ofNat (0xE0 + n / 0x1000), UInt8.ofNat (0x80 + n / 0x40 % 0x40),
    UInt8.ofNat (0x80 + n % 0x40)]

/-- `GetStringUTFChars`. -/
def encode (s : JavaString) : List UInt8 := s.flatMap encodeUnit

/-- The unit at the head of the bytes, with what is left; `none` where none begins. -/
def decodeUnit? : List UInt8 → Option (UInt16 × List UInt8)
  | [] => none
  | a :: bs =>
    if a.toNat < 0x80 then some (UInt16.ofNat a.toNat, bs)
    else if 0xC0 ≤ a.toNat ∧ a.toNat < 0xE0 then
      bs.head?.map fun b => (UInt16.ofNat ((a.toNat - 0xC0) * 0x40 + (b.toNat - 0x80)), bs.tail)
    else if 0xE0 ≤ a.toNat ∧ a.toNat < 0xF0 then
      bs.head?.bind fun b => bs.tail.head?.map fun c => (UInt16.ofNat
        ((a.toNat - 0xE0) * 0x1000 + (b.toNat - 0x80) * 0x40 + (c.toNat - 0x80)), bs.tail.tail)
    else none

/-- At most `fuel` units. -/
def decodeUpTo : ℕ → List UInt8 → Option JavaString
  | _, [] => some []
  | 0, _ :: _ => none
  | fuel + 1, b :: bs =>
    (decodeUnit? (b :: bs)).bind fun (u, rest) => (decodeUpTo fuel rest).map (u :: ·)

/-- `NewStringUTF`; `none` for bytes that are no modified UTF-8. -/
def decode (bs : List UInt8) : Option JavaString := decodeUpTo bs.length bs

/-! ### One unit -/

variable {u : UInt16} {s : JavaString}

theorem zero_not_mem_encodeUnit (u : UInt16) : 0 ∉ encodeUnit u := by
  have hlt := u.toNat_lt
  have hne : ∀ n, 0 < n → n < 256 → (0 : UInt8) ≠ UInt8.ofNat n := by
    intro n hpos hlt h
    have := congrArg UInt8.toNat h
    rw [UInt8.toNat_ofNat', Nat.mod_eq_of_lt hlt] at this
    exact absurd this (Nat.ne_of_lt hpos)
  -- one, two or three bytes; the first of one is the unit itself, which is not zero
  rw [encodeUnit]
  split_ifs with h1 h2
  · simp only [List.mem_singleton]
    exact hne _ (by omega) (by omega)
  · simp only [List.mem_cons, List.not_mem_nil, or_false, not_or]
    exact ⟨hne _ (by omega) (by omega), hne _ (by omega) (by omega)⟩
  · simp only [List.mem_cons, List.not_mem_nil, or_false, not_or]
    exact ⟨hne _ (by omega) (by omega), hne _ (by omega) (by omega), hne _ (by omega) (by omega)⟩

/-- A unit has one, two or three bytes. -/
theorem length_encodeUnit (u : UInt16) : 1 ≤ (encodeUnit u).length ∧ (encodeUnit u).length ≤ 3 := by
  rw [encodeUnit]
  split_ifs <;> simp only [List.length_cons, List.length_nil] <;> omega

theorem decodeUnit?_encodeUnit_append (u : UInt16) (bs : List UInt8) :
    decodeUnit? (encodeUnit u ++ bs) = some (u, bs) := by
  have hlt := u.toNat_lt
  have hbyte : ∀ n, n < 256 → (UInt8.ofNat n).toNat = n := by
    intro n hn
    rw [UInt8.toNat_ofNat', Nat.mod_eq_of_lt hn]
  have hunit : ∀ n, n = u.toNat → UInt16.ofNat n = u := by
    rintro _ rfl
    exact UInt16.ofNat_toNat
  -- the first byte says how many bytes there are
  rw [encodeUnit]
  split_ifs with h1 h2
  · rw [List.singleton_append, decodeUnit?, hbyte _ (by omega), if_pos h1.2, hunit _ rfl]
  · rw [List.cons_append, List.singleton_append, decodeUnit?, hbyte _ (by omega),
      if_neg (by omega), if_pos (by omega), List.head?_cons, Option.map_some, List.tail_cons,
      hbyte _ (by omega), hunit _ (by omega)]
  · rw [List.cons_append, List.cons_append, List.singleton_append, decodeUnit?,
      hbyte _ (by omega), if_neg (by omega), if_neg (by omega), if_pos (by omega),
      List.head?_cons, Option.bind_some, List.tail_cons, List.head?_cons, Option.map_some,
      List.tail_cons, hbyte _ (by omega), hbyte _ (by omega), hunit _ (by omega)]

/-! ### Strings -/

theorem zero_not_mem_encode (s : JavaString) : 0 ∉ encode s := by
  rw [encode, List.mem_flatMap]
  rintro ⟨u, -, hu⟩
  exact zero_not_mem_encodeUnit u hu

theorem length_encode_le (s : JavaString) : (encode s).length ≤ 3 * s.length := by
  induction s with
  | nil => exact Nat.le_refl _
  | cons u s ih =>
    have hu := (length_encodeUnit u).2
    rw [encode, List.flatMap_cons, List.length_append, List.length_cons]
    rw [encode] at ih
    omega

theorem decodeUpTo_encode {fuel : ℕ} (h : (encode s).length ≤ fuel) :
    decodeUpTo fuel (encode s) = some s := by
  induction s generalizing fuel with
  | nil => cases fuel <;> rfl
  | cons u s ih =>
    have hcons : encode (u :: s) = encodeUnit u ++ encode s := List.flatMap_cons
    have hpos := (length_encodeUnit u).1
    rw [hcons, List.length_append] at h
    -- each unit takes a byte at least, and so one of the fuel
    obtain ⟨n, rfl⟩ : ∃ n, fuel = n + 1 := ⟨fuel - 1, by omega⟩
    have hdecode := decodeUnit?_encodeUnit_append u (encode s)
    rw [hcons]
    rcases hbytes : encodeUnit u ++ encode s with _ | ⟨b, bs⟩
    · rw [List.append_eq_nil_iff] at hbytes
      rw [hbytes.1] at hpos
      exact absurd hpos (by decide)
    · rw [hbytes] at hdecode
      have hrest : decodeUpTo n (encode s) = some s := ih (by omega)
      rw [decodeUpTo, hdecode]
      show (decodeUpTo n (encode s)).map (u :: ·) = some (u :: s)
      rw [hrest]
      rfl

/-- Every string comes back. -/
theorem decode_encode (s : JavaString) : decode (encode s) = some s :=
  decodeUpTo_encode (Nat.le_refl _)

end ModifiedUtf8

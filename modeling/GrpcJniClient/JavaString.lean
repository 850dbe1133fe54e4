/-
Strings of the Java virtual machine, and their UTF-8 form.

A string is a list of UTF-16 units, not always well-formed: half of a surrogate
pair may stand alone.  Encoding to UTF-8 writes a question mark for such a unit,
decoding writes U+FFFD for what is no UTF-8.

* `Utf16.decode_encode_append` — the units of a list of characters give these
  characters back, whatever comes after them;
* `Utf8.decode_encode` — UTF-8 gives the characters back;
* `JavaString.not_wellFormed_high` — a lone surrogate does not come back;
* `JavaString.ofByteArray_toByteArray_iff` — a string comes back from UTF-8 exactly
  if it is well-formed.
-/
import Mathlib.Data.List.Basic

/-! ### UTF-16 -/

namespace Utf16

/-- `Character.isHighSurrogate`. -/
def isHighSurrogate (u : UInt16) : Bool := 0xD800 ≤ u.toNat && u.toNat ≤ 0xDBFF

/-- `Character.isLowSurrogate`. -/
def isLowSurrogate (u : UInt16) : Bool := 0xDC00 ≤ u.toNat && u.toNat ≤ 0xDFFF

/-- `Character.isSupplementaryCodePoint`. -/
def isSupplementary (c : Char) : Bool := 0x10000 ≤ c.toNat

def highSurrogate (c : Char) : UInt16 := UInt16.ofNat (0xD800 + (c.toNat - 0x10000) / 0x400)

def lowSurrogate (c : Char) : UInt16 := UInt16.ofNat (0xDC00 + (c.toNat - 0x10000) % 0x400)

/-- The units of a character. -/
def ofChar (c : Char) : List UInt16 :=
  if isSupplementary c then [highSurrogate c, lowSurrogate c] else [UInt16.ofNat c.toNat]

def encode (cs : List Char) : List UInt16 := cs.flatMap ofChar

/-- The character of a surrogate pair. -/
def ofPair (u v : UInt16) : Char :=
  Char.ofNat (0x10000 + (u.toNat - 0xD800) * 0x400 + (v.toNat - 0xDC00))

/-- The character of a unit that stands alone; `none` for a surrogate. -/
def ofUnit (u : UInt16) : Option Char :=
  if isHighSurrogate u || isLowSurrogate u then none else some (Char.ofNat u.toNat)

/-- The characters of a string; `none` stands for a surrogate without the other. -/
def decode : List UInt16 → List (Option Char)
  | [] => []
  | [u] => [ofUnit u]
  | u :: v :: us =>
    if isHighSurrogate u && isLowSurrogate v then some (ofPair u v) :: decode us
    else ofUnit u :: decode (v :: us)

variable {c : Char} {u v : UInt16} {us vs : List UInt16} {cs : List Char}

theorem toNat_valid (c : Char) : c.toNat < 0xD800 ∨ 0xDFFF < c.toNat ∧ c.toNat < 0x110000 := c.valid

theorem ofChar_of_not_isSupplementary (h : isSupplementary c = false) :
    ofChar c = [UInt16.ofNat c.toNat] := by
  simp [ofChar, h]

theorem ofChar_of_isSupplementary (h : isSupplementary c = true) :
    ofChar c = [highSurrogate c, lowSurrogate c] := by
  simp [ofChar, h]

theorem toNat_highSurrogate (h : isSupplementary c = true) :
    (highSurrogate c).toNat = 0xD800 + (c.toNat - 0x10000) / 0x400 := by
  have hvalid := toNat_valid c
  rw [isSupplementary, decide_eq_true_eq] at h
  rw [highSurrogate, UInt16.toNat_ofNat']
  omega

theorem toNat_lowSurrogate (c : Char) :
    (lowSurrogate c).toNat = 0xDC00 + (c.toNat - 0x10000) % 0x400 := by
  rw [lowSurrogate, UInt16.toNat_ofNat']
  omega

theorem isHighSurrogate_highSurrogate (h : isSupplementary c = true) :
    isHighSurrogate (highSurrogate c) = true := by
  have hvalid := toNat_valid c
  rw [isHighSurrogate, toNat_highSurrogate h, Bool.and_eq_true, decide_eq_true_eq,
    decide_eq_true_eq]
  rw [isSupplementary, decide_eq_true_eq] at h
  omega

theorem isLowSurrogate_of_isHighSurrogate (h : isHighSurrogate u = true) :
    isLowSurrogate u = false := by
  rw [isHighSurrogate, Bool.and_eq_true, decide_eq_true_eq, decide_eq_true_eq] at h
  rw [isLowSurrogate, Bool.and_eq_false_iff, decide_eq_false_iff_not, decide_eq_false_iff_not]
  omega

theorem isLowSurrogate_lowSurrogate (c : Char) : isLowSurrogate (lowSurrogate c) = true := by
  rw [isLowSurrogate, toNat_lowSurrogate, Bool.and_eq_true, decide_eq_true_eq,
    decide_eq_true_eq]
  omega

theorem ofPair_surrogates (h : isSupplementary c = true) :
    ofPair (highSurrogate c) (lowSurrogate c) = c := by
  rw [ofPair, toNat_highSurrogate h, toNat_lowSurrogate]
  rw [isSupplementary, decide_eq_true_eq] at h
  rw [show 0x10000 + (0xD800 + (c.toNat - 0x10000) / 0x400 - 0xD800) * 0x400 +
    (0xDC00 + (c.toNat - 0x10000) % 0x400 - 0xDC00) = c.toNat by omega]
  exact Char.ofNat_toNat c

/-- A character below U+10000 is no surrogate. -/
theorem toNat_unit (h : isSupplementary c = false) :
    (UInt16.ofNat c.toNat).toNat = c.toNat := by
  rw [isSupplementary, decide_eq_false_iff_not] at h
  rw [UInt16.toNat_ofNat']
  omega

theorem isHighSurrogate_unit (h : isSupplementary c = false) :
    isHighSurrogate (UInt16.ofNat c.toNat) = false := by
  have hvalid := toNat_valid c
  rw [isHighSurrogate, toNat_unit h, Bool.and_eq_false_iff, decide_eq_false_iff_not,
    decide_eq_false_iff_not]
  omega

theorem isLowSurrogate_unit (h : isSupplementary c = false) :
    isLowSurrogate (UInt16.ofNat c.toNat) = false := by
  have hvalid := toNat_valid c
  rw [isLowSurrogate, toNat_unit h, Bool.and_eq_false_iff, decide_eq_false_iff_not,
    decide_eq_false_iff_not]
  omega

theorem ofUnit_unit (h : isSupplementary c = false) :
    ofUnit (UInt16.ofNat c.toNat) = some c := by
  rw [ofUnit, isHighSurrogate_unit h, isLowSurrogate_unit h, toNat_unit h, Char.ofNat_toNat]
  rfl

/-- Units that do not start with a low surrogate leave the unit before them
alone. -/
theorem decode_cons (h : ∀ v ∈ us.head?, isLowSurrogate v = false) :
    decode (u :: us) = ofUnit u :: decode us := by
  cases us with
  | nil => rfl
  | cons v us => simp [decode, h v rfl]

/-- Strings fall apart where the second does not start with a low surrogate. -/
theorem decode_append (h : ∀ v ∈ vs.head?, isLowSurrogate v = false) :
    decode (us ++ vs) = decode us ++ decode vs := by
  -- on the pairs that `decode` finds, so that none is cut
  induction us using decode.induct with
  | case1 => rfl
  | case2 u => exact decode_cons h
  | case3 u v us hpair ih =>
    rw [List.cons_append, List.cons_append, decode, if_pos hpair, decode, if_pos hpair, ih]
    rfl
  | case4 u v us hpair ih =>
    rw [List.cons_append, List.cons_append, decode, if_neg hpair, decode, if_neg hpair]
    exact congrArg (ofUnit u :: ·) ih

theorem decode_ofChar_append (c : Char) (us : List UInt16) :
    decode (ofChar c ++ us) = some c :: decode us := by
  rcases h : isSupplementary c with _ | _
  · rw [ofChar_of_not_isSupplementary h, List.singleton_append]
    cases us with
    | nil => simp [decode, ofUnit_unit h]
    | cons v us => simp [decode, isHighSurrogate_unit h, ofUnit_unit h]
  · simp [ofChar_of_isSupplementary h, decode, isHighSurrogate_highSurrogate h,
      isLowSurrogate_lowSurrogate, ofPair_surrogates h]

theorem decode_encode_append (cs : List Char) (us : List UInt16) :
    decode (encode cs ++ us) = cs.map some ++ decode us := by
  induction cs with
  | nil => rfl
  | cons c cs ih =>
    rw [encode, List.flatMap_cons, List.append_assoc, decode_ofChar_append]
    exact congrArg (some c :: ·) ih

theorem decode_encode (cs : List Char) : decode (encode cs) = cs.map some := by
  have h := decode_encode_append cs []
  rwa [List.append_nil, decode, List.append_nil] at h

/-- Characters do not begin with a low surrogate. -/
theorem isLowSurrogate_head_encode (cs : List Char) :
    ∀ v ∈ (encode cs).head?, isLowSurrogate v = false := by
  cases cs with
  | nil =>
    intro v hv
    cases hv
  | cons c cs =>
    rw [encode, List.flatMap_cons]
    intro v hv
    rcases h : isSupplementary c with _ | _
    · rw [ofChar_of_not_isSupplementary h] at hv
      obtain rfl := Option.some_inj.mp hv
      exact isLowSurrogate_unit h
    · rw [ofChar_of_isSupplementary h] at hv
      obtain rfl := Option.some_inj.mp hv
      exact isLowSurrogate_of_isHighSurrogate (isHighSurrogate_highSurrogate h)

theorem decode_append_encode (us : List UInt16) (cs : List Char) :
    decode (us ++ encode cs) = decode us ++ cs.map some := by
  rw [decode_append (isLowSurrogate_head_encode cs), decode_encode]

theorem ofUnit_eq_none_of_isHighSurrogate (h : isHighSurrogate u = true) : ofUnit u = none := by
  simp [ofUnit, h]

/-- Without its last unit, a supplementary character is a lone surrogate. -/
theorem dropLast_encode_concat (cs : List Char) (c : Char) :
    (encode (cs ++ [c])).dropLast
      = encode cs ++ if isSupplementary c then [highSurrogate c] else [] := by
  rw [encode, List.flatMap_append, List.flatMap_singleton]
  rcases h : isSupplementary c with _ | _
  · rw [ofChar_of_not_isSupplementary h, List.dropLast_concat, if_neg Bool.false_ne_true,
      List.append_nil]
    rfl
  · rw [ofChar_of_isSupplementary h, List.dropLast_append_of_ne_nil (List.cons_ne_nil _ _),
      if_pos rfl]
    rfl

/-- A lone surrogate between characters. -/
theorem decode_encode_high_encode (cs cs' : List Char) (h : isHighSurrogate u = true) :
    decode (encode cs ++ [u] ++ encode cs') = cs.map some ++ none :: cs'.map some := by
  rw [List.append_assoc, decode_encode_append, List.singleton_append,
    decode_cons (isLowSurrogate_head_encode cs'), ofUnit_eq_none_of_isHighSurrogate h,
    decode_encode]

end Utf16

/-! ### UTF-8 -/

namespace Utf8

def encode (cs : List Char) : List UInt8 := cs.flatMap String.utf8EncodeChar

/-- The byte may come second in a character of three or four bytes. -/
def isSecond (b₀ b₁ : UInt8) : Bool :=
  0xE0 ≤ b₀ && b₀ ≤ 0xF4 &&
    (if b₀ = 0xE0 then 0xA0 else if b₀ = 0xF0 then 0x90 else 0x80) ≤ b₁ &&
    b₁ ≤ (if b₀ = 0xED then 0x9F else if b₀ = 0xF4 then 0x8F else 0xBF)

/-- How many bytes a decoder replaces at once where no character begins: as many
as a character could begin with, and at least one. -/
def malformedLength : List UInt8 → ℕ
  | b₀ :: b₁ :: bs =>
    if isSecond b₀ b₁ then
      if 0xF0 ≤ b₀ && bs.head?.any fun b₂ => 0x80 ≤ b₂ && b₂ ≤ 0xBF then 3 else 2
    else 1
  | _ => 1

/-- At most `fuel` characters. -/
def decodeUpTo : ℕ → List UInt8 → List Char
  | 0, _ => []
  | _ + 1, [] => []
  | fuel + 1, b :: bs =>
    match ByteArray.utf8DecodeChar? (b :: bs).toByteArray 0 with
    | some c => c :: decodeUpTo fuel ((b :: bs).drop c.utf8Size)
    | none => '\uFFFD' :: decodeUpTo fuel ((b :: bs).drop (malformedLength (b :: bs)))

def decode (bs : List UInt8) : List Char := decodeUpTo bs.length bs

variable {c : Char} {cs : List Char}

theorem decodeUpTo_cons (fuel : ℕ) (c : Char) (bs : List UInt8) :
    decodeUpTo (fuel + 1) (String.utf8EncodeChar c ++ bs) = c :: decodeUpTo fuel bs := by
  have hdecode : ByteArray.utf8DecodeChar? (String.utf8EncodeChar c ++ bs).toByteArray 0 = some c := by
    rw [List.toByteArray_append]
    exact ByteArray.utf8DecodeChar?_utf8EncodeChar_append
  have hlength : (String.utf8EncodeChar c).length = c.utf8Size := String.length_utf8EncodeChar c
  have hdrop : (String.utf8EncodeChar c ++ bs).drop c.utf8Size = bs := by
    rw [← hlength, List.drop_left]
  rcases hbytes : String.utf8EncodeChar c ++ bs with _ | ⟨b, bs'⟩
  · have hpos := c.utf8Size_pos
    rw [List.append_eq_nil_iff] at hbytes
    rw [hbytes.1, List.length_nil] at hlength
    omega
  · rw [hbytes] at hdecode hdrop
    simp only [decodeUpTo, hdecode, hdrop]

theorem decodeUpTo_encode {fuel : ℕ} (h : (encode cs).length ≤ fuel) :
    decodeUpTo fuel (encode cs) = cs := by
  induction cs generalizing fuel with
  | nil => cases fuel <;> rfl
  | cons c cs ih =>
    have hpos := c.utf8Size_pos
    rw [encode, List.flatMap_cons, List.length_append, String.length_utf8EncodeChar] at h
    obtain ⟨n, rfl⟩ : ∃ n, fuel = n + 1 := ⟨fuel - 1, by omega⟩
    rw [encode, List.flatMap_cons, decodeUpTo_cons]
    have hn : (encode cs).length ≤ n := by
      rw [encode]
      omega
    exact congrArg (c :: ·) (ih hn)

theorem decode_encode (cs : List Char) : decode (encode cs) = cs :=
  decodeUpTo_encode (Nat.le_refl _)

theorem length_encode_cons (c : Char) (cs : List Char) :
    (encode (c :: cs)).length = c.utf8Size + (encode cs).length := by
  rw [encode, List.flatMap_cons, List.length_append, String.length_utf8EncodeChar]
  rfl

theorem length_encode_append (cs cs' : List Char) :
    (encode (cs ++ cs')).length = (encode cs).length + (encode cs').length := by
  rw [encode, List.flatMap_append, List.length_append]
  rfl

theorem utf8Size_of_isSupplementary (h : Utf16.isSupplementary c = true) : c.utf8Size = 4 := by
  rw [Utf16.isSupplementary, decide_eq_true_eq, Char.toNat] at h
  have hlarge : ∀ n : UInt32, n.toNat < 0x10000 → ¬ c.val ≤ n := by
    intro n hn
    rw [UInt32.le_iff_toNat_le]
    omega
  rw [Char.utf8Size, if_neg (hlarge _ (by decide)), if_neg (hlarge _ (by decide)),
    if_neg (hlarge _ (by decide))]

end Utf8

/-! ### Strings -/

abbrev JavaString := List UInt16

namespace JavaString

/-- `String.getBytes(UTF_8)`. -/
def toByteArray (s : JavaString) : List UInt8 :=
  Utf8.encode ((Utf16.decode s).map fun c => c.getD '?')

/-- `new String(bytes, UTF_8)`. -/
def ofByteArray (bytes : List UInt8) : JavaString := Utf16.encode (Utf8.decode bytes)

variable {s : JavaString} {cs : List Char}

@[simp] theorem toByteArray_encode (cs : List Char) :
    toByteArray (Utf16.encode cs) = Utf8.encode cs := by
  have hmap : (cs.map some).map (fun c => c.getD '?') = cs := by
    rw [List.map_map]
    exact List.map_id cs
  rw [toByteArray, Utf16.decode_encode, hmap]

/-- Characters add their own bytes to those of any string before them. -/
theorem toByteArray_append_encode (s : JavaString) (cs : List Char) :
    toByteArray (s ++ Utf16.encode cs) = toByteArray s ++ Utf8.encode cs := by
  rw [toByteArray, Utf16.decode_append_encode, List.map_append, List.map_map, Utf8.encode,
    List.flatMap_append]
  exact congrArg (toByteArray s ++ Utf8.encode ·) (List.map_id cs)

/-- A lone surrogate takes one byte, that of the question mark. -/
theorem length_toByteArray_high {u : UInt16} (h : Utf16.isHighSurrogate u = true)
    (cs : List Char) : (toByteArray (Utf16.encode cs ++ [u])).length = (Utf8.encode cs).length + 1 := by
  have hdecode := Utf16.decode_encode_high_encode cs [] h
  rw [show Utf16.encode [] = [] from rfl, List.append_nil] at hdecode
  have hmap : (cs.map some ++ [none]).map (fun c : Option Char => c.getD '?') = cs ++ ['?'] := by
    rw [List.map_append, List.map_map]
    exact congrArg (· ++ ['?']) (List.map_id cs)
  rw [toByteArray, hdecode, List.map_nil, hmap, Utf8.length_encode_append]
  rfl

/-- A lone surrogate is lost in UTF-8. -/
theorem not_wellFormed_high {u : UInt16} (h : Utf16.isHighSurrogate u = true)
    (cs cs' : List Char) :
    ofByteArray (toByteArray (Utf16.encode cs ++ [u] ++ Utf16.encode cs'))
      ≠ Utf16.encode cs ++ [u] ++ Utf16.encode cs' := by
  intro heq
  have hdecode := Utf16.decode_encode_high_encode cs cs' h
  rw [← heq, ofByteArray, Utf16.decode_encode] at hdecode
  -- what is decoded has no gap, the string has one
  have hmem : (none : Option Char) ∈ cs.map some ++ none :: cs'.map some :=
    List.mem_append_right _ List.mem_cons_self
  rw [← hdecode, List.mem_map] at hmem
  obtain ⟨c, -, hc⟩ := hmem
  cases hc

/-- A string survives UTF-8 exactly if it is well-formed. -/
theorem ofByteArray_toByteArray_iff :
    ofByteArray (toByteArray s) = s ↔ ∃ cs, s = Utf16.encode cs := by
  constructor
  · intro h
    exact ⟨_, h.symm⟩
  · rintro ⟨cs, rfl⟩
    rw [toByteArray_encode, ofByteArray, Utf8.decode_encode]

end JavaString

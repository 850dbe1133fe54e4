/-
The vendored flatbuffers reader: `Table`, `Vector`, `String` and `Verifier`.

A pointer is its offset from the start of the buffer, and reading memory is an
`Except` of its own: a read past the end of the buffer or through a null pointer
is a `Fault`.  Sums of offsets never wrap for a buffer that fits in memory; the
one subtraction, from a table to its vtable, is done in `size_t`.

* `Ensures` — a check never faults and, where it passes, gives a property; with
  one rule for `&&` and one lemma for each check of the verifier;
* `VerifiedTable` — what `VerifyTableStart` gives: every slot of the vtable can
  be read;
* `VerifiedTable.present_iff` — a pointer read from a verified table is null
  exactly for an absent field;
* `verifyBuffer_ensures` — the verifier never reads out of bounds, and an
  accepted buffer has a verified root table.
-/
import Mathlib.Algebra.Group.Int.Defs
import Mathlib.Algebra.Group.Nat.Defs
import Mathlib.Data.Int.Notation
import Mathlib.Data.List.Basic

namespace Flatbuffers

/-- What can go wrong when memory is read. -/
inductive Fault where
  | outOfBounds
  | nullDereference
  deriving DecidableEq, Repr

/-- The unsigned value of little-endian bytes. -/
def ofLittleEndian (bytes : List UInt8) : ℕ := bytes.foldr (fun b n => b.toNat + 256 * n) 0

/-- `ReadScalar<T>` with `sizeof(T) = n`, unsigned. -/
def readScalar (n : ℕ) (buf : List UInt8) (p : ℕ) : Except Fault ℕ :=
  if p + n ≤ buf.length then .ok (ofLittleEndian ((buf.drop p).take n)) else .error .outOfBounds

/-- The `n` bytes from `p` on. -/
def readBytes (n : ℕ) (buf : List UInt8) (p : ℕ) : Except Fault (List UInt8) :=
  if p + n ≤ buf.length then .ok ((buf.drop p).take n) else .error .outOfBounds

/-- The bytes from `p` up to the first zero byte. -/
def readCString (buf : List UInt8) (p : ℕ) : Except Fault (List UInt8) :=
  if (buf.drop p).contains 0 then .ok ((buf.drop p).takeWhile (· ≠ 0)) else .error .outOfBounds

/-- The `soffset_t` with the unsigned value `n`. -/
def soffset (n : ℕ) : ℤ := if n < 2 ^ 31 then n else n - 2 ^ 32

/-- Conversion to `size_t`. -/
def sizeT (i : ℤ) : ℕ := (i % 2 ^ 64).toNat

/-! ### `Table` -/

/-- `Table::GetVTable`. -/
def getVTable (buf : List UInt8) (data_ : ℕ) : Except Fault ℕ := do
  return sizeT (data_ - soffset (← readScalar 4 buf data_))

/-- `Table::GetOptionalFieldOffset`; `0` when the field is not present. -/
def getOptionalFieldOffset (buf : List UInt8) (data_ field : ℕ) : Except Fault ℕ := do
  let vtable ← getVTable buf data_
  let vtsize ← readScalar 2 buf vtable
  if field < vtsize then readScalar 2 buf (vtable + field) else return 0

/-- `Table::GetField<T>` with `sizeof(T) = n`. -/
def getField (n : ℕ) (buf : List UInt8) (data_ field defaultval : ℕ) : Except Fault ℕ := do
  let fieldOffset ← getOptionalFieldOffset buf data_ field
  if fieldOffset ≠ 0 then readScalar n buf (data_ + fieldOffset) else return defaultval

/-- `Table::GetPointer`; `none` is `nullptr`. -/
def getPointer (buf : List UInt8) (data_ field : ℕ) : Except Fault (Option ℕ) := do
  let fieldOffset ← getOptionalFieldOffset buf data_ field
  let p := data_ + fieldOffset
  if fieldOffset ≠ 0 then return some (p + (← readScalar 4 buf p)) else return none

/-! ### `Vector` and `String` -/

/-- A member access through a pointer. -/
def deref : Option ℕ → Except Fault ℕ
  | none => .error .nullDereference
  | some p => .ok p

/-- `Vector::size`. -/
def vectorSize (buf : List UInt8) (vec : Option ℕ) : Except Fault ℕ := do
  readScalar 4 buf (← deref vec)

/-- `Vector::data` and `String::c_str`: the bytes after the length. -/
def vectorData (vec : Option ℕ) : Except Fault ℕ := do
  return (← deref vec) + 4

/-! ### `Verifier` -/

/-- `FLATBUFFERS_MAX_BUFFER_SIZE`, the default `max_size`. -/
def maxBufferSize : ℕ := 2 ^ 31 - 1

/-- `FLATBUFFERS_MIN_BUFFER_SIZE`. -/
def minBufferSize : ℕ := 4 + 4 + 2 + 2

/-- The mutable members of a verifier. -/
structure Counters where
  depth_ : ℕ
  num_tables_ : ℕ
  deriving DecidableEq, Repr

abbrev Verifying := StateT Counters (Except Fault)

/-- `Verifier::Verify(elem, elem_len)`. -/
def verify (buf : List UInt8) (elem elemLen : ℕ) : Bool :=
  elemLen < buf.length && elem ≤ buf.length - elemLen

/-- `Verifier::VerifyAlignment`, with `check_alignment` on. -/
def verifyAlignment (elem align : ℕ) : Bool := elem &&& (align - 1) == 0

/-- `Verifier::Verify<T>` with `sizeof(T) = n`. -/
def verifyScalar (n : ℕ) (buf : List UInt8) (elem : ℕ) : Bool :=
  verifyAlignment elem n && verify buf elem n

/-- `Verifier::VerifyComplexity`, with `max_depth = 64` and
`max_tables = 1000000`. -/
def verifyComplexity : Verifying Bool := do
  modify fun c => ⟨c.depth_ + 1, c.num_tables_ + 1⟩
  let c ← get
  return c.depth_ ≤ 64 && c.num_tables_ ≤ 1000000

/-- `Verifier::EndTable`. -/
def endTable : Verifying Bool := do
  modify fun c => { c with depth_ := c.depth_ - 1 }
  return true

/-- `Verifier::VerifyTableStart`. -/
def verifyTableStart (buf : List UInt8) (tableo : ℕ) : Verifying Bool :=
  pure (verifyScalar 4 buf tableo) <&&> do
    let vtableo := sizeT (tableo - soffset (← readScalar 4 buf tableo))
    verifyComplexity <&&> pure (verifyScalar 2 buf vtableo) <&&>
      (do return verifyAlignment (← readScalar 2 buf vtableo) 2) <&&> do
        let vsize ← readScalar 2 buf vtableo
        return vsize &&& 1 == 0 && verify buf vtableo vsize

/-- `Table::VerifyField<T>` with `sizeof(T) = n`. -/
def verifyField (n : ℕ) (buf : List UInt8) (data_ field align : ℕ) : Verifying Bool := do
  let fieldOffset ← getOptionalFieldOffset buf data_ field
  return fieldOffset == 0 ||
    verifyAlignment (data_ + fieldOffset) align && verify buf (data_ + fieldOffset) n

/-- `Verifier::VerifyOffset(start)`; `0` when the check fails. -/
def verifyOffsetAt (buf : List UInt8) (start : ℕ) : Except Fault ℕ :=
  if verifyScalar 4 buf start then do
    let o ← readScalar 4 buf start
    return if o ≠ 0 ∧ 0 ≤ soffset o ∧ verify buf (start + o) 1 then o else 0
  else return 0

/-- `Table::VerifyOffset`. -/
def verifyOffset (buf : List UInt8) (data_ field : ℕ) : Verifying Bool := do
  let fieldOffset ← getOptionalFieldOffset buf data_ field
  if fieldOffset = 0 then return true
  else return (← verifyOffsetAt buf (data_ + fieldOffset)) != 0

/-- `Verifier::VerifyVectorOrString` with an element size of one byte; the
result is `end`, when the check passes. -/
def verifyVectorOrString (buf : List UInt8) (vec : ℕ) : Except Fault (Option ℕ) :=
  if verifyScalar 4 buf vec then do
    let size ← readScalar 4 buf vec
    return if size < maxBufferSize ∧ verify buf vec (4 + size) then some (vec + (4 + size)) else none
  else return none

/-- `Verifier::VerifyVector` of bytes. -/
def verifyVector (buf : List UInt8) : Option ℕ → Verifying Bool
  | none => return true
  | some vec => return (← verifyVectorOrString buf vec).isSome

/-- `Verifier::VerifyString`. -/
def verifyString (buf : List UInt8) : Option ℕ → Verifying Bool
  | none => return true
  | some str => do
      match ← verifyVectorOrString buf str with
      | none => return false
      | some end_ =>
          pure (verify buf end_ 1) <&&> do return (← readScalar 1 buf end_) == 0

/-- `Verifier::VerifyBufferFromStart<T>` without an identifier, with `T::Verify`
as an argument. -/
def verifyBufferFromStart (verifyT : List UInt8 → ℕ → Verifying Bool) (buf : List UInt8)
    (start : ℕ) : Verifying Bool :=
  pure (minBufferSize ≤ buf.length) <&&> do
    let o ← verifyOffsetAt buf start
    pure (o != 0) <&&> verifyT buf (start + o)

/-- `Verifier::VerifyBuffer<T>` on a fresh verifier. -/
def verifyBuffer (verifyT : List UInt8 → ℕ → Verifying Bool) (buf : List UInt8) :
    Except Fault Bool := do
  return (← (verifyBufferFromStart verifyT buf 0).run ⟨0, 0⟩).1

/-- `GetRoot<T>`. -/
def getRoot (buf : List UInt8) : Except Fault ℕ := readScalar 4 buf 0

/-! ### Reading inside the buffer -/

variable {buf : List UInt8}

theorem readScalar_ok {n p : ℕ} (h : p + n ≤ buf.length) : ∃ v, readScalar n buf p = .ok v :=
  ⟨_, if_pos h⟩

theorem readBytes_ok {n p : ℕ} (h : p + n ≤ buf.length) : ∃ bytes, readBytes n buf p = .ok bytes :=
  ⟨_, if_pos h⟩

theorem verify_iff {elem elemLen : ℕ} :
    verify buf elem elemLen = true ↔ elemLen < buf.length ∧ elem + elemLen ≤ buf.length := by
  rw [verify, Bool.and_eq_true, decide_eq_true_iff, decide_eq_true_iff]
  omega

theorem verifyAlignment_two {n : ℕ} : verifyAlignment n 2 = true ↔ n % 2 = 0 := by
  rw [verifyAlignment, beq_iff_eq, Nat.and_one_is_mod]

theorem readScalar_of_verifyScalar {n p : ℕ} (h : verifyScalar n buf p = true) :
    ∃ v, readScalar n buf p = .ok v := by
  rw [verifyScalar, Bool.and_eq_true, verify_iff] at h
  exact readScalar_ok h.2.2

/-! ### Checks that never fault -/

/-- The check `c` never faults, and where it passes `P` holds. -/
def Ensures (c : Verifying Bool) (P : Prop) : Prop :=
  ∀ k, ∃ b k', c.run k = .ok (b, k') ∧ (b = true → P)

namespace Ensures

variable {P Q : Prop} {c d : Verifying Bool}

theorem of_pure {b : Bool} (h : b = true → P) : Ensures (pure b) P :=
  fun k => ⟨b, k, rfl, h⟩

theorem mono (hc : Ensures c P) (h : P → Q) : Ensures c Q := by
  intro k
  obtain ⟨b, k', hk, hP⟩ := hc k
  exact ⟨b, k', hk, fun hb => h (hP hb)⟩

/-- The second check is made only where the first has passed. -/
theorem and (hc : Ensures c P) (hd : P → Ensures d Q) : Ensures (c <&&> d) (P ∧ Q) := by
  intro k
  obtain ⟨b, k', hk, hP⟩ := hc k
  have hrun : (c <&&> d).run k = (if b then d.run k' else .ok (false, k')) := by
    show (c.run k >>= _) = _
    rw [hk]
    cases b <;> rfl
  cases b with
  | false => exact ⟨false, k', hrun, fun h => absurd h Bool.false_ne_true⟩
  | true =>
    obtain ⟨b', k'', hk', hQ⟩ := hd (hP rfl) k'
    exact ⟨b', k'', hrun.trans hk', fun hb => ⟨hP rfl, hQ hb⟩⟩

/-- A check that first reads memory. -/
theorem of_read {α : Type} {e : Except Fault α} {f : α → Verifying Bool} {a : α}
    (he : e = .ok a) (hf : Ensures (f a) P) : Ensures (liftM e >>= f) P := by
  intro k
  subst he
  exact hf k

theorem verifyComplexity : Ensures verifyComplexity True :=
  fun _ => ⟨_, _, rfl, fun _ => trivial⟩

theorem endTable : Ensures endTable True := fun _ => ⟨_, _, rfl, fun _ => trivial⟩

end Ensures

/-! ### A verified table -/

theorem getPointer_eq {table field o : ℕ} (ho : getOptionalFieldOffset buf table field = .ok o) :
    getPointer buf table field =
      if o = 0 then .ok none
      else (readScalar 4 buf (table + o)).map fun u => some (table + o + u) := by
  rw [getPointer, ho]
  by_cases h0 : o = 0
  · subst h0
    rfl
  · rw [if_neg h0]
    show (if o ≠ 0 then (readScalar 4 buf (table + o) >>= fun u => _) else _) = _
    rw [if_pos h0]
    cases readScalar 4 buf (table + o) <;> rfl

/-- What `VerifyTableStart` establishes about a table, its vtable and the size
of that. -/
structure VerifiedTable (buf : List UInt8) (table vtable vsize : ℕ) : Prop where
  vtable_eq : getVTable buf table = .ok vtable
  vsize_eq : readScalar 2 buf vtable = .ok vsize
  even : vsize % 2 = 0
  fits : vtable + vsize ≤ buf.length

theorem verifyTableStart_ensures (buf : List UInt8) (table : ℕ) :
    Ensures (verifyTableStart buf table) (∃ vtable vsize, VerifiedTable buf table vtable vsize) := by
  refine ((Ensures.of_pure readScalar_of_verifyScalar).and fun ⟨s, hs⟩ => ?_).mono And.right
  refine Ensures.of_read hs ?_
  set vtable := sizeT (table - soffset s) with hvtable
  have hvt : getVTable buf table = .ok vtable := by
    rw [getVTable, hs]
    rfl
  refine (Ensures.verifyComplexity.and fun _ => ?_).mono And.right
  refine ((Ensures.of_pure readScalar_of_verifyScalar).and fun ⟨vsize, hvsize⟩ => ?_).mono And.right
  -- the size is even, and the vtable ends inside the buffer
  refine ((Ensures.of_read hvsize (Ensures.of_pure verifyAlignment_two.mp)).and
    fun heven => Ensures.of_read hvsize (Ensures.of_pure fun hb => ?_)).mono And.right
  rw [Bool.and_eq_true, verify_iff] at hb
  exact ⟨vtable, vsize, hvt, hvsize, heven, hb.2.2⟩

namespace VerifiedTable

variable {table vtable vsize field : ℕ}

theorem getOptionalFieldOffset_eq (hT : VerifiedTable buf table vtable vsize) (field : ℕ) :
    getOptionalFieldOffset buf table field =
      if field < vsize then readScalar 2 buf (vtable + field) else .ok 0 := by
  rw [getOptionalFieldOffset, hT.vtable_eq]
  show (readScalar 2 buf vtable >>= _) = _
  rw [hT.vsize_eq]
  rfl

/-- A slot outside the vtable reads as absent, one inside can be read. -/
theorem fieldOffset (hT : VerifiedTable buf table vtable vsize) (hfield : field % 2 = 0) :
    ∃ o, getOptionalFieldOffset buf table field = .ok o ∧
      (o ≠ 0 ↔ field < vsize ∧ readScalar 2 buf (vtable + field) = .ok o ∧ o ≠ 0) := by
  rw [hT.getOptionalFieldOffset_eq]
  by_cases hlt : field < vsize
  · -- slot and size are even, so both bytes of the slot are inside the vtable
    have hfits := hT.fits
    have heven := hT.even
    obtain ⟨o, ho⟩ := (readScalar_ok (by omega) : ∃ o, readScalar 2 buf (vtable + field) = .ok o)
    rw [if_pos hlt, ho]
    exact ⟨o, rfl, fun h => ⟨hlt, rfl, h⟩, fun h => h.2.2⟩
  · rw [if_neg hlt]
    exact ⟨0, rfl, fun h => absurd rfl h, fun h => absurd h.1 hlt⟩

theorem verifyField_ensures (hT : VerifiedTable buf table vtable vsize) (hfield : field % 2 = 0)
    (n align : ℕ) : Ensures (verifyField n buf table field align)
      (∀ default, ∃ v, getField n buf table field default = .ok v) := by
  obtain ⟨o, ho, -⟩ := hT.fieldOffset hfield
  refine Ensures.of_read ho (Ensures.of_pure fun hb default => ?_)
  have hget : getField n buf table field default =
      if o ≠ 0 then readScalar n buf (table + o) else .ok default := by
    rw [getField, ho]
    rfl
  rw [hget]
  by_cases h0 : o = 0
  · exact ⟨default, if_neg (not_not.mpr h0)⟩
  · rw [if_pos h0]
    rw [Bool.or_eq_true, beq_iff_eq, Bool.and_eq_true, verify_iff] at hb
    -- absent, or the check has seen the whole of it
    rcases hb with hb | hb
    · exact absurd hb h0
    · exact readScalar_ok hb.2.2

theorem verifyOffset_ensures (hT : VerifiedTable buf table vtable vsize)
    (hfield : field % 2 = 0) : Ensures (verifyOffset buf table field)
      (∃ ptr, getPointer buf table field = .ok ptr) := by
  obtain ⟨o, ho, -⟩ := hT.fieldOffset hfield
  rw [getPointer_eq ho]
  refine Ensures.of_read ho ?_
  by_cases h0 : o = 0
  · rw [if_pos h0, if_pos h0]
    exact Ensures.of_pure fun _ => ⟨none, rfl⟩
  · rw [if_neg h0, if_neg h0]
    -- an offset that does not fit ends the check, and is never read
    by_cases hv : verifyScalar 4 buf (table + o) = true
    · obtain ⟨u, hu⟩ := readScalar_of_verifyScalar hv
      have hat : ∃ v, verifyOffsetAt buf (table + o) = .ok v := by
        rw [verifyOffsetAt, if_pos hv, hu]
        exact ⟨_, rfl⟩
      obtain ⟨v, hv'⟩ := hat
      rw [hu]
      exact Ensures.of_read hv' (Ensures.of_pure fun _ => ⟨_, rfl⟩)
    · have hat : verifyOffsetAt buf (table + o) = .ok 0 := if_neg hv
      exact Ensures.of_read hat (Ensures.of_pure fun hb => absurd hb (by decide))

end VerifiedTable

/-- The table's vtable reaches the slot `field`, and its entry there is not
zero. -/
def Present (buf : List UInt8) (table field : ℕ) : Prop :=
  ∃ vtable vtsize o, getVTable buf table = .ok vtable ∧ readScalar 2 buf vtable = .ok vtsize ∧
    field < vtsize ∧ readScalar 2 buf (vtable + field) = .ok o ∧ o ≠ 0

/-- A pointer read from a verified table is null exactly for an absent field. -/
theorem VerifiedTable.present_iff {table vtable vsize field : ℕ} {ptr : Option ℕ}
    (hT : VerifiedTable buf table vtable vsize) (hfield : field % 2 = 0)
    (hptr : getPointer buf table field = .ok ptr) : Present buf table field ↔ ptr ≠ none := by
  obtain ⟨o, ho, hiff⟩ := hT.fieldOffset hfield
  have hnull : ptr ≠ none ↔ o ≠ 0 := by
    rw [getPointer_eq ho] at hptr
    by_cases h0 : o = 0
    · rw [if_pos h0] at hptr
      cases hptr
      exact iff_of_false (fun h => h rfl) (fun h => h h0)
    · rw [if_neg h0] at hptr
      refine iff_of_true ?_ h0
      cases hu : readScalar 4 buf (table + o) with
      | error e =>
        rw [hu] at hptr
        cases hptr
      | ok u =>
        rw [hu] at hptr
        cases hptr
        exact Option.some_ne_none _
  rw [hnull, hiff]
  constructor
  · rintro ⟨vtable', vsize', o', hvt, hvs, hlt, ho', h0⟩
    obtain rfl := Except.ok.inj (hT.vtable_eq.symm.trans hvt)
    obtain rfl := Except.ok.inj (hT.vsize_eq.symm.trans hvs)
    rw [hT.getOptionalFieldOffset_eq, if_pos hlt] at ho
    obtain rfl := Except.ok.inj (ho.symm.trans ho')
    exact ⟨hlt, ho', h0⟩
  · rintro ⟨hlt, ho', h0⟩
    exact ⟨vtable, vsize, o, hT.vtable_eq, hT.vsize_eq, hlt, ho', h0⟩

/-! ### Verified vectors and strings -/

/-- A byte vector that lies inside the buffer. -/
def VectorAt (buf : List UInt8) (vec : ℕ) : Prop :=
  ∃ size, readScalar 4 buf vec = .ok size ∧ vec + 4 + size ≤ buf.length

/-- A string that lies inside the buffer with its terminating zero. -/
def StringAt (buf : List UInt8) (str : ℕ) : Prop :=
  ∃ size, readScalar 4 buf str = .ok size ∧ buf[str + 4 + size]? = some 0

/-- The pointer field of the table can be read, and what it points to, if it is
present, is as `good` says. -/
def PointsTo (good : List UInt8 → ℕ → Prop) (buf : List UInt8) (table field : ℕ) : Prop :=
  ∃ ptr, getPointer buf table field = .ok ptr ∧ ∀ p ∈ ptr, good buf p

/-- A field that is present points to something. -/
theorem PointsTo.of_present {good : List UInt8 → ℕ → Prop} {table vtable vsize field : ℕ}
    (hp : PointsTo good buf table field) (hT : VerifiedTable buf table vtable vsize)
    (hfield : field % 2 = 0) (h : Present buf table field) :
    ∃ p, getPointer buf table field = .ok (some p) ∧ good buf p := by
  obtain ⟨ptr, hptr, hgood⟩ := hp
  obtain ⟨p, rfl⟩ := Option.ne_none_iff_exists'.mp ((hT.present_iff hfield hptr).mp h)
  exact ⟨p, hptr, hgood p rfl⟩

theorem PointsTo.of_absent {good : List UInt8 → ℕ → Prop} {table vtable vsize field : ℕ}
    (hp : PointsTo good buf table field) (hT : VerifiedTable buf table vtable vsize)
    (hfield : field % 2 = 0) (h : ¬ Present buf table field) :
    getPointer buf table field = .ok none := by
  obtain ⟨ptr, hptr, -⟩ := hp
  obtain rfl := not_not.mp (mt (hT.present_iff hfield hptr).mpr h)
  exact hptr

theorem VectorAt.read {vec : ℕ} (h : VectorAt buf vec) :
    ∃ size bytes, vectorSize buf (some vec) = .ok size ∧
      readBytes size buf (vec + 4) = .ok bytes := by
  obtain ⟨size, hsize, hle⟩ := h
  obtain ⟨bytes, hbytes⟩ := readBytes_ok hle
  exact ⟨size, bytes, hsize, hbytes⟩

/-- The terminating zero ends a C string read from the start of the text. -/
theorem StringAt.read {str : ℕ} (h : StringAt buf str) :
    ∃ chars, readCString buf (str + 4) = .ok chars := by
  obtain ⟨size, -, hzero⟩ := h
  -- the scan for a zero ends at the terminating one at the latest
  have hmem : (0 : UInt8) ∈ buf.drop (str + 4) := by
    refine List.mem_of_getElem? (i := size) ?_
    rw [List.getElem?_drop, hzero]
  exact ⟨_, if_pos (List.contains_iff_mem.mpr hmem)⟩

theorem verifyVectorOrString_ok (buf : List UInt8) (vec : ℕ) :
    ∃ r, verifyVectorOrString buf vec = .ok r ∧
      ∀ end_ ∈ r, ∃ size, readScalar 4 buf vec = .ok size ∧ end_ = vec + (4 + size) ∧
        end_ ≤ buf.length := by
  by_cases hv : verifyScalar 4 buf vec = true
  · obtain ⟨size, hsize⟩ := readScalar_of_verifyScalar hv
    rw [verifyVectorOrString, if_pos hv, hsize]
    refine ⟨_, rfl, fun end_ hend => ⟨size, rfl, ?_⟩⟩
    rw [Option.mem_ite_none_right, verify_iff] at hend
    obtain ⟨⟨-, -, hle⟩, hend⟩ := hend
    obtain rfl := Option.mem_some_iff.mp hend
    exact ⟨rfl, hle⟩
  · exact ⟨none, if_neg hv, fun _ h => absurd h (Option.not_mem_none _)⟩

theorem verifyVector_ensures (ptr : Option ℕ) :
    Ensures (verifyVector buf ptr) (∀ p ∈ ptr, VectorAt buf p) := by
  cases ptr with
  | none => exact Ensures.of_pure fun _ p hp => absurd hp (Option.not_mem_none p)
  | some vec =>
    obtain ⟨r, hr, hgood⟩ := verifyVectorOrString_ok buf vec
    refine Ensures.of_read hr (Ensures.of_pure fun hb p hp => ?_)
    obtain rfl := Option.mem_some_iff.mp hp
    obtain ⟨end_, hend⟩ := Option.isSome_iff_exists.mp hb
    obtain ⟨size, hsize, rfl, hle⟩ := hgood end_ hend
    exact ⟨size, hsize, by omega⟩

theorem readScalar_one_eq_zero {p : ℕ} (h : readScalar 1 buf p = .ok 0) : buf[p]? = some 0 := by
  rw [readScalar] at h
  split at h
  · rename_i hlen
    have hdrop : (buf.drop p).take 1 = [buf[p]] := by
      rw [List.drop_eq_getElem_cons (by omega)]
      rfl
    have hval := Except.ok.inj h
    rw [hdrop] at hval
    rw [List.getElem?_eq_getElem (by omega), Option.some_inj]
    exact UInt8.toNat_inj.mp (by simpa [ofLittleEndian] using hval)
  · cases h

theorem verifyString_ensures (ptr : Option ℕ) :
    Ensures (verifyString buf ptr) (∀ p ∈ ptr, StringAt buf p) := by
  cases ptr with
  | none => exact Ensures.of_pure fun _ p hp => absurd hp (Option.not_mem_none p)
  | some str =>
    obtain ⟨r, hr, hgood⟩ := verifyVectorOrString_ok buf str
    refine Ensures.of_read hr ?_
    cases r with
    | none => exact Ensures.of_pure fun hb => absurd hb Bool.false_ne_true
    | some end_ =>
      obtain ⟨size, hsize, rfl, -⟩ := hgood end_ rfl
      -- the zero is only looked at where it lies inside
      have hbyte (hb : verify buf (str + (4 + size)) 1 = true) :
          ∃ v, readScalar 1 buf (str + (4 + size)) = .ok v :=
        readScalar_ok (verify_iff.mp hb).2
      refine ((Ensures.of_pure hbyte).and fun ⟨v, hv⟩ =>
        Ensures.of_read hv (Ensures.of_pure fun hb p hp => ?_)).mono And.right
      · obtain rfl := Option.mem_some_iff.mp hp
        rw [beq_iff_eq] at hb
        subst hb
        refine ⟨size, hsize, ?_⟩
        rw [Nat.add_assoc]
        exact readScalar_one_eq_zero hv

/-- The two checks that generated code makes for a pointer field. -/
theorem pointsTo_ensures {good : List UInt8 → ℕ → Prop} {check : Option ℕ → Verifying Bool}
    {table field : ℕ} (hcheck : ∀ ptr, Ensures (check ptr) (∀ p ∈ ptr, good buf p))
    (hptr : ∃ ptr, getPointer buf table field = .ok ptr) :
    Ensures (do check (← getPointer buf table field)) (PointsTo good buf table field) := by
  obtain ⟨ptr, hptr⟩ := hptr
  exact Ensures.of_read hptr ((hcheck ptr).mono fun h => ⟨ptr, hptr, h⟩)

/-! ### A verified buffer -/

/-- **The verifier reads inside the buffer**, and an accepted buffer has a root
table with what the checks of its type give. -/
theorem verifyBuffer_ensures {verifyT : List UInt8 → ℕ → Verifying Bool}
    {P : List UInt8 → ℕ → Prop} (hT : ∀ buf table, Ensures (verifyT buf table) (P buf table))
    (buf : List UInt8) : ∃ b, verifyBuffer verifyT buf = .ok b ∧
      (b = true → ∃ root, getRoot buf = .ok root ∧ P buf root) := by
  have hbuf : Ensures (verifyBufferFromStart verifyT buf 0)
      (∃ root, getRoot buf = .ok root ∧ P buf root) := by
    refine ((Ensures.of_pure fun hb => of_decide_eq_true hb).and fun hlen => ?_).mono And.right
    have hlen : 0 + 4 ≤ buf.length := by
      rw [minBufferSize] at hlen
      omega
    obtain ⟨root, hroot⟩ := readScalar_ok hlen
    -- an offset that passes is the one that `GetRoot` reads
    have hat : ∃ o, verifyOffsetAt buf 0 = .ok o ∧ (o ≠ 0 → o = root) := by
      rw [verifyOffsetAt]
      split
      · rw [hroot]
        refine ⟨_, rfl, fun h => ?_⟩
        split at h
        · rename_i hc
          exact if_pos hc
        · exact absurd rfl h
      · exact ⟨0, rfl, fun h => absurd rfl h⟩
    obtain ⟨o, ho, hoz⟩ := hat
    refine Ensures.of_read ho (((Ensures.of_pure fun hb => bne_iff_ne.mp hb).and fun h0 =>
      (hT buf (0 + o)).mono fun hP => ⟨root, hroot, ?_⟩).mono And.right)
    rwa [Nat.zero_add, hoz h0] at hP
  obtain ⟨b, k', hrun, hP⟩ := hbuf ⟨0, 0⟩
  refine ⟨b, ?_, hP⟩
  rw [verifyBuffer, hrun]
  rfl

end Flatbuffers

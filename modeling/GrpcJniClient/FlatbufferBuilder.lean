/-
The vendored flatbuffers writer: `vector_downward` and `FlatBufferBuilder`.

A buffer grows towards lower addresses, so it is a list that grows at its head,
and an object is named by its offset from the end.  An assertion that does not
hold ends a `Building` computation with `none`.  Memory is never short: what
`vector_downward` reserves is left out.

* `Does` — a computation runs through and ends as the postcondition says;
* `At` — bytes at an offset from the end, which what is pushed later leaves
  where they are;
* `TextAt`, `BytesAt` — a string or a vector of bytes at an offset;
* `createString_does`, `createVector_does` — what the operations do that put
  them there.
-/
import GrpcJniClient.Flatbuffers
import Mathlib.Data.List.Infix

namespace Flatbuffers

/-- The `n` little-endian bytes of `v`. -/
def toLittleEndian : ℕ → ℕ → List UInt8
  | 0, _ => []
  | n + 1, v => UInt8.ofNat v :: toLittleEndian n (v / 256)

/-- `WriteScalar<T>` with `sizeof(T) = n`, over what is at `p`. -/
def writeScalar (n : ℕ) (buf : List UInt8) (p v : ℕ) : List UInt8 :=
  buf.take p ++ toLittleEndian n v ++ buf.drop (p + n)

/-- `PaddingBytes`. -/
def paddingBytes (bufSize scalarSize : ℕ) : ℕ :=
  ((2 ^ 64 - 1 - bufSize) + 1) % 2 ^ 64 &&& (scalarSize - 1)

/-- Subtraction in `uoffset_t`, and in `soffset_t` up to its sign. -/
def uoffsetSub (a b : ℕ) : ℕ := (a + 2 ^ 32 - b) % 2 ^ 32

/-- `FieldIndexToOffset`. -/
def fieldIndexToOffset (fieldId : ℕ) : ℕ := 2 * 2 + fieldId * 2

/-! ### `FlatBufferBuilder` -/

structure FieldLoc where
  off : ℕ
  id : ℕ
  deriving DecidableEq, Repr

/-- The members of a builder.  The two halves of the scratch pad of `buf_` are
lists of their own: the offsets of the vtables, and the field locations. -/
structure Builder where
  buf_ : List UInt8 := []
  vtables : List ℕ := []
  fieldLocs : List FieldLoc := []
  max_voffset_ : ℕ := 0
  nested : Bool := false
  finished : Bool := false
  minalign_ : ℕ := 1
  deriving DecidableEq, Repr

abbrev Building := StateT Builder Option

namespace Builder

/-- `FLATBUFFERS_ASSERT`. -/
def assert (p : Builder → Bool) : Building Unit := fun b => if p b then some ((), b) else none

/-- `GetSize`, a `uoffset_t`. -/
def getSize : Building ℕ := do
  return (← get).buf_.length % 2 ^ 32

/-- `vector_downward::ensure_space`. -/
def ensureSpace : Building Unit := assert fun b => b.buf_.length % 2 ^ 32 < maxBufferSize

/-- `vector_downward::push`; nothing happens for no bytes. -/
def push (bytes : List UInt8) : Building Unit := do
  if bytes ≠ [] then
    ensureSpace
    modify fun b => { b with buf_ := bytes ++ b.buf_ }

/-- `vector_downward::fill`. -/
def fill (zeroPadBytes : ℕ) : Building Unit := push (List.replicate zeroPadBytes 0)

def trackMinAlign (elemSize : ℕ) : Building Unit := do
  if (← get).minalign_ < elemSize then modify fun b => { b with minalign_ := elemSize }

def align (elemSize : ℕ) : Building Unit := do
  trackMinAlign elemSize
  fill (paddingBytes (← getSize) elemSize)

/-- `PushElement<T>` with `sizeof(T) = n`. -/
def pushElement (n element : ℕ) : Building ℕ := do
  align n
  push (toLittleEndian n element)
  getSize

def trackField (field off : ℕ) : Building Unit := do
  ensureSpace
  modify fun b =>
    { b with fieldLocs := b.fieldLocs ++ [⟨off, field⟩], max_voffset_ := max b.max_voffset_ field }

/-- `AddElement<T>` with `sizeof(T) = n`, and `force_defaults_` off. -/
def addElement (n field e default : ℕ) : Building Unit := do
  if e ≠ default then trackField field (← pushElement n e)

/-- `ReferTo`. -/
def referTo (off : ℕ) : Building ℕ := do
  align 4
  let size ← getSize
  assert fun _ => off ≠ 0 ∧ off ≤ size
  return uoffsetSub (size + 4) off

def addOffset (field off : ℕ) : Building Unit := do
  if off ≠ 0 then addElement 4 field (← referTo off) 0

def notNested : Building Unit := do
  assert fun b => !b.nested
  assert fun b => b.fieldLocs.isEmpty

def startTable : Building ℕ := do
  notNested
  modify fun b => { b with nested := true }
  getSize

/-- The loop of `EndTable` that writes the offsets of the fields into the
vtable. -/
def writeFieldLocs (vtableOffsetLoc : ℕ) : List FieldLoc → Building Unit
  | [] => return
  | fl :: fls => do
      assert fun b => readScalar 2 b.buf_ fl.id = .ok 0
      modify fun b =>
        { b with buf_ := writeScalar 2 b.buf_ fl.id (uoffsetSub vtableOffsetLoc fl.off) }
      writeFieldLocs vtableOffsetLoc fls

/-- The vtable written before that has the `size` bytes of the one at the head
of the buffer. -/
def findVtable (b : Builder) (size : ℕ) : Option ℕ :=
  b.vtables.find? fun vt2 => (b.buf_.drop (b.buf_.length - vt2)).take size = b.buf_.take size

/-- The end of `EndTable`, with `dedup_vtables_` on: an equal vtable is shared
and the new one popped, else the new one is remembered; then the offset of the
vtable is filled in. -/
def useVtable (vtableOffsetLoc size : ℕ) : Building Unit := do
  match findVtable (← get) size with
  | some vtUse => modify fun b => { b with
      buf_ := writeScalar 4 (b.buf_.drop (b.buf_.length - vtableOffsetLoc)) 0
        (uoffsetSub vtUse vtableOffsetLoc) }
  | none => do
      let vtUse ← getSize
      ensureSpace
      modify fun b => { b with
        vtables := b.vtables ++ [vtUse]
        buf_ := writeScalar 4 b.buf_ (b.buf_.length - vtableOffsetLoc)
          (uoffsetSub vtUse vtableOffsetLoc) }

/-- `EndTable`. -/
def endTable (start : ℕ) : Building ℕ := do
  assert fun b => b.nested
  let vtableOffsetLoc ← pushElement 4 0
  let size := max (((← get).max_voffset_ + 2) % 2 ^ 16) (fieldIndexToOffset 0)
  fill size
  let tableObjectSize := uoffsetSub vtableOffsetLoc start
  assert fun _ => tableObjectSize < 0x10000
  modify fun b => { b with buf_ := writeScalar 2 b.buf_ 2 tableObjectSize }
  modify fun b => { b with buf_ := writeScalar 2 b.buf_ 0 size }
  writeFieldLocs vtableOffsetLoc (← get).fieldLocs
  modify fun b => { b with fieldLocs := [], max_voffset_ := 0 }
  useVtable vtableOffsetLoc size
  modify fun b => { b with nested := false }
  return vtableOffsetLoc

/-- `PreAlign`. -/
def preAlign (len alignment : ℕ) : Building Unit := do
  if len ≠ 0 then
    trackMinAlign alignment
    fill (paddingBytes ((← getSize) + len) alignment)

/-- `CreateString` from a pointer and a length. -/
def createString (str : List UInt8) : Building ℕ := do
  notNested
  preAlign (str.length + 1) 4
  fill 1
  push str
  pushElement 4 str.length

/-- `CreateString` from a C string: `strlen` stops at the first zero byte. -/
def createCString (str : List UInt8) : Building ℕ := createString (str.takeWhile (· ≠ 0))

/-- `StartVector` with the 32-bit length type. -/
def startVector (len elemsize alignment : ℕ) : Building Unit := do
  notNested
  modify fun b => { b with nested := true }
  preAlign (len * elemsize) 4
  preAlign (len * elemsize) alignment

def endVector (len : ℕ) : Building ℕ := do
  assert fun b => b.nested
  modify fun b => { b with nested := false }
  pushElement 4 len

/-- `CreateVector` of bytes. -/
def createVector (v : List UInt8) : Building ℕ := do
  startVector v.length 1 1
  push v
  endVector v.length

/-- `Finish` without an identifier and without a size prefix. -/
def finish (root : ℕ) : Building Unit := do
  assert fun b => !b.finished
  notNested
  modify fun b => { b with vtables := [] }
  preAlign 4 (← get).minalign_
  let _ ← pushElement 4 (← referTo root)
  modify fun b => { b with finished := true }

/-- The bytes of a fresh builder after `create` and `Finish`, as `GetBufferPointer`
and `GetSize` give them. -/
def build (create : Building ℕ) : Option (List UInt8) := do
  let ((), b) ← (create >>= finish).run {}
  return b.buf_

end Builder

/-! ### Little-endian bytes -/

@[simp] theorem toLittleEndian_length (n v : ℕ) : (toLittleEndian n v).length = n := by
  induction n generalizing v with
  | zero => rfl
  | succ n ih => rw [toLittleEndian, List.length_cons, ih]

theorem ofLittleEndian_toLittleEndian (n v : ℕ) :
    ofLittleEndian (toLittleEndian n v) = v % 256 ^ n := by
  induction n generalizing v with
  | zero => rw [pow_zero, Nat.mod_one]; rfl
  | succ n ih =>
    have hcons : ofLittleEndian (toLittleEndian (n + 1) v) =
        (UInt8.ofNat v).toNat + 256 * ofLittleEndian (toLittleEndian n (v / 256)) := rfl
    rw [hcons, ih, UInt8.toNat_ofNat', pow_succ' 256 n, Nat.mod_mul]

@[simp] theorem writeScalar_length {n p v : ℕ} {buf : List UInt8} (h : p + n ≤ buf.length) :
    (writeScalar n buf p v).length = buf.length := by
  simp only [writeScalar, List.length_append, List.length_take, List.length_drop,
    toLittleEndian_length]
  omega

/-- What lies behind the bytes that are written stays as it is. -/
theorem writeScalar_append {n p v : ℕ} {xs ys : List UInt8} (h : p + n ≤ xs.length) :
    writeScalar n (xs ++ ys) p v = writeScalar n xs p v ++ ys := by
  rw [writeScalar, writeScalar, List.take_append_of_le_length (by omega),
    List.drop_append_of_le_length h]
  simp only [List.append_assoc]

theorem readScalar_writeScalar {n p v : ℕ} {buf : List UInt8} (h : p + n ≤ buf.length) :
    readScalar n (writeScalar n buf p v) p = .ok (v % 256 ^ n) := by
  have hlen : (buf.take p).length = p := List.length_take_of_le (by omega)
  rw [readScalar, if_pos (by rwa [writeScalar_length h]), writeScalar, List.append_assoc,
    List.drop_left' hlen, List.take_left' (toLittleEndian_length n v),
    ofLittleEndian_toLittleEndian]

/-- A write does not change what is read elsewhere. -/
theorem readScalar_writeScalar_of_disjoint {n m p q v : ℕ} {buf : List UInt8}
    (h : p + n ≤ buf.length) (hd : q + m ≤ p ∨ p + n ≤ q) :
    readScalar m (writeScalar n buf p v) q = readScalar m buf q := by
  have hbytes : ((writeScalar n buf p v).drop q).take m = (buf.drop q).take m := by
    -- byte by byte: before, in or behind what is written
    refine List.ext_getElem? fun i => ?_
    simp only [List.getElem?_take, List.getElem?_drop, writeScalar, List.append_assoc,
      List.getElem?_append, List.length_take, toLittleEndian_length]
    split_ifs with hi h1 h2 <;> first | omega | rfl | (congr 1; omega)
  rw [readScalar, readScalar, writeScalar_length h, hbytes]

theorem readScalar_append {n p : ℕ} {xs : List UInt8} (ys : List UInt8) (h : p + n ≤ xs.length) :
    readScalar n (xs ++ ys) p = readScalar n xs p := by
  rw [readScalar, readScalar, if_pos h, if_pos (by rw [List.length_append]; omega),
    List.drop_append_of_le_length (by omega),
    List.take_append_of_le_length (by rw [List.length_drop]; omega)]

theorem readScalar_zeros {n p k : ℕ} (h : p + n ≤ k) :
    readScalar n (List.replicate k 0) p = .ok 0 := by
  have hzero : ∀ m, ofLittleEndian (List.replicate m 0) = 0 := by
    intro m
    induction m with
    | zero => rfl
    | succ m ih =>
      have hcons : ofLittleEndian (List.replicate (m + 1) 0) =
          0 + 256 * ofLittleEndian (List.replicate m 0) := rfl
      rw [hcons, ih]
  -- a part of zeros is zeros again
  rw [readScalar, if_pos (by rwa [List.length_replicate]), List.drop_replicate,
    List.take_replicate, hzero]

/-! ### Bytes at an offset from the end -/

/-- The bytes `bytes` start `off` bytes before the end of the buffer. -/
def At (buf : List UInt8) (off : ℕ) (bytes : List UInt8) : Prop :=
  ∃ post, bytes ++ post <:+ buf ∧ bytes.length + post.length = off

namespace At

variable {buf buf' bytes bytes' : List UInt8} {off : ℕ}

/-- What is pushed later leaves them where they are. -/
theorem mono (h : At buf off bytes) (hb : buf <:+ buf') : At buf' off bytes := by
  obtain ⟨post, hpost, hlen⟩ := h
  exact ⟨post, hpost.trans hb, hlen⟩

theorem pushed (bytes buf : List UInt8) : At (bytes ++ buf) (bytes.length + buf.length) bytes :=
  ⟨buf, List.suffix_refl _, rfl⟩

theorem append_left (h : At buf off (bytes ++ bytes')) : At buf off bytes := by
  obtain ⟨post, hpost, hlen⟩ := h
  refine ⟨bytes' ++ post, by rwa [← List.append_assoc], ?_⟩
  rw [List.length_append] at hlen ⊢
  omega

theorem append_right (h : At buf off (bytes ++ bytes')) : At buf (off - bytes.length) bytes' := by
  obtain ⟨post, hpost, hlen⟩ := h
  rw [List.append_assoc] at hpost
  refine ⟨post, (List.suffix_append bytes _).trans hpost, ?_⟩
  rw [List.length_append] at hlen
  omega

theorem le (h : At buf off bytes) : bytes.length ≤ off ∧ off ≤ buf.length := by
  obtain ⟨post, hpost, hlen⟩ := h
  have := hpost.length_le
  rw [List.length_append] at this
  omega

theorem drop_take (h : At buf off bytes) :
    (buf.drop (buf.length - off)).take bytes.length = bytes := by
  obtain ⟨post, ⟨pre, rfl⟩, hlen⟩ := h
  rw [List.drop_left' (by simp only [List.length_append]; omega), List.take_left]

/-- A scalar is read as it was written. -/
theorem readScalar {n v : ℕ} (h : At buf off (toLittleEndian n v)) :
    readScalar n buf (buf.length - off) = .ok (v % 256 ^ n) := by
  have hle := h.le
  have hbytes := h.drop_take
  rw [toLittleEndian_length] at hle hbytes
  rw [Flatbuffers.readScalar, if_pos (by omega), hbytes, ofLittleEndian_toLittleEndian]

/-- A read inside the bytes is a read of the bytes. -/
theorem readScalar_inside {n p : ℕ} (h : At buf off bytes) (hp : p + n ≤ bytes.length) :
    Flatbuffers.readScalar n buf (buf.length - off + p) = Flatbuffers.readScalar n bytes p := by
  obtain ⟨post, ⟨pre, rfl⟩, hlen⟩ := h
  have hpre : (pre ++ (bytes ++ post)).length - off = pre.length := by
    simp only [List.length_append]
    omega
  have hdrop : (pre ++ (bytes ++ post)).drop (pre.length + p) = (bytes ++ post).drop p := by
    rw [← List.drop_drop, List.drop_left]
  -- what lies behind the bytes does not matter, as the read ends inside them
  rw [hpre, ← readScalar_append post hp, Flatbuffers.readScalar, Flatbuffers.readScalar, hdrop]
  simp only [List.length_append, Nat.add_assoc, Nat.add_le_add_iff_left]

theorem readBytes (h : At buf off bytes) :
    readBytes bytes.length buf (buf.length - off) = .ok bytes := by
  have hle := h.le
  rw [Flatbuffers.readBytes, if_pos (by omega), h.drop_take]

end At

/-- A string with its length before it and its zero behind. -/
def TextAt (buf : List UInt8) (off : ℕ) (str : List UInt8) : Prop :=
  At buf off (toLittleEndian 4 str.length ++ (str ++ [0])) ∧ off % 4 = 0

/-- A vector of bytes with its length before it. -/
def BytesAt (buf : List UInt8) (off : ℕ) (v : List UInt8) : Prop :=
  At buf off (toLittleEndian 4 v.length ++ v) ∧ off % 4 = 0

theorem TextAt.mono {buf buf' str : List UInt8} {off : ℕ} (h : TextAt buf off str)
    (hb : buf <:+ buf') : TextAt buf' off str := ⟨h.1.mono hb, h.2⟩

theorem BytesAt.mono {buf buf' v : List UInt8} {off : ℕ} (h : BytesAt buf off v)
    (hb : buf <:+ buf') : BytesAt buf' off v := ⟨h.1.mono hb, h.2⟩

/-! ### Computations that run through -/

/-- The computation runs through from `b`, without a failed assertion, and ends
as `Q` says. -/
def Does {α : Type} (c : Building α) (b : Builder) (Q : α → Builder → Prop) : Prop :=
  ∃ a b', c.run b = some (a, b') ∧ Q a b'

namespace Does

variable {α β : Type} {c : Building α} {f : α → Building β} {b : Builder}
  {Q Q' : α → Builder → Prop} {R : β → Builder → Prop}

theorem mono (hc : Does c b Q) (h : ∀ a b', Q a b' → Q' a b') : Does c b Q' := by
  obtain ⟨a, b', hrun, hQ⟩ := hc
  exact ⟨a, b', hrun, h a b' hQ⟩

theorem bind (hc : Does c b Q) (hf : ∀ a b', Q a b' → Does (f a) b' R) : Does (c >>= f) b R := by
  obtain ⟨a, b', hrun, hQ⟩ := hc
  obtain ⟨a', b'', hrun', hR⟩ := hf a b' hQ
  refine ⟨a', b'', ?_, hR⟩
  rw [StateT.run_bind, hrun]
  exact hrun'

theorem of_pure {a : α} (h : Q a b) : Does (pure a) b Q := ⟨a, b, rfl, h⟩

theorem of_modify {g : Builder → Builder} {Q : Unit → Builder → Prop} (h : Q () (g b)) :
    Does (modify g) b Q := ⟨(), g b, rfl, h⟩

theorem get_bind {f : Builder → Building β} (h : Does (f b) b R) : Does (get >>= f) b R := h

theorem of_assert {p : Builder → Bool} {Q : Unit → Builder → Prop} (hp : p b = true) (h : Q () b) :
    Does (Builder.assert p) b Q := by
  refine ⟨(), b, ?_, h⟩
  show (if p b then some ((), b) else none) = _
  rw [if_pos hp]

end Does

/-! ### Sizes and padding -/

/-- The sizes of the scalar types, which are their alignments as well. -/
def ScalarSize (n : ℕ) : Prop := n = 1 ∨ n = 2 ∨ n = 4 ∨ n = 8

theorem ScalarSize.max {n m : ℕ} (hn : ScalarSize n) (hm : ScalarSize m) :
    ScalarSize (max n m) := by
  rcases Nat.le_total n m with h | h
  · rwa [Nat.max_eq_right h]
  · rwa [Nat.max_eq_left h]

/-- The larger of two sizes is a multiple of the other. -/
theorem ScalarSize.dvd_of_le {n m : ℕ} (hn : ScalarSize n) (hm : ScalarSize m) (h : n ≤ m) :
    n ∣ m := by
  -- each of the four sizes divides the larger ones
  rcases hn with rfl | rfl | rfl | rfl <;> rcases hm with rfl | rfl | rfl | rfl <;> omega

theorem ScalarSize.and_sub_one {n : ℕ} (hn : ScalarSize n) (x : ℕ) : x &&& (n - 1) = x % n := by
  -- the sizes are powers of two, so the mask is a remainder
  rcases hn with rfl | rfl | rfl | rfl
  · exact Nat.and_two_pow_sub_one_eq_mod x 0
  · exact Nat.and_two_pow_sub_one_eq_mod x 1
  · exact Nat.and_two_pow_sub_one_eq_mod x 2
  · exact Nat.and_two_pow_sub_one_eq_mod x 3

theorem paddingBytes_spec {n : ℕ} (hn : ScalarSize n) (size : ℕ) (hsize : size < 2 ^ 63) :
    paddingBytes size n < n ∧ (paddingBytes size n + size) % n = 0 := by
  rw [paddingBytes, hn.and_sub_one]
  rcases hn with rfl | rfl | rfl | rfl <;> omega

theorem maxBufferSize_eq : maxBufferSize = 2147483647 := rfl

/-! ### What is pushed -/

namespace Builder

variable {b : Builder}

/-- Bytes pushed without a change of anything else. -/
def pushed (b : Builder) (bytes : List UInt8) : Builder := { b with buf_ := bytes ++ b.buf_ }

@[simp] theorem pushed_buf (bytes : List UInt8) : (b.pushed bytes).buf_ = bytes ++ b.buf_ := rfl
@[simp] theorem pushed_nil : b.pushed [] = b := rfl

/-- The builder with an alignment tracked. -/
def tracked (b : Builder) (n : ℕ) : Builder := { b with minalign_ := max b.minalign_ n }

@[simp] theorem tracked_buf (n : ℕ) : (b.tracked n).buf_ = b.buf_ := rfl

/-- The size as it is: no offset wraps in a buffer that the builder lets grow. -/
theorem getSize_does (h : b.buf_.length ≤ maxBufferSize) :
    Does getSize b fun a b' => a = b.buf_.length ∧ b' = b := by
  refine Does.get_bind (Does.of_pure ⟨Nat.mod_eq_of_lt ?_, rfl⟩)
  rw [maxBufferSize_eq] at h
  omega

theorem ensureSpace_does (h : b.buf_.length < maxBufferSize) :
    Does ensureSpace b fun _ b' => b' = b := by
  refine Does.of_assert (decide_eq_true ?_) rfl
  -- below the limit the length fits into a `uoffset_t`
  rwa [Nat.mod_eq_of_lt (by rw [maxBufferSize_eq] at h; omega)]

theorem push_does (bytes : List UInt8) (h : b.buf_.length < maxBufferSize) :
    Does (push bytes) b fun _ b' => b' = b.pushed bytes := by
  by_cases hb : bytes = []
  · subst hb
    -- nothing to push, and no space asked for
    exact Does.of_pure rfl
  · rw [push, if_pos hb]
    refine (ensureSpace_does h).bind ?_
    rintro _ _ rfl
    exact Does.of_modify rfl

theorem trackMinAlign_does (n : ℕ) :
    Does (trackMinAlign n) b fun _ b' => b' = b.tracked n := by
  refine Does.get_bind ?_
  by_cases h : b.minalign_ < n
  · rw [if_pos h]
    refine Does.of_modify ?_
    rw [tracked, Nat.max_eq_right (Nat.le_of_lt h)]
  · rw [if_neg h]
    refine Does.of_pure ?_
    rw [tracked, Nat.max_eq_left (Nat.not_lt.mp h)]

theorem fill_does {n : ℕ} (hn : ScalarSize n) (len : ℕ) (h : b.buf_.length < maxBufferSize)
    (hlen : len < maxBufferSize) :
    Does (fill (paddingBytes (b.buf_.length + len) n)) b fun _ b' => ∃ pad, pad < n ∧
      (pad + (b.buf_.length + len)) % n = 0 ∧ b' = b.pushed (List.replicate pad 0) := by
  rw [maxBufferSize_eq] at hlen
  have hlt : b.buf_.length + len < 2 ^ 63 := by
    have := h
    rw [maxBufferSize_eq] at this
    omega
  -- the sum stays below the width of a `size_t`
  obtain ⟨hpad, hmod⟩ := paddingBytes_spec hn _ hlt
  exact (push_does _ h).mono fun _ _ hb' => ⟨_, hpad, hmod, hb'⟩

theorem align_does {n : ℕ} (hn : ScalarSize n) (h : b.buf_.length < maxBufferSize) :
    Does (align n) b fun _ b' => ∃ pad, pad < n ∧ (pad + b.buf_.length) % n = 0 ∧
      b' = (b.tracked n).pushed (List.replicate pad 0) := by
  have h' : (b.tracked n).buf_.length < maxBufferSize := h
  refine (trackMinAlign_does n).bind ?_
  rintro _ _ rfl
  refine (getSize_does (Nat.le_of_lt h')).bind ?_
  rintro _ _ ⟨rfl, rfl⟩
  exact fill_does hn 0 h' (by decide)

/-- An element lies at a multiple of its size, behind at most some padding. -/
theorem pushElement_does {n : ℕ} (hn : ScalarSize n) (v : ℕ)
    (h : b.buf_.length + 2 * n ≤ maxBufferSize) :
    Does (pushElement n v) b fun a b' => a = b'.buf_.length ∧ a % n = 0 ∧ ∃ pad, pad < n ∧
      b' = (b.tracked n).pushed (toLittleEndian n v ++ List.replicate pad 0) := by
  have hpos : 0 < n := by rcases hn with rfl | rfl | rfl | rfl <;> omega
  refine (align_does hn (by omega)).bind ?_
  rintro _ _ ⟨pad, hpad, hmod, rfl⟩
  have hlen : ((b.tracked n).pushed (List.replicate pad 0)).buf_.length = pad + b.buf_.length := by
    simp only [pushed_buf, tracked_buf, List.length_append, List.length_replicate]
  refine (push_does (toLittleEndian n v) (by omega)).bind ?_
  rintro _ _ rfl
  have hpushed : ((b.tracked n).pushed (List.replicate pad 0)).pushed (toLittleEndian n v) =
      (b.tracked n).pushed (toLittleEndian n v ++ List.replicate pad 0) := by
    simp only [pushed, List.append_assoc]
  have hlen' : ((b.tracked n).pushed
      (toLittleEndian n v ++ List.replicate pad 0)).buf_.length = n + (pad + b.buf_.length) := by
    rw [← hpushed, pushed_buf, List.length_append, toLittleEndian_length, hlen]
  rw [hpushed]
  refine (getSize_does (by omega)).mono ?_
  rintro _ _ ⟨rfl, rfl⟩
  refine ⟨rfl, ?_, pad, hpad, rfl⟩
  -- the element is as long as its alignment, so it keeps what the padding has reached
  rw [hlen', Nat.add_mod_left, hmod]

/-! ### Strings and vectors -/

/-- No table and no vector is under construction, and no table has been built. -/
structure Ready (b : Builder) : Prop where
  nested : b.nested = false
  unfinished : b.finished = false
  vtables : b.vtables = []
  fieldLocs : b.fieldLocs = []
  max_voffset : b.max_voffset_ = 0
  minalign : ScalarSize b.minalign_

theorem ready_empty : Ready {} := ⟨rfl, rfl, rfl, rfl, rfl, .inl rfl⟩

theorem Ready.pushed (hb : Ready b) {n : ℕ} (hn : ScalarSize n) (bytes : List UInt8) :
    Ready ((b.tracked n).pushed bytes) :=
  { hb with minalign := hb.minalign.max hn }

theorem notNested_does (hb : Ready b) : Does notNested b fun _ b' => b' = b := by
  refine (Does.of_assert (Q := fun _ b' => b' = b) (by rw [hb.nested]; rfl) rfl).bind ?_
  rintro _ _ rfl
  exact Does.of_assert (by rw [hb.fieldLocs]; rfl) rfl

theorem preAlign_does {n len : ℕ} (hn : ScalarSize n) (hlen : len ≠ 0)
    (h : b.buf_.length < maxBufferSize) (hle : len < maxBufferSize) :
    Does (preAlign len n) b fun _ b' => ∃ pad, pad < n ∧ (pad + (b.buf_.length + len)) % n = 0 ∧
      b' = (b.tracked n).pushed (List.replicate pad 0) := by
  have h' : (b.tracked n).buf_.length < maxBufferSize := h
  rw [preAlign, if_pos hlen]
  refine (trackMinAlign_does n).bind ?_
  rintro _ _ rfl
  refine (getSize_does (Nat.le_of_lt h')).bind ?_
  rintro _ _ ⟨rfl, rfl⟩
  exact fill_does hn len h' hle

/-- A length that is pushed where it is aligned already has no padding behind it. -/
theorem pushElement_aligned {bytes : List UInt8} (v : ℕ) (hmod : b.buf_.length % 4 = 0)
    (h : b.buf_.length + 8 ≤ maxBufferSize) (hat : At b.buf_ b.buf_.length bytes) :
    Does (pushElement 4 v) b fun off b' => off = b.buf_.length + 4 ∧ off % 4 = 0 ∧
      At b'.buf_ off (toLittleEndian 4 v ++ bytes) ∧
      b' = (b.tracked 4).pushed (toLittleEndian 4 v) := by
  refine (pushElement_does (.inr (.inr (.inl rfl))) v h).mono ?_
  rintro off _ ⟨hoff, homod, pad, hpad, rfl⟩
  have hlen : ((b.tracked 4).pushed (toLittleEndian 4 v ++ List.replicate pad 0)).buf_.length =
      4 + pad + b.buf_.length := by
    rw [pushed_buf, tracked_buf, List.length_append, List.length_append, toLittleEndian_length,
      List.length_replicate]
  -- both lengths are multiples of four, so the padding is one as well
  obtain rfl : pad = 0 := by omega
  rw [List.replicate_zero, List.append_nil] at hoff hlen ⊢
  obtain ⟨post, hpost, hplen⟩ := hat
  have hbuf : bytes ++ post = b.buf_ := hpost.eq_of_length (by rw [List.length_append]; omega)
  refine ⟨by omega, homod, ⟨post, ?_, ?_⟩, rfl⟩
  · rw [pushed_buf, tracked_buf, List.append_assoc, hbuf]
  · rw [List.length_append, toLittleEndian_length]
    omega

/-- `CreateString` puts the string, whatever its bytes, into the buffer. -/
theorem createString_does (str : List UInt8) (hb : Ready b)
    (h : b.buf_.length + str.length + 16 ≤ maxBufferSize) :
    Does (createString str) b fun off b' => Ready b' ∧ TextAt b'.buf_ off str ∧
      b.buf_ <:+ b'.buf_ ∧ b'.buf_.length ≤ b.buf_.length + str.length + 8 ∧
      0 < off ∧ off ≤ b'.buf_.length := by
  refine (notNested_does hb).bind ?_
  rintro _ b rfl
  -- the padding makes room for the characters and the zero, so that the length comes to lie at a
  -- multiple of four
  refine (preAlign_does (.inr (.inr (.inl rfl))) (by omega) (by omega) (by omega)).bind ?_
  rintro _ _ ⟨pad, hpad, hmod, rfl⟩
  have hlen : ((b.tracked 4).pushed (List.replicate pad 0)).buf_.length = pad + b.buf_.length := by
    rw [pushed_buf, tracked_buf, List.length_append, List.length_replicate]
  refine (push_does [0] (by omega)).bind ?_
  rintro _ _ rfl
  have hlen1 : (((b.tracked 4).pushed (List.replicate pad 0)).pushed [0]).buf_.length =
      1 + (pad + b.buf_.length) := by
    rw [pushed_buf, List.length_append, hlen, List.length_singleton]
  refine (push_does str (by omega)).bind ?_
  rintro _ c hc
  have hcbuf : c.buf_ = str ++ [0] ++ (List.replicate pad 0 ++ b.buf_) := by
    rw [hc]
    simp only [pushed_buf, tracked_buf, List.append_assoc]
  have hclen : c.buf_.length = str.length + (1 + (pad + b.buf_.length)) := by
    rw [hc, pushed_buf, List.length_append, hlen1]
  have hat : At c.buf_ c.buf_.length (str ++ [0]) := by
    have hpushed := At.pushed (str ++ [0]) (List.replicate pad 0 ++ b.buf_)
    rwa [← List.length_append, ← hcbuf] at hpushed
  have hready : Ready c := by
    rw [hc]
    exact { hb with minalign := hb.minalign.max (.inr (.inr (.inl rfl))) }
  -- so the length goes right before the characters
  refine (pushElement_aligned str.length (by omega) (by omega) hat).mono ?_
  rintro off _ ⟨hoff, homod, hoat, rfl⟩
  have hlen' : ((c.tracked 4).pushed (toLittleEndian 4 str.length)).buf_.length =
      4 + c.buf_.length := by
    rw [pushed_buf, tracked_buf, List.length_append, toLittleEndian_length]
  refine ⟨hready.pushed (.inr (.inr (.inl rfl))) _, ⟨hoat, homod⟩, ?_, by omega, by omega, by omega⟩
  rw [pushed_buf, tracked_buf, hcbuf]
  exact ((List.suffix_append _ _).trans (List.suffix_append _ _)).trans (List.suffix_append _ _)

/-- `StartVector` for `len` bytes. -/
theorem startVector_does {len : ℕ} (hb : Ready b)
    (h : b.buf_.length + len + 16 ≤ maxBufferSize) :
    Does (startVector len 1 1) b fun _ b' => b'.nested = true ∧ Ready { b' with nested := false } ∧
      ∃ pad, pad < 4 ∧ (len ≠ 0 → (pad + (b.buf_.length + len)) % 4 = 0) ∧
        b'.buf_ = List.replicate pad 0 ++ b.buf_ := by
  refine (notNested_does hb).bind ?_
  rintro _ b rfl
  refine (Does.of_modify (Q := fun _ b' => b' = { b with nested := true }) rfl).bind ?_
  rintro _ c hc
  have hcbuf : c.buf_ = b.buf_ := by rw [hc]
  have hready : Ready { c with nested := false } := by
    rw [hc]
    exact { hb with nested := rfl }
  have hnested : c.nested = true := by rw [hc]
  have hclen : c.buf_.length = b.buf_.length := by rw [hcbuf]
  rw [Nat.mul_one]
  by_cases hlen : len = 0
  · subst hlen
    refine (Does.of_pure (Q := fun _ b' => b' = c) rfl).bind ?_
    rintro _ _ rfl
    exact Does.of_pure ⟨hnested, hready, 0, by omega, fun h => absurd rfl h, hcbuf⟩
  · refine (preAlign_does (.inr (.inr (.inl rfl))) hlen (by omega) (by omega)).bind ?_
    rintro _ _ ⟨pad, hpad, hmod, rfl⟩
    have hplen : ((c.tracked 4).pushed (List.replicate pad 0)).buf_.length =
        pad + c.buf_.length := by
      rw [pushed_buf, tracked_buf, List.length_append, List.length_replicate]
    refine (preAlign_does (.inl rfl) hlen (by omega) (by omega)).mono ?_
    rintro _ _ ⟨pad', hpad', -, rfl⟩
    obtain rfl : pad' = 0 := by omega
    rw [hcbuf] at hmod
    refine ⟨hnested, ?_, pad, hpad, fun _ => hmod, ?_⟩
    · exact { hready with
        minalign := (hready.minalign.max (.inr (.inr (.inl rfl)))).max (.inl rfl) }
    · show List.replicate pad 0 ++ c.buf_ = _
      rw [hcbuf]

/-- `EndVector` behind the bytes of a vector, which are aligned unless there are
none. -/
theorem endVector_does (v : List UInt8) (hnested : b.nested = true)
    (hb : Ready { b with nested := false }) (hmod : v ≠ [] → b.buf_.length % 4 = 0)
    (h : b.buf_.length + 8 ≤ maxBufferSize) (hat : At b.buf_ b.buf_.length v) :
    Does (endVector v.length) b fun off b' => Ready b' ∧ BytesAt b'.buf_ off v ∧
      b.buf_ <:+ b'.buf_ ∧ b'.buf_.length ≤ b.buf_.length + 7 ∧ 0 < off ∧ off ≤ b'.buf_.length := by
  refine (Does.of_assert (Q := fun _ b' => b' = b) hnested rfl).bind ?_
  rintro _ b rfl
  refine (Does.of_modify (Q := fun _ b' => b' = { b with nested := false }) rfl).bind ?_
  rintro _ c hc
  have hcbuf : c.buf_ = b.buf_ := by rw [hc]
  rw [← hc] at hb
  rw [← hcbuf] at hmod h hat ⊢
  by_cases hv : v = []
  · subst hv
    refine (pushElement_does (.inr (.inr (.inl rfl))) 0 h).mono ?_
    rintro off _ ⟨hoff, homod, pad, hpad, rfl⟩
    have hlen : ((c.tracked 4).pushed (toLittleEndian 4 0 ++ List.replicate pad 0)).buf_.length =
        4 + pad + c.buf_.length := by
      rw [pushed_buf, tracked_buf, List.length_append, List.length_append, toLittleEndian_length,
        List.length_replicate]
    refine ⟨hb.pushed (.inr (.inr (.inl rfl))) _, ⟨?_, homod⟩, List.suffix_append _ _, by omega,
      by omega, by omega⟩
    rw [hoff, pushed_buf, tracked_buf, List.append_assoc, List.length_append, List.append_nil]
    exact At.pushed _ _
  · refine (pushElement_aligned v.length (hmod hv) h hat).mono ?_
    rintro off _ ⟨hoff, homod, hoat, rfl⟩
    have hlen : ((c.tracked 4).pushed (toLittleEndian 4 v.length)).buf_.length =
        4 + c.buf_.length := by
      rw [pushed_buf, tracked_buf, List.length_append, toLittleEndian_length]
    exact ⟨hb.pushed (.inr (.inr (.inl rfl))) _, ⟨hoat, homod⟩, List.suffix_append _ _, by omega,
      by omega, by omega⟩

/-- `CreateVector` puts the bytes into the buffer. -/
theorem createVector_does (v : List UInt8) (hb : Ready b)
    (h : b.buf_.length + v.length + 16 ≤ maxBufferSize) :
    Does (createVector v) b fun off b' => Ready b' ∧ BytesAt b'.buf_ off v ∧
      b.buf_ <:+ b'.buf_ ∧ b'.buf_.length ≤ b.buf_.length + v.length + 10 ∧
      0 < off ∧ off ≤ b'.buf_.length := by
  refine (startVector_does hb h).bind ?_
  rintro _ c ⟨hnested, hready, pad, hpad, hmod, hcbuf⟩
  have hclen : c.buf_.length = pad + b.buf_.length := by
    rw [hcbuf, List.length_append, List.length_replicate]
  refine (push_does v (by omega)).bind ?_
  rintro _ _ rfl
  have hlen : (c.pushed v).buf_.length = v.length + c.buf_.length := by
    rw [pushed_buf, List.length_append]
  refine (endVector_does (b := c.pushed v) v hnested { hready with } ?_ (by omega) ?_).mono ?_
  · intro hv
    have := hmod (List.length_eq_zero_iff.not.mpr hv)
    omega
  · rw [hlen]
    exact At.pushed _ _
  · rintro off b' ⟨hb', hat, hsuffix, hle, hpos, hoff⟩
    refine ⟨hb', hat, ?_, by omega, hpos, hoff⟩
    refine List.IsSuffix.trans ?_ hsuffix
    rw [pushed_buf, hcbuf]
    exact (List.suffix_append _ _).trans (List.suffix_append _ _)

end Builder

end Flatbuffers

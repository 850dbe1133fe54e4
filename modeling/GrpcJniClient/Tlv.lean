/-
Records with a length, one behind the other in a memory.

A record begins with a header, the header with the length of the whole record,
and the next record begins at the next multiple of the alignment behind it.  A
reader goes from record to record while the next one fits in what it has got.

* `Format.positions` — where the reader finds records; it comes to an end in any
  memory, `runs_positions`;
* `fits_of_mem_positions`, `mem_positions_iff` — each of them fits, and it finds
  every record;
* `positions_serialize` — in a serialized list that has been cut anywhere it finds
  the records that are complete, in order.
-/
import GrpcJniClient.Loop
import Mathlib.Algebra.Group.Nat.Defs
import Mathlib.Data.List.Basic

namespace Tlv

/-- A byte at each address. -/
abbrev Memory := ℕ → UInt8

/-- The `n` bytes from `pos` on. -/
def bytes (mem : Memory) (pos : ℕ) : ℕ → List UInt8
  | 0 => []
  | n + 1 => mem pos :: bytes mem (pos + 1) n

/-- The unsigned value of little-endian bytes. -/
def ofLittleEndian : List UInt8 → ℕ
  | [] => 0
  | b :: bs => b.toNat + 256 * ofLittleEndian bs

/-- A value as `width` little-endian bytes. -/
def toLittleEndian : ℕ → ℕ → List UInt8
  | 0, _ => []
  | width + 1, n => UInt8.ofNat n :: toLittleEndian width (n / 256)

/-- The value of the `width` bytes at `pos`. -/
def load (mem : Memory) (pos width : ℕ) : ℕ := ofLittleEndian (bytes mem pos width)

/-- The bytes are in the memory at `pos`. -/
def Holds (mem : Memory) (pos : ℕ) (bs : List UInt8) : Prop := bytes mem pos bs.length = bs

instance (mem : Memory) (pos : ℕ) (bs : List UInt8) : Decidable (Holds mem pos bs) :=
  inferInstanceAs (Decidable (_ = _))

/-- The next multiple of `align`. -/
def alignUp (align n : ℕ) : ℕ := (n + (align - 1)) / align * align

variable {mem : Memory} {pos stop start : ℕ} {bs cs : List UInt8}

/-! ### Bytes -/

@[simp] theorem length_bytes (mem : Memory) (pos n : ℕ) : (bytes mem pos n).length = n := by
  induction n generalizing pos with
  | zero => rfl
  | succ n ih => simp [bytes, ih]

@[simp] theorem length_toLittleEndian (width n : ℕ) : (toLittleEndian width n).length = width := by
  induction width generalizing n with
  | zero => rfl
  | succ width ih => simp [toLittleEndian, ih]

theorem ofLittleEndian_toLittleEndian (width n : ℕ) :
    ofLittleEndian (toLittleEndian width n) = n % 256 ^ width := by
  induction width generalizing n with
  | zero => simp [toLittleEndian, ofLittleEndian, Nat.mod_one]
  | succ width ih =>
    rw [toLittleEndian, ofLittleEndian, ih, UInt8.toNat_ofNat',
      show 256 ^ (width + 1) = 256 * 256 ^ width from Nat.pow_succ']
    exact Nat.mod_mul.symm

theorem bytes_add (mem : Memory) (pos m n : ℕ) :
    bytes mem pos (m + n) = bytes mem pos m ++ bytes mem (pos + m) n := by
  induction m generalizing pos with
  | zero => simp [bytes]
  | succ m ih =>
    rw [Nat.add_right_comm, bytes, ih, bytes, List.cons_append, Nat.add_assoc pos 1 m,
      Nat.add_comm 1 m]

theorem holds_append :
    Holds mem pos (bs ++ cs) ↔ Holds mem pos bs ∧ Holds mem (pos + bs.length) cs := by
  rw [Holds, List.length_append, bytes_add, Holds, Holds]
  constructor
  · intro h
    exact List.append_inj h (length_bytes _ _ _)
  · rintro ⟨hbs, hcs⟩
    rw [hbs, hcs]

/-- A field of a record. -/
theorem Holds.load_toLittleEndian {width n : ℕ}
    (h : Holds mem pos (toLittleEndian width n)) (hn : n < 256 ^ width) :
    load mem pos width = n := by
  rw [Holds, length_toLittleEndian] at h
  rw [load, h, ofLittleEndian_toLittleEndian, Nat.mod_eq_of_lt hn]

theorem ofLittleEndian_lt (bs : List UInt8) : ofLittleEndian bs < 256 ^ bs.length := by
  induction bs with
  | nil => decide
  | cons b bs ih =>
    have hb := b.toNat_lt
    rw [ofLittleEndian, List.length_cons, Nat.pow_succ]
    omega

theorem load_lt (mem : Memory) (pos width : ℕ) : load mem pos width < 256 ^ width := by
  have h := ofLittleEndian_lt (bytes mem pos width)
  rwa [length_bytes] at h

theorem le_alignUp {align : ℕ} (halign : 0 < align) (n : ℕ) : n ≤ alignUp align n := by
  have h := Nat.lt_div_mul_add (a := n + (align - 1)) halign
  rw [alignUp]
  omega

/-! ### The reader -/

/-- Where the length is, and how it is rounded. -/
structure Format where
  lengthWidth : ℕ
  header : ℕ
  align : ℕ
  lengthWidth_le : lengthWidth ≤ header
  header_pos : 0 < header
  align_pos : 0 < align

namespace Format

variable (fmt : Format)

/-- The length that a record at `pos` declares. -/
def size (mem : Memory) (pos : ℕ) : ℕ := load mem pos fmt.lengthWidth

/-- The header has been received, and all of the record that it declares. -/
def Fits (mem : Memory) (stop pos : ℕ) : Prop :=
  pos + fmt.header ≤ stop ∧ fmt.header ≤ fmt.size mem pos ∧ pos + fmt.size mem pos ≤ stop

instance : Decidable (fmt.Fits mem stop pos) := inferInstanceAs (Decidable (_ ∧ _ ∧ _))

/-- Where the next record begins. -/
def next (mem : Memory) (stop pos : ℕ) : Option ℕ :=
  if fmt.Fits mem stop pos then some (pos + alignUp fmt.align (fmt.size mem pos)) else none

/-- Where the reader finds records, from `start` on. -/
def positions (mem : Memory) (stop start : ℕ) : List ℕ :=
  ((Loop.exec (fmt.next mem stop) (stop - start) start).map Prod.fst).getD []

/-- A record begins at `pos`, where the first one begins at `start`. -/
inductive RecordAt (mem : Memory) (stop start : ℕ) : ℕ → Prop
  | first : fmt.Fits mem stop start → RecordAt mem stop start start
  | following {pos : ℕ} : RecordAt mem stop start pos →
      fmt.Fits mem stop (pos + alignUp fmt.align (fmt.size mem pos)) →
      RecordAt mem stop start (pos + alignUp fmt.align (fmt.size mem pos))

variable {fmt}

theorem next_of_fits (h : fmt.Fits mem stop pos) :
    fmt.next mem stop pos = some (pos + alignUp fmt.align (fmt.size mem pos)) := if_pos h

theorem next_of_not_fits (h : ¬ fmt.Fits mem stop pos) : fmt.next mem stop pos = none := if_neg h

/-- Every record takes at least its header. -/
theorem lt_alignUp (h : fmt.Fits mem stop pos) : 0 < alignUp fmt.align (fmt.size mem pos) := by
  have hle := le_alignUp fmt.align_pos (fmt.size mem pos)
  have hheader := h.2.1
  have hpos := fmt.header_pos
  omega

/-- The reader comes to an end, after at most as many records as there are
bytes. -/
theorem exists_runs (fmt : Format) (mem : Memory) (stop start : ℕ) :
    ∃ visited t, Loop.Runs (fmt.next mem stop) start visited t ∧ visited.length ≤ stop - start := by
  refine Loop.exists_runs_of_measure (fun pos => stop - pos) (fun pos pos' hnext => ?_) start
  rw [next, Option.ite_none_right_eq_some, Option.some_inj] at hnext
  have hlt := lt_alignUp hnext.1
  have hstop := hnext.1.1
  have hheader := fmt.header_pos
  omega

theorem positions_eq {visited : List ℕ} {t : ℕ}
    (h : Loop.Runs (fmt.next mem stop) start visited t) :
    fmt.positions mem stop start = visited := by
  obtain ⟨visited', t', h', hlen⟩ := exists_runs fmt mem stop start
  obtain ⟨rfl, rfl⟩ := h.unique h'
  rw [positions, h.exec hlen]
  rfl

theorem runs_positions (fmt : Format) (mem : Memory) (stop start : ℕ) :
    ∃ t, Loop.Runs (fmt.next mem stop) start (fmt.positions mem stop start) t := by
  obtain ⟨visited, t, h, -⟩ := exists_runs fmt mem stop start
  exact ⟨t, by rwa [positions_eq h]⟩

theorem length_positions_le (fmt : Format) (mem : Memory) (stop start : ℕ) :
    (fmt.positions mem stop start).length ≤ stop - start := by
  obtain ⟨visited, t, h, hlen⟩ := exists_runs fmt mem stop start
  rwa [positions_eq h]

theorem fits_of_mem_positions (h : pos ∈ fmt.positions mem stop start) :
    start ≤ pos ∧ fmt.Fits mem stop pos := by
  have hkeep : ∀ pos pos', start ≤ pos → fmt.next mem stop pos = some pos' → start ≤ pos' := by
    intro pos pos' hpos hnext
    rw [next, Option.ite_none_right_eq_some, Option.some_inj] at hnext
    omega
  obtain ⟨t, hruns⟩ := runs_positions fmt mem stop start
  obtain ⟨hstart, hsome⟩ := (hruns.invariant hkeep (Nat.le_refl start)).1 pos h
  refine ⟨hstart, ?_⟩
  by_contra hfits
  rw [next_of_not_fits hfits] at hsome
  cases hsome

theorem recordAt_iff : fmt.RecordAt mem stop start pos ↔
    fmt.Fits mem stop start ∧ (pos = start ∨
      fmt.RecordAt mem stop (start + alignUp fmt.align (fmt.size mem start)) pos) := by
  constructor
  · intro h
    induction h with
    | first h => exact ⟨h, .inl rfl⟩
    | following _ hfits ih =>
      obtain ⟨hstart, rfl | hpos⟩ := ih
      · exact ⟨hstart, .inr (.first hfits)⟩
      · exact ⟨hstart, .inr (.following hpos hfits)⟩
  · rintro ⟨hstart, rfl | hpos⟩
    · exact .first hstart
    -- the chain that starts at the second record is one that starts at the first
    · induction hpos with
      | first h => exact .following (.first hstart) h
      | following _ hfits ih => exact .following ih hfits

theorem mem_visited_iff {visited : List ℕ} {t : ℕ}
    (h : Loop.Runs (fmt.next mem stop) start visited t) :
    pos ∈ visited ↔ fmt.RecordAt mem stop start pos := by
  induction h with
  | @leave s hnone =>
    have hfits : ¬ fmt.Fits mem stop s := by
      intro hfits
      rw [next_of_fits hfits] at hnone
      cases hnone
    rw [recordAt_iff]
    simp [hfits]
  | iterate hsome _ ih =>
    rw [next, Option.ite_none_right_eq_some, Option.some_inj] at hsome
    obtain ⟨hfits, rfl⟩ := hsome
    rw [List.mem_cons, ih]
    exact ⟨fun h => recordAt_iff.mpr ⟨hfits, h⟩, fun h => (recordAt_iff.mp h).2⟩

/-- The reader finds every record. -/
theorem mem_positions_iff :
    pos ∈ fmt.positions mem stop start ↔ fmt.RecordAt mem stop start pos := by
  obtain ⟨t, hruns⟩ := runs_positions fmt mem stop start
  exact mem_visited_iff hruns

/-! ### Serialized records -/

/-- The bytes of a record: its own length, the rest of the header, the payload. -/
structure Record (fmt : Format) where
  rest : List UInt8
  header_le : fmt.header ≤ fmt.lengthWidth + rest.length
  length_lt : fmt.lengthWidth + rest.length < 256 ^ fmt.lengthWidth

namespace Record

def length (r : Record fmt) : ℕ := fmt.lengthWidth + r.rest.length

def toBytes (r : Record fmt) : List UInt8 := toLittleEndian fmt.lengthWidth r.length ++ r.rest

def padding (r : Record fmt) : List UInt8 :=
  List.replicate (alignUp fmt.align r.length - r.length) 0

@[simp] theorem length_toBytes (r : Record fmt) : r.toBytes.length = r.length := by
  simp [toBytes, length]

/-- The record as it stands in front of another one. -/
def padded (r : Record fmt) : List UInt8 := r.toBytes ++ r.padding

@[simp] theorem length_padded (r : Record fmt) :
    r.padded.length = alignUp fmt.align r.length := by
  have h := le_alignUp fmt.align_pos r.length
  rw [padded, List.length_append, length_toBytes, padding, List.length_replicate]
  omega

theorem length_pos (r : Record fmt) : 0 < r.length :=
  Nat.lt_of_lt_of_le fmt.header_pos r.header_le

theorem size_of_holds {r : Record fmt} (h : Holds mem pos r.toBytes) :
    fmt.size mem pos = r.length :=
  (holds_append.mp h).1.load_toLittleEndian r.length_lt

/-- A record of which the header has been received shows its length. -/
theorem size_of_holds_take {r : Record fmt} {n : ℕ} (hn : fmt.header ≤ n)
    (h : Holds mem pos (r.toBytes.take n)) : fmt.size mem pos = r.length := by
  have hwidth := fmt.lengthWidth_le
  have htake : r.toBytes.take n
      = toLittleEndian fmt.lengthWidth r.length ++ r.rest.take (n - fmt.lengthWidth) := by
    rw [toBytes, List.take_append, length_toLittleEndian, List.take_of_length_le (by simp; omega)]
  rw [htake] at h
  exact (holds_append.mp h).1.load_toLittleEndian r.length_lt

end Record

/-- The records one behind the other, each with its padding. -/
def serialize (rs : List (Record fmt)) : List UInt8 := rs.flatMap Record.padded

/-- The records that are complete in the first `n` bytes. -/
def complete : ℕ → List (Record fmt) → List (Record fmt)
  | _, [] => []
  | n, r :: rs =>
    if r.length ≤ n then r :: complete (n - alignUp fmt.align r.length) rs else []

theorem serialize_cons (r : Record fmt) (rs : List (Record fmt)) :
    serialize (r :: rs) = r.padded ++ serialize rs := List.flatMap_cons

/-- Where the `i`-th record begins. -/
def offset (rs : List (Record fmt)) (i : ℕ) : ℕ := (serialize (rs.take i)).length

/-- Complete means that the last byte of the record has been received. -/
theorem getElem?_complete {rs : List (Record fmt)} {n i : ℕ} {r : Record fmt} :
    (complete n rs)[i]? = some r ↔ rs[i]? = some r ∧ offset rs i + r.length ≤ n := by
  induction rs generalizing n i with
  | nil => simp [complete]
  | cons r' rs ih =>
    have hpos := r.length_pos
    have hle := le_alignUp fmt.align_pos r'.length
    cases i with
    | zero =>
      have hzero : offset (r' :: rs) 0 = 0 := rfl
      rw [complete, hzero]
      split
      · rename_i hr
        rw [List.getElem?_cons_zero, List.getElem?_cons_zero, Option.some_inj]
        refine ⟨?_, fun h => h.1⟩
        rintro rfl
        exact ⟨rfl, by omega⟩
      · rename_i hr
        rw [List.getElem?_nil, List.getElem?_cons_zero, Option.some_inj]
        constructor
        · intro h
          cases h
        · rintro ⟨rfl, h⟩
          omega
    | succ i =>
      have hoffset : offset (r' :: rs) (i + 1) = alignUp fmt.align r'.length + offset rs i := by
        rw [offset, List.take_succ_cons, serialize_cons, List.length_append, Record.length_padded,
          offset]
      rw [complete, hoffset]
      split
      · rw [List.getElem?_cons_succ, List.getElem?_cons_succ, ih]
        refine and_congr_right fun _ => ?_
        omega
      · rw [List.getElem?_nil, List.getElem?_cons_succ]
        constructor
        · intro h
          cases h
        · rintro ⟨_, h⟩
          omega

/-- Nothing is lost of what has been received whole. -/
theorem complete_of_le {rs : List (Record fmt)} {n : ℕ} (h : (serialize rs).length ≤ n) :
    complete n rs = rs := by
  induction rs generalizing n with
  | nil => rfl
  | cons r rs ih =>
    have hle := le_alignUp fmt.align_pos r.length
    rw [serialize_cons, List.length_append, Record.length_padded] at h
    rw [complete, if_pos (by omega), ih (by omega)]

/-- They are the first ones of the list. -/
theorem take_length_complete (n : ℕ) (rs : List (Record fmt)) :
    rs.take (complete n rs).length = complete n rs := by
  induction rs generalizing n with
  | nil => rfl
  | cons r rs ih =>
    rw [complete]
    split
    · rw [List.length_cons, List.take_succ_cons, ih]
    · rfl

theorem complete_zero (rs : List (Record fmt)) : complete 0 rs = [] := by
  cases rs with
  | nil => rfl
  | cons r rs => rw [complete, if_neg (Nat.not_le.mpr r.length_pos)]

theorem take_serialize_cons {r : Record fmt} {rs : List (Record fmt)} {n : ℕ}
    (hn : alignUp fmt.align r.length ≤ n) :
    (serialize (r :: rs)).take n
      = r.padded ++ (serialize rs).take (n - alignUp fmt.align r.length) := by
  rw [serialize_cons, List.take_append, Record.length_padded,
    List.take_of_length_le (by rwa [Record.length_padded])]

/-- As much of the first record as has been received. -/
theorem holds_take_first {r : Record fmt} {rs : List (Record fmt)} {n : ℕ}
    (h : Holds mem start ((serialize (r :: rs)).take n)) : Holds mem start (r.toBytes.take n) := by
  rw [serialize_cons, Record.padded, List.append_assoc, List.take_append] at h
  exact (holds_append.mp h).1

theorem not_fits_of_stop_le (h : stop ≤ pos) : ¬ fmt.Fits mem stop pos := by
  rintro ⟨hheader, -⟩
  have hpos := fmt.header_pos
  omega

/-- The first record of those received is visited if it is complete. -/
theorem fits_iff {r : Record fmt} {rs : List (Record fmt)} {n : ℕ}
    (h : Holds mem start ((serialize (r :: rs)).take n)) :
    fmt.Fits mem (start + ((serialize (r :: rs)).take n).length) start ↔ r.length ≤ n := by
  have hheader : fmt.header ≤ r.length := r.header_le
  have hle := le_alignUp fmt.align_pos r.length
  have hlen : ((serialize (r :: rs)).take n).length
      = min n (alignUp fmt.align r.length + (serialize rs).length) := by
    rw [List.length_take, serialize_cons, List.length_append, Record.length_padded]
  have hsize : fmt.header ≤ n → fmt.size mem start = r.length := fun hn =>
    Record.size_of_holds_take hn (holds_take_first h)
  rw [hlen, Fits]
  constructor
  · rintro ⟨h1, h2, h3⟩
    -- a record that fits has its header in the cut, so its length is the real one
    rw [hsize (by omega)] at h3
    omega
  · intro hn
    rw [hsize (by omega)]
    omega

theorem exists_runs_serialize {rs : List (Record fmt)} {n : ℕ}
    (h : Holds mem start ((serialize rs).take n)) :
    ∃ visited t,
      Loop.Runs (fmt.next mem (start + ((serialize rs).take n).length)) start visited t ∧
        List.Forall₂ (fun pos r => Holds mem pos r.toBytes) visited (complete n rs) := by
  induction rs generalizing start n with
  | nil =>
    refine ⟨[], start, .leave (next_of_not_fits (not_fits_of_stop_le ?_)), .nil⟩
    simp [serialize]
  | cons r rs ih =>
    have hfits := fits_iff h
    -- the reader visits the first record exactly if the cut leaves it whole
    by_cases hn : r.length ≤ n
    · have hr : Holds mem start r.toBytes := by
        have hfirst := holds_take_first h
        rwa [List.take_of_length_le (by rwa [Record.length_toBytes])] at hfirst
      have hnext := next_of_fits (hfits.mpr hn)
      rw [Record.size_of_holds hr] at hnext
      rw [complete, if_pos hn]
      rcases Nat.lt_or_ge n (alignUp fmt.align r.length) with hlt | hge
      · -- the cut is in the padding behind the record
        have hle : ((serialize (r :: rs)).take n).length ≤ n := by
          rw [List.length_take]
          exact Nat.min_le_left _ _
        rw [Nat.sub_eq_zero_of_le (Nat.le_of_lt hlt), complete_zero]
        exact ⟨[start], _, .iterate hnext
          (.leave (next_of_not_fits (not_fits_of_stop_le (by omega)))), .cons hr .nil⟩
      · rw [take_serialize_cons hge] at h hnext ⊢
        have hrest := (holds_append.mp h).2
        rw [Record.length_padded] at hrest
        obtain ⟨visited, t, hruns, hvisited⟩ := ih hrest
        rw [List.length_append, Record.length_padded, ← Nat.add_assoc] at hnext ⊢
        exact ⟨start :: visited, t, .iterate hnext hruns, .cons hr hvisited⟩
    · rw [complete, if_neg hn]
      exact ⟨[], start, .leave (next_of_not_fits (mt hfits.mp hn)), .nil⟩

/-- The reader finds the complete ones of the records that have been received, in
order. -/
theorem positions_serialize {rs : List (Record fmt)} {n : ℕ}
    (h : Holds mem start ((serialize rs).take n)) :
    List.Forall₂ (fun pos r => Holds mem pos r.toBytes)
      (fmt.positions mem (start + ((serialize rs).take n).length) start) (complete n rs) := by
  obtain ⟨visited, t, hruns, hvisited⟩ := exists_runs_serialize h
  rwa [positions_eq hruns]

end Format

end Tlv

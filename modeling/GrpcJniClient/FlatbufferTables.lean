/-
Tables in the vendored flatbuffers writer.

`AddElement` and `AddOffset` put the fields of a table into the buffer and note
where they are; `EndTable` writes the vtable from the notes.  The fields that
were added are kept beside the builder as a list of `Entry`s, those with a
default value included, which are not stored.

* `Open` — a table under construction, with the fields added so far;
* `Closed` — a table with its vtable: every slot is that of a stored field, or
  zero;
* `addElement_does`, `addOffset_does`, `endTable_does` — what the operations do;
* `createTable_does` — the rule for a generated table builder;
* `Layout` — a finished buffer, and what the reader finds in each slot of its
  root table;
* `finish_does` — `Finish` ends with the layout of the fields that were added.
-/
import GrpcJniClient.FlatbufferBuilder
import Mathlib.Data.List.Nodup

namespace Flatbuffers

/-! ### A table under construction -/

/-- A field as it is added to a table: a scalar with its default, or a pointer
to the object at an offset. -/
inductive Entry where
  | scalar (n v default : ℕ)
  | pointer (off : ℕ)
  deriving DecidableEq, Repr

namespace Entry

/-- A scalar that is equal to its default is not stored. -/
def Stored : Entry → Prop
  | scalar _ v default => v ≠ default
  | pointer _ => True

def size : Entry → ℕ
  | scalar n _ _ => n
  | pointer _ => 4

/-- What is stored at the offset `loc`: a pointer is relative to its own place. -/
def word : Entry → ℕ → ℕ
  | scalar _ v _, _ => v
  | pointer off, loc => loc - off

/-- The entry is stored at the offset `loc`. -/
structure Placed (e : Entry) (buf : List UInt8) (loc : ℕ) : Prop where
  bytes : At buf loc (toLittleEndian e.size (e.word loc))
  aligned : loc % e.size = 0
  word_lt : e.word loc < 256 ^ e.size
  target : ∀ off, e = pointer off → 0 < off ∧ off < loc

theorem Placed.mono {e : Entry} {buf buf' : List UInt8} {loc : ℕ} (h : e.Placed buf loc)
    (hb : buf <:+ buf') : e.Placed buf' loc := ⟨h.bytes.mono hb, h.aligned, h.word_lt, h.target⟩

/-- The entry can be added to a table when the buffer has `len` bytes. -/
def Fits (len : ℕ) : Entry → Prop
  | scalar n v _ => ScalarSize n ∧ v < 256 ^ n
  | pointer off => 0 < off ∧ off ≤ len

theorem Fits.mono {e : Entry} {len len' : ℕ} (h : e.Fits len) (hle : len ≤ len') : e.Fits len' := by
  cases e with
  | scalar n v default => exact h
  | pointer off => exact ⟨h.1, Nat.le_trans h.2 hle⟩

end Entry

/-- What a slot of a vtable may be: even, behind the two sizes, and small. -/
def IsSlot (field : ℕ) : Prop := field % 2 = 0 ∧ 4 ≤ field ∧ field < 2 ^ 15

instance (field : ℕ) : Decidable (IsSlot field) :=
  inferInstanceAs (Decidable (_ ∧ _ ∧ _))

/-- Different slots, and not too many of them. -/
structure Slots (ids : List ℕ) : Prop where
  nodup : ids.Nodup
  few : ids.length ≤ 1000
  isSlot : ∀ field ∈ ids, IsSlot field

instance (ids : List ℕ) : Decidable (Slots ids) :=
  decidable_of_iff (ids.Nodup ∧ ids.length ≤ 1000 ∧ ∀ field ∈ ids, IsSlot field)
    ⟨fun ⟨hnodup, hfew, hslot⟩ => ⟨hnodup, hfew, hslot⟩, fun h => ⟨h.nodup, h.few, h.isSlot⟩⟩

/-- Since `StartTable` returned `start`, the fields `fields` have been added. -/
structure Open (start : ℕ) (fields : List (ℕ × Entry)) (b : Builder) : Prop where
  nested : b.nested = true
  unfinished : b.finished = false
  vtables : b.vtables = []
  minalign : ScalarSize b.minalign_
  start_le : start ≤ b.buf_.length
  length_le : b.buf_.length ≤ start + 16 * fields.length
  nodup : (fields.map Prod.fst).Nodup
  sound : ∀ fl ∈ b.fieldLocs, ∃ e, (fl.id, e) ∈ fields ∧ e.Stored ∧ e.Placed b.buf_ fl.off ∧
    start < fl.off ∧ ScalarSize e.size ∧ e.size ≤ b.minalign_
  complete : ∀ f ∈ fields, f.2.Stored → ∃ fl ∈ b.fieldLocs, fl.id = f.1
  slots : ∀ fl ∈ b.fieldLocs, IsSlot fl.id ∧ fl.id ≤ b.max_voffset_
  ids : (b.fieldLocs.map FieldLoc.id).Nodup
  max_voffset : b.max_voffset_ % 2 = 0 ∧ b.max_voffset_ < 2 ^ 15

private theorem nodup_append_singleton {α : Type} {l : List α} {a : α} (hl : l.Nodup)
    (ha : a ∉ l) : (l ++ [a]).Nodup := by
  rw [← List.concat_eq_append]
  exact hl.concat ha

namespace Open

variable {start id loc m : ℕ} {fields : List (ℕ × Entry)} {b : Builder} {e : Entry}
  {bytes : List UInt8}

/-- A field that is not stored leaves the builder as it is. -/
theorem skip (hO : Open start fields b) (hid : id ∉ fields.map Prod.fst) (he : ¬ e.Stored) :
    Open start (fields ++ [(id, e)]) b := by
  refine { hO with length_le := ?_, nodup := ?_, sound := ?_, complete := ?_ }
  · have := hO.length_le
    rw [List.length_append]
    omega
  · rw [List.map_append]
    exact nodup_append_singleton hO.nodup hid
  · intro fl hfl
    obtain ⟨e', hmem, h⟩ := hO.sound fl hfl
    exact ⟨e', List.mem_append_left _ hmem, h⟩
  · intro f hf hs
    rcases List.mem_append.mp hf with hf | hf
    · exact hO.complete f hf hs
    · obtain rfl := List.mem_singleton.mp hf
      exact absurd hs he

/-- A field that is stored at the offset `loc`, in front of what was there. -/
theorem add (hO : Open start fields b) (hid : id ∉ fields.map Prod.fst) (hslot : IsSlot id)
    (he : e.Stored) (hsize : ScalarSize e.size) (hlen : bytes.length ≤ 16)
    (hp : e.Placed (bytes ++ b.buf_) loc) (hloc : start < loc) :
    Open start (fields ++ [(id, e)]) { (b.tracked e.size).pushed bytes with
      fieldLocs := b.fieldLocs ++ [⟨loc, id⟩]
      max_voffset_ := max b.max_voffset_ id } := by
  -- the id is new, so no location has it
  have hnew : ∀ fl ∈ b.fieldLocs, fl.id ≠ id := by
    rintro fl hfl rfl
    obtain ⟨e', hmem, -⟩ := hO.sound fl hfl
    exact hid (List.mem_map_of_mem hmem)
  obtain ⟨heven, h4, hlt⟩ := hslot
  refine
    { nested := hO.nested
      unfinished := hO.unfinished
      vtables := hO.vtables
      minalign := hO.minalign.max hsize
      start_le := ?_
      length_le := ?_
      nodup := ?_
      sound := ?_
      complete := ?_
      slots := ?_
      ids := ?_
      max_voffset := ?_ }
  · have := hO.start_le
    show start ≤ (bytes ++ b.buf_).length
    rw [List.length_append]
    omega
  · have := hO.length_le
    show (bytes ++ b.buf_).length ≤ _
    rw [List.length_append, List.length_append]
    show bytes.length + b.buf_.length ≤ start + 16 * (fields.length + 1)
    omega
  · rw [List.map_append]
    exact nodup_append_singleton hO.nodup hid
  · intro fl hfl
    rcases List.mem_append.mp hfl with hfl | hfl
    · obtain ⟨e', hmem, hs, hp', hlt', hsize', hle⟩ := hO.sound fl hfl
      exact ⟨e', List.mem_append_left _ hmem, hs, hp'.mono (List.suffix_append _ _), hlt', hsize',
        Nat.le_trans hle (Nat.le_max_left _ _)⟩
    · obtain rfl := List.mem_singleton.mp hfl
      exact ⟨e, List.mem_append_right _ (List.mem_singleton_self _), he, hp, hloc, hsize,
        Nat.le_max_right _ _⟩
  · intro f hf hs
    rcases List.mem_append.mp hf with hf | hf
    · obtain ⟨fl, hfl, hfid⟩ := hO.complete f hf hs
      exact ⟨fl, List.mem_append_left _ hfl, hfid⟩
    · obtain rfl := List.mem_singleton.mp hf
      exact ⟨⟨loc, id⟩, List.mem_append_right _ (List.mem_singleton_self _), rfl⟩
  · intro fl hfl
    rcases List.mem_append.mp hfl with hfl | hfl
    · obtain ⟨hslot, hle⟩ := hO.slots fl hfl
      exact ⟨hslot, Nat.le_trans hle (Nat.le_max_left _ _)⟩
    · obtain rfl := List.mem_singleton.mp hfl
      exact ⟨⟨heven, h4, hlt⟩, Nat.le_max_right _ _⟩
  · show ((b.fieldLocs ++ [_]).map FieldLoc.id).Nodup
    rw [List.map_append]
    refine nodup_append_singleton hO.ids fun hmem => ?_
    obtain ⟨fl, hfl, hfid⟩ := List.mem_map.mp hmem
    exact hnew fl hfl hfid
  · obtain ⟨hmod, hmax⟩ := hO.max_voffset
    show max b.max_voffset_ id % 2 = 0 ∧ max b.max_voffset_ id < 2 ^ 15
    omega

end Open

namespace Builder

variable {b : Builder} {start id : ℕ} {fields : List (ℕ × Entry)}

theorem trackField_does (field off : ℕ) (h : b.buf_.length < maxBufferSize) :
    Does (trackField field off) b fun _ b' => b' = { b with
      fieldLocs := b.fieldLocs ++ [⟨off, field⟩]
      max_voffset_ := max b.max_voffset_ field } := by
  refine (ensureSpace_does h).bind ?_
  rintro _ _ rfl
  exact Does.of_modify rfl

/-- `AddElement` adds the field, or leaves it out where it has its default. -/
theorem addElement_does {n v : ℕ} (default : ℕ) (hO : Open start fields b) (hn : ScalarSize n)
    (hid : id ∉ fields.map Prod.fst) (hslot : IsSlot id) (hv : v < 256 ^ n)
    (h : b.buf_.length + 32 ≤ maxBufferSize) :
    Does (addElement n id v default) b fun _ b' =>
      Open start (fields ++ [(id, .scalar n v default)]) b' ∧ b.buf_ <:+ b'.buf_ := by
  by_cases hd : v = default
  · -- a default is left out
    rw [addElement, if_neg (not_not.mpr hd)]
    exact Does.of_pure ⟨hO.skip hid (not_not.mpr hd), List.suffix_refl _⟩
  · rw [addElement, if_pos hd]
    have hn8 : 0 < n ∧ n ≤ 8 := by rcases hn with rfl | rfl | rfl | rfl <;> omega
    refine (pushElement_does hn v (by omega)).bind ?_
    rintro loc _ ⟨hloc, hmod, pad, hpad, rfl⟩
    have hlen : ((b.tracked n).pushed (toLittleEndian n v ++ List.replicate pad 0)).buf_.length =
        n + pad + b.buf_.length := by
      rw [pushed_buf, tracked_buf, List.length_append, List.length_append, toLittleEndian_length,
        List.length_replicate]
    refine (trackField_does id loc (by omega)).mono ?_
    rintro _ _ rfl
    -- the value is put before the padding, and at the head of the buffer
    have hat : At (toLittleEndian n v ++ List.replicate pad 0 ++ b.buf_) loc
        (toLittleEndian n v) := by
      rw [hloc, pushed_buf, tracked_buf, List.append_assoc, List.length_append]
      exact At.pushed _ _
    have := hO.start_le
    refine ⟨hO.add (e := .scalar n v default) hid hslot hd hn ?_
      ⟨hat, hmod, hv, fun _ h => nomatch h⟩ (by omega), List.suffix_append _ _⟩
    rw [List.length_append, toLittleEndian_length, List.length_replicate]
    omega

/-- `ReferTo` gives what has to be written at the place aligned for it. -/
theorem referTo_does {off : ℕ} (hoff : 0 < off) (hle : off ≤ b.buf_.length)
    (h : b.buf_.length + 8 ≤ maxBufferSize) :
    Does (referTo off) b fun a b' => ∃ pad, pad < 4 ∧ (pad + b.buf_.length) % 4 = 0 ∧
      a = pad + b.buf_.length + 4 - off ∧ b' = (b.tracked 4).pushed (List.replicate pad 0) := by
  refine (align_does (.inr (.inr (.inl rfl))) (by omega)).bind ?_
  rintro _ _ ⟨pad, hpad, hmod, rfl⟩
  have hlen : ((b.tracked 4).pushed (List.replicate pad 0)).buf_.length = pad + b.buf_.length := by
    rw [pushed_buf, tracked_buf, List.length_append, List.length_replicate]
  refine (getSize_does (by omega)).bind ?_
  rintro _ _ ⟨rfl, rfl⟩
  rw [hlen]
  refine (Does.of_assert (Q := fun _ b' => b' = _)
    (decide_eq_true ⟨by omega, by omega⟩) rfl).bind ?_
  rintro _ _ rfl
  refine Does.of_pure ⟨pad, hpad, hmod, ?_, rfl⟩
  rw [maxBufferSize_eq] at h
  -- below the limit the subtraction does not wrap
  rw [uoffsetSub]
  omega

theorem pushed_tracked_pushed (n : ℕ) (xs ys : List UInt8) :
    (((b.tracked n).pushed xs).tracked n).pushed ys = (b.tracked n).pushed (ys ++ xs) := by
  simp only [pushed, tracked, List.append_assoc, Nat.max_assoc, Nat.max_self]

/-- `AddOffset` adds a pointer to an object that is in the buffer. -/
theorem addOffset_does {off : ℕ} (hO : Open start fields b) (hid : id ∉ fields.map Prod.fst)
    (hslot : IsSlot id) (hoff : 0 < off) (hle : off ≤ b.buf_.length)
    (h : b.buf_.length + 32 ≤ maxBufferSize) :
    Does (addOffset id off) b fun _ b' =>
      Open start (fields ++ [(id, .pointer off)]) b' ∧ b.buf_ <:+ b'.buf_ := by
  rw [addOffset, if_pos (by omega)]
  refine (referTo_does hoff hle (by omega)).bind ?_
  rintro v _ ⟨pad, hpad, hmod, hv, rfl⟩
  have hlen : ((b.tracked 4).pushed (List.replicate pad 0)).buf_.length = pad + b.buf_.length := by
    rw [pushed_buf, tracked_buf, List.length_append, List.length_replicate]
  rw [addElement, if_pos (by omega)]
  refine (pushElement_does (.inr (.inr (.inl rfl))) v (by omega)).bind ?_
  rintro loc _ ⟨hloc, hlmod, pad', hpad', rfl⟩
  rw [pushed_tracked_pushed] at hloc ⊢
  have hlen' : ((b.tracked 4).pushed (toLittleEndian 4 v ++ List.replicate pad' 0 ++
      List.replicate pad 0)).buf_.length = 4 + pad' + (pad + b.buf_.length) := by
    rw [pushed_buf, tracked_buf, List.append_assoc, List.length_append, List.length_append,
      List.length_append, toLittleEndian_length, List.length_replicate, List.length_replicate]
  -- the place is aligned already, so the offset is that of the element itself
  have hword : v = loc - off := by omega
  rw [maxBufferSize_eq] at h
  refine (trackField_does id loc (by rw [hlen', maxBufferSize_eq]; omega)).mono ?_
  rintro _ _ rfl
  have hat : At (toLittleEndian 4 v ++ List.replicate pad' 0 ++ List.replicate pad 0 ++ b.buf_) loc
      (toLittleEndian 4 v) := by
    rw [hloc, pushed_buf, tracked_buf, List.append_assoc, List.append_assoc, List.length_append]
    exact At.pushed _ _
  have hp : (Entry.pointer off).Placed
      (toLittleEndian 4 v ++ List.replicate pad' 0 ++ List.replicate pad 0 ++ b.buf_) loc := by
    refine ⟨?_, hlmod, ?_, ?_⟩
    · show At _ loc (toLittleEndian 4 (loc - off))
      rwa [← hword]
    · show loc - off < 256 ^ 4
      omega
    · rintro off' heq
      obtain rfl := Entry.pointer.inj heq
      omega
  have hstart := hO.start_le
  refine ⟨hO.add hid hslot trivial (.inr (.inr (.inl rfl))) ?_ hp (by omega), ?_⟩
  · rw [List.length_append, List.length_append, toLittleEndian_length, List.length_replicate,
      List.length_replicate]
    omega
  · exact List.suffix_append _ _

/-- `StartTable` opens a table without fields. -/
theorem startTable_does (hb : Ready b) (h : b.buf_.length ≤ maxBufferSize) :
    Does startTable b fun start b' => Open start [] b' ∧ b'.buf_ = b.buf_ := by
  refine (notNested_does hb).bind ?_
  rintro _ b rfl
  refine (Does.of_modify (Q := fun _ b' => b' = { b with nested := true }) rfl).bind ?_
  rintro _ _ rfl
  refine (getSize_does (b := { b with nested := true }) h).mono ?_
  rintro _ _ ⟨rfl, rfl⟩
  have hlocs : ∀ fl, fl ∉ b.fieldLocs := by
    rw [hb.fieldLocs]
    exact fun _ => List.not_mem_nil
  refine ⟨?_, rfl⟩
  exact
    { nested := rfl
      unfinished := hb.unfinished
      vtables := hb.vtables
      minalign := hb.minalign
      start_le := Nat.le_refl _
      length_le := Nat.le_refl _
      nodup := List.nodup_nil
      sound := fun fl hfl => absurd hfl (hlocs fl)
      complete := fun _ hf => absurd hf List.not_mem_nil
      slots := fun fl hfl => absurd hfl (hlocs fl)
      ids := by
        show (b.fieldLocs.map FieldLoc.id).Nodup
        rw [hb.fieldLocs]
        exact List.nodup_nil
      max_voffset := by
        show b.max_voffset_ % 2 = 0 ∧ b.max_voffset_ < 2 ^ 15
        rw [hb.max_voffset]
        decide }

/-- The loop over the field locations fills the slots of the vtable `V` at the
head of the buffer: each field its own, and no other. -/
theorem writeFieldLocs_does {table : ℕ} {fls : List FieldLoc} {V rest : List UInt8}
    (hbuf : b.buf_ = V ++ rest) (hids : (fls.map FieldLoc.id).Nodup)
    (hslots : ∀ fl ∈ fls, fl.id % 2 = 0 ∧ fl.id + 2 ≤ V.length)
    (hzero : ∀ fl ∈ fls, readScalar 2 V fl.id = .ok 0) :
    Does (writeFieldLocs table fls) b fun _ b' => ∃ V', b' = { b with buf_ := V' ++ rest } ∧
      V'.length = V.length ∧
      (∀ fl ∈ fls, readScalar 2 V' fl.id = .ok (uoffsetSub table fl.off % 256 ^ 2)) ∧
      ∀ q, q % 2 = 0 → q ∉ fls.map FieldLoc.id → readScalar 2 V' q = readScalar 2 V q := by
  induction fls generalizing b V with
  | nil =>
    refine Does.of_pure ⟨V, ?_, rfl, fun fl hfl => absurd hfl List.not_mem_nil, fun _ _ _ => rfl⟩
    rw [← hbuf]
  | cons fl fls ih =>
    obtain ⟨heven, hfit⟩ := hslots fl List.mem_cons_self
    rw [List.map_cons, List.nodup_cons] at hids
    -- the assertion: no slot is set twice
    have hread : readScalar 2 b.buf_ fl.id = .ok 0 := by
      rw [hbuf, readScalar_append rest hfit]
      exact hzero fl List.mem_cons_self
    refine (Does.of_assert (Q := fun _ b' => b' = b) (decide_eq_true hread) rfl).bind ?_
    rintro _ b rfl
    refine (Does.of_modify (Q := fun _ b' => b' = { b with
      buf_ := writeScalar 2 b.buf_ fl.id (uoffsetSub table fl.off) }) rfl).bind ?_
    rintro _ _ rfl
    set V₁ := writeScalar 2 V fl.id (uoffsetSub table fl.off) with hV₁
    have hlen : V₁.length = V.length := writeScalar_length hfit
    -- the other slots are even, so the write leaves them as they were
    have hother : ∀ q, q % 2 = 0 → q ≠ fl.id → readScalar 2 V₁ q = readScalar 2 V q :=
      fun q hq hne => readScalar_writeScalar_of_disjoint hfit (by omega)
    have hne : ∀ fl' ∈ fls, fl'.id ≠ fl.id := by
      intro fl' hfl' heq
      exact hids.1 (heq ▸ List.mem_map_of_mem hfl')
    refine (ih (b := { b with buf_ := writeScalar 2 b.buf_ fl.id (uoffsetSub table fl.off) })
      (V := V₁) ?_ hids.2 ?_ ?_).mono ?_
    · show writeScalar 2 b.buf_ fl.id _ = _
      rw [hbuf, writeScalar_append hfit]
    · intro fl' hfl'
      rw [hlen]
      exact hslots fl' (List.mem_cons_of_mem _ hfl')
    · intro fl' hfl'
      rw [hother _ (hslots fl' (List.mem_cons_of_mem _ hfl')).1 (hne fl' hfl')]
      exact hzero fl' (List.mem_cons_of_mem _ hfl')
    · rintro _ _ ⟨V', rfl, hlen', hset, hkeep⟩
      refine ⟨V', rfl, hlen'.trans hlen, ?_, ?_⟩
      · intro fl' hfl'
        rcases List.mem_cons.mp hfl' with rfl | hfl'
        · rw [hkeep _ heven hids.1]
          exact readScalar_writeScalar hfit
        · exact hset fl' hfl'
      · intro q hq hmem
        rw [List.map_cons, List.mem_cons, not_or] at hmem
        rw [hkeep q hq hmem.2, hother q hq hmem.1]

/-- A vtable that is the first one is remembered, and the table points to it. -/
theorem useVtable_does {table : ℕ} {V : List UInt8} (bytes : List UInt8) (hv : b.vtables = [])
    (hbuf : b.buf_ = V ++ (toLittleEndian 4 0 ++ bytes)) (htable : table = 4 + bytes.length)
    (h : b.buf_.length < maxBufferSize) :
    Does (useVtable table V.length) b fun _ b' => b' = { b with
      vtables := [b.buf_.length]
      buf_ := V ++ (toLittleEndian 4 V.length ++ bytes) } := by
  -- no vtable before this one could be shared
  have hnone : findVtable b V.length = none := by
    rw [findVtable, hv]
    rfl
  have hlen : b.buf_.length = V.length + table := by
    rw [hbuf, List.length_append, List.length_append, toLittleEndian_length, htable]
  refine Does.get_bind ?_
  rw [hnone]
  refine (getSize_does (by omega)).bind ?_
  rintro _ b ⟨rfl, rfl⟩
  refine (ensureSpace_does h).bind ?_
  rintro _ b rfl
  refine Does.of_modify ?_
  have hsub : uoffsetSub b.buf_.length table = V.length := by
    rw [maxBufferSize_eq] at h
    rw [uoffsetSub]
    omega
  have hpos : b.buf_.length - table = V.length := by omega
  have hwrite : writeScalar 4 b.buf_ V.length V.length =
      V ++ (toLittleEndian 4 V.length ++ bytes) := by
    have hdrop : (V ++ (toLittleEndian 4 0 ++ bytes)).drop (V.length + 4) = bytes := by
      rw [← List.append_assoc, List.drop_left' (by rw [List.length_append, toLittleEndian_length])]
    rw [hbuf, writeScalar, List.take_left, hdrop, List.append_assoc]
  rw [hsub, hpos, hwrite, hv]
  rfl

/-- The entry of `field` is stored at `loc` in the table at `table`, and the slot
of its vtable `V` says so. -/
structure SlotAt (fields : List (ℕ × Entry)) (V buf : List UInt8) (table minalign field loc : ℕ)
    (e : Entry) : Prop where
  mem : (field, e) ∈ fields
  stored : e.Stored
  placed : e.Placed buf loc
  loc_lt : loc < table
  size : ScalarSize e.size
  size_le : e.size ≤ minalign
  slot_lt : field < V.length
  slot : readScalar 2 V field = .ok (table - loc)

/-- The field is not stored, and its slot, where the vtable has one, is zero. -/
def SlotEmpty (fields : List (ℕ × Entry)) (V : List UInt8) (field : ℕ) : Prop :=
  (∀ e, (field, e) ∈ fields → ¬ e.Stored) ∧
    (field < V.length → readScalar 2 V field = .ok 0)

/-- A finished table at `table` with the fields `fields`. -/
structure Closed (fields : List (ℕ × Entry)) (table : ℕ) (b : Builder) : Prop where
  nested : b.nested = false
  unfinished : b.finished = false
  fieldLocs : b.fieldLocs = []
  minalign : ScalarSize b.minalign_ ∧ 4 ≤ b.minalign_
  aligned : table % 4 = 0
  vtable : ∃ V, V.length % 2 = 0 ∧ 4 ≤ V.length ∧ V.length < 2 ^ 15 + 4 ∧
    At b.buf_ (V.length + table) (V ++ toLittleEndian 4 V.length) ∧
    readScalar 2 V 0 = .ok V.length ∧
    ∀ field, IsSlot field →
      (∃ loc e, SlotAt fields V b.buf_ table b.minalign_ field loc e) ∨ SlotEmpty fields V field

/-- A vtable as the two sizes and the field locations of an open table fill it. -/
structure FilledBy (V : List UInt8) (table : ℕ) (b : Builder) : Prop where
  length : V.length = max (b.max_voffset_ + 2) 4
  size : readScalar 2 V 0 = .ok V.length
  set : ∀ fl ∈ b.fieldLocs, readScalar 2 V fl.id = .ok (uoffsetSub table fl.off % 256 ^ 2)
  zero : ∀ field, IsSlot field → field < V.length → field ∉ b.fieldLocs.map FieldLoc.id →
    readScalar 2 V field = .ok 0

/-- The filled vtable agrees with the fields of the table. -/
theorem FilledBy.slot {V buf : List UInt8} {table minalign field : ℕ} (hV : FilledBy V table b)
    (hO : Open start fields b) (hbuf : b.buf_ <:+ buf) (halign : b.minalign_ ≤ minalign)
    (htable : b.buf_.length < table) (hsmall : table < start + 2 ^ 16) (hslot : IsSlot field) :
    (∃ loc e, SlotAt fields V buf table minalign field loc e) ∨ SlotEmpty fields V field := by
  -- the field has a location, or was left out
  by_cases hloc : field ∈ b.fieldLocs.map FieldLoc.id
  · obtain ⟨fl, hfl, rfl⟩ := List.mem_map.mp hloc
    obtain ⟨e, hmem, hs, hp, hstart, hsize, hle⟩ := hO.sound fl hfl
    obtain ⟨-, hmax⟩ := hO.slots fl hfl
    have hoff := hp.bytes.le.2
    have hlen := hV.length
    refine .inl ⟨fl.off, e, hmem, hs, hp.mono hbuf, by omega, hsize, Nat.le_trans hle halign,
      by omega, ?_⟩
    rw [hV.set fl hfl, uoffsetSub]
    congr 1
    omega
  · refine .inr ⟨fun e hmem hs => ?_, fun hlt => hV.zero field hslot hlt hloc⟩
    obtain ⟨fl, hfl, hid⟩ := hO.complete _ hmem hs
    exact hloc (List.mem_map.mpr ⟨fl, hfl, hid⟩)

/-- A vtable with its two sizes, and zeros for the slots. -/
def sizedVtable (size tableObjectSize : ℕ) : List UInt8 :=
  writeScalar 2 (writeScalar 2 (List.replicate size 0) 2 tableObjectSize) 0 size

section

variable {size n table : ℕ}

/-- The zeros with the first of the sizes. -/
theorem length_writeScalar_zeros (h : 4 ≤ size) :
    (writeScalar 2 (List.replicate size (0 : UInt8)) 2 n).length = size := by
  have hzeros : (List.replicate size (0 : UInt8)).length = size := List.length_replicate
  exact (writeScalar_length (by omega)).trans hzeros

theorem length_sizedVtable (h : 4 ≤ size) : (sizedVtable size n).length = size := by
  have hwrite := length_writeScalar_zeros (n := n) h
  exact (writeScalar_length (by omega)).trans hwrite

theorem sizedVtable_size (h : 4 ≤ size) (hlt : size < 2 ^ 16) :
    readScalar 2 (sizedVtable size n) 0 = .ok size := by
  have hwrite := length_writeScalar_zeros (n := n) h
  rw [sizedVtable, readScalar_writeScalar (by omega), Nat.mod_eq_of_lt (by omega)]

theorem sizedVtable_slot {q : ℕ} (hq : 4 ≤ q) (hfit : q + 2 ≤ size) :
    readScalar 2 (sizedVtable size n) q = .ok 0 := by
  have hzeros : (List.replicate size (0 : UInt8)).length = size := List.length_replicate
  have hsize : 4 ≤ size := by omega
  have hwrite := length_writeScalar_zeros (n := n) hsize
  rw [sizedVtable, readScalar_writeScalar_of_disjoint (by omega) (.inr (by omega)),
    readScalar_writeScalar_of_disjoint (by omega) (.inr (by omega))]
  exact readScalar_zeros hfit

/-- The part of `EndTable` that makes room for the vtable and writes its two sizes, in front
of what follows it. -/
theorem sizes_bind {α : Type} {rest : Building α} {Q : α → Builder → Prop} (h4 : 4 ≤ size)
    (hfits : b.buf_.length + size < maxBufferSize) (hn : n < 0x10000)
    (hrest : Does rest { b with buf_ := sizedVtable size n ++ b.buf_ } Q) :
    Does (do
      fill size
      assert fun _ => n < 0x10000
      modify fun b => { b with buf_ := writeScalar 2 b.buf_ 2 n }
      modify fun b => { b with buf_ := writeScalar 2 b.buf_ 0 size }
      rest) b Q := by
  have hlength : (List.replicate size (0 : UInt8)).length = size := List.length_replicate
  refine (push_does (List.replicate size 0) (by omega)).bind ?_
  rintro _ d hd
  refine (Does.of_assert (Q := fun _ b' => b' = d) (decide_eq_true hn) rfl).bind ?_
  rintro _ d rfl
  refine (Does.of_modify (Q := fun _ b' => b' = { d with
    buf_ := writeScalar 2 d.buf_ 2 n }) rfl).bind ?_
  rintro _ _ rfl
  refine (Does.of_modify (Q := fun _ b' => b' = { d with
    buf_ := writeScalar 2 (writeScalar 2 d.buf_ 2 n) 0 size }) rfl).bind ?_
  rintro _ f rfl
  -- both sizes are written into the zeros, not behind them
  have hwrite := length_writeScalar_zeros (n := n) h4
  rw [hd, pushed_buf, writeScalar_append (by omega), writeScalar_append (by omega)]
  exact hrest

/-- The part of `EndTable` that fills the slots of the vtable and lets the table point to it;
`b` is the builder with the open table, `c` that with the table's own pointer. -/
theorem fillSlots_does {c : Builder} {bytes : List UInt8} (hO : Open start fields b)
    (hsize : size = max (b.max_voffset_ + 2) 4) (hlocs : c.fieldLocs = b.fieldLocs)
    (hvtables : c.vtables = []) (hcbuf : c.buf_ = toLittleEndian 4 0 ++ bytes)
    (htable : table = 4 + bytes.length) (hfits : size + c.buf_.length < maxBufferSize) :
    Does (do
      writeFieldLocs table (← get).fieldLocs
      modify fun b => { b with fieldLocs := [], max_voffset_ := 0 }
      useVtable table size
      modify fun b => { b with nested := false }
      return table) { c with buf_ := sizedVtable size n ++ c.buf_ } fun table' b' =>
        table' = table ∧ ∃ V, FilledBy V table b ∧
        b'.buf_ = V ++ (toLittleEndian 4 V.length ++ bytes) ∧ b'.nested = false ∧
        b'.finished = c.finished ∧ b'.fieldLocs = [] ∧ b'.minalign_ = c.minalign_ := by
  obtain ⟨hmaxEven, hmaxLt⟩ := hO.max_voffset
  have hlen : (sizedVtable size n).length = size := length_sizedVtable (by omega)
  refine Does.get_bind ?_
  rw [hlocs]
  refine (writeFieldLocs_does rfl hO.ids ?_ ?_).bind ?_
  · intro fl hfl
    obtain ⟨⟨heven, -, -⟩, hle⟩ := hO.slots fl hfl
    exact ⟨heven, by omega⟩
  · intro fl hfl
    obtain ⟨⟨heven, h4, -⟩, hle⟩ := hO.slots fl hfl
    exact sizedVtable_slot h4 (by omega)
  rintro _ _ ⟨V, rfl, hVlen, hset, hkeep⟩
  refine (Does.of_modify (Q := fun _ b' => b' = { c with
    buf_ := V ++ c.buf_, fieldLocs := [], max_voffset_ := 0 }) rfl).bind ?_
  rintro _ g hg
  have hVsize : size = V.length := by omega
  rw [hVsize]
  refine (useVtable_does (b := g) bytes ?_ ?_ htable ?_).bind ?_
  · rw [hg]
    exact hvtables
  · rw [hg, hcbuf]
  · rw [hg]
    show (V ++ c.buf_).length < _
    rw [List.length_append]
    omega
  rintro _ _ rfl
  refine (Does.of_modify (Q := fun _ b' => b'.buf_ = V ++ (toLittleEndian 4 V.length ++ bytes) ∧
    b'.nested = false ∧ b'.finished = c.finished ∧ b'.fieldLocs = [] ∧
    b'.minalign_ = c.minalign_) ?_).bind ?_
  · rw [hg]
    exact ⟨rfl, rfl, rfl, rfl, rfl⟩
  rintro _ b' hb'
  refine Does.of_pure ⟨rfl, V, ⟨by omega, ?_, hset, ?_⟩, hb'⟩
  · -- no field has the slot of the vtable's own size
    rw [hkeep 0 rfl ?_, sizedVtable_size (by omega) (by omega), hVsize]
    intro hmem
    obtain ⟨fl, hfl, hid⟩ := List.mem_map.mp hmem
    have := (hO.slots fl hfl).1.2.1
    omega
  · rintro field ⟨heven, h4, -⟩ hlt hmem
    rw [hkeep field heven hmem]
    exact sizedVtable_slot h4 (by omega)

end

/-- What `EndTable` writes in front of the fields. -/
theorem endTable_writes (hO : Open start fields b) (hfields : fields.length ≤ 1000)
    (h : b.buf_.length + 2 ^ 15 + 20 ≤ maxBufferSize) :
    Does (endTable start) b fun table b' => ∃ V pad, FilledBy V table b ∧ pad < 4 ∧
      table = 4 + (pad + b.buf_.length) ∧ table % 4 = 0 ∧
      b'.buf_ = V ++ (toLittleEndian 4 V.length ++ (List.replicate pad 0 ++ b.buf_)) ∧
      b'.nested = false ∧ b'.finished = false ∧ b'.fieldLocs = [] ∧
      b'.minalign_ = max b.minalign_ 4 := by
  obtain ⟨hmaxEven, hmaxLt⟩ := hO.max_voffset
  have hlength := hO.length_le
  have hstart := hO.start_le
  have hM := maxBufferSize_eq
  refine (Does.of_assert (Q := fun _ b' => b' = b) hO.nested rfl).bind ?_
  rintro _ b rfl
  refine (pushElement_does (.inr (.inr (.inl rfl))) 0 (by omega)).bind ?_
  rintro table c ⟨htable, halign, pad, hpad, hc⟩
  have hcbuf : c.buf_ = toLittleEndian 4 0 ++ (List.replicate pad 0 ++ b.buf_) := by
    rw [hc, pushed_buf, tracked_buf, List.append_assoc]
  have hclen : c.buf_.length = 4 + (pad + b.buf_.length) := by
    rw [hcbuf, List.length_append, toLittleEndian_length, List.length_append, List.length_replicate]
  refine Does.get_bind ?_
  have hsize : max ((c.max_voffset_ + 2) % 2 ^ 16) (fieldIndexToOffset 0) =
      max (b.max_voffset_ + 2) 4 := by
    have hcmax : c.max_voffset_ = b.max_voffset_ := by rw [hc]; rfl
    rw [hcmax, Nat.mod_eq_of_lt (by omega)]
    rfl
  rw [hsize]
  -- the assertion on the size of the table
  have hobject : uoffsetSub table start < 0x10000 := by
    rw [uoffsetSub]
    omega
  refine sizes_bind (by omega) (by omega) hobject ?_
  refine (fillSlots_does hO rfl (by rw [hc]; rfl) (by rw [hc]; exact hO.vtables) hcbuf
    (by rw [List.length_append, List.length_replicate]; omega) (by omega)).mono ?_
  rintro _ b' ⟨rfl, V, hV, hbuf, hnested, hfin, hlocs, hmin⟩
  refine ⟨V, pad, hV, hpad, by omega, halign, hbuf, hnested, ?_, hlocs, ?_⟩
  · rw [hfin, hc]
    exact hO.unfinished
  · rw [hmin, hc]
    rfl

/-- `EndTable` closes the table, when it is the first of the buffer. -/
theorem endTable_does (hO : Open start fields b) (hfields : fields.length ≤ 1000)
    (h : b.buf_.length + 2 ^ 15 + 20 ≤ maxBufferSize) :
    Does (endTable start) b fun table b' => Closed fields table b' ∧ b.buf_ <:+ b'.buf_ ∧
      b'.buf_.length ≤ b.buf_.length + 2 ^ 15 + 11 := by
  refine (endTable_writes hO hfields h).mono ?_
  rintro table b' ⟨V, pad, hV, hpad, htable, halign, hbuf, hnested, hfin, hlocs, hmin⟩
  obtain ⟨hmaxEven, hmaxLt⟩ := hO.max_voffset
  have hlength := hO.length_le
  have hVlen := hV.length
  rw [maxBufferSize_eq] at h
  -- the fields stay behind what is written
  have hsuffix : b.buf_ <:+ b'.buf_ := by
    rw [hbuf]
    exact ((List.suffix_append _ _).trans (List.suffix_append _ _)).trans (List.suffix_append _ _)
  have hlen : b'.buf_.length = V.length + table := by
    rw [hbuf, htable]
    simp only [List.length_append, toLittleEndian_length, List.length_replicate]
  refine ⟨⟨hnested, hfin, hlocs, ?_, halign, V, by omega, by omega, by omega, ?_, hV.size, ?_⟩,
    hsuffix, by omega⟩
  · rw [hmin]
    exact ⟨hO.minalign.max (.inr (.inr (.inl rfl))), Nat.le_max_right _ _⟩
  · refine ⟨List.replicate pad 0 ++ b.buf_, ?_, ?_⟩
    · rw [hbuf, List.append_assoc]
    · simp only [List.length_append, toLittleEndian_length, List.length_replicate]
      omega
  · intro field hslot
    refine hV.slot hO hsuffix ?_ (by omega) (by omega) hslot
    rw [hmin]
    exact Nat.le_max_left _ _

/-! ### A table from its fields -/

/-- The call that adds a field. -/
def addEntry : ℕ × Entry → Building Unit
  | (field, .scalar n v default) => addElement n field v default
  | (field, .pointer off) => addOffset field off

/-- The calls that add the fields, one after another. -/
def addEntries : List (ℕ × Entry) → Building Unit
  | [] => return
  | p :: ps => do
      addEntry p
      addEntries ps

/-- What a generated table builder does: `StartTable`, the calls that add the
fields, in their order, and `EndTable`. -/
def createTable (fields : List (ℕ × Entry)) : Building ℕ := do
  let start ← startTable
  addEntries fields
  endTable start

theorem addEntry_does {p : ℕ × Entry} (hO : Open start fields b)
    (hid : p.1 ∉ fields.map Prod.fst) (hslot : IsSlot p.1) (hp : p.2.Fits b.buf_.length)
    (h : b.buf_.length + 32 ≤ maxBufferSize) :
    Does (addEntry p) b fun _ b' => Open start (fields ++ [p]) b' ∧ b.buf_ <:+ b'.buf_ := by
  obtain ⟨field, e⟩ := p
  cases e with
  | scalar n v default => exact addElement_does default hO hp.1 hid hslot hp.2 h
  | pointer off => exact addOffset_does hO hid hslot hp.1 hp.2 h

theorem addEntries_does {ps : List (ℕ × Entry)} (hO : Open start fields b)
    (hs : Slots ((fields ++ ps).map Prod.fst)) (hps : ∀ p ∈ ps, p.2.Fits b.buf_.length)
    (h : start + 16 * (fields ++ ps).length + 32 ≤ maxBufferSize) :
    Does (addEntries ps) b fun _ b' => Open start (fields ++ ps) b' ∧ b.buf_ <:+ b'.buf_ := by
  induction ps generalizing fields b with
  | nil =>
    rw [List.append_nil]
    exact Does.of_pure ⟨hO, List.suffix_refl _⟩
  | cons p ps ih =>
    have hlength := hO.length_le
    -- the slots of all the fields differ, so this one is new
    have hid : p.1 ∉ fields.map Prod.fst := by
      have hnd := hs.nodup
      rw [List.map_append, List.map_cons] at hnd
      exact fun hmem => (List.nodup_append.mp hnd).2.2 _ hmem _ List.mem_cons_self rfl
    have hslot : IsSlot p.1 :=
      hs.isSlot _ (List.mem_map_of_mem (List.mem_append_right _ List.mem_cons_self))
    have happ : fields ++ p :: ps = fields ++ [p] ++ ps := by
      rw [List.append_assoc, List.singleton_append]
    rw [List.length_append, List.length_cons] at h
    refine (addEntry_does hO hid hslot (hps p List.mem_cons_self) (by omega)).bind ?_
    rintro _ c ⟨hO', hsuffix⟩
    rw [happ] at hs ⊢
    refine (ih hO' hs ?_ ?_).mono fun _ c' ⟨hO'', hsuffix'⟩ => ⟨hO'', hsuffix.trans hsuffix'⟩
    · exact fun q hq => (hps q (List.mem_cons_of_mem _ hq)).mono hsuffix.length_le
    · rw [List.length_append, List.length_append, List.length_singleton]
      omega

/-- The rule for a generated table builder. -/
theorem createTable_does (hb : Ready b) (hs : Slots (fields.map Prod.fst))
    (hfields : ∀ p ∈ fields, p.2.Fits b.buf_.length) (h : b.buf_.length + 2 ^ 16 ≤ maxBufferSize) :
    Does (createTable fields) b fun table b' => Closed fields table b' ∧ b.buf_ <:+ b'.buf_ ∧
      b'.buf_.length + 40 ≤ maxBufferSize := by
  have hmany : fields.length ≤ 1000 := by simpa using hs.few
  refine (startTable_does hb (by omega)).bind ?_
  rintro start c ⟨hO, hbuf⟩
  rw [← hbuf] at hfields h ⊢
  have hstart := hO.start_le
  refine (addEntries_does hO hs hfields (by rw [List.nil_append]; omega)).bind ?_
  rintro _ d ⟨hO', hsuffix⟩
  rw [List.nil_append] at hO'
  have hlength := hO'.length_le
  refine (endTable_does hO' hmany (by omega)).mono ?_
  rintro table b' ⟨hC, hsuffix', hlen⟩
  exact ⟨hC, hsuffix.trans hsuffix', by omega⟩

end Builder

/-! ### A finished buffer -/

/-- The entry is read at the address `p` as it was added. -/
structure Entry.ReadAt (e : Entry) (buf : List UInt8) (p : ℕ) : Prop where
  size : ScalarSize e.size
  aligned : p % e.size = 0
  fits : p + e.size ≤ buf.length
  value : readScalar e.size buf p = .ok (e.word (buf.length - p))
  target : ∀ off, e = .pointer off → 0 < off ∧ off + p < buf.length

/-- A finished buffer and its root table, whose fields are those that were
added. -/
structure Layout (fields : List (ℕ × Entry)) (buf : List UInt8) (table vtable vsize : ℕ) :
    Prop where
  verified : VerifiedTable buf table vtable vsize
  root : getRoot buf = .ok table
  length_lt : buf.length < maxBufferSize
  length_mod : buf.length % 4 = 0
  table_mod : table % 4 = 0
  table_le : table + 4 ≤ buf.length
  soffset_eq : readScalar 4 buf table = .ok vsize
  vsize_lt : 4 ≤ vsize ∧ vsize < 2 ^ 31
  vtable_add : vtable + vsize = table
  vtable_ge : 4 ≤ vtable
  slot : ∀ field, IsSlot field →
    (∃ e o, (field, e) ∈ fields ∧ getOptionalFieldOffset buf table field = .ok o ∧ o ≠ 0 ∧
      e.ReadAt buf (table + o)) ∨
    ((∀ e, (field, e) ∈ fields → ¬ e.Stored) ∧ getOptionalFieldOffset buf table field = .ok 0)

namespace Builder

variable {b : Builder} {fields : List (ℕ × Entry)} {table : ℕ}

/-- What `Finish` writes: the address of the root, and padding up to the largest
alignment. -/
theorem finish_writes (hb : Closed fields table b) (hpos : 0 < table)
    (hle : table ≤ b.buf_.length) (h : b.buf_.length + 40 ≤ maxBufferSize) :
    Does (finish table) b fun _ b' => ∃ pad, pad < 8 ∧
      (4 + (pad + b.buf_.length)) % b.minalign_ = 0 ∧
      b'.buf_ = toLittleEndian 4 (4 + (pad + b.buf_.length) - table) ++
        (List.replicate pad 0 ++ b.buf_) := by
  obtain ⟨hmin, hmin4⟩ := hb.minalign
  have hmin8 : b.minalign_ ≤ 8 := by rcases hmin with h | h | h | h <;> omega
  -- the largest alignment is a multiple of four
  have h4 : ∀ x, x % b.minalign_ = 0 → x % 4 = 0 := fun x hx =>
    Nat.mod_eq_zero_of_dvd (Nat.dvd_trans
      (ScalarSize.dvd_of_le (.inr (.inr (.inl rfl))) hmin hmin4) (Nat.dvd_of_mod_eq_zero hx))
  refine (Does.of_assert (Q := fun _ b' => b' = b) (by rw [hb.unfinished]; rfl) rfl).bind ?_
  rintro _ b rfl
  refine (Does.bind (Q := fun _ b' => b' = b) ?_ ?_)
  · refine (Does.of_assert (Q := fun _ b' => b' = b) (by rw [hb.nested]; rfl) rfl).bind ?_
    rintro _ b rfl
    exact Does.of_assert (by rw [hb.fieldLocs]; rfl) rfl
  rintro _ b rfl
  refine (Does.of_modify (Q := fun _ b' => b' = { b with vtables := [] }) rfl).bind ?_
  rintro _ c hc
  have hcbuf : c.buf_ = b.buf_ := by rw [hc]
  have hcmin : c.minalign_ = b.minalign_ := by rw [hc]
  have hclen : c.buf_.length = b.buf_.length := by rw [hcbuf]
  refine Does.get_bind ?_
  rw [hcmin]
  refine (preAlign_does hmin (by omega) (by omega) (by omega)).bind ?_
  rintro _ d ⟨pad, hpad, hmod, hd⟩
  have hdbuf : d.buf_ = List.replicate pad 0 ++ b.buf_ := by
    rw [hd, pushed_buf, tracked_buf, hcbuf]
  have hdlen : d.buf_.length = pad + b.buf_.length := by
    rw [hdbuf, List.length_append, List.length_replicate]
  have hmod' : (4 + (pad + b.buf_.length)) % b.minalign_ = 0 := by
    rw [← hmod, hclen]
    congr 1
    omega
  have hmod4 := h4 _ hmod'
  refine (referTo_does hpos (by omega) (by omega)).bind ?_
  rintro v f ⟨pad₁, hpad₁, hmod₁, hv, hf⟩
  -- the length is aligned already, so nothing more is padded
  obtain rfl : pad₁ = 0 := by omega
  have hfbuf : f.buf_ = d.buf_ := by rw [hf]; rfl
  have hflen : f.buf_.length = d.buf_.length := by rw [hfbuf]
  refine (pushElement_does (.inr (.inr (.inl rfl))) v (by omega)).bind ?_
  rintro a g ⟨ha, hgmod, pad₂, hpad₂, hg⟩
  have hglen : g.buf_.length = 4 + pad₂ + f.buf_.length := by
    rw [hg, pushed_buf, tracked_buf, List.length_append, List.length_append, toLittleEndian_length,
      List.length_replicate]
  rw [ha] at hgmod
  obtain rfl : pad₂ = 0 := by omega
  refine Does.of_modify ⟨pad, by omega, hmod', ?_⟩
  show g.buf_ = _
  rw [hg, pushed_buf, tracked_buf, hfbuf, hdbuf, List.replicate_zero, List.append_nil]
  congr 2
  omega

/-- In what is finished the entry is read as it was added. -/
theorem SlotAt.readAt {V buf : List UInt8} {minalign field loc : ℕ} {e : Entry}
    (hs : SlotAt fields V b.buf_ table minalign field loc e) (hsuffix : b.buf_ <:+ buf)
    (hle : table ≤ b.buf_.length)
    (hdvd : ∀ n, ScalarSize n → n ≤ minalign → buf.length % n = 0) :
    e.ReadAt buf (buf.length - table + (table - loc)) := by
  have hloc := hs.loc_lt
  have hlen := hsuffix.length_le
  obtain ⟨hlocLow, hlocHigh⟩ := hs.placed.bytes.le
  rw [toLittleEndian_length] at hlocLow
  have haddr : buf.length - table + (table - loc) = buf.length - loc := by omega
  rw [haddr]
  refine ⟨hs.size, ?_, by omega, ?_, ?_⟩
  · -- the entry is aligned from the end, and the end itself is aligned
    exact Nat.mod_eq_zero_of_dvd (Nat.dvd_sub
      (Nat.dvd_of_mod_eq_zero (hdvd _ hs.size hs.size_le))
      (Nat.dvd_of_mod_eq_zero hs.placed.aligned))
  · rw [(hs.placed.bytes.mono hsuffix).readScalar, Nat.mod_eq_of_lt hs.placed.word_lt,
      show buf.length - (buf.length - loc) = loc by omega]
  · intro off he
    have := hs.placed.target off he
    omega

/-- `Finish` ends with a buffer whose root table has the fields that were added. -/
theorem finish_does (hb : Closed fields table b) (h : b.buf_.length + 40 ≤ maxBufferSize) :
    Does (finish table) b fun _ b' => b.buf_ <:+ b'.buf_ ∧
      ∃ vtable vsize, Layout fields b'.buf_ (b'.buf_.length - table) vtable vsize := by
  obtain ⟨V, hVeven, hV4, hVlt, hat, hVsize, hslots⟩ := hb.vtable
  obtain ⟨hatLow, hatHigh⟩ := hat.le
  rw [List.length_append, toLittleEndian_length] at hatLow
  have htable := hb.aligned
  refine (finish_writes hb (by omega) (by omega) h).mono ?_
  rintro _ b' ⟨pad, hpad, hmod, hbuf⟩
  have hsuffix : b.buf_ <:+ b'.buf_ := by
    rw [hbuf]
    exact (List.suffix_append _ _).trans (List.suffix_append _ _)
  have hlen : b'.buf_.length = 4 + (pad + b.buf_.length) := by
    rw [hbuf, List.length_append, toLittleEndian_length, List.length_append, List.length_replicate]
  obtain ⟨hmin, hmin4⟩ := hb.minalign
  -- the length is a multiple of the largest alignment, and so of each smaller one
  have hdvd : ∀ n, ScalarSize n → n ≤ b.minalign_ → b'.buf_.length % n = 0 := by
    intro n hn hle
    rw [hlen]
    exact Nat.mod_eq_zero_of_dvd (Nat.dvd_trans (hn.dvd_of_le hmin hle)
      (Nat.dvd_of_mod_eq_zero hmod))
  have hmod4 := hdvd 4 (.inr (.inr (.inl rfl))) hmin4
  have hM := maxBufferSize_eq
  refine ⟨hsuffix, b'.buf_.length - (V.length + table), V.length, ?_⟩
  have hat' := hat.mono hsuffix
  have hsoff : readScalar 4 b'.buf_ (b'.buf_.length - table) = .ok V.length := by
    have := hat'.append_right.readScalar
    rwa [Nat.add_sub_cancel_left, Nat.mod_eq_of_lt (by omega)] at this
  -- the slots are read out of the vtable, which lies right before the table
  have hread : ∀ n p, p + n ≤ V.length →
      readScalar n b'.buf_ (b'.buf_.length - (V.length + table) + p) = readScalar n V p :=
    fun n p hp => hat'.append_left.readScalar_inside hp
  have hvsize : readScalar 2 b'.buf_ (b'.buf_.length - (V.length + table)) = .ok V.length := by
    have := hread 2 0 (by omega)
    rwa [Nat.add_zero, hVsize] at this
  have hvtable : getVTable b'.buf_ (b'.buf_.length - table) =
      .ok (b'.buf_.length - (V.length + table)) := by
    rw [getVTable, hsoff]
    refine congrArg Except.ok ?_
    rw [soffset, if_pos (by omega), sizeT]
    omega
  have hverified : VerifiedTable b'.buf_ (b'.buf_.length - table)
      (b'.buf_.length - (V.length + table)) V.length :=
    ⟨hvtable, hvsize, hVeven, by omega⟩
  -- the address of the root is the first word
  have hroot : getRoot b'.buf_ = .ok (b'.buf_.length - table) := by
    have hword : b'.buf_ = toLittleEndian 4 (b'.buf_.length - table) ++
        (List.replicate pad 0 ++ b.buf_) := by rwa [hlen]
    have hat₀ : At b'.buf_ b'.buf_.length (toLittleEndian 4 (b'.buf_.length - table)) := by
      refine ⟨List.replicate pad 0 ++ b.buf_, by rw [← hword], ?_⟩
      rw [hlen, toLittleEndian_length, List.length_append, List.length_replicate]
    have := hat₀.readScalar
    rwa [Nat.sub_self, Nat.mod_eq_of_lt (by omega)] at this
  refine ⟨hverified, hroot, by omega, hmod4, by omega, by omega, hsoff, by omega, by omega,
    by omega, fun field hfield => ?_⟩
  rw [hverified.getOptionalFieldOffset_eq]
  have hfieldEven := hfield.1
  rcases hslots field hfield with ⟨loc, e, hs⟩ | ⟨habsent, hzero⟩
  · have hloc := hs.loc_lt
    have hslot := hs.slot_lt
    refine .inl ⟨e, table - loc, hs.mem, ?_, by omega, hs.readAt hsuffix (by omega) hdvd⟩
    rw [if_pos hslot, hread 2 field (by omega), hs.slot]
  · refine .inr ⟨habsent, ?_⟩
    split
    · rename_i hlt
      rw [hread 2 field (by omega), hzero hlt]
    · rfl

end Builder

end Flatbuffers

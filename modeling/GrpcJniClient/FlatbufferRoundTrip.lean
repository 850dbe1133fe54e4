/-
What the flatbuffers writer has written, the verifier accepts and the reader
gives back.

* `Passes` — a check of the verifier passes, with one rule for `&&` and one lemma
  for each check a generated `Verify` makes;
* `Layout.getField_eq`, `Layout.getPointer_eq` — a field is read as it was added,
  also where it was left out for being equal to its default;
* `TextAt.readCString`, `BytesAt.read` — what a pointer leads to;
* `Layout.verifyBuffer_passes` — a buffer is accepted if the checks of its type
  pass on the root table;
* `build_spec` — the rule for `Finish` after the calls that create a table.
-/
import GrpcJniClient.FlatbufferTables

namespace Flatbuffers

/-- The check passes, and leaves the counters `k'`. -/
def Passes (c : Verifying Bool) (k k' : Counters) : Prop := c.run k = .ok (true, k')

namespace Passes

variable {c d : Verifying Bool} {k k' k'' : Counters}

theorem and (hc : Passes c k k') (hd : Passes d k' k'') : Passes (c <&&> d) k k'' := by
  show (c.run k >>= _) = _
  rw [hc]
  exact hd

theorem of_pure {b : Bool} (h : b = true) : Passes (pure b) k k := by
  rw [h]
  rfl

/-- A check that first reads memory. -/
theorem of_read {α : Type} {e : Except Fault α} {f : α → Verifying Bool} {a : α} (he : e = .ok a)
    (hf : Passes (f a) k k') : Passes (liftM e >>= f) k k' := by
  subst he
  exact hf

end Passes

theorem verifyAlignment_of_mod {p n : ℕ} (hn : ScalarSize n) (h : p % n = 0) :
    verifyAlignment p n = true := by
  rw [verifyAlignment, hn.and_sub_one, h]
  rfl

theorem verifyScalar_of_fits {buf : List UInt8} {n p : ℕ} (hn : ScalarSize n) (hmod : p % n = 0)
    (hlt : n < buf.length) (hfits : p + n ≤ buf.length) : verifyScalar n buf p = true := by
  rw [verifyScalar, Bool.and_eq_true, verify_iff]
  exact ⟨verifyAlignment_of_mod hn hmod, hlt, hfits⟩

theorem verifyComplexity_passes : Passes verifyComplexity ⟨0, 0⟩ ⟨1, 1⟩ := rfl

theorem endTable_passes : Passes endTable ⟨1, 1⟩ ⟨0, 1⟩ := rfl

/-! ### The objects that pointers lead to -/

/-- A C string ends at the first zero. -/
theorem takeWhile_append_zero (str post : List UInt8) :
    (str ++ 0 :: post).takeWhile (· ≠ 0) = str.takeWhile (· ≠ 0) := by
  induction str with
  | nil => rfl
  | cons c str ih =>
    -- the first zero may already be inside the string
    by_cases hc : c = 0
    · subst hc
      rfl
    · have hpos : decide (c ≠ 0) = true := decide_eq_true hc
      rw [List.cons_append, List.takeWhile_cons, List.takeWhile_cons, if_pos hpos, if_pos hpos, ih]

namespace TextAt

variable {buf str : List UInt8} {off : ℕ}

theorem size_eq (h : TextAt buf off str) (hlt : buf.length < maxBufferSize) :
    readScalar 4 buf (buf.length - off) = .ok str.length := by
  have hle := h.1.le
  rw [List.length_append, List.length_append, toLittleEndian_length] at hle
  rw [maxBufferSize_eq] at hlt
  rw [h.1.append_left.readScalar, Nat.mod_eq_of_lt (by omega)]

theorem readScalar_zero (h : TextAt buf off str) :
    readScalar 1 buf (buf.length - off + (4 + str.length)) = .ok 0 := by
  have hlen : (toLittleEndian 4 str.length ++ str ++ [0]).length = 4 + str.length + 1 := by
    simp only [List.length_append, toLittleEndian_length, List.length_singleton]
  have hat : At (toLittleEndian 4 str.length ++ str ++ [0]) 1 (toLittleEndian 1 0) :=
    ⟨[], List.suffix_append _ _, rfl⟩
  -- the zero is the last byte of the string object
  have hread := hat.readScalar
  rw [hlen, Nat.add_sub_cancel] at hread
  have hbytes := h.1
  rw [← List.append_assoc] at hbytes
  rw [hbytes.readScalar_inside (Nat.le_of_eq hlen.symm), hread, Nat.zero_mod]

/-- What `c_str()` gives: the characters of the string up to the first zero. -/
theorem readCString (h : TextAt buf off str) :
    readCString buf (buf.length - off + 4) = .ok (str.takeWhile (· ≠ 0)) := by
  obtain ⟨post, ⟨pre, rfl⟩, hlen⟩ := h.1
  have hpre : (pre ++ (toLittleEndian 4 str.length ++ (str ++ [0]) ++ post)).length - off =
      pre.length := by
    simp only [List.length_append] at hlen ⊢
    omega
  -- behind the length come the characters, the zero and whatever was there before
  have hdrop : (pre ++ (toLittleEndian 4 str.length ++ (str ++ [0]) ++ post)).drop
      (pre.length + 4) = str ++ (0 :: post) := by
    rw [← List.drop_drop, List.drop_left, List.append_assoc,
      List.drop_left' (toLittleEndian_length 4 _), List.append_assoc, List.singleton_append]
  rw [Flatbuffers.readCString, hpre, hdrop, takeWhile_append_zero]
  refine if_pos (List.contains_iff_mem.mpr ?_)
  exact List.mem_append_right _ List.mem_cons_self

end TextAt

namespace BytesAt

variable {buf v : List UInt8} {off : ℕ}

theorem size_eq (h : BytesAt buf off v) (hlt : buf.length < maxBufferSize) :
    readScalar 4 buf (buf.length - off) = .ok v.length := by
  have hle := h.1.le
  rw [List.length_append, toLittleEndian_length] at hle
  rw [maxBufferSize_eq] at hlt
  rw [h.1.append_left.readScalar, Nat.mod_eq_of_lt (by omega)]

/-- The bytes of the vector. -/
theorem read (h : BytesAt buf off v) : readBytes v.length buf (buf.length - off + 4) = .ok v := by
  have hle := h.1.le
  rw [List.length_append, toLittleEndian_length] at hle
  have := h.1.append_right.readBytes
  rwa [toLittleEndian_length, show buf.length - (off - 4) = buf.length - off + 4 by omega] at this

end BytesAt

namespace Layout

variable {fields : List (ℕ × Entry)} {buf : List UInt8} {table vtable vsize field : ℕ}

/-- The entry of a field is the one that was added for it. -/
theorem slot_of_mem (hL : Layout fields buf table vtable vsize)
    (hs : Slots (fields.map Prod.fst)) {e : Entry} (hmem : (field, e) ∈ fields) :
    (∃ o, getOptionalFieldOffset buf table field = .ok o ∧ o ≠ 0 ∧ e.ReadAt buf (table + o)) ∨
      (¬ e.Stored ∧ getOptionalFieldOffset buf table field = .ok 0) := by
  rcases hL.slot field (hs.isSlot _ (List.mem_map_of_mem hmem)) with
    ⟨e', o, hmem', ho, h0, hread⟩ | ⟨habsent, ho⟩
  · -- no field is added twice, so this is the entry that was asked for
    obtain rfl : e' = e := List.inj_on_of_nodup_map hs.nodup hmem' hmem rfl |> congrArg Prod.snd
    exact .inl ⟨o, ho, h0, hread⟩
  · exact .inr ⟨habsent e hmem, ho⟩

/-- A scalar is read as it was added. -/
theorem getField_eq (hL : Layout fields buf table vtable vsize)
    (hs : Slots (fields.map Prod.fst)) {n v default : ℕ}
    (hmem : (field, .scalar n v default) ∈ fields) :
    getField n buf table field default = .ok v := by
  rcases hL.slot_of_mem hs hmem with ⟨o, ho, h0, hread⟩ | ⟨hdef, ho⟩
  · rw [getField, ho]
    show (if o ≠ 0 then readScalar n buf (table + o) else .ok default) = _
    rw [if_pos h0]
    exact hread.value
  · -- a default is not stored, and the accessor gives it back
    obtain rfl : v = default := not_not.mp hdef
    rw [getField, ho]
    rfl

/-- A pointer leads to the object it was added for. -/
theorem getPointer_eq (hL : Layout fields buf table vtable vsize)
    (hs : Slots (fields.map Prod.fst)) {off : ℕ}
    (hmem : (field, .pointer off) ∈ fields) :
    getPointer buf table field = .ok (some (buf.length - off)) := by
  rcases hL.slot_of_mem hs hmem with ⟨o, ho, h0, hread⟩ | ⟨hdef, -⟩
  · have hval : readScalar 4 buf (table + o) = .ok (buf.length - (table + o) - off) := hread.value
    obtain ⟨-, hlt⟩ := hread.target off rfl
    rw [Flatbuffers.getPointer_eq ho, if_neg h0, hval]
    refine congrArg (fun p => Except.ok (some p)) ?_
    omega
  · -- pointers are always stored
    exact absurd trivial hdef

/-- An object lies behind the pointer to it. -/
theorem pointer_lt (hL : Layout fields buf table vtable vsize)
    (hs : Slots (fields.map Prod.fst)) {off : ℕ}
    (hmem : (field, .pointer off) ∈ fields) : off < buf.length := by
  rcases hL.slot_of_mem hs hmem with ⟨o, -, -, hread⟩ | ⟨hdef, -⟩
  · have := hread.target off rfl
    omega
  · exact absurd trivial hdef

theorem eight_lt (hL : Layout fields buf table vtable vsize) : 8 < buf.length := by
  have := hL.vtable_ge
  have := hL.vtable_add
  have := hL.table_le
  have := hL.vsize_lt
  omega

theorem verifyTableStart_passes (hL : Layout fields buf table vtable vsize) :
    Passes (verifyTableStart buf table) ⟨0, 0⟩ ⟨1, 1⟩ := by
  have hlen := hL.eight_lt
  have hadd := hL.vtable_add
  have hle := hL.table_le
  have hmod := hL.table_mod
  obtain ⟨hv4, hvlt⟩ := hL.vsize_lt
  have heven := hL.verified.even
  -- the vtable lies below the table, so the signed offset does not wrap
  have hvtable : sizeT (table - soffset vsize) = vtable := by
    rw [soffset, if_pos hvlt, sizeT]
    have := hL.length_lt
    rw [maxBufferSize_eq] at this
    omega
  refine (Passes.of_pure (verifyScalar_of_fits (.inr (.inr (.inl rfl))) hmod (by omega)
    (by omega))).and (Passes.of_read hL.soffset_eq ?_)
  simp only [hvtable]
  refine verifyComplexity_passes.and ((Passes.of_pure (verifyScalar_of_fits (.inr (.inl rfl))
    (by omega) (by omega) (by omega))).and ((Passes.of_read hL.verified.vsize_eq
      (Passes.of_pure (verifyAlignment_of_mod (.inr (.inl rfl)) heven))).and
        (Passes.of_read hL.verified.vsize_eq (Passes.of_pure ?_))))
  rw [Bool.and_eq_true, verify_iff, beq_iff_eq, Nat.and_one_is_mod]
  exact ⟨heven, by omega, by omega⟩

/-- The check of a scalar field passes, whether the field is there or not. -/
theorem verifyField_passes (hL : Layout fields buf table vtable vsize)
    (hs : Slots (fields.map Prod.fst)) {n v default : ℕ}
    (hmem : (field, .scalar n v default) ∈ fields) (k : Counters) :
    Passes (verifyField n buf table field n) k k := by
  rcases hL.slot_of_mem hs hmem with ⟨o, ho, h0, hread⟩ | ⟨-, ho⟩
  · refine Passes.of_read ho (Passes.of_pure ?_)
    have hsize : ScalarSize n := hread.size
    have hfits : table + o + n ≤ buf.length := hread.fits
    have hlen := hL.eight_lt
    rw [Bool.or_eq_true, Bool.and_eq_true, verify_iff]
    -- `verify` also wants the size to be less than that of the buffer
    refine .inr ⟨verifyAlignment_of_mod hsize hread.aligned, ?_, hfits⟩
    rcases hsize with rfl | rfl | rfl | rfl <;> omega
  · exact Passes.of_read ho (Passes.of_pure rfl)

/-- The check of a field that was never added passes. -/
theorem verifyField_absent (hL : Layout fields buf table vtable vsize) {n align : ℕ}
    (hfield : IsSlot field) (habsent : field ∉ fields.map Prod.fst) (k : Counters) :
    Passes (verifyField n buf table field align) k k := by
  rcases hL.slot field hfield with ⟨e, -, hmem, -⟩ | ⟨-, ho⟩
  · exact absurd (List.mem_map_of_mem hmem) habsent
  · exact Passes.of_read ho (Passes.of_pure rfl)

theorem verifyOffset_passes (hL : Layout fields buf table vtable vsize)
    (hs : Slots (fields.map Prod.fst)) {off : ℕ}
    (hmem : (field, .pointer off) ∈ fields) (k : Counters) :
    Passes (verifyOffset buf table field) k k := by
  rcases hL.slot_of_mem hs hmem with ⟨o, ho, h0, hread⟩ | ⟨hdef, -⟩
  · have hval : readScalar 4 buf (table + o) = .ok (buf.length - (table + o) - off) := hread.value
    have hfits : table + o + 4 ≤ buf.length := hread.fits
    have haligned : (table + o) % 4 = 0 := hread.aligned
    obtain ⟨hpos, hlt⟩ := hread.target off rfl
    have hlen := hL.eight_lt
    have hmax := hL.length_lt
    rw [maxBufferSize_eq] at hmax
    -- the object lies inside the buffer, and so near that the signed offset is positive
    have hverify : verify buf (table + o + (buf.length - (table + o) - off)) 1 = true :=
      verify_iff.mpr ⟨by omega, by omega⟩
    have hsoffset : 0 ≤ soffset (buf.length - (table + o) - off) := by
      rw [soffset, if_pos (by omega)]
      omega
    have hat : verifyOffsetAt buf (table + o) = .ok (buf.length - (table + o) - off) := by
      rw [verifyOffsetAt, if_pos (verifyScalar_of_fits (.inr (.inr (.inl rfl))) haligned (by omega)
        hfits), hval]
      exact congrArg Except.ok (if_pos ⟨by omega, hsoffset, hverify⟩)
    refine Passes.of_read ho ?_
    rw [if_neg h0]
    refine Passes.of_read hat (Passes.of_pure ?_)
    rw [bne_iff_ne]
    omega
  · exact absurd trivial hdef

/-- The two checks that generated code makes for a string. -/
theorem verifyString_passes (hL : Layout fields buf table vtable vsize)
    (hs : Slots (fields.map Prod.fst)) {off : ℕ} {str : List UInt8}
    (hmem : (field, .pointer off) ∈ fields) (hstr : TextAt buf off str) (k : Counters) :
    Passes (do verifyString buf (← getPointer buf table field)) k k := by
  have hle := hstr.1.le
  rw [List.length_append, List.length_append, toLittleEndian_length, List.length_singleton] at hle
  have hmax := hL.length_lt
  have hlmod := hL.length_mod
  have homod := hstr.2
  have hlen := hL.eight_lt
  have hend : verifyVectorOrString buf (buf.length - off) =
      .ok (some (buf.length - off + (4 + str.length))) := by
    rw [verifyVectorOrString, if_pos (verifyScalar_of_fits (.inr (.inr (.inl rfl))) (by omega)
      (by omega) (by omega)), hstr.size_eq hmax]
    exact congrArg Except.ok (if_pos ⟨by omega, verify_iff.mpr ⟨by omega, by omega⟩⟩)
  -- the byte behind the characters is the zero that the writer has added
  have hzero : readScalar 1 buf (buf.length - off + (4 + str.length)) = .ok 0 :=
    hstr.readScalar_zero
  refine Passes.of_read (hL.getPointer_eq hs hmem) (Passes.of_read hend ?_)
  exact (Passes.of_pure (verify_iff.mpr ⟨by omega, by omega⟩)).and
    (Passes.of_read hzero (Passes.of_pure rfl))

/-- The check that generated code makes for a vector of bytes. -/
theorem verifyVector_passes (hL : Layout fields buf table vtable vsize)
    (hs : Slots (fields.map Prod.fst)) {off : ℕ} {v : List UInt8}
    (hmem : (field, .pointer off) ∈ fields) (hv : BytesAt buf off v) (k : Counters) :
    Passes (do verifyVector buf (← getPointer buf table field)) k k := by
  have hle := hv.1.le
  rw [List.length_append, toLittleEndian_length] at hle
  have hoff := hL.pointer_lt hs hmem
  have hmax := hL.length_lt
  have hlmod := hL.length_mod
  have homod := hv.2
  have hlen := hL.eight_lt
  have hend : verifyVectorOrString buf (buf.length - off) =
      .ok (some (buf.length - off + (4 + v.length))) := by
    rw [verifyVectorOrString, if_pos (verifyScalar_of_fits (.inr (.inr (.inl rfl))) (by omega)
      (by omega) (by omega)), hv.size_eq hmax]
    exact congrArg Except.ok (if_pos ⟨by omega, verify_iff.mpr ⟨by omega, by omega⟩⟩)
  exact Passes.of_read (hL.getPointer_eq hs hmem)
    (Passes.of_read hend (Passes.of_pure rfl))

/-- The buffer is accepted if the checks of its type pass on the root table. -/
theorem verifyBuffer_passes (hL : Layout fields buf table vtable vsize)
    {verifyT : List UInt8 → ℕ → Verifying Bool} {k : Counters}
    (hT : Passes (verifyT buf table) ⟨0, 0⟩ k) : verifyBuffer verifyT buf = .ok true := by
  have hlen := hL.eight_lt
  have hle := hL.table_le
  have hmax := hL.length_lt
  have hadd := hL.vtable_add
  have hge := hL.vtable_ge
  have hv := hL.vsize_lt
  rw [maxBufferSize_eq] at hmax
  have hroot : readScalar 4 buf 0 = .ok table := hL.root
  -- the root offset is the first scalar, and it leads to the table
  have hat : verifyOffsetAt buf 0 = .ok table := by
    rw [verifyOffsetAt, if_pos (verifyScalar_of_fits (.inr (.inr (.inl rfl))) rfl (by omega)
      (by omega)), hroot]
    have hsoffset : 0 ≤ soffset table := by
      rw [soffset, if_pos (by omega)]
      omega
    exact congrArg Except.ok (if_pos ⟨by omega, hsoffset, verify_iff.mpr ⟨by omega, by omega⟩⟩)
  have hpass : Passes (verifyBufferFromStart verifyT buf 0) ⟨0, 0⟩ k := by
    refine (Passes.of_pure (decide_eq_true ?_)).and (Passes.of_read hat ?_)
    · rw [minBufferSize]
      omega
    · refine (Passes.of_pure (bne_iff_ne.mpr (by omega))).and ?_
      rwa [Nat.zero_add]
  rw [verifyBuffer, hpass]
  rfl

end Layout

/-- The rule for a buffer that is built: first the objects that the table points
to, then the table. -/
theorem build_spec {α : Type} (objects : Building α) (fields : α → List (ℕ × Entry))
    {P : α → List UInt8 → Prop} (hs : ∀ a, Slots ((fields a).map Prod.fst))
    (hP : ∀ a buf buf', P a buf → buf <:+ buf' → P a buf')
    (h : Does objects {} fun a b => Builder.Ready b ∧ P a b.buf_ ∧
      (∀ p ∈ fields a, p.2.Fits b.buf_.length) ∧ b.buf_.length + 2 ^ 16 ≤ maxBufferSize) :
    ∃ buf a table vtable vsize,
      Builder.build (objects >>= fun a => Builder.createTable (fields a)) = some buf ∧
      Layout (fields a) buf table vtable vsize ∧ P a buf := by
  -- the objects stay where they are while the table is written before them
  have htable : Does (objects >>= fun a => Builder.createTable (fields a)) {} fun table b =>
      ∃ a, Builder.Closed (fields a) table b ∧ P a b.buf_ ∧
        b.buf_.length + 40 ≤ maxBufferSize := by
    refine h.bind ?_
    rintro a b ⟨hb, hPb, hfields, hlen⟩
    refine (Builder.createTable_does hb (hs a) hfields hlen).mono ?_
    rintro table b' ⟨hC, hsuffix, hlen'⟩
    exact ⟨a, hC, hP _ _ _ hPb hsuffix, hlen'⟩
  have hfinish : Does ((objects >>= fun a => Builder.createTable (fields a)) >>= Builder.finish) {}
      fun _ b => ∃ a table vtable vsize,
        Layout (fields a) b.buf_ table vtable vsize ∧ P a b.buf_ := by
    refine htable.bind ?_
    rintro table b ⟨a, hC, hPb, hlen⟩
    refine (Builder.finish_does hC hlen).mono ?_
    rintro _ b' ⟨hsuffix, vtable, vsize, hL⟩
    exact ⟨a, _, vtable, vsize, hL, hP _ _ _ hPb hsuffix⟩
  obtain ⟨_, b, hrun, a, table, vtable, vsize, hL, hPb⟩ := hfinish
  refine ⟨b.buf_, a, table, vtable, vsize, ?_, hL, hPb⟩
  rw [Builder.build, hrun]
  rfl

end Flatbuffers

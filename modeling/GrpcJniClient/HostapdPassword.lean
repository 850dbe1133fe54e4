/-
`HostapdService.generatePassword`.

A character of each of four alphabets is drawn, then characters of all of them
until the length is reached; at the end they are shuffled.

* `exists_runs_fill` — the loop ends with as many characters as asked for, whatever
  is drawn;
* `Strong.of_perm` — what makes a passphrase strong does not depend on the order of
  its characters;
* `generatePassword_strong` — so what is returned is strong, whatever is drawn and
  however it is shuffled;
* `generatePassword_eq_some_iff` — and every strong passphrase can be returned.
-/
import GrpcJniClient.JavaString
import GrpcJniClient.Loop
import GrpcJniClient.Shuffle
import Mathlib.Data.Int.Notation

open Shuffle

namespace Carplay.Hostapd.Password

def upper : JavaString := Utf16.encode "ABCDEFGHIJKLMNOPQRSTUVWXYZ".toList

def lower : JavaString := Utf16.encode "abcdefghijklmnopqrstuvwxyz".toList

def digits : JavaString := Utf16.encode "0123456789".toList

def symbols : JavaString := Utf16.encode "!@#$%&*()-_=+[]\x7b\x7d:;,.?/<>".toList

def all : JavaString := upper ++ lower ++ digits ++ symbols

instance : NeZero upper.length := ⟨by decide⟩

instance : NeZero lower.length := ⟨by decide⟩

instance : NeZero digits.length := ⟨by decide⟩

instance : NeZero symbols.length := ⟨by decide⟩

instance : NeZero all.length := ⟨by decide⟩

/-- The character of the alphabet at the index that the `k`-th
`mSecureRandom.nextInt` returns. -/
def draw (nextInt : ℕ → Draws) (k : ℕ) (alphabet : JavaString) [NeZero alphabet.length] : UInt16 :=
  alphabet.get (nextInt k alphabet.length)

/-- One iteration of the loop.  Each draw has added a character, so that their
number is that of the next draw. -/
def fill (nextInt : ℕ → Draws) (length : ℤ) (pwChars : JavaString) : Option JavaString :=
  if pwChars.length < length then some (pwChars ++ [draw nextInt pwChars.length all]) else none

/-- `HostapdService.generatePassword`, with a limit on the iterations: an
`IllegalArgumentException`, or what is returned, `none` if that takes more of
them. -/
def generatePassword (length : ℤ) (nextInt : ℕ → Draws) (shuffling : Shuffling UInt16)
    (fuel : ℕ) : Except String (Option JavaString) :=
  if 8 ≤ length ∧ length ≤ 63 then
    .ok ((Loop.exec (fill nextInt length) fuel
      [draw nextInt 0 upper, draw nextInt 1 lower, draw nextInt 2 digits,
        draw nextInt 3 symbols]).map fun (_, pwChars) => shuffling.shuffle pwChars)
  else .error "WPA passphrase length must be 8..63"

/-- The default of `length`. -/
def defaultLength : ℤ := 12

/-- Of that length, of characters of the alphabets, which are printable ASCII, with
one of each alphabet at least. -/
structure Strong (length : ℤ) (pw : JavaString) : Prop where
  length_eq : pw.length = length
  alphabet : ∀ u ∈ pw, u ∈ all
  printable : ∀ u ∈ pw, 0x20 ≤ u ∧ u ≤ 0x7E
  hasUpper : ∃ u ∈ pw, u ∈ upper
  hasLower : ∃ u ∈ pw, u ∈ lower
  hasDigit : ∃ u ∈ pw, u ∈ digits
  hasSymbol : ∃ u ∈ pw, u ∈ symbols

variable {nextInt : ℕ → Draws} {length : ℤ} {pw pw' : JavaString} {n k : ℕ}

/-! ### What is drawn -/

theorem draw_mem (nextInt : ℕ → Draws) (k : ℕ) (alphabet : JavaString)
    [NeZero alphabet.length] : draw nextInt k alphabet ∈ alphabet :=
  List.get_mem alphabet _

/-- The alphabet of the `k`-th draw. -/
def alphabetAt : ℕ → JavaString
  | 0 => upper
  | 1 => lower
  | 2 => digits
  | 3 => symbols
  | _ + 4 => all

instance : (k : ℕ) → NeZero (alphabetAt k).length
  | 0 => inferInstanceAs (NeZero upper.length)
  | 1 => inferInstanceAs (NeZero lower.length)
  | 2 => inferInstanceAs (NeZero digits.length)
  | 3 => inferInstanceAs (NeZero symbols.length)
  | _ + 4 => inferInstanceAs (NeZero all.length)

/-- The characters after `n` draws. -/
def drawn (nextInt : ℕ → Draws) (n : ℕ) : JavaString :=
  (List.range n).map fun k => draw nextInt k (alphabetAt k)

theorem length_drawn (nextInt : ℕ → Draws) (n : ℕ) : (drawn nextInt n).length = n := by
  rw [drawn, List.length_map, List.length_range]

theorem drawn_succ (nextInt : ℕ → Draws) (n : ℕ) :
    drawn nextInt (n + 1) = drawn nextInt n ++ [draw nextInt n (alphabetAt n)] := by
  rw [drawn, drawn, List.range_succ, List.map_append]
  rfl

theorem lt_of_fill_eq_some (h : fill nextInt length pw = some pw') : pw.length < length := by
  rw [fill, Option.ite_none_right_eq_some] at h
  exact h.1

/-- Each iteration comes one character nearer to the length. -/
theorem measure_fill (h : fill nextInt length pw = some pw') :
    (length - pw'.length).toNat < (length - pw.length).toNat := by
  rw [fill, Option.ite_none_right_eq_some, Option.some_inj] at h
  obtain ⟨hlt, rfl⟩ := h
  rw [List.length_append, List.length_singleton]
  omega

/-- After the fourth draw all are from the four alphabets. -/
theorem draw_alphabetAt (nextInt : ℕ → Draws) (hn : 4 ≤ n) :
    draw nextInt n (alphabetAt n) = draw nextInt n all := by
  obtain ⟨m, rfl⟩ := Nat.exists_eq_add_of_le' hn
  rfl

theorem fill_drawn (hn : 4 ≤ n) (hlt : n < length) :
    fill nextInt length (drawn nextInt n) = some (drawn nextInt (n + 1)) := by
  rw [fill, length_drawn, if_pos hlt, drawn_succ, draw_alphabetAt nextInt hn]

/-- The loop draws until the length is reached. -/
theorem exists_runs_fill (nextInt : ℕ → Draws) (hlength : 4 ≤ length) :
    ∃ visited, visited.length ≤ length.toNat ∧
      Loop.Runs (fill nextInt length) (drawn nextInt 4) visited (drawn nextInt length.toNat) := by
  obtain ⟨visited, t, hruns, hvisited⟩ :=
    Loop.exists_runs_of_measure (fun pwChars : JavaString => (length - pwChars.length).toNat)
      (fun s s' h => measure_fill h) (drawn nextInt 4)
  -- the characters are those of the draws so far, never more than asked for
  obtain ⟨-, ⟨n, hn, hle, rfl⟩, hnone⟩ := hruns.invariant
    (I := fun pwChars => ∃ n : ℕ, 4 ≤ n ∧ n ≤ length ∧ pwChars = drawn nextInt n)
    (fun s s' ⟨n, hn, _, hs⟩ h => by
      obtain rfl := hs
      have hlt := lt_of_fill_eq_some h
      rw [length_drawn] at hlt
      rw [fill_drawn hn hlt, Option.some_inj] at h
      exact ⟨n + 1, by omega, by omega, h.symm⟩)
    ⟨4, Nat.le_refl _, hlength, rfl⟩
  have hend : length ≤ n := by
    by_contra hlt
    rw [fill_drawn hn (by omega)] at hnone
    cases hnone
  obtain rfl : n = length.toNat := by omega
  exact ⟨visited, by omega, hruns⟩

theorem generatePassword_eq (hlength : 8 ≤ length ∧ length ≤ 63) (nextInt : ℕ → Draws)
    (shuffling : Shuffling UInt16) {fuel : ℕ} (hfuel : length ≤ fuel) :
    generatePassword length nextInt shuffling fuel
      = .ok (some (shuffling.shuffle (drawn nextInt length.toNat))) := by
  obtain ⟨visited, hvisited, hruns⟩ := exists_runs_fill nextInt (show 4 ≤ length by omega)
  have hexec := hruns.exec (show visited.length ≤ fuel by omega)
  rw [generatePassword, if_pos hlength]
  exact congrArg (fun r : Option (List JavaString × JavaString) =>
    Except.ok (r.map fun (_, pwChars) => shuffling.shuffle pwChars)) hexec

/-! ### What is returned -/

theorem alphabetAt_subset (k : ℕ) : alphabetAt k ⊆ all := by
  intro u hu
  rw [all, List.mem_append, List.mem_append, List.mem_append]
  match k with
  | 0 => exact .inl (.inl (.inl hu))
  | 1 => exact .inl (.inl (.inr hu))
  | 2 => exact .inl (.inr hu)
  | 3 => exact .inr hu
  | _ + 4 =>
    rw [alphabetAt, all, List.mem_append, List.mem_append, List.mem_append] at hu
    exact hu

theorem printable_of_mem_all : ∀ u ∈ all, 0x20 ≤ u ∧ u ≤ 0x7E := by
  -- on the list of the characters: there are more units than can be gone through
  have hall : all.all (fun u => decide (0x20 ≤ u ∧ u ≤ 0x7E)) = true := by decide +kernel
  intro u hu
  exact of_decide_eq_true (List.all_eq_true.mp hall u hu)

theorem mem_drawn (nextInt : ℕ → Draws) (hk : k < n) :
    draw nextInt k (alphabetAt k) ∈ drawn nextInt n :=
  List.mem_map_of_mem (List.mem_range.mpr hk)

theorem strong_drawn (nextInt : ℕ → Draws) (hlength : 4 ≤ length) :
    Strong length (drawn nextInt length.toNat) := by
  have hall : ∀ u ∈ drawn nextInt length.toNat, u ∈ all := by
    intro u hu
    obtain ⟨k, -, rfl⟩ := List.mem_map.mp hu
    exact alphabetAt_subset k (draw_mem nextInt k _)
  have hdrawn : ∀ k < 4, ∃ u ∈ drawn nextInt length.toNat, u ∈ alphabetAt k :=
    fun k hk => ⟨_, mem_drawn nextInt (show k < length.toNat by omega), draw_mem nextInt k _⟩
  exact {
    length_eq := by
      rw [length_drawn]
      omega
    alphabet := hall
    printable := fun u hu => printable_of_mem_all u (hall u hu)
    hasUpper := hdrawn 0 (by decide)
    hasLower := hdrawn 1 (by decide)
    hasDigit := hdrawn 2 (by decide)
    hasSymbol := hdrawn 3 (by decide) }

/-- The order of the characters is immaterial. -/
theorem Strong.of_perm (h : Strong length pw) (hperm : pw'.Perm pw) : Strong length pw' := by
  have hexists : ∀ alphabet : JavaString, (∃ u ∈ pw, u ∈ alphabet) → ∃ u ∈ pw', u ∈ alphabet :=
    fun _ ⟨u, hu, halphabet⟩ => ⟨u, hperm.mem_iff.mpr hu, halphabet⟩
  exact {
    length_eq := by
      rw [hperm.length_eq, h.length_eq]
    alphabet := fun u hu => h.alphabet u (hperm.mem_iff.mp hu)
    printable := fun u hu => h.printable u (hperm.mem_iff.mp hu)
    hasUpper := hexists _ h.hasUpper
    hasLower := hexists _ h.hasLower
    hasDigit := hexists _ h.hasDigit
    hasSymbol := hexists _ h.hasSymbol }

/-- **The passphrase is strong**, whatever the draws return and however the
characters are put in order at the end. -/
theorem generatePassword_strong (length : ℤ) (hlength : 8 ≤ length ∧ length ≤ 63)
    (nextInt : ℕ → Draws) (shuffling : Shuffling UInt16) :
    ∃ pw, Strong length pw ∧ ∀ fuel : ℕ, length ≤ fuel →
      generatePassword length nextInt shuffling fuel = .ok (some pw) :=
  ⟨_, (strong_drawn nextInt (by omega)).of_perm (shuffling.perm _),
    fun _ hfuel => generatePassword_eq hlength nextInt shuffling hfuel⟩

theorem generatePassword_strong_default :
    (8 ≤ defaultLength ∧ defaultLength ≤ 63) ∧
      ∃ pw, Strong defaultLength pw ∧ ∀ fuel : ℕ, defaultLength ≤ fuel →
        generatePassword defaultLength (fun k => .ofIndex (k * ·))
          (.collections (.ofIndex fun n => n / 2)) fuel = .ok (some pw) :=
  ⟨by decide, generatePassword_strong defaultLength (by decide) _ _⟩

/-! ### What can be returned -/

theorem draw_eq {alphabet : JavaString} [NeZero alphabet.length] {u : UInt16}
    (hu : u ∈ alphabet) (h : (nextInt k alphabet.length : ℕ) = alphabet.idxOf u) :
    draw nextInt k alphabet = u := by
  rw [draw, List.get_eq_getElem]
  simp only [h]
  exact List.getElem_idxOf (List.idxOf_lt_length_of_mem hu)

/-- The draws can take any row of characters from the alphabets. -/
theorem exists_drawn_eq {target : JavaString}
    (h : ∀ k (hk : k < target.length), target[k] ∈ alphabetAt k) :
    ∃ nextInt, drawn nextInt target.length = target := by
  refine ⟨fun k => .ofIndex fun _ => (alphabetAt k).idxOf (target.getD k 0), ?_⟩
  refine List.ext_getElem (length_drawn _ _) fun k _ hk => ?_
  have hlt := List.idxOf_lt_length_of_mem (h k hk)
  have hget : target.getD k 0 = target[k] := (List.getElem_eq_getD 0).symm
  simp only [drawn, List.getElem_map, List.getElem_range]
  refine draw_eq (h k hk) ?_
  rw [Draws.ofIndex, Fin.val_ofNat, hget, Nat.mod_eq_of_lt hlt]

theorem nodup_all : all.Nodup := by
  decide +kernel

/-- One character of each alphabet can be put in front: they are four characters,
as no two alphabets share one. -/
theorem Strong.exists_perm (h : Strong length pw) :
    ∃ a ∈ upper, ∃ b ∈ lower, ∃ c ∈ digits, ∃ d ∈ symbols, ∃ rest,
      pw.Perm (a :: b :: c :: d :: rest) := by
  obtain ⟨a, ha, hupper⟩ := h.hasUpper
  obtain ⟨b, hb, hlower⟩ := h.hasLower
  obtain ⟨c, hc, hdigit⟩ := h.hasDigit
  obtain ⟨d, hd, hsymbol⟩ := h.hasSymbol
  have hsublist : ([a] ++ [b] ++ [c] ++ [d]).Sublist all :=
    (((List.singleton_sublist.mpr hupper).append (List.singleton_sublist.mpr hlower)).append
      (List.singleton_sublist.mpr hdigit)).append (List.singleton_sublist.mpr hsymbol)
  have hsubset : [a, b, c, d] ⊆ pw := by
    simp [ha, hb, hc, hd]
  obtain ⟨front, hfront, hpw⟩ := List.subperm_of_subset (nodup_all.sublist hsublist) hsubset
  obtain ⟨rest, hrest⟩ := hpw.exists_perm_append
  exact ⟨a, hupper, b, hlower, c, hdigit, d, hsymbol, rest, hrest.trans (hfront.append_right rest)⟩

theorem Strong.exists_drawn (h : Strong length pw) :
    ∃ nextInt, pw.Perm (drawn nextInt length.toNat) := by
  obtain ⟨a, ha, b, hb, c, hc, d, hd, rest, hperm⟩ := h.exists_perm
  have halphabets : ∀ k (hk : k < (a :: b :: c :: d :: rest).length),
      (a :: b :: c :: d :: rest)[k] ∈ alphabetAt k := by
    intro k hk
    match k with
    | 0 => exact ha
    | 1 => exact hb
    | 2 => exact hc
    | 3 => exact hd
    | k + 4 => exact h.alphabet _ (hperm.mem_iff.mpr (List.getElem_mem hk))
  obtain ⟨nextInt, hdrawn⟩ := exists_drawn_eq halphabets
  have hlength : (a :: b :: c :: d :: rest).length = length.toNat := by
    rw [← hperm.length_eq, ← h.length_eq, Int.toNat_natCast]
  rw [hlength] at hdrawn
  exact ⟨nextInt, hdrawn ▸ hperm⟩

/-- What is returned is exactly what is strong. -/
theorem generatePassword_eq_some_iff :
    (∃ nextInt swaps fuel,
        generatePassword length nextInt (.collections swaps) fuel = .ok (some pw)) ↔
      (8 ≤ length ∧ length ≤ 63) ∧ Strong length pw := by
  constructor
  · rintro ⟨nextInt, swaps, fuel, h⟩
    rw [generatePassword] at h
    split_ifs at h with hlength
    obtain ⟨⟨visited, t⟩, hexec, rfl⟩ := Option.map_eq_some_iff.mp (Except.ok.inj h)
    obtain ⟨_, -, hruns⟩ := exists_runs_fill nextInt (show 4 ≤ length by omega)
    obtain ⟨-, rfl⟩ := hruns.unique (Loop.runs_of_exec hexec)
    exact ⟨hlength, (strong_drawn nextInt (by omega)).of_perm (shuffle_perm swaps _)⟩
  · rintro ⟨hlength, hstrong⟩
    obtain ⟨nextInt, hperm⟩ := hstrong.exists_drawn
    obtain ⟨swaps, hshuffle⟩ := exists_shuffle_eq hperm
    refine ⟨nextInt, swaps, length.toNat, ?_⟩
    rw [generatePassword_eq hlength nextInt _ (by omega)]
    exact congrArg (fun pw => Except.ok (some pw)) hshuffle

end Carplay.Hostapd.Password

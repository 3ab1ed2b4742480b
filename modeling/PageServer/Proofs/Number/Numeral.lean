import Mathlib.Data.List.Induction
import PageServer.Number.Decimal

/-! # Integers written in decimal

A text is read as an integer exactly if it spells it: the digits of the integer behind any number of zeros
and a sign that fits, which may be a plus or be left out. An integer is written as one of its spellings, its
digits behind a minus sign if it is negative, and so it is read as what it was, as a 64-bit integer if it is
one.
-/

namespace PageServer

namespace Decimal

theorem ofDigits_digits (n : Nat) : ofDigits (digits n) = n := by
  rw [ofDigits, Digits.toNat_eq_foldl, List.foldl_map]
  exact Nat.ofDigitChars_toDigits (by decide) (by decide)

theorem isDigit_of_mem_digits {n : Nat} {c : Char} (member : c ∈ digits n) : c.isDigit = true :=
  Nat.isDigit_of_mem_toDigits (by decide) (by decide) member

theorem ofDigits_append_singleton (ds : List Char) (c : Char) :
    ofDigits (ds ++ [c]) = 10 * ofDigits ds + digitValue c := by
  simp only [ofDigits, Digits.toNat_eq_foldl, List.map_append, List.map_cons, List.map_nil,
    List.foldl_append, List.foldl_cons, List.foldl_nil]

theorem ofDigits_zeros (zeros : Nat) (ds : List Char) :
    ofDigits (List.replicate zeros '0' ++ ds) = ofDigits ds := by
  simp only [ofDigits, Digits.toNat_eq_foldl]
  induction zeros with
  | zero => rfl
  | succ zeros same => exact same

theorem isDigit_of_mem_zeros {zeros n : Nat} {c : Char}
    (member : c ∈ List.replicate zeros '0' ++ digits n) : c.isDigit = true := by
  rcases List.mem_append.mp member with zero | digit
  · rw [List.eq_of_mem_replicate zero]
    rfl
  · exact isDigit_of_mem_digits digit

theorem toNat_of_isDigit {c : Char} (digit : c.isDigit = true) : 48 ≤ c.toNat ∧ c.toNat ≤ 57 :=
  (Bool.and_eq_true_iff.mp digit).imp of_decide_eq_true of_decide_eq_true

theorem digitValue_lt {c : Char} (digit : c.isDigit = true) : digitValue c < 10 := by
  have range := toNat_of_isDigit digit
  rw [digitValue]
  omega

theorem digits_digitValue {c : Char} (digit : c.isDigit = true) : digits (digitValue c) = [c] := by
  have range := toNat_of_isDigit digit
  have small := digitValue_lt digit
  rw [digits, Nat.toDigits_of_lt_base small, List.cons.injEq]
  refine ⟨Char.toNat_inj.mp ?_, rfl⟩
  rw [Nat.toNat_digitChar_of_lt_ten small, digitValue]
  omega

/-- Digits are zeros before the digits of the number that they spell. -/
theorem exists_zeros {ds : List Char} (nonempty : ds ≠ []) (solid : ∀ c ∈ ds, c.isDigit = true) :
    ∃ zeros, ds = List.replicate zeros '0' ++ digits (ofDigits ds) := by
  induction ds using List.reverseRecOn with
  | nil => exact absurd rfl nonempty
  | append_singleton ds c ih =>
    have digit : c.isDigit = true := solid c (by simp)
    have before : ∀ d ∈ ds, d.isDigit = true := fun d member => solid d (by simp [member])
    rw [ofDigits_append_singleton]
    rcases Nat.eq_zero_or_pos (ofDigits ds) with zero | positive
    · -- All digits so far are zeros, and the last one alone spells the number.
      have alone : digits (10 * ofDigits ds + digitValue c) = [c] := by
        rw [zero, Nat.mul_zero, Nat.zero_add, digits_digitValue digit]
      rw [alone]
      cases ds with
      | nil => exact ⟨0, rfl⟩
      | cons first rest =>
        obtain ⟨zeros, spelled⟩ := ih (List.cons_ne_nil _ _) before
        rw [zero] at spelled
        refine ⟨zeros + 1, ?_⟩
        rw [List.replicate_succ']
        exact congrArg (· ++ [c]) spelled
    · have more : ds ≠ [] := by
        rintro rfl
        exact absurd positive (by decide)
      obtain ⟨zeros, spelled⟩ := ih more before
      have next : digits (10 * ofDigits ds + digitValue c) = digits (ofDigits ds) ++ [c] := by
        rw [← digits_digitValue digit]
        exact (Nat.toDigits_append_toDigits (by decide) positive (digitValue_lt digit)).symm
      refine ⟨zeros, ?_⟩
      rw [next, ← List.append_assoc, ← spelled]

/-- Digits are taken up to where no digit follows. -/
theorem takeWhile_digits {ds : List Char} (solid : ∀ c ∈ ds, c.isDigit = true) (rest : List Char)
    (ends : rest.takeWhile Char.isDigit = []) :
    (ds ++ rest).takeWhile Char.isDigit = ds ∧ (ds ++ rest).dropWhile Char.isDigit = rest := by
  have dropped : rest.dropWhile Char.isDigit = rest := by
    have parts := List.takeWhile_append_dropWhile (p := Char.isDigit) (l := rest)
    rwa [ends, List.nil_append] at parts
  constructor
  · rw [List.takeWhile_append_of_pos solid, ends, List.append_nil]
  · rw [List.dropWhile_append_of_pos solid, dropped]

/-- The signs that an integer may be written with. Zero has either one. -/
inductive SignOf (n : Int) : List Char → Prop
  | minus (low : n ≤ 0) : SignOf n ['-']
  | plus (high : 0 ≤ n) : SignOf n ['+']
  | absent (high : 0 ≤ n) : SignOf n []

/-- Digits have no sign before them. -/
theorem sign_of_solid {ds : List Char} (solid : ∀ c ∈ ds, c.isDigit = true) : sign ds = (false, ds) := by
  unfold sign
  split
  · exact absurd (solid '-' List.mem_cons_self) (by decide)
  · exact absurd (solid '+' List.mem_cons_self) (by decide)
  · rfl

/-- A sign that was taken off belongs to every size behind it. -/
theorem signOf_sign (text : List Char) (size : Nat) :
    ∃ mark, text = mark ++ (sign text).2 ∧ SignOf (if (sign text).1 then -size else size) mark := by
  unfold sign
  split
  · exact ⟨['-'], rfl, .minus (by simp)⟩
  · exact ⟨['+'], rfl, .plus (by simp)⟩
  · exact ⟨[], rfl, .absent (by simp)⟩

/-- The text is a sign, any number of zeros, and the digits of the integer. -/
inductive Spells (n : Int) : List Char → Prop
  | intro {mark : List Char} (zeros : Nat) (fits : SignOf n mark) :
      Spells n (mark ++ (List.replicate zeros '0' ++ digits n.natAbs))

theorem readInteger?_eq (text : List Char) :
    readInteger? text =
      if (sign text).2 = [] ∨ ¬ (sign text).2.all Char.isDigit then none
      else some (if (sign text).1 then -(ofDigits (sign text).2 : Int) else ofDigits (sign text).2) :=
  rfl

/-- Digits behind a sign that fits are read as the integer whose size they spell. -/
theorem readInteger?_signed {n : Int} {mark ds : List Char} (fits : SignOf n mark) (nonempty : ds ≠ [])
    (solid : ∀ c ∈ ds, c.isDigit = true) (size : ofDigits ds = n.natAbs) :
    readInteger? (mark ++ ds) = some n := by
  have spelled : ¬ (ds = [] ∨ ¬ ds.all Char.isDigit = true) := by
    rw [not_or, Decidable.not_not]
    exact ⟨nonempty, List.all_eq_true.mpr solid⟩
  cases fits with
  | minus low =>
    simp only [readInteger?, sign, List.cons_append, List.nil_append, if_neg spelled, ↓reduceIte, size,
      Option.some.injEq]
    omega
  | plus high =>
    simp only [readInteger?, sign, List.cons_append, List.nil_append, if_neg spelled,
      Bool.false_eq_true, ↓reduceIte, size, Option.some.injEq]
    omega
  | absent high =>
    simp only [readInteger?, List.nil_append, sign_of_solid solid, if_neg spelled,
      Bool.false_eq_true, ↓reduceIte, size, Option.some.injEq]
    omega

/-- What is read as an integer spells it. -/
theorem spells_of_readInteger? {text : List Char} {n : Int} (read : readInteger? text = some n) :
    Spells n text := by
  obtain ⟨mark, parts, fits⟩ := signOf_sign text (ofDigits (sign text).2)
  rw [readInteger?_eq] at read
  obtain ⟨guard, kept⟩ := Option.ite_none_left_eq_some.mp read
  obtain ⟨nonempty, solid⟩ := not_or.mp guard
  obtain rfl := Option.some.inj kept
  obtain ⟨zeros, spelled⟩ := exists_zeros nonempty (List.all_eq_true.mp (Decidable.not_not.mp solid))
  have size : (if (sign text).1 = true then -(ofDigits (sign text).2 : Int)
      else ofDigits (sign text).2).natAbs = ofDigits (sign text).2 := by
    split <;> simp
  have spells := Spells.intro zeros fits
  rw [size, ← spelled, ← parts] at spells
  exact spells

/-- A text is read as an integer exactly if it spells the integer. -/
theorem readInteger?_eq_some_iff {text : List Char} {n : Int} :
    readInteger? text = some n ↔ Spells n text := by
  constructor
  · exact spells_of_readInteger?
  · rintro ⟨zeros, fits⟩
    exact readInteger?_signed fits (List.append_ne_nil_of_right_ne_nil _ Nat.toDigits_ne_nil)
      (fun c => isDigit_of_mem_zeros) (by rw [ofDigits_zeros, ofDigits_digits])

/-- A spelling holds a digit, and besides digits at most a sign. -/
theorem Spells.ne_nil {n : Int} {text : List Char} (spells : Spells n text) : text ≠ [] := by
  obtain ⟨zeros, -⟩ := spells
  exact List.append_ne_nil_of_right_ne_nil _ (List.append_ne_nil_of_right_ne_nil _ Nat.toDigits_ne_nil)

theorem Spells.isDigit_or_sign {n : Int} {text : List Char} (spells : Spells n text) {c : Char}
    (member : c ∈ text) : c.isDigit = true ∨ c = '-' ∨ c = '+' := by
  obtain ⟨zeros, fits⟩ := spells
  rcases List.mem_append.mp member with mark | digit
  · cases fits with
    | minus => exact .inr (.inl (List.mem_singleton.mp mark))
    | plus => exact .inr (.inr (List.mem_singleton.mp mark))
    | absent => exact absurd mark List.not_mem_nil
  · exact .inl (isDigit_of_mem_zeros digit)

theorem toList_toString (n : Int) :
    (toString n).toList = if n < 0 then '-' :: digits n.natAbs else digits n.natAbs := by
  rw [Int.toString_eq_repr]
  cases n with
  | ofNat m => simp [Int.repr, digits]
  | negSucc m => simp [Int.repr, digits, Int.negSucc_lt_zero]

theorem spells_toString (n : Int) : Spells n (toString n).toList := by
  rw [toList_toString]
  split
  · next negative => exact .intro 0 (.minus (Int.le_of_lt negative))
  · next natural => exact .intro 0 (.absent (Int.not_lt.mp natural))

end Decimal

/-- A text is read as a 64-bit integer exactly if it spells it. -/
theorem Int64.read?_eq_some_iff {text : List Char} {n : Int64} :
    Int64.read? text = some n ↔ Decimal.Spells n.toInt text := by
  rw [Int64.read?, Option.bind_eq_some_iff]
  constructor
  · rintro ⟨m, read, kept⟩
    obtain ⟨⟨low, high⟩, same⟩ := Option.ite_none_right_eq_some.mp kept
    obtain rfl := Option.some.inj same
    rw [Int64.toInt_minValue] at low
    rw [Int64.toInt_maxValue] at high
    rw [Int64.toInt_ofInt_of_le low (by omega)]
    exact Decimal.readInteger?_eq_some_iff.mp read
  · intro spells
    refine ⟨n.toInt, Decimal.readInteger?_eq_some_iff.mpr spells, ?_⟩
    rw [if_pos ⟨Int64.minValue_le_toInt n, Int64.toInt_le n⟩, Int64.ofInt_toInt]

end PageServer

import PageServer.Proofs.Number.Numeral
import PageServer.Proofs.Text.Parts
import PageServer.Template.Value

/-! # Integer arithmetic

A value is read as an integer exactly if it is that integer or a text that spells it between blanks, so the
form of an operand does not matter. The result is the exact one, with quotients truncated toward zero, if
there is one and it fits 64 bits, and an arithmetic failure if not. In place the result is the same one, and
a failure leaves the value alone.
-/

namespace PageServer.Template

open Text (Blanks)

theorem isBlank_of_mem_spelling {n : Int} {core : List Char} (spells : Decimal.Spells n core) :
    ∀ c ∈ core, Text.isBlank c = false := by
  intro c member
  rcases spells.isDigit_or_sign member with digit | rfl | rfl
  · exact Text.isBlank_of_isDigit digit
  · decide
  · decide

/-- A digit is neither a point nor the mark of an exponent. -/
theorem plain_of_isDigit {c : Char} (digit : c.isDigit = true) :
    (c != '.' && c != 'e' && c != 'E') = true := by
  have other {d : Char} (none : d.isDigit = false) : (c != d) = true := by
    refine bne_iff_ne.mpr fun same => ?_
    rw [same, none] at digit
    contradiction
  simp only [other (d := '.') rfl, other (d := 'e') rfl, other (d := 'E') rfl, Bool.and_true]

/-- A text is read as an integer exactly if it spells it between blanks. -/
theorem Number.read_eq_int_iff {text : List Char} {i : Int64} :
    Number.read text = .ok (.int i) ↔ Decimal.Spells i.toInt (Text.trim text) := by
  constructor
  · intro isInt
    simp only [read] at isInt
    split at isInt
    · contradiction
    split at isInt
    · next n found =>
      obtain ⟨-, spelled⟩ := Option.ite_none_right_eq_some.mp found
      obtain rfl : n = i := Number.int.inj (Except.ok.inj isInt)
      exact Int64.read?_eq_some_iff.mp spelled
    · -- A numeral that is not an integer is read as a double, if at all.
      split at isInt
      · contradiction
      split at isInt <;> simp at isInt
  · intro spells
    have plain : ((Text.trim text).all fun c => c != '.' && c != 'e' && c != 'E') = true := by
      refine List.all_eq_true.mpr fun c member => ?_
      rcases spells.isDigit_or_sign member with digit | rfl | rfl
      · exact plain_of_isDigit digit
      · decide
      · decide
    simp only [read, if_neg spells.ne_nil, plain, ↓reduceIte, Int64.read?_eq_some_iff.mpr spells]

/-- An integer is read from its decimal spelling. -/
theorem Number.read_toString (i : Int64) : Number.read (toString i.toInt).toList = .ok (.int i) := by
  have spells := Decimal.spells_toString i.toInt
  rw [Number.read_eq_int_iff, Text.trim_eq_self (isBlank_of_mem_spelling spells)]
  exact spells

namespace Value

/-- The value is the integer, or a text that spells it between blanks. -/
inductive Gives (i : Int64) : Value → Prop
  | int : Gives i (.int i)
  | text {front core back : List Char} (blankFront : Blanks front) (spells : Decimal.Spells i.toInt core)
      (blankBack : Blanks back) : Gives i (.text (String.ofList (front ++ core ++ back)))

/-- No other values are read as the integer. -/
theorem number_eq_int_iff {v : Value} {i : Int64} : v.number = .ok (.int i) ↔ v.Gives i := by
  constructor
  · intro isInt
    cases v with
    | int n =>
      obtain rfl : n = i := Number.int.inj (Except.ok.inj isInt)
      exact .int
    | float x => simp [number] at isInt
    | text s =>
      obtain ⟨front, back, blankFront, blankBack, parts⟩ := Text.exists_blanks_trim s.toList
      rw [← String.ofList_toList (s := s), parts]
      exact .text blankFront (Number.read_eq_int_iff.mp isInt) blankBack
  · rintro (_ | ⟨blankFront, spells, blankBack⟩)
    · rfl
    · rw [number, String.toList_ofList, Number.read_eq_int_iff,
        Text.trim_between blankFront blankBack (isBlank_of_mem_spelling spells)]
      exact spells

end Value

/-- The integer is the exact result. What a quotient leaves over is smaller than the divisor and has the sign
of the dividend. -/
def BinaryOp.IsExact : BinaryOp → Int → Int → Int → Prop
  | .add, a, b, r => r = a + b
  | .subtract, a, b, r => r = a - b
  | .multiply, a, b, r => r = a * b
  | .divide, a, b, r =>
    ∃ rest, a = b * r + rest ∧ rest.natAbs < b.natAbs ∧ (0 ≤ a → 0 ≤ rest) ∧ (a ≤ 0 → rest ≤ 0)

/-- The truncated quotient is the exact one, and there is no other. -/
theorem tdiv_eq_iff {a b q : Int} (nonzero : b ≠ 0) : a.tdiv b = q ↔ BinaryOp.divide.IsExact a b q := by
  constructor
  · rintro rfl
    have smaller : (a.tmod b).natAbs < b.natAbs := by
      rw [Int.natAbs_tmod]
      exact Nat.mod_lt _ (Int.natAbs_pos.mpr nonzero)
    have low (negative : a ≤ 0) : a.tmod b ≤ 0 :=
      ((Int.tdiv_tmod_unique' negative nonzero).mp ⟨rfl, rfl⟩).2.2
    exact ⟨a.tmod b, (Int.mul_tdiv_add_tmod a b).symm, smaller, Int.tmod_nonneg b, low⟩
  · rintro ⟨rest, parts, smaller, high, low⟩
    rcases Int.le_total 0 a with natural | negative
    · have within := high natural
      exact ((Int.tdiv_tmod_unique natural nonzero).mpr ⟨by omega, within, by omega⟩).1
    · have within := low negative
      exact ((Int.tdiv_tmod_unique' negative nonzero).mpr ⟨by omega, by omega, within⟩).1

/-- Only division by zero has no exact result. -/
theorem BinaryOp.isExact_iff {op : BinaryOp} {a b r : Int} :
    op.IsExact a b r ↔ ¬(op = .divide ∧ b = 0) ∧ op.onInt a b = r := by
  cases op with
  | add | subtract | multiply => simp [IsExact, onInt, eq_comm]
  | divide =>
    rcases eq_or_ne b 0 with rfl | nonzero
    · simp [IsExact]
    · simp [← tdiv_eq_iff nonzero, nonzero, onInt]

section Computing

variable {op : BinaryOp} {a b : Int64}

theorem toInt_eq_zero_iff : b.toInt = 0 ↔ b = 0 :=
  Int64.toInt_inj (x := b) (y := 0)

theorem Number.compute_of_isExact {r : Int64} (exact : op.IsExact a.toInt b.toInt r.toInt) :
    Number.compute op (.int a) (.int b) = .ok (.int r) := by
  obtain ⟨defined, result⟩ := BinaryOp.isExact_iff.mp exact
  rw [toInt_eq_zero_iff] at defined
  have fits : Int64.minValue.toInt ≤ r.toInt ∧ r.toInt ≤ Int64.maxValue.toInt :=
    ⟨Int64.minValue_le_toInt r, Int64.toInt_le r⟩
  simp only [compute, if_neg defined, result, if_pos fits, Int64.ofInt_toInt]

theorem Number.compute_of_not_isExact (none : ∀ r : Int64, ¬ op.IsExact a.toInt b.toInt r.toInt) :
    ∃ reason, Number.compute op (.int a) (.int b) = .error (.arithmetic reason) := by
  by_cases defined : op = .divide ∧ b = 0
  · exact ⟨_, if_pos defined⟩
  · have outside : ¬ (Int64.minValue.toInt ≤ op.onInt a.toInt b.toInt ∧
        op.onInt a.toInt b.toInt ≤ Int64.maxValue.toInt) := by
      rintro ⟨low, high⟩
      rw [Int64.toInt_minValue] at low
      rw [Int64.toInt_maxValue] at high
      rw [← toInt_eq_zero_iff] at defined
      refine none (Int64.ofInt (op.onInt a.toInt b.toInt)) (BinaryOp.isExact_iff.mpr ⟨defined, ?_⟩)
      rw [Int64.toInt_ofInt_of_le low (by omega)]
    simp only [compute, if_neg defined, if_neg outside]
    exact ⟨_, rfl⟩

end Computing

namespace Value

theorem combine_of_number {op : BinaryOp} {v w : Value} {a b : Number} (left : v.number = .ok a)
    (right : w.number = .ok b) : v.combine op w = (Number.compute op a b).map Number.toValue := by
  rw [combine, left, right]
  rfl

/-- In place there is the same result, and a failure leaves the value as it was. -/
theorem apply_eq (op : BinaryOp) (v w : Value) :
    apply op w v =
      match v.combine op w with
      | .ok result => .ok () result
      | .error e => .error e v := by
  have computed : v.combine op w =
      (v.number.bind fun a => w.number.bind fun b => Number.compute op a b).map Number.toValue := by
    rw [combine]
    cases v.number with
    | error e => rfl
    | ok a => cases w.number <;> rfl
  have run : apply op w v =
      (MonadExcept.ofExcept (v.number.bind fun a => w.number.bind fun b => Number.compute op a b) >>=
        fun result => set result.toValue : EStateM ScriptError Value Unit) v :=
    rfl
  rw [run, computed]
  cases (v.number.bind fun a => w.number.bind fun b => Number.compute op a b) <;> rfl

/-- Arithmetic on integers in any form is exact, and it fails as arithmetic exactly where no integer of 64
bits is the exact result. In place it is the same, and a failure leaves the left operand as it was. -/
theorem combine_integers (op : BinaryOp) {a b : Int64} {v w : Value} (left : v.Gives a)
    (right : w.Gives b) :
    (∀ r : Int64, op.IsExact a.toInt b.toInt r.toInt →
      v.combine op w = .ok (.int r) ∧ apply op w v = .ok () (.int r)) ∧
    ((∀ r : Int64, ¬ op.IsExact a.toInt b.toInt r.toInt) → ∃ reason,
      v.combine op w = .error (.arithmetic reason) ∧ apply op w v = .error (.arithmetic reason) v) := by
  rw [apply_eq, combine_of_number (number_eq_int_iff.mpr left) (number_eq_int_iff.mpr right)]
  constructor
  · intro r exact
    rw [Number.compute_of_isExact exact]
    exact ⟨rfl, rfl⟩
  · intro none
    obtain ⟨reason, fails⟩ := Number.compute_of_not_isExact none
    rw [fails]
    exact ⟨reason, rfl, rfl⟩

/-- At the lower end of the range: one more is exact, the quotient by `-1` does not fit, and no text for zero
divides. -/
theorem combine_integers_least :
    let least : Value := .text "\t-009223372036854775808 "
    least.Gives Int64.minValue ∧ (Value.text "-1").Gives (-1) ∧ (Value.text " -00").Gives 0 ∧
      least.combine .subtract (.text "-1") = .ok (.int (-9223372036854775807)) ∧
      (∃ reason, least.combine .divide (.text "-1") = .error (.arithmetic reason) ∧
        apply .divide (.text "-1") least = .error (.arithmetic reason) least) ∧
      ∃ reason, least.combine .divide (.text " -00") = .error (.arithmetic reason) ∧
        apply .divide (.text " -00") least = .error (.arithmetic reason) least := by
  intro least
  have isLeast : least.Gives Int64.minValue := number_eq_int_iff.mp (by decide +kernel)
  have isMinusOne : (Value.text "-1").Gives (-1) := number_eq_int_iff.mp (by decide +kernel)
  have isZero : (Value.text " -00").Gives 0 := number_eq_int_iff.mp (by decide +kernel)
  have next : BinaryOp.subtract.IsExact Int64.minValue.toInt (-1 : Int64).toInt
      (-9223372036854775807 : Int64).toInt :=
    BinaryOp.isExact_iff.mpr (by decide)
  have noQuotient : ∀ r : Int64, ¬ BinaryOp.divide.IsExact Int64.minValue.toInt (-1 : Int64).toInt r.toInt := by
    intro r exact
    have result : (9223372036854775808 : Int) = r.toInt := (BinaryOp.isExact_iff.mp exact).2
    have bound := Int64.toInt_le r
    rw [← result] at bound
    exact absurd bound (by decide)
  have noZeroQuotient : ∀ r : Int64, ¬ BinaryOp.divide.IsExact Int64.minValue.toInt (0 : Int64).toInt r.toInt :=
    fun r exact => (BinaryOp.isExact_iff.mp exact).1 ⟨rfl, rfl⟩
  exact ⟨isLeast, isMinusOne, isZero, ((combine_integers .subtract isLeast isMinusOne).1 _ next).1,
    (combine_integers .divide isLeast isMinusOne).2 noQuotient,
    (combine_integers .divide isLeast isZero).2 noZeroQuotient⟩

end Value

end PageServer.Template

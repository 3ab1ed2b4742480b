import PageServer.Proofs.Number.ReadBack
import PageServer.Proofs.Template.Arithmetic
import PageServer.Template.Builtin

/-! # Numbers that are stored as texts

What is stored for the request or in the session is the text of a value. An integer is read from its text
again, and so is a finite double whose text has a point, which shows that it is a double. A whole double from
`10 ^ 15` on is written without one: if it fits 64 bits, it comes back as an integer (`LosesPoint`), and only
then is the number not the same.
-/

namespace PageServer

theorem Binary64.toFloat_magnitude (x : Float) :
    Binary64.toFloat (Binary64.isNegative x) (Binary64.magnitude x) = x := by
  have size := x.toBits.toNat_lt
  have whole : (if Binary64.isNegative x then Binary64.signBit + Binary64.magnitude x
      else Binary64.magnitude x) = x.toBits.toNat := by
    rcases Nat.lt_or_ge x.toBits.toNat Binary64.signBit with low | high
    · have natural : Binary64.isNegative x = false := decide_eq_false (Nat.not_le.mpr low)
      rw [natural, if_neg Bool.false_ne_true, Binary64.magnitude, Nat.mod_eq_of_lt low]
    · have negative : Binary64.isNegative x = true := decide_eq_true high
      rw [negative, if_pos rfl, Binary64.magnitude]
      simp only [Binary64.signBit] at high ⊢
      omega
  rw [Binary64.toFloat, whole, UInt64.ofNat_toNat, Float.ofBits_toBits]

namespace Template

open Binary64 (magnitude isNegative infinity isWhole numerator denominator nearest one)
open Shortest (decimal units)

def IsNumeral (text : List Char) : Prop :=
  ∀ c ∈ text, c.isDigit = true ∨ c = '-' ∨ c = '.'

theorem not_isAlpha_of_isDigit {c : Char} (digit : c.isDigit = true) : ¬ c.isAlpha = true := by
  intro alpha
  have low := Decimal.toNat_of_isDigit digit
  have high := Text.toNat_of_isAlpha alpha
  omega

theorem IsNumeral.isBlank_eq_false {text : List Char} (numeral : IsNumeral text) :
    ∀ c ∈ text, Text.isBlank c = false := by
  intro c member
  rcases numeral c member with digit | rfl | rfl
  · exact Text.isBlank_of_isDigit digit
  · decide
  · decide

/-- Only a point shows that a numeral is not an integer, since it has no exponent. -/
theorem IsNumeral.all_plain {text : List Char} (numeral : IsNumeral text) :
    (text.all fun c => c != '.' && c != 'e' && c != 'E') = decide ('.' ∉ text) := by
  rw [Bool.eq_iff_iff, List.all_eq_true, decide_eq_true_eq]
  constructor
  · intro plain point
    exact absurd (plain '.' point) (by decide)
  · intro none c member
    rcases numeral c member with digit | rfl | rfl
    · exact plain_of_isDigit digit
    · decide
    · exact absurd member none

theorem IsNumeral.any_letter {text : List Char} (numeral : IsNumeral text) :
    (text.any fun c => c.isAlpha && c != 'e' && c != 'E') = false := by
  refine List.any_eq_false.mpr fun c member letter => ?_
  have alpha := (Bool.and_eq_true_iff.mp (Bool.and_eq_true_iff.mp letter).1).1
  rcases numeral c member with digit | rfl | rfl
  · exact not_isAlpha_of_isDigit digit alpha
  · exact absurd alpha (by decide)
  · exact absurd alpha (by decide)

/-- A numeral without a point is tried as an integer first. -/
theorem Number.read_of_numeral {text : List Char} (numeral : IsNumeral text) {x : Float}
    (reads : Decimal.readFloat? text = some x) :
    Number.read text =
      match if '.' ∈ text then none else Int64.read? text with
      | some n => .ok (.int n)
      | none => .ok (.float x) := by
  have nonempty : text ≠ [] := by
    rintro rfl
    have unread : Decimal.readFloat? [] = none := by decide
    exact absurd (unread.symm.trans reads) nofun
  simp only [read, Text.trim_eq_self numeral.isBlank_eq_false, if_neg nonempty, numeral.all_plain,
    numeral.any_letter, reads]
  by_cases point : '.' ∈ text
  · simp [point]
  · simp only [point, not_false_eq_true, decide_true, ↓reduceIte]
    cases Int64.read? text <;> rfl

section Finite

variable {x : Float} (finite : magnitude x < infinity)

include finite

theorem toList_renderFloat :
    (Value.renderFloat x).toList =
      Decimal.minus (isNegative x) ++
        (Decimal.positional (decimal (magnitude x)).1 (decimal (magnitude x)).2 ++
          if isWhole (magnitude x) = true ∧ numerator (magnitude x) < 10 ^ 15 * denominator (magnitude x)
          then ['.', '0'] else []) := by
  have number : ¬ infinity < magnitude x := Nat.not_lt.mpr finite.le
  rw [Value.renderFloat, if_neg number, if_neg finite.ne]
  have mark : (if isNegative x then "-" else "").toList = Decimal.minus (isNegative x) := by
    cases isNegative x <;> rfl
  have place (whole : Bool) (small : Prop) [Decidable small] :
      (if whole && decide small then ".0" else "").toList =
        if whole = true ∧ small then ['.', '0'] else [] := by
    cases whole <;> by_cases holds : small <;> simp [holds]
  rw [String.toList_append, String.toList_append, List.append_assoc, String.toList_ofList, mark, place]
  rfl

/-- The double is read from what is written. -/
theorem readFloat?_renderFloat : Decimal.readFloat? (Value.renderFloat x).toList = some x := by
  have same := Shortest.magnitude_decimal finite.le
  suffices numeral : ∃ c' e', Decimal.read? (Value.renderFloat x).toList = some ⟨isNegative x, c', e'⟩ ∧
      Decimal.magnitude c' e' = magnitude x by
    obtain ⟨c', e', read, value⟩ := numeral
    rw [Decimal.readFloat?, read, Option.map_some, Decimal.toFloat, value, Binary64.toFloat_magnitude]
    rfl
  rw [toList_renderFloat finite]
  split
  · next marked =>
    have read := Decimal.read?_positional_zero (isNegative x) (decimal (magnitude x)).1
      (Shortest.exponent_decimal finite marked.1)
    rwa [same] at read
  · have read := Decimal.read?_positional (isNegative x) (decimal (magnitude x)).1 (decimal (magnitude x)).2
    rwa [same, ← List.append_nil (Decimal.positional _ _)] at read

theorem isNumeral_renderFloat : IsNumeral (Value.renderFloat x).toList := by
  intro c member
  rw [toList_renderFloat finite] at member
  rcases List.mem_append.mp member with mark | member
  · exact .inr (.inl (Decimal.eq_of_mem_minus _ mark))
  rcases List.mem_append.mp member with number | place
  · exact (Decimal.isDigit_or_point_of_mem_positional number).imp_right .inr
  · split at place
    · rcases List.mem_cons.mp place with rfl | zero
      · exact .inr (.inr rfl)
      · rw [List.mem_singleton.mp zero]
        exact .inl rfl
    · exact absurd place List.not_mem_nil

/-- A whole double that is not small is written as the digits of a natural number. -/
theorem toList_renderFloat_of_whole (positive : 0 < magnitude x) (whole : isWhole (magnitude x) = true)
    (large : 10 ^ 15 * denominator (magnitude x) ≤ numerator (magnitude x)) :
    (Value.renderFloat x).toList =
      Decimal.minus (isNegative x) ++ Decimal.digits (Shortest.natural (magnitude x)) := by
  have none := Shortest.exponent_decimal finite whole
  have unmarked : ¬ (isWhole (magnitude x) = true ∧
      numerator (magnitude x) < 10 ^ 15 * denominator (magnitude x)) :=
    fun both => absurd both.2 (Nat.not_lt.mpr large)
  rw [toList_renderFloat finite, if_neg unmarked, List.append_nil, Decimal.positional_of_nonneg none,
    Shortest.natural, Decimal.digits_mul_ten_pow (Shortest.decimal_pos positive finite)]

/-- A text without a point is the one of a whole double that is not small. -/
theorem point_mem_renderFloat (other : ¬ (isWhole (magnitude x) = true ∧
    10 ^ 15 * denominator (magnitude x) ≤ numerator (magnitude x))) :
    '.' ∈ (Value.renderFloat x).toList := by
  rw [toList_renderFloat finite]
  refine List.mem_append_right _ ?_
  by_cases whole : isWhole (magnitude x) = true
  · have small := Nat.not_le.mp fun large => other ⟨whole, large⟩
    rw [if_pos ⟨whole, small⟩]
    exact List.mem_append_right _ List.mem_cons_self
  · have places := Int.not_le.mp (mt (Shortest.exponent_decimal_iff finite).mp whole)
    obtain ⟨front, back, spelled, -⟩ := Decimal.exists_point places (decimal (magnitude x)).1
    rw [spelled]
    exact List.mem_append_left _ (List.mem_append_right _ List.mem_cons_self)

end Finite

/-- The double is whole, is written without a point, and fits 64 bits. -/
def LosesPoint (x : Float) : Prop :=
  isWhole (magnitude x) = true ∧ 10 ^ 15 * denominator (magnitude x) ≤ numerator (magnitude x) ∧
    numerator (magnitude x) < 2 ^ 63 * denominator (magnitude x)

instance (x : Float) : Decidable (LosesPoint x) :=
  inferInstanceAs (Decidable (_ ∧ _ ∧ _))

section Finite

variable {x : Float} (finite : magnitude x < infinity)

/-- The integer that is written for a whole double. -/
def writtenInt (x : Float) : Int :=
  if isNegative x then -(Shortest.natural (magnitude x) : Int) else Shortest.natural (magnitude x)

include finite in
theorem spells_renderFloat (positive : 0 < magnitude x) (whole : isWhole (magnitude x) = true)
    (large : 10 ^ 15 * denominator (magnitude x) ≤ numerator (magnitude x)) :
    Decimal.Spells (writtenInt x) (Value.renderFloat x).toList := by
  have size : (writtenInt x).natAbs = Shortest.natural (magnitude x) := by
    rw [writtenInt]
    split <;> omega
  have fits : Decimal.SignOf (writtenInt x) (Decimal.minus (isNegative x)) := by
    rw [writtenInt, Decimal.minus]
    split
    · exact .minus (by omega)
    · exact .absent (by omega)
  have spells := Decimal.Spells.intro 0 fits
  rwa [size, List.replicate_zero, List.nil_append,
    ← toList_renderFloat_of_whole finite positive whole large] at spells

theorem magnitude_pos_of_large (large : 10 ^ 15 * denominator (magnitude x) ≤ numerator (magnitude x)) :
    0 < magnitude x := by
  have unit := Binary64.denominator_pos (magnitude x)
  refine Nat.pos_of_ne_zero fun zero => ?_
  have nothing : numerator (magnitude x) = 0 := by
    rw [zero]
    decide
  omega

include finite in
theorem writtenInt_range (loses : LosesPoint x) : -2 ^ 63 ≤ writtenInt x ∧ writtenInt x < 2 ^ 63 := by
  obtain ⟨whole, large, small⟩ := loses
  obtain ⟨V, value⟩ := Binary64.isWhole_iff.mp whole
  rw [Binary64.numerator_of_units value] at small
  have bound := Shortest.natural_lt (magnitude_pos_of_large large) finite value
    (Nat.lt_of_mul_lt_mul_right small)
  rw [writtenInt]
  split <;> omega

include finite in
/-- What is too large for 64 bits has digits that are too large, too. -/
theorem writtenInt_outside (whole : isWhole (magnitude x) = true)
    (large : 10 ^ 15 * denominator (magnitude x) ≤ numerator (magnitude x)) (keeps : ¬ LosesPoint x) :
    writtenInt x < -2 ^ 63 ∨ 2 ^ 63 ≤ writtenInt x := by
  obtain ⟨V, value⟩ := Binary64.isWhole_iff.mp whole
  have beyond : 2 ^ 63 ≤ V := by
    by_contra small
    refine keeps ⟨whole, large, ?_⟩
    rw [Binary64.numerator_of_units value]
    exact Nat.mul_lt_mul_of_pos_right (Nat.not_le.mp small) (Binary64.denominator_pos _)
  have bound := Shortest.lt_natural (magnitude_pos_of_large large) finite value beyond
  rw [writtenInt]
  split <;> omega

include finite in
/-- What is written is read as the double, unless the point is lost. -/
theorem read_renderFloat :
    Number.read (Value.renderFloat x).toList =
      if LosesPoint x then .ok (.int (Int64.ofInt (writtenInt x))) else .ok (.float x) := by
  rw [Number.read_of_numeral (isNumeral_renderFloat finite) (readFloat?_renderFloat finite)]
  by_cases shape : isWhole (magnitude x) = true ∧
      10 ^ 15 * denominator (magnitude x) ≤ numerator (magnitude x)
  · obtain ⟨whole, large⟩ := shape
    have spells := spells_renderFloat finite (magnitude_pos_of_large large) whole large
    have unmarked : '.' ∉ (Value.renderFloat x).toList := by
      intro point
      rcases spells.isDigit_or_sign point with digit | minus | plus
      · exact absurd digit (by decide)
      · exact absurd minus (by decide)
      · exact absurd plus (by decide)
    rw [if_neg unmarked]
    by_cases loses : LosesPoint x
    · have range := writtenInt_range finite loses
      have read : Int64.read? (Value.renderFloat x).toList = some (Int64.ofInt (writtenInt x)) := by
        rw [Int64.read?_eq_some_iff, Int64.toInt_ofInt_of_le range.1 range.2]
        exact spells
      rw [if_pos loses, read]
    · have outside := writtenInt_outside finite whole large loses
      have read : Int64.read? (Value.renderFloat x).toList = none := by
        refine Option.eq_none_iff_forall_ne_some.mpr fun n isInt => ?_
        have spelled := Decimal.readInteger?_eq_some_iff.mpr (Int64.read?_eq_some_iff.mp isInt)
        rw [Decimal.readInteger?_eq_some_iff.mpr spells] at spelled
        have same := Option.some.inj spelled
        have least := Int64.minValue_le_toInt n
        have greatest := Int64.toInt_le n
        rw [Int64.toInt_minValue] at least
        rw [Int64.toInt_maxValue] at greatest
        omega
      rw [if_neg loses, read]
  · have keeps : ¬ LosesPoint x := fun loses => shape ⟨loses.1, loses.2.1⟩
    rw [if_pos (point_mem_renderFloat finite shape), if_neg keeps]

include finite in
/-- The double is the nearest one to the integer that is written for it. -/
theorem toFloat_writtenInt (loses : LosesPoint x) :
    Binary64.toFloat (decide (writtenInt x < 0)) (nearest (writtenInt x).natAbs 1) = x := by
  have positive := magnitude_pos_of_large loses.2.1
  have number := Shortest.natural_pos positive finite
  have rounds := Shortest.nearest_natural positive finite (Shortest.exponent_decimal finite loses.1)
  have size : (writtenInt x).natAbs = Shortest.natural (magnitude x) := by
    rw [writtenInt]
    split <;> omega
  have sign : decide (writtenInt x < 0) = isNegative x := by
    rw [writtenInt]
    cases isNegative x with
    | true => simpa using number
    | false => simp
  rw [size, rounds, sign, Binary64.toFloat_magnitude]

end Finite

namespace Value

def IsFinite : Value → Prop
  | .int _ => True
  | .float x => magnitude x < infinity
  | .text _ => False

/-- The value is a double that comes back as an integer. -/
def ComesBackAsInt : Value → Prop
  | .float x => LosesPoint x
  | _ => False

/-- A number is read from its text, unless it is a double that comes back as an integer. -/
theorem number_text_render_iff {v : Value} (finite : v.IsFinite) :
    (Value.text v.render).number = v.number ↔ ¬ v.ComesBackAsInt := by
  cases v with
  | int n => exact iff_of_true (Number.read_toString n) id
  | float x =>
    change Number.read (renderFloat x).toList = .ok (.float x) ↔ ¬ LosesPoint x
    rw [read_renderFloat finite]
    split
    · next loses => exact iff_of_false (by simp) (not_not_intro loses)
    · next keeps => exact iff_of_true rfl keeps
  | text s => exact finite.elim

/-- Arithmetic and comparisons do not tell the values apart. -/
def ActsAs (v v' : Value) : Prop :=
  ∀ w : Value,
    (∀ op, v.combine op w = v'.combine op w ∧ w.combine op v = w.combine op v') ∧
      v.numericCompare w = v'.numericCompare w ∧ w.numericCompare v = w.numericCompare v' ∧
      v.compare w = v'.compare w ∧ w.compare v = w.compare v'

theorem actsAs_of_number {v v' : Value} (same : v.number = v'.number) (written : v.render = v'.render) :
    v.ActsAs v' := by
  intro w
  have left : v.numericCompare w = v'.numericCompare w := by rw [numericCompare, numericCompare, same]
  have right : w.numericCompare v = w.numericCompare v' := by rw [numericCompare, numericCompare, same]
  refine ⟨fun op => ⟨by rw [combine, combine, same], by rw [combine, combine, same]⟩, left, right, ?_, ?_⟩
  · rw [compare, compare, left, written]
  · rw [compare, compare, right, written]

/-- With a double every sum is a double, and with an integer zero adds no point. -/
theorem not_actsAs_of_int {v : Value} {x : Float} {n : Int64} (isInt : v.number = .ok (.int n)) :
    ¬ v.ActsAs (.float x) := by
  intro same
  have sum := ((same (.int 0)).1 .add).1
  have exact_ : BinaryOp.add.IsExact n.toInt (0 : Int64).toInt n.toInt := (Int.add_zero _).symm
  rw [combine_of_number isInt rfl, Number.compute_of_isExact exact_] at sum
  exact absurd sum nofun

/-- What is fetched from a scope is the text that was stored in it. -/
theorem pushFrom_stored (scope : Exchange → Scope) {name : Value} {text : String} {m : Machine}
    (stored : (scope m.exchange)[name.render]? = some text) (default : Value) :
    Eval.pushFrom scope name default m = Eval.push echoStack (.text text) m := by
  have fetched : Eval.pushFrom scope name default m =
      Eval.push echoStack (((scope m.exchange)[name.render]?.map Value.text).getD default) m := rfl
  rw [fetched, stored, Option.map_some, Option.getD_some]

theorem temporary_stored (name default v : Value) :
    (Eval.callBinary .setTemporary name v >>= fun _ => Eval.callBinary .temporary name default) =
      Eval.callBinary .setTemporary name v >>= fun _ => Eval.push echoStack (.text v.render) := by
  funext m
  exact pushFrom_stored (m := { m with exchange := m.exchange.setTemporary name.render v.render })
    (·.temporary) Std.ExtTreeMap.getElem?_insert_self default

theorem attribute_stored (name default v : Value) :
    (Eval.callBinary .setAttribute name v >>= fun _ => Eval.callBinary .attribute name default) =
      Eval.callBinary .setAttribute name v >>= fun _ => Eval.push echoStack (.text v.render) := by
  funext m
  exact pushFrom_stored (m := { m with exchange := m.exchange.setAttribute name.render v.render })
    (·.session.attributes) Std.ExtTreeMap.getElem?_insert_self default

/-- A number that is stored and fetched is a text: to all arithmetic and comparisons the number itself,
exactly if it is not a double that comes back as an integer. Then it is one that the double is nearest to. -/
theorem stored_number (name default : Value) {v : Value} (finite : v.IsFinite) :
    (Eval.callBinary .setTemporary name v >>= fun _ => Eval.callBinary .temporary name default) =
        (Eval.callBinary .setTemporary name v >>= fun _ => Eval.push echoStack (.text v.render)) ∧
      (Eval.callBinary .setAttribute name v >>= fun _ => Eval.callBinary .attribute name default) =
        (Eval.callBinary .setAttribute name v >>= fun _ => Eval.push echoStack (.text v.render)) ∧
      ((Value.text v.render).number = v.number ↔ ¬ v.ComesBackAsInt) ∧
      ((Value.text v.render).ActsAs v ↔ ¬ v.ComesBackAsInt) ∧
      (∀ x, v = .float x → LosesPoint x → ∃ n : Int64, (Value.text v.render).number = .ok (.int n) ∧
        Binary64.toFloat (decide (n.toInt < 0)) (nearest n.toInt.natAbs 1) = x) := by
  have asInt : ∀ x, v = .float x → LosesPoint x → ∃ n : Int64,
      (Value.text v.render).number = .ok (.int n) ∧
        Binary64.toFloat (decide (n.toInt < 0)) (nearest n.toInt.natAbs 1) = x := by
    rintro x rfl loses
    refine ⟨Int64.ofInt (writtenInt x), ?_, ?_⟩
    · exact (read_renderFloat finite).trans (if_pos loses)
    · have range := writtenInt_range finite loses
      rw [Int64.toInt_ofInt_of_le range.1 range.2]
      exact toFloat_writtenInt finite loses
  refine ⟨temporary_stored name default v, attribute_stored name default v, number_text_render_iff finite,
    ⟨?_, fun keeps => actsAs_of_number ((number_text_render_iff finite).mpr keeps) rfl⟩, asInt⟩
  intro same comesBack
  cases v with
  | int | text => exact comesBack
  | float x =>
    obtain ⟨n, isInt, -⟩ := asInt x rfl comesBack
    exact not_actsAs_of_int isInt same

/-- The double nearest to one tenth is stored as `0.1` and still acts as itself. -/
theorem stored_number_tenth :
    let tenth : Value := .float (Float.ofBits 0x3FB999999999999A)
    tenth.IsFinite ∧ tenth.render = "0.1" ∧ (Value.text "0.1").ActsAs tenth := by
  intro tenth
  have finite : tenth.IsFinite := by
    change Binary64.magnitude (Float.ofBits 0x3FB999999999999A) < Binary64.infinity
    decide +kernel
  have keeps : ¬ tenth.ComesBackAsInt := by
    change ¬ LosesPoint (Float.ofBits 0x3FB999999999999A)
    decide +kernel
  have written : tenth.render = "0.1" := by decide +kernel
  have acts := (stored_number (.text "x") (.text "") finite).2.2.2.1.mpr keeps
  rw [written] at acts
  exact ⟨finite, written, acts⟩

/-- The double `10 ^ 15` is stored without a point and comes back as an integer: half of its successor is
rounded toward zero. -/
theorem stored_number_loses_half :
    let large : Value := .float (Float.ofBits 0x430C6BF526340000)
    let halfOfNext (v : Value) := v.combine .add (.int 1) >>= fun next => next.combine .divide (.int 2)
    large.IsFinite ∧ large.render = "1000000000000000" ∧
      (Value.text large.render).number = .ok (.int 1000000000000000) ∧
      (halfOfNext large).map Value.render = .ok "500000000000000.5" ∧
      (halfOfNext (.text large.render)).map Value.render = .ok "500000000000000" := by
  intro large halfOfNext
  have finite : large.IsFinite := by
    change Binary64.magnitude (Float.ofBits 0x430C6BF526340000) < Binary64.infinity
    decide +kernel
  exact ⟨finite, by decide +kernel, by decide +kernel, by decide +kernel, by decide +kernel⟩

end Value

end Template

end PageServer

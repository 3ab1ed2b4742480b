import PageServer.Proofs.Number.Nearest
import PageServer.Proofs.Number.Numeral

/-! # Doubles that are read back

The decimal of a finite double is read as the double again (`magnitude_decimal`): a short decimal was tried,
and the exact expansion has the value of the double. A whole double has a decimal without a fraction
(`exponent_decimal`), since with all of its digits before the point it would be found at the latest.
-/

namespace PageServer

namespace Decimal

open Binary64 (nearest)

/-- Zeros behind the digits are powers of ten. -/
theorem digits_mul_ten_pow {n : Nat} (positive : 0 < n) (j : Nat) :
    digits (n * 10 ^ j) = digits n ++ List.replicate j '0' := by
  induction j with
  | zero => simp
  | succ j ih =>
    have next : n * 10 ^ (j + 1) = 10 * (n * 10 ^ j) + 0 := by rw [Nat.pow_succ]; ac_rfl
    have larger : 0 < n * 10 ^ j := Nat.mul_pos positive (Nat.pow_pos (by decide))
    have append : digits (10 * (n * 10 ^ j) + 0) = digits (n * 10 ^ j) ++ digits 0 :=
      (Nat.toDigits_append_toDigits (by decide) larger (by decide)).symm
    rw [next, append, ih, List.append_assoc, List.replicate_succ']
    rfl

theorem two_pow_le_ten_pow (k : Nat) : 2 ^ (3 * k) ≤ 10 ^ k := by
  rw [pow_mul]
  exact Nat.pow_le_pow_left (by decide) k

theorem two_pow_le_scaled {c e k : Nat} (nonzero : c ≠ 0) (digits : k ≤ c.log2 + 3 * e) :
    2 ^ k ≤ c * 10 ^ e := by
  calc 2 ^ k ≤ 2 ^ (c.log2 + 3 * e) := Nat.pow_le_pow_right (by decide) digits
    _ = 2 ^ c.log2 * 2 ^ (3 * e) := pow_add _ _ _
    _ ≤ c * 10 ^ e := Nat.mul_le_mul (Nat.log2_self_le nonzero) (two_pow_le_ten_pow e)

/-- What is known to be out of range by the size of the numeral alone is out of range. -/
theorem magnitude_eq_nearest {c : Nat} (positive : 0 < c) (e : Int) :
    magnitude c e = nearest (c * 10 ^ e.toNat) (10 ^ (-e).toNat) := by
  have most : c < 2 ^ (c.log2 + 1) := Nat.lt_log2_self
  simp only [magnitude, Nat.pow_eq]
  split
  · next tiny =>
    obtain ⟨negative, size⟩ := tiny.resolve_left positive.ne'
    have whole : e.toNat = 0 := by omega
    have small : c * 2 ^ 1075 ≤ 10 ^ (-e).toNat := by
      calc c * 2 ^ 1075 ≤ 2 ^ (c.log2 + 1) * 2 ^ 1075 := Nat.mul_le_mul_right _ most.le
        _ = 2 ^ (c.log2 + 1 + 1075) := (pow_add _ _ _).symm
        _ ≤ 2 ^ (3 * (-e).toNat) := Nat.pow_le_pow_right (by decide) (by omega)
        _ ≤ 10 ^ (-e).toNat := two_pow_le_ten_pow _
    rw [whole, pow_zero, Nat.mul_one, Binary64.nearest_eq_zero positive (by positivity) small]
  split
  · next huge =>
    have whole : (-e).toNat = 0 := by omega
    have large := two_pow_le_scaled positive.ne' (show 1024 ≤ c.log2 + 3 * e.toNat by omega)
    rw [← Nat.mul_one (2 ^ 1024)] at large
    rw [whole, pow_zero, Binary64.nearest_eq_infinity Nat.one_pos large]
  · rfl

theorem magnitude_zero (e : Int) : magnitude 0 e = 0 := by
  simp [magnitude]

/-- Zeros behind a numeral are made up for by the exponent. -/
theorem magnitude_zeros (c j : Nat) (e : Int) : magnitude (c * 10 ^ j) (e - j) = magnitude c e := by
  rcases Nat.eq_zero_or_pos c with rfl | positive
  · rw [Nat.zero_mul, magnitude_zero, magnitude_zero]
  · rw [magnitude_eq_nearest (by positivity), magnitude_eq_nearest positive]
    refine Binary64.nearest_congr (by positivity) (by positivity) (by positivity) ?_
    rw [Nat.mul_assoc, Nat.mul_assoc, Nat.mul_assoc, ← pow_add, ← pow_add, ← pow_add]
    congr 2
    omega

end Decimal

namespace Shortest

open Binary64 (one nearest infinity denominator isWhole)

variable {bits : Nat}

theorem magnitude_expansion (positive : 0 < bits) (numeral : bits ≤ infinity) :
    Decimal.magnitude (expansion bits).1 (expansion bits).2 = bits := by
  have value := Binary64.numerator_pos positive
  have unit : denominator bits = 2 ^ (1074 - Binary64.scale bits) := rfl
  rw [expansion]
  generalize 1074 - Binary64.scale bits = k at unit
  have natural : (-(k : Int)).toNat = 0 := by omega
  have places : (- -(k : Int)).toNat = k := by omega
  have coefficient : 0 < Binary64.numerator bits * 5 ^ k := Nat.mul_pos value (Nat.pow_pos (by decide))
  calc Decimal.magnitude (Binary64.numerator bits * 5 ^ k) (-(k : Int))
      = nearest (Binary64.numerator bits * 5 ^ k * 10 ^ 0) (10 ^ k) := by
        rw [Decimal.magnitude_eq_nearest coefficient, natural, places]
    _ = nearest (Binary64.numerator bits) (denominator bits) := by
        refine Binary64.nearest_congr ?_ (Nat.pow_pos (by decide)) (Binary64.denominator_pos bits) ?_
        · rwa [pow_zero, Nat.mul_one]
        have ten : (10 : Nat) ^ k = 5 ^ k * 2 ^ k := by rw [← Nat.mul_pow]
        rw [pow_zero, Nat.mul_one, ten, unit, Nat.mul_assoc]
    _ = bits := Binary64.nearest_value positive numeral

/-- A decimal that was found was tried, on a grid of at most 17 digits. -/
theorem decimal_cases (positive : 0 < bits) :
    (∃ n < 17, decimal bits ∈ candidates (place bits) (Decimal.digits (place bits).below).length (n + 1) ∧
      Decimal.magnitude (decimal bits).1 (decimal bits).2 = bits ∧
      ∀ m < n, ∀ c ∈ candidates (place bits) (Decimal.digits (place bits).below).length (m + 1),
        Decimal.magnitude c.1 c.2 ≠ bits) ∨
    decimal bits = expansion bits ∧
      ∀ m < 17, ∀ c ∈ candidates (place bits) (Decimal.digits (place bits).below).length (m + 1),
        Decimal.magnitude c.1 c.2 ≠ bits := by
  simp only [decimal, if_neg positive.ne']
  generalize (Decimal.digits (place bits).below).length = digits
  have missed {n : Nat} (none : (candidates (place bits) digits (n + 1)).find?
      (fun c => Decimal.magnitude c.1 c.2 = bits) = none) :
      ∀ c ∈ candidates (place bits) digits (n + 1), Decimal.magnitude c.1 c.2 ≠ bits := by
    simpa using none
  cases search : (List.range 17).findSome? fun n =>
      (candidates (place bits) digits (n + 1)).find? fun c => Decimal.magnitude c.1 c.2 = bits with
  | none =>
    right
    rw [List.findSome?_eq_none_iff] at search
    exact ⟨rfl, fun m within => missed (search m (List.mem_range.mpr within))⟩
  | some c =>
    left
    obtain ⟨before, n, behind, split, found, earlier⟩ := List.findSome?_eq_some_iff.mp search
    have place : (List.range 17)[before.length]? = some n := by rw [split]; simp
    obtain ⟨within, same⟩ := List.getElem?_eq_some_iff.mp place
    rw [List.length_range] at within
    rw [List.getElem_range] at same
    have first : before = List.range n := by
      have taken := congrArg (List.take before.length) split
      rw [List.take_left, List.take_range, min_eq_left within.le, same] at taken
      exact taken.symm
    have reads := List.find?_some found
    refine ⟨n, by omega, List.mem_of_find?_eq_some found, of_decide_eq_true reads, fun m less => ?_⟩
    exact missed (earlier m (first ▸ List.mem_range.mpr less))

/-- The decimal of a finite double is read as the double. -/
theorem magnitude_decimal (numeral : bits ≤ infinity) :
    Decimal.magnitude (decimal bits).1 (decimal bits).2 = bits := by
  rcases Nat.eq_zero_or_pos bits with rfl | positive
  · rfl
  · rcases decimal_cases positive with ⟨_, -, -, reads, -⟩ | ⟨exact_, -⟩
    · exact reads
    · rw [exact_, magnitude_expansion positive numeral]

/-- A candidate has the exponent of its grid, or a greater one. -/
theorem exponent_of_mem_candidates {p : Place} {digits count : Nat} {c : Nat × Int}
    (member : c ∈ candidates p digits count) : p.exponent + (digits - count : Nat) ≤ c.2 := by
  simp only [candidates, List.mem_map] at member
  obtain ⟨k, -, rfl⟩ := member
  rw [carry]
  split
  · simp
  · exact le_rfl

section Whole

variable {V : Nat} (positive : 0 < bits) (numeral : bits < infinity) (value : units bits = V * one)

include positive value in
theorem whole_pos : 0 < V := by
  have product := Binary64.units_pos positive
  rw [value] at product
  exact Nat.pos_of_mul_pos_right product

include positive value in
/-- A whole double of at most 17 digits lies on a grid that is finer than one. -/
theorem place_exponent_neg (short : V < 10 ^ 17) : (place bits).exponent < 0 := by
  have nonzero : V ≠ 0 := (whole_pos positive value).ne'
  have length : V.log2 < 57 := (Nat.log2_lt nonzero).mpr (short.trans (by decide))
  have size : (units bits).log2 = V.log2 + 1074 := by
    rw [value, Binary64.log2_mul_one nonzero]
  simp only [place, size]
  omega

section Fine

variable (fine : (place bits).exponent < 0)

include fine

/-- The units of a double in which the bounds of its place are counted. -/
theorem place_denominator : 2 * one * Nat.pow 10 (place bits).exponent.toNat = 2 * one := by
  have natural : (place bits).exponent.toNat = 0 := by omega
  rw [natural, Nat.pow_eq, pow_zero, Nat.mul_one]

include value in
/-- The double is a point of the grid. -/
theorem place_below : (place bits).below = V * 10 ^ (-(place bits).exponent).toNat := by
  have below : (place bits).below = 2 * units bits * Nat.pow 10 (-(place bits).exponent).toNat /
      (2 * one * Nat.pow 10 (place bits).exponent.toNat) := rfl
  rw [below, place_denominator fine, value, Nat.pow_eq]
  refine Nat.div_eq_of_eq_mul_left (Nat.mul_pos Nat.two_pos Binary64.one_pos) ?_
  ring

include positive numeral value in
/-- The double is inside of its own interval. -/
theorem place_bounds :
    (place bits).least ≤ V * 10 ^ (-(place bits).exponent).toNat ∧
      V * 10 ^ (-(place bits).exponent).toNat ≤ (place bits).greatest := by
  have denominator := place_denominator fine
  have lower := Binary64.units_lt_units (Nat.sub_lt positive Nat.one_pos) numeral.le
  have upper := Binary64.units_lt_units bits.lt_succ_self numeral
  have least : (place bits).least =
      ((units (bits - 1) + units bits) * Nat.pow 10 (-(place bits).exponent).toNat +
        (2 * one * Nat.pow 10 (place bits).exponent.toNat - 1 + bits % 2)) /
        (2 * one * Nat.pow 10 (place bits).exponent.toNat) := rfl
  have greatest : (place bits).greatest =
      ((units bits + units (bits + 1)) * Nat.pow 10 (-(place bits).exponent).toNat - bits % 2) /
        (2 * one * Nat.pow 10 (place bits).exponent.toNat) := rfl
  have one_pos := Binary64.one_pos
  rw [least, greatest, denominator, Nat.pow_eq]
  rw [value] at lower upper ⊢
  generalize hP : 10 ^ (-(place bits).exponent).toNat = P
  have unit : 0 < P := hP ▸ Nat.pow_pos (by decide)
  have below : (units (bits - 1) + 1) * P ≤ V * one * P := Nat.mul_le_mul_right _ lower
  have above : (V * one + 1) * P ≤ units (bits + 1) * P := Nat.mul_le_mul_right _ upper
  have grid : V * P * (2 * one) = 2 * (V * one * P) := by ring
  constructor
  · refine Nat.le_of_lt_succ ((Nat.div_lt_iff_lt_mul (Nat.mul_pos Nat.two_pos one_pos)).mpr ?_)
    rw [Nat.succ_mul (V * P), grid, Nat.add_mul]
    rw [Nat.add_mul] at below
    omega
  · rw [Nat.le_div_iff_mul_le (Nat.mul_pos Nat.two_pos one_pos), grid, Nat.add_mul]
    rw [Nat.add_mul] at above
    omega

include positive value in
theorem length_below :
    (Decimal.digits (place bits).below).length =
      (Decimal.digits V).length + (-(place bits).exponent).toNat := by
  rw [place_below value fine, Decimal.digits_mul_ten_pow (whole_pos positive value), List.length_append,
    List.length_replicate]

include positive numeral value in
/-- With all of its digits before the point the double is a candidate for itself. -/
theorem mem_candidates :
    (V, 0) ∈ candidates (place bits) (Decimal.digits (place bits).below).length (Decimal.digits V).length := by
  have unit : 0 < 10 ^ (-(place bits).exponent).toNat := by positivity
  have multiple := Nat.mul_div_cancel V unit
  have rest := Nat.mul_mod_left V (10 ^ (-(place bits).exponent).toNat)
  have first : V ∈ neighbours (V * 10 ^ (-(place bits).exponent).toNat)
      (10 ^ (-(place bits).exponent).toNat) := by
    rw [neighbours, multiple, rest, Nat.mul_zero, if_pos unit]
    exact List.mem_cons_self
  have shorter : V ≠ 10 ^ (Decimal.digits V).length :=
    ((Nat.length_toDigits_le_iff (by decide) Nat.length_toDigits_pos).mp le_rfl).ne
  have whole : (place bits).exponent + ((-(place bits).exponent).toNat : Int) = 0 := by omega
  rw [length_below positive value fine, candidates, Nat.add_sub_cancel_left, place_below value fine]
  refine List.mem_map.mpr ⟨V, List.mem_filter.mpr ⟨first, ?_⟩, ?_⟩
  · obtain ⟨low, high⟩ := place_bounds positive numeral value fine
    exact Bool.and_eq_true_iff.mpr ⟨decide_eq_true low, decide_eq_true high⟩
  · rw [carry, Nat.pow_eq, if_neg shorter, whole]

end Fine

include positive numeral value in
/-- A whole double is read from its own digits. -/
theorem magnitude_whole : Decimal.magnitude V 0 = bits := by
  have natural := whole_pos positive value
  rw [Decimal.magnitude_eq_nearest natural]
  calc nearest (V * 10 ^ 0) (10 ^ 0) = nearest (units bits) one := by
        refine Binary64.nearest_congr (by positivity) (by positivity) Binary64.one_pos ?_
        rw [value]
        ring
    _ = bits := Binary64.nearest_units positive numeral.le

include value in
/-- A double from `10 ^ 17` on has no places behind the point. -/
theorem expansion_exponent_of_long (long : 10 ^ 17 ≤ V) : (expansion bits).2 = 0 := by
  have large : 1074 ≤ Binary64.scale bits := by
    by_contra small
    have bound : units bits < V * one := by
      obtain ⟨-, short, -⟩ := Binary64.bits_parts bits
      calc units bits < 2 ^ 53 * 2 ^ Binary64.scale bits :=
            Nat.mul_lt_mul_of_pos_right short (Nat.two_pow_pos _)
        _ ≤ V * one := Nat.mul_le_mul ((by decide : 2 ^ 53 ≤ 10 ^ 17).trans long) ?_
      rw [← Binary64.two_pow_mul_two_pow (Nat.add_sub_cancel' (Nat.not_le.mp small).le)]
      exact Nat.le_mul_of_pos_right _ (Nat.two_pow_pos _)
    exact absurd value bound.ne
  rw [expansion, Nat.sub_eq_zero_of_le large]
  rfl

end Whole

/-- The decimal of a whole double has no places behind the point. -/
theorem exponent_decimal (numeral : bits < infinity) (whole : isWhole bits = true) :
    0 ≤ (decimal bits).2 := by
  rcases Nat.eq_zero_or_pos bits with rfl | positive
  · exact le_rfl
  obtain ⟨V, value⟩ := Binary64.isWhole_iff.mp whole
  have some_digit : 0 < (Decimal.digits V).length := Nat.length_toDigits_pos
  have length_le : (Decimal.digits V).length ≤ 17 ↔ V < 10 ^ 17 :=
    Nat.length_toDigits_le_iff (by decide) (by decide)
  rcases lt_or_ge V (10 ^ 17) with short | long
  · -- The double would be found with all of its digits, and with fewer the grid is coarser.
    have fine := place_exponent_neg positive value short
    have itself := mem_candidates positive numeral value fine
    have reads := magnitude_whole positive numeral value
    have few := length_le.mpr short
    obtain ⟨last, count⟩ : ∃ last, (Decimal.digits V).length = last + 1 :=
      ⟨_, (Nat.sub_add_cancel some_digit).symm⟩
    rw [count] at itself
    rcases decimal_cases positive with ⟨n, -, member, -, first⟩ | ⟨-, none⟩
    · have least := exponent_of_mem_candidates member
      rw [length_below positive value fine] at least
      have early : n ≤ last := by
        by_contra later
        exact first last (Nat.not_le.mp later) _ itself reads
      omega
    · exact absurd reads (none last (by omega) _ itself)
  · have many := mt length_le.mp (Nat.not_lt.mpr long)
    rcases decimal_cases positive with ⟨n, within, member, -, -⟩ | ⟨exact_, -⟩
    · have least := exponent_of_mem_candidates member
      rcases lt_or_ge (place bits).exponent 0 with fine | coarse
      · rw [length_below positive value fine] at least
        omega
      · omega
    · rw [exact_, expansion_exponent_of_long value long]

def natural (bits : Nat) : Nat :=
  (decimal bits).1 * 10 ^ (decimal bits).2.toNat

section Natural

variable (positive : 0 < bits) (numeral : bits < infinity)

include positive numeral

theorem decimal_pos : 0 < (decimal bits).1 := by
  have reads := magnitude_decimal numeral.le
  refine Nat.pos_of_ne_zero fun zero => positive.ne ?_
  rw [zero, Decimal.magnitude_zero] at reads
  exact reads

theorem nearest_natural (whole : 0 ≤ (decimal bits).2) : nearest (natural bits) 1 = bits := by
  have reads := magnitude_decimal numeral.le
  have places : (-(decimal bits).2).toNat = 0 := by omega
  rw [Decimal.magnitude_eq_nearest (decimal_pos positive numeral), places, pow_zero] at reads
  exact reads

theorem natural_pos : 0 < natural bits :=
  Nat.mul_pos (decimal_pos positive numeral) (Nat.pow_pos (by decide))

end Natural

/-- Only whole doubles have a decimal without places behind the point. -/
theorem exponent_decimal_iff (numeral : bits < infinity) :
    0 ≤ (decimal bits).2 ↔ isWhole bits = true := by
  refine ⟨fun none => ?_, exponent_decimal numeral⟩
  rcases Nat.eq_zero_or_pos bits with rfl | positive
  · decide +kernel
  · rw [← nearest_natural positive numeral none]
    exact Binary64.isWhole_nearest (natural_pos positive numeral)

def bits63 : Nat := 0x43E0000000000000

theorem nearest_two_pow_63 : nearest (2 ^ 63) 1 = bits63 := by
  decide +kernel

theorem units_bits63 : units bits63 = 2 ^ 63 * one := by
  have parts : Binary64.mantissa bits63 = 2 ^ 52 ∧ Binary64.scale bits63 = 11 + 1074 := by decide
  have powers : 2 ^ 52 * 2 ^ 11 = 2 ^ 63 := rfl
  rw [Binary64.units_eq, parts.1, parts.2, ← Binary64.two_pow_mul_one, ← Nat.mul_assoc, powers]

theorem natural_bits63 : natural bits63 = 9223372036854776000 := by
  decide +kernel

section Range

variable {V : Nat} (positive : 0 < bits) (numeral : bits < infinity) (value : units bits = V * one)

include positive numeral value

/-- The digits of a whole double below `2 ^ 63` spell a number below it. -/
theorem natural_lt (small : V < 2 ^ 63) : natural bits < 2 ^ 63 := by
  have whole := (exponent_decimal_iff numeral).mpr (Binary64.isWhole_iff.mpr ⟨V, value⟩)
  have below : bits < bits63 := by
    by_contra above
    have order : units bits63 ≤ units bits := by
      rcases (Nat.not_lt.mp above).lt_or_eq with less | same
      · exact (Binary64.units_lt_units less numeral.le).le
      · rw [same]
    rw [units_bits63, value] at order
    exact absurd (Nat.le_of_mul_le_mul_right order Binary64.one_pos) (Nat.not_le.mpr small)
  by_contra above
  have order := Binary64.nearest_le_nearest (by positivity) Nat.one_pos Nat.one_pos
    (Nat.mul_le_mul_right 1 (Nat.not_lt.mp above))
  rw [nearest_two_pow_63, nearest_natural positive numeral whole] at order
  omega

/-- The digits of a whole double from `2 ^ 63` on spell a number above it. -/
theorem lt_natural (large : 2 ^ 63 ≤ V) : 2 ^ 63 < natural bits := by
  have whole := (exponent_decimal_iff numeral).mpr (Binary64.isWhole_iff.mpr ⟨V, value⟩)
  have above : bits63 ≤ bits := by
    by_contra below
    have order := Binary64.units_lt_units (Nat.not_le.mp below) (by decide)
    rw [units_bits63, value] at order
    exact absurd (Nat.lt_of_mul_lt_mul_right order) (Nat.not_lt.mpr large)
  rcases above.lt_or_eq with less | same
  · by_contra below
    have order := Binary64.nearest_le_nearest (natural_pos positive numeral) Nat.one_pos Nat.one_pos
      (Nat.mul_le_mul_right 1 (Nat.not_lt.mp below))
    rw [nearest_two_pow_63, nearest_natural positive numeral whole] at order
    omega
  · -- The shortest digits of `2 ^ 63` itself spell a larger number.
    rw [← same, natural_bits63]
    decide

end Range

end Shortest

namespace Decimal

def minus (negative : Bool) : List Char :=
  if negative then ['-'] else []

section Reading

variable (negative : Bool) {ds whole part : List Char}

theorem eq_of_mem_minus {c : Char} (member : c ∈ minus negative) : c = '-' := by
  cases negative with
  | true => exact List.mem_singleton.mp member
  | false => exact absurd member List.not_mem_nil

theorem sign_minus (nonempty : ds ≠ []) (rest : List Char) (solid : ∀ c ∈ ds, c.isDigit = true) :
    sign (minus negative ++ (ds ++ rest)) = (negative, ds ++ rest) := by
  cases negative with
  | true => rfl
  | false =>
    obtain ⟨c, others, rfl⟩ := List.exists_cons_of_ne_nil nonempty
    have digit := solid c List.mem_cons_self
    change sign (c :: (others ++ rest)) = (false, c :: (others ++ rest))
    unfold sign
    split
    · next same => exact absurd ((List.cons.inj same).1 ▸ digit) (by decide)
    · next same => exact absurd ((List.cons.inj same).1 ▸ digit) (by decide)
    · rfl

theorem read?_natural (nonempty : ds ≠ []) (solid : ∀ c ∈ ds, c.isDigit = true) :
    read? (minus negative ++ ds) = some ⟨negative, ofDigits ds, 0⟩ := by
  have signed := sign_minus negative nonempty [] solid
  obtain ⟨taken, dropped⟩ := takeWhile_digits solid [] rfl
  rw [List.append_nil] at signed taken dropped
  simp [read?, signed, taken, dropped, fraction, exponent?, nonempty]

theorem read?_point (nonempty : whole ≠ []) (solid : ∀ c ∈ whole, c.isDigit = true)
    (solidPart : ∀ c ∈ part, c.isDigit = true) :
    read? (minus negative ++ (whole ++ '.' :: part)) =
      some ⟨negative, ofDigits (whole ++ part), -part.length⟩ := by
  have signed := sign_minus negative nonempty ('.' :: part) solid
  obtain ⟨taken, dropped⟩ := takeWhile_digits solid ('.' :: part) rfl
  obtain ⟨takenPart, droppedPart⟩ := takeWhile_digits solidPart [] rfl
  rw [List.append_nil] at takenPart droppedPart
  simp [read?, signed, taken, dropped, fraction, takenPart, droppedPart, exponent?, nonempty]

end Reading

theorem positional_of_nonneg {e : Int} (natural : 0 ≤ e) (c : Nat) :
    positional c e = digits c ++ List.replicate e.toNat '0' := by
  rw [positional]
  exact if_pos (by omega)

/-- With a negative exponent a point stands before the last places, and a digit before the point. -/
theorem exists_point {e : Int} (negative : e < 0) (c : Nat) :
    ∃ whole part, positional c e = whole ++ '.' :: part ∧ whole ≠ [] ∧
      (∀ d ∈ whole ++ part, d.isDigit = true) ∧ ofDigits (whole ++ part) = c ∧ (part.length : Int) = -e := by
  let places := (-e).toNat
  let padded := List.replicate (places + 1 - (digits c).length) '0' ++ digits c
  have long : places + 1 ≤ padded.length := by
    simp only [padded, List.length_append, List.length_replicate]
    omega
  refine ⟨padded.take (padded.length - places), padded.drop (padded.length - places), ?_, ?_, ?_, ?_, ?_⟩
  · rw [positional]
    exact if_neg (by omega)
  · refine List.ne_nil_of_length_pos ?_
    rw [List.length_take]
    omega
  · rw [List.take_append_drop]
    exact fun d => isDigit_of_mem_zeros
  · rw [List.take_append_drop, ofDigits_zeros, ofDigits_digits]
  · rw [List.length_drop]
    omega

theorem ofDigits_append_zeros (ds : List Char) (zeros : Nat) :
    ofDigits (ds ++ List.replicate zeros '0') = ofDigits ds * 10 ^ zeros := by
  induction zeros with
  | zero => simp
  | succ zeros ih =>
    rw [List.replicate_succ', ← List.append_assoc, ofDigits_append_singleton, ih, Nat.pow_succ]
    change 10 * (ofDigits ds * 10 ^ zeros) + 0 = _
    ring

theorem isDigit_of_mem_positional {e : Int} (natural : 0 ≤ e) {c : Nat} {d : Char}
    (member : d ∈ positional c e) : d.isDigit = true := by
  rw [positional_of_nonneg natural] at member
  rcases List.mem_append.mp member with digit | zero
  · exact isDigit_of_mem_digits digit
  · rw [List.eq_of_mem_replicate zero]
    rfl

theorem ofDigits_positional {e : Int} (natural : 0 ≤ e) (c : Nat) :
    ofDigits (positional c e) = c * 10 ^ e.toNat := by
  rw [positional_of_nonneg natural, ofDigits_append_zeros, ofDigits_digits]

theorem positional_ne_nil {e : Int} (natural : 0 ≤ e) (c : Nat) : positional c e ≠ [] := by
  rw [positional_of_nonneg natural]
  exact List.append_ne_nil_of_left_ne_nil Nat.toDigits_ne_nil _

theorem isDigit_or_point_of_mem_positional {c : Nat} {e : Int} {d : Char} (member : d ∈ positional c e) :
    d.isDigit = true ∨ d = '.' := by
  rcases lt_or_ge e 0 with below | natural
  · obtain ⟨whole, part, spelled, -, solid, -, -⟩ := exists_point below c
    rw [spelled] at member
    rcases List.mem_append.mp member with front | back
    · exact .inl (solid d (List.mem_append_left _ front))
    · exact (List.mem_cons.mp back).symm.imp_left fun inside => solid d (List.mem_append_right _ inside)
  · exact .inl (isDigit_of_mem_positional natural member)

/-- What is written is read as a numeral of the same double. -/
theorem read?_positional (negative : Bool) (c : Nat) (e : Int) :
    ∃ c' e', read? (minus negative ++ positional c e) = some ⟨negative, c', e'⟩ ∧
      magnitude c' e' = magnitude c e := by
  rcases lt_or_ge e 0 with below | natural
  · obtain ⟨whole, part, spelled, nonempty, solid, value, places⟩ := exists_point below c
    rw [List.forall_mem_append] at solid
    refine ⟨c, e, ?_, rfl⟩
    rw [spelled, read?_point negative nonempty solid.1 solid.2, value, places, Int.neg_neg]
  · have same := magnitude_zeros c e.toNat e
    rw [Int.toNat_of_nonneg natural, Int.sub_self] at same
    refine ⟨c * 10 ^ e.toNat, 0, ?_, same⟩
    rw [read?_natural negative (positional_ne_nil natural c) fun _ => isDigit_of_mem_positional natural,
      ofDigits_positional natural]

/-- One place behind the point does not matter. -/
theorem read?_positional_zero (negative : Bool) (c : Nat) {e : Int} (natural : 0 ≤ e) :
    ∃ c' e', read? (minus negative ++ (positional c e ++ ['.', '0'])) = some ⟨negative, c', e'⟩ ∧
      magnitude c' e' = magnitude c e := by
  have same := magnitude_zeros c (e.toNat + 1) e
  have shifted : e - (e.toNat + 1 : Nat) = -(1 : Nat) := by omega
  have value : ofDigits (positional c e ++ ['0']) = c * 10 ^ (e.toNat + 1) := by
    have appended := ofDigits_append_zeros (positional c e) 1
    rw [ofDigits_positional natural, Nat.mul_assoc, ← Nat.pow_add] at appended
    exact appended
  have zero : ∀ d ∈ ['0'], d.isDigit = true := by simp
  have read := read?_point negative (positional_ne_nil natural c)
    (fun _ => isDigit_of_mem_positional natural) zero
  rw [shifted] at same
  rw [value] at read
  exact ⟨c * 10 ^ (e.toNat + 1), -(1 : Nat), read, same⟩

end Decimal

end PageServer

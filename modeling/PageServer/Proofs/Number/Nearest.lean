import Mathlib
import PageServer.Number.Shortest

/-! # The nearest double

Rounding keeps the order of fractions (`nearest_le_nearest`), and the value of a double is rounded to itself
(`nearest_units`). So a fraction may be expanded, the doubles are in the order of their bits, and a natural
number is rounded to a whole double, to itself if it has at most 53 digits.
-/

namespace PageServer

/-- A rounded quotient is at most one half away, and a tie is even. -/
theorem roundDiv_bounds (num : Nat) {den : Nat} (positive : 0 < den) :
    let r := roundDiv num den
    2 * num ≤ (2 * r + 1) * den ∧ 2 * r * den ≤ 2 * num + den ∧
      (2 * num = (2 * r + 1) * den → r % 2 = 0) ∧ (2 * r * den = 2 * num + den → r % 2 = 0) := by
  have parts := Nat.div_add_mod num den
  have less := Nat.mod_lt num positive
  have below : 2 * (num / den) * den = 2 * (den * (num / den)) := by ring
  have above : 2 * (num / den + 1) * den = 2 * (den * (num / den)) + 2 * den := by ring
  simp only [roundDiv]
  split
  · simp only [Nat.add_mul, Nat.one_mul, below]
    omega
  split
  · simp only [Nat.add_mul, Nat.one_mul, above]
    omega
  split
  · simp only [Nat.add_mul, Nat.one_mul, below]
    omega
  · simp only [Nat.add_mul, Nat.one_mul, above]
    omega

/-- Rounding keeps the order of quotients. -/
theorem roundDiv_le_roundDiv {a b a' b' : Nat} (positive : 0 < b) (positive' : 0 < b')
    (le : a * b' ≤ a' * b) : roundDiv a b ≤ roundDiv a' b' := by
  obtain ⟨-, low, -, even⟩ := roundDiv_bounds a positive
  obtain ⟨high, -, even', -⟩ := roundDiv_bounds a' positive'
  generalize roundDiv a b = r at low even
  generalize roundDiv a' b' = r' at high even'
  by_contra larger
  -- The two can only be rounded apart if both are halfway between the same even numbers.
  have left : 2 * r * b * b' ≤ (2 * a + b) * b' := Nat.mul_le_mul_right _ low
  have right : 2 * a' * b ≤ (2 * r' + 1) * b' * b := Nat.mul_le_mul_right _ high
  have next : (2 * r' + 2) * (b * b') ≤ 2 * r * (b * b') := Nat.mul_le_mul_right _ (by omega)
  have same : (2 * r' + 2) * (b * b') = 2 * r * (b * b') := by nlinarith
  have step : 2 * r' + 2 = 2 * r := Nat.eq_of_mul_eq_mul_right (Nat.mul_pos positive positive') same
  have tie : 2 * r * b = 2 * a + b := Nat.eq_of_mul_eq_mul_right positive' (by nlinarith)
  have tie' : 2 * a' = (2 * r' + 1) * b' := Nat.eq_of_mul_eq_mul_right positive (by nlinarith)
  have := even tie
  have := even' tie'
  omega

theorem roundDiv_mul_mul {a b k : Nat} (positive : 0 < b) (factor : 0 < k) :
    roundDiv (a * k) (b * k) = roundDiv a b := by
  have scaled : 0 < b * k := Nat.mul_pos positive factor
  refine le_antisymm (roundDiv_le_roundDiv scaled positive ?_) (roundDiv_le_roundDiv positive scaled ?_)
  · exact le_of_eq (by ring)
  · exact le_of_eq (by ring)

namespace Binary64

open Shortest (units)

theorem log2_mul_two_pow {m : Nat} (nonzero : m ≠ 0) (k : Nat) : (m * 2 ^ k).log2 = m.log2 + k := by
  have shifted : m * 2 ^ k ≠ 0 := by positivity
  rw [Nat.log2_eq_iff shifted, Nat.add_right_comm, pow_add, pow_add]
  have positive : 0 < 2 ^ k := by positivity
  exact ⟨Nat.mul_le_mul_right _ (Nat.log2_self_le nonzero),
    Nat.mul_lt_mul_of_pos_right Nat.lt_log2_self positive⟩

theorem one_eq {k : Nat} (size : k = 1074) : one = 2 ^ k := by
  unfold one
  rw [← size]
  rfl

theorem two_pow_mul_one (k : Nat) : 2 ^ k * one = 2 ^ (k + 1074) := by
  obtain ⟨n, size⟩ : ∃ n, n = 1074 := ⟨_, rfl⟩
  rw [one_eq size, ← size, pow_add]

theorem two_pow_mul_two_pow {j k : Nat} (size : j + k = 1074) : 2 ^ j * 2 ^ k = one := by
  rw [← pow_add, one_eq size]

theorem log2_mul_one {m : Nat} (nonzero : m ≠ 0) : (m * one).log2 = m.log2 + 1074 := by
  obtain ⟨n, size⟩ : ∃ n, n = 1074 := ⟨_, rfl⟩
  rw [one_eq size, ← size, log2_mul_two_pow nonzero]

theorem one_pos : 0 < one := by
  rw [← two_pow_mul_two_pow (Nat.zero_add 1074)]
  positivity

/-- Counted in the smallest doubles, the fraction has 53 digits before the point at the scale, or fewer at the
smallest scale. -/
def HasScaleOver (num den scale : Nat) : Prop :=
  num * one < 2 ^ (53 + scale) * den ∧ (scale = 0 ∨ 2 ^ (52 + scale) * den ≤ num * one)

theorem two_pow_mul_two_pow_min (s : Nat) : 2 ^ (1074 - s) * 2 ^ min s 1074 = one ∧
    2 ^ (s - 1074) * 2 ^ min s 1074 = 2 ^ s := by
  rcases Nat.le_total s 1074 with low | high
  · rw [Nat.min_eq_left low, Nat.sub_eq_zero_of_le low, pow_zero, Nat.one_mul]
    exact ⟨two_pow_mul_two_pow (by omega), rfl⟩
  · rw [Nat.min_eq_right high, Nat.sub_eq_zero_of_le high, two_pow_mul_two_pow (Nat.zero_add 1074), ← pow_add]
    exact ⟨rfl, congrArg (2 ^ ·) (by omega)⟩

/-- How the two sides of the test on a guess are compared. -/
theorem tested_iff (num den guess : Nat) :
    num * Nat.pow 2 (1074 - guess) < hiddenBit * den * Nat.pow 2 (guess - 1074) ↔
      num * one < 2 ^ (52 + guess) * den := by
  obtain ⟨first, second⟩ := two_pow_mul_two_pow_min guess
  have positiveMin : 0 < 2 ^ min guess 1074 := by positivity
  rw [← Nat.mul_lt_mul_right positiveMin, Nat.pow_eq, Nat.pow_eq, Nat.mul_assoc, first, Nat.mul_assoc,
    second, pow_add]
  have hidden : hiddenBit * den * 2 ^ guess = 2 ^ 52 * 2 ^ guess * den := by
    rw [hiddenBit]
    ring
  rw [hidden]

section Guess

variable {num den : Nat}

/-- The scale that the lengths of the two numbers suggest. It is the scale or the next higher one. -/
def scaleGuess (num den : Nat) : Nat :=
  num.log2 + 1022 - den.log2

theorem lt_scaleGuess (positive : 0 < den) : num * one < 2 ^ (53 + scaleGuess num den) * den := by
  have most : num < 2 ^ (num.log2 + 1) := Nat.lt_log2_self
  have least := Nat.log2_self_le positive.ne'
  have lengths : num.log2 + 1 + 1074 ≤ 53 + scaleGuess num den + den.log2 := by
    rw [scaleGuess]
    omega
  calc num * one < 2 ^ (num.log2 + 1) * one := Nat.mul_lt_mul_of_pos_right most one_pos
    _ = 2 ^ (num.log2 + 1 + 1074) := two_pow_mul_one _
    _ ≤ 2 ^ (53 + scaleGuess num den + den.log2) := Nat.pow_le_pow_right (by decide) lengths
    _ = 2 ^ (53 + scaleGuess num den) * 2 ^ den.log2 := pow_add _ _ _
    _ ≤ 2 ^ (53 + scaleGuess num den) * den := Nat.mul_le_mul_left _ least

theorem scaleGuess_le (positive : 0 < num) (high : scaleGuess num den - 1 ≠ 0) :
    2 ^ (52 + (scaleGuess num den - 1)) * den ≤ num * one := by
  have least := Nat.log2_self_le positive.ne'
  have most : den < 2 ^ (den.log2 + 1) := Nat.lt_log2_self
  have lengths : 52 + (scaleGuess num den - 1) + (den.log2 + 1) ≤ num.log2 + 1074 := by
    rw [scaleGuess] at high ⊢
    omega
  calc 2 ^ (52 + (scaleGuess num den - 1)) * den
      ≤ 2 ^ (52 + (scaleGuess num den - 1)) * 2 ^ (den.log2 + 1) := Nat.mul_le_mul_left _ most.le
    _ = 2 ^ (52 + (scaleGuess num den - 1) + (den.log2 + 1)) := (pow_add _ _ _).symm
    _ ≤ 2 ^ (num.log2 + 1074) := Nat.pow_le_pow_right (by decide) lengths
    _ = 2 ^ num.log2 * one := (two_pow_mul_one _).symm
    _ ≤ num * one := Nat.mul_le_mul_right _ least

theorem hasScaleOver_scaleOf (positive : 0 < num) (positive' : 0 < den) :
    HasScaleOver num den (scaleOf num den) := by
  have above : num * one < 2 ^ (53 + scaleGuess num den) * den := lt_scaleGuess positive'
  have tested : scaleOf num den = if num * one < 2 ^ (52 + scaleGuess num den) * den then
      scaleGuess num den - 1 else scaleGuess num den := by
    simp only [scaleOf, scaleGuess, tested_iff]
    exact if_congr Iff.rfl rfl rfl
  rw [tested]
  split
  · next short =>
    refine ⟨?_, or_iff_not_imp_left.mpr (scaleGuess_le positive)⟩
    rcases Nat.eq_zero_or_pos (scaleGuess num den) with zero | high
    · rw [zero] at above ⊢
      exact above
    · have same : 53 + (scaleGuess num den - 1) = 52 + scaleGuess num den := by omega
      rw [same]
      exact short
  · next long => exact ⟨above, .inr (Nat.not_lt.mp long)⟩

end Guess

section Scale

variable {num den scale num' den' scale' : Nat}

/-- A fraction that is not larger has no larger scale. -/
theorem HasScaleOver.le (scaled : HasScaleOver num den scale) (scaled' : HasScaleOver num' den' scale')
    (positive : 0 < den) (le : num * den' ≤ num' * den) : scale ≤ scale' := by
  by_contra larger
  have leading := scaled.2.resolve_left (by omega)
  have bound := scaled'.1
  have grows : 2 ^ (53 + scale') ≤ 2 ^ (52 + scale) := Nat.pow_le_pow_right (by decide) (by omega)
  refine lt_irrefl (num' * den * one) ?_
  calc num' * den * one = num' * one * den := Nat.mul_right_comm _ _ _
    _ < 2 ^ (53 + scale') * den' * den := Nat.mul_lt_mul_of_pos_right bound positive
    _ ≤ 2 ^ (52 + scale) * den' * den := Nat.mul_le_mul_right _ (Nat.mul_le_mul_right _ grows)
    _ = 2 ^ (52 + scale) * den * den' := Nat.mul_right_comm _ _ _
    _ ≤ num * one * den' := Nat.mul_le_mul_right _ leading
    _ = num * den' * one := Nat.mul_right_comm _ _ _
    _ ≤ num' * den * one := Nat.mul_le_mul_right _ le

/-- The bits of a fraction at its scale, with a mantissa of full length if the scale is not the smallest
one. -/
theorem HasScaleOver.nearest_eq (scaled : HasScaleOver num den scale) (positive : 0 < num)
    (positive' : 0 < den) :
    nearest num den = min infinity (scale * hiddenBit + roundDiv (num * one) (den * 2 ^ scale)) := by
  have found := hasScaleOver_scaleOf positive positive'
  have same : scaleOf num den = scale :=
    le_antisymm (found.le scaled positive' le_rfl) (scaled.le found positive' le_rfl)
  obtain ⟨first, second⟩ := two_pow_mul_two_pow_min scale
  have expand := roundDiv_mul_mul (a := num * 2 ^ (1074 - scale)) (b := den * 2 ^ (scale - 1074))
    (k := 2 ^ min scale 1074) (by positivity) (by positivity)
  rw [Nat.mul_assoc, first, Nat.mul_assoc, second] at expand
  rw [nearest, same, Nat.pow_eq, Nat.pow_eq, expand]

theorem HasScaleOver.mantissa_bounds (scaled : HasScaleOver num den scale) (positive : 0 < den) :
    let r := roundDiv (num * one) (den * 2 ^ scale)
    r ≤ 2 ^ 53 ∧ (scale = 0 ∨ 2 ^ 52 ≤ r) := by
  have unit : 0 < den * 2 ^ scale := by positivity
  have regroup (k : Nat) : 2 ^ k * 1 * (den * 2 ^ scale) = 2 ^ (k + scale) * den := by
    rw [pow_add]
    ring
  obtain ⟨above, leading⟩ := scaled
  constructor
  · rw [← roundDiv_mul (n := 2 ^ 53) Nat.one_pos]
    refine roundDiv_le_roundDiv unit Nat.one_pos ?_
    rw [regroup, Nat.mul_one]
    exact above.le
  · refine leading.imp_right fun below => ?_
    rw [← roundDiv_mul (n := 2 ^ 52) Nat.one_pos]
    refine roundDiv_le_roundDiv Nat.one_pos unit ?_
    rw [regroup, Nat.mul_one]
    exact below

end Scale

/-- Rounding keeps the order of fractions. -/
theorem nearest_le_nearest {num den num' den' : Nat} (positive : 0 < num) (positiveDen : 0 < den)
    (positiveDen' : 0 < den') (le : num * den' ≤ num' * den) : nearest num den ≤ nearest num' den' := by
  have positive' : 0 < num' := Nat.pos_of_mul_pos_right ((Nat.mul_pos positive positiveDen').trans_le le)
  have scaled := hasScaleOver_scaleOf positive positiveDen
  have scaled' := hasScaleOver_scaleOf positive' positiveDen'
  have order := scaled.le scaled' positiveDen le
  have narrow := (scaled.mantissa_bounds positiveDen).1
  have wide := (scaled'.mantissa_bounds positiveDen').2
  rw [scaled.nearest_eq positive positiveDen, scaled'.nearest_eq positive' positiveDen']
  refine min_le_min_left _ ?_
  rcases order.lt_or_eq with lower | same
  · have full := wide.resolve_left (by omega)
    simp only [hiddenBit]
    omega
  · rw [same] at scaled ⊢
    refine Nat.add_le_add_left (roundDiv_le_roundDiv (by positivity) (by positivity) ?_) _
    generalize 2 ^ scaleOf num' den' = unit
    calc num * one * (den' * unit) = num * den' * (one * unit) := by ring
      _ ≤ num' * den * (one * unit) := Nat.mul_le_mul_right _ le
      _ = num' * one * (den * unit) := by ring

/-- Equal fractions are rounded to the same double. -/
theorem nearest_congr {num den num' den' : Nat} (positive : 0 < num) (positiveDen : 0 < den)
    (positiveDen' : 0 < den') (same : num * den' = num' * den) : nearest num den = nearest num' den' := by
  have positive' : 0 < num' :=
    Nat.pos_of_mul_pos_right ((Nat.mul_pos positive positiveDen').trans_le same.le)
  exact le_antisymm (nearest_le_nearest positive positiveDen positiveDen' same.le)
    (nearest_le_nearest positive' positiveDen' positiveDen same.ge)

/-- A fraction from `2 ^ 1024` on has no finite double. -/
theorem nearest_eq_infinity {num den : Nat} (positive : 0 < den) (large : 2 ^ 1024 * den ≤ num) :
    nearest num den = infinity := by
  have bound : nearest (2 ^ 1024) 1 = infinity := by decide +kernel
  refine le_antisymm (min_le_left _ _) ?_
  rw [← bound]
  exact nearest_le_nearest (by positivity) Nat.one_pos positive (by rwa [Nat.mul_one])

/-- Half of the smallest double and less is rounded to zero. -/
theorem nearest_eq_zero {num den : Nat} (positive : 0 < num) (positive' : 0 < den)
    (small : num * 2 ^ 1075 ≤ den) : nearest num den = 0 := by
  have bound : nearest 1 (2 ^ 1075) = 0 := by decide +kernel
  refine Nat.eq_zero_of_le_zero ?_
  rw [← bound]
  exact nearest_le_nearest positive positive' (by positivity) (by rwa [Nat.one_mul])

section Bits

variable {bits : Nat}

theorem mantissa_of_lt (low : bits < hiddenBit) : mantissa bits = bits :=
  if_pos low

theorem mantissa_of_le (high : hiddenBit ≤ bits) : mantissa bits = bits % hiddenBit + hiddenBit :=
  if_neg (Nat.not_lt.mpr high)

/-- The bits are those of a mantissa of full length, or of any mantissa at the smallest scale. -/
theorem bits_parts (bits : Nat) :
    scale bits * hiddenBit + mantissa bits = bits ∧ mantissa bits < 2 ^ 53 ∧
      (scale bits = 0 ∨ 2 ^ 52 ≤ mantissa bits) := by
  rcases Nat.lt_or_ge bits hiddenBit with low | high
  · rw [mantissa_of_lt low]
    simp only [scale, hiddenBit] at low ⊢
    omega
  · rw [mantissa_of_le high]
    simp only [scale, hiddenBit] at high ⊢
    omega

/-- Such a mantissa is found in the bits again. -/
theorem parts_of_bits {s m : Nat} (short : m < 2 ^ 53) (full : s = 0 ∨ 2 ^ 52 ≤ m) :
    mantissa (s * hiddenBit + m) = m ∧ scale (s * hiddenBit + m) = s := by
  rcases Nat.lt_or_ge (s * hiddenBit + m) hiddenBit with low | high
  · rw [mantissa_of_lt low]
    simp only [scale, hiddenBit] at low ⊢
    omega
  · rw [mantissa_of_le high]
    simp only [scale, hiddenBit] at high ⊢
    omega

theorem units_eq (bits : Nat) : units bits = mantissa bits * 2 ^ scale bits :=
  rfl

theorem units_pos (positive : 0 < bits) : 0 < units bits := by
  obtain ⟨parts, -, full⟩ := bits_parts bits
  have nonzero : 0 < mantissa bits := by
    rcases full with zero | full
    · rw [zero] at parts
      omega
    · omega
  exact Nat.mul_pos nonzero (Nat.two_pow_pos _)

/-- The value of a double is rounded to the double. -/
theorem nearest_units (positive : 0 < bits) (numeral : bits ≤ infinity) :
    nearest (units bits) one = bits := by
  obtain ⟨parts, short, full⟩ := bits_parts bits
  have scaled : HasScaleOver (units bits) one (scale bits) := by
    rw [HasScaleOver, units_eq, pow_add, pow_add]
    refine ⟨Nat.mul_lt_mul_of_pos_right ?_ one_pos, full.imp_right fun full => ?_⟩
    · exact Nat.mul_lt_mul_of_pos_right short (by positivity)
    · exact Nat.mul_le_mul_right _ (Nat.mul_le_mul_right _ full)
  have exact_ : roundDiv (units bits * one) (one * 2 ^ scale bits) = mantissa bits := by
    rw [units_eq, Nat.mul_assoc, Nat.mul_comm (2 ^ scale bits)]
    exact roundDiv_mul (Nat.mul_pos one_pos (Nat.two_pow_pos _))
  rw [scaled.nearest_eq (units_pos positive) one_pos, exact_, parts, min_eq_right numeral]

/-- The doubles are in the order of their bits. -/
theorem units_lt_units {a b : Nat} (less : a < b) (numeral : b ≤ infinity) : units a < units b := by
  rcases Nat.eq_zero_or_pos a with rfl | positive
  · exact units_pos less
  · by_contra order
    have rounded := nearest_le_nearest (units_pos (by omega)) one_pos one_pos
      (Nat.mul_le_mul_right one (Nat.not_lt.mp order))
    rw [nearest_units (by omega) numeral, nearest_units positive (by omega)] at rounded
    omega

theorem numerator_mul (bits : Nat) : numerator bits * one = units bits * denominator bits := by
  have powers : 2 ^ (scale bits - 1074) * one = 2 ^ scale bits * 2 ^ (1074 - scale bits) := by
    rw [two_pow_mul_one, ← pow_add]
    exact congrArg (2 ^ ·) (by omega)
  rw [numerator, denominator, units_eq, Nat.pow_eq, Nat.pow_eq, Nat.mul_assoc, powers, Nat.mul_assoc]

theorem denominator_pos (bits : Nat) : 0 < denominator bits :=
  Nat.pow_pos (by decide)

theorem numerator_pos (positive : 0 < bits) : 0 < numerator bits := by
  have product : 0 < numerator bits * one := by
    rw [numerator_mul]
    exact Nat.mul_pos (units_pos positive) (denominator_pos bits)
  exact Nat.pos_of_mul_pos_right product

theorem nearest_value (positive : 0 < bits) (numeral : bits ≤ infinity) :
    nearest (numerator bits) (denominator bits) = bits := by
  rw [nearest_congr (numerator_pos positive) (denominator_pos bits) one_pos (numerator_mul bits),
    nearest_units positive numeral]

/-- A whole double is a natural number of ones. -/
theorem numerator_of_units {n : Nat} (value : units bits = n * one) :
    numerator bits = n * denominator bits := by
  have same := numerator_mul bits
  rw [value, Nat.mul_right_comm] at same
  exact Nat.eq_of_mul_eq_mul_right one_pos same

theorem isWhole_iff : isWhole bits = true ↔ ∃ n, units bits = n * one := by
  rw [isWhole, decide_eq_true_eq]
  constructor
  · intro divided
    obtain ⟨n, value⟩ := Nat.dvd_of_mod_eq_zero divided
    refine ⟨n, Nat.eq_of_mul_eq_mul_right (denominator_pos bits) ?_⟩
    rw [← numerator_mul, value]
    ring
  · rintro ⟨n, value⟩
    rw [numerator_of_units value, Nat.mul_mod_left]

/-- A natural number of at most 53 digits is a double. -/
theorem units_nearest {n : Nat} (positive : 0 < n) (short : n < 2 ^ 53) :
    units (nearest n 1) = n * one := by
  have scaled := hasScaleOver_scaleOf positive Nat.one_pos
  have value := scaled.nearest_eq positive Nat.one_pos
  generalize scaleOf n 1 = s at scaled value
  rw [HasScaleOver, Nat.mul_one, Nat.mul_one] at scaled
  obtain ⟨above, leading⟩ := scaled
  have least : s ≤ 1074 := by
    rcases leading with zero | below
    · omega
    · have reach : 2 ^ (52 + s) < 2 ^ (53 + 1074) := by
        refine below.trans_lt ?_
        rw [← two_pow_mul_one]
        exact Nat.mul_lt_mul_of_pos_right short one_pos
      have := (Nat.pow_lt_pow_iff_right (by decide)).mp reach
      omega
  have split : 2 ^ (1074 - s) * 2 ^ s = one := two_pow_mul_two_pow (by omega)
  have rounded : roundDiv (n * one) (1 * 2 ^ s) = n * 2 ^ (1074 - s) := by
    rw [Nat.one_mul, ← split, ← Nat.mul_assoc]
    exact roundDiv_mul (by positivity)
  rw [← split, ← Nat.mul_assoc, pow_add] at above leading
  have shorter := Nat.lt_of_mul_lt_mul_right above
  have longer := leading.imp_right fun below => Nat.le_of_mul_le_mul_right below (by positivity)
  have finite : s * hiddenBit + n * 2 ^ (1074 - s) ≤ infinity := by
    simp only [hiddenBit, infinity]
    omega
  rw [value, rounded, min_eq_right finite, units_eq, (parts_of_bits shorter longer).1,
    (parts_of_bits shorter longer).2, Nat.mul_assoc, split]

/-- A natural number is rounded to a whole double. -/
theorem isWhole_nearest {n : Nat} (positive : 0 < n) : isWhole (nearest n 1) = true := by
  rcases lt_or_ge n (2 ^ 53) with short | long
  · exact isWhole_iff.mpr ⟨n, units_nearest positive short⟩
  · have first : nearest (2 ^ 53) 1 = 1076 * hiddenBit := by decide +kernel
    have order := nearest_le_nearest (by positivity) Nat.one_pos Nat.one_pos (Nat.mul_le_mul_right 1 long)
    rw [first] at order
    have large : 1074 ≤ scale (nearest n 1) := by
      rw [scale]
      have := (Nat.le_div_iff_mul_le (by decide)).mpr order
      omega
    have one : denominator (nearest n 1) = 1 := by
      rw [denominator, Nat.sub_eq_zero_of_le large, Nat.pow_eq, pow_zero]
    rw [isWhole, one, Nat.mod_one]
    rfl

end Bits

end Binary64

end PageServer

import PageServer.Proofs.Number.Nearest

/-! # Adding to a double

The doubles are numbered in increasing order: the rank of one is its magnitude, as bits, with its sign, and
both zeros have the rank zero. A sum is taken exactly and then rounded to a neighbour, and so no double lies
between the exact sum and the rounded one (`IsRounded`). Therefore a double to which a positive one is added
is never above the sum: it is below, or the sum is the same double again, because the step was too small
(`rank_lt_rank_add_or_eq`).
-/

namespace PageServer.Binary64

open Float.Model (Format UnpackedFloat totalExponent)
open Float.Model.UnpackedFloat (Sign ExtendedMantissa)

/-- The place of a double among all doubles in increasing order, counted from the zeros. What is not a number
has a rank above the infinite one. -/
def rank (x : Float) : Int :=
  if isNegative x then -(magnitude x : Int) else magnitude x

theorem rank_bounds (x : Float) : -(signBit : Int) < rank x ∧ rank x < signBit := by
  have smaller : magnitude x < signBit := Nat.mod_lt _ (by decide)
  rw [rank]
  split <;> omega

/-- Only the two zeros share a rank. -/
theorem eq_of_rank_eq {x y : Float} (same : rank x = rank y) (nonzero : rank x ≠ 0) : x = y := by
  have sizeX := x.toBits.toNat_lt
  have sizeY := y.toBits.toNat_lt
  rw [← Float.toBits_inj, ← UInt64.toNat_inj]
  simp only [rank, isNegative, magnitude, signBit] at same nonzero
  by_cases first : 0x8000000000000000 ≤ x.toBits.toNat <;>
    by_cases second : 0x8000000000000000 ≤ y.toBits.toNat <;>
    simp only [first, second, decide_true, decide_false, ↓reduceIte, Bool.false_eq_true] at same nonzero <;>
    omega

/-- The number is a quotient rounded to a neighbour: no natural number lies between them. -/
def IsRounded (num den r : Nat) : Prop :=
  ∀ c, (c * den ≤ num → c ≤ r) ∧ (num ≤ c * den → r ≤ c)

theorem IsRounded.scale {num den r : Nat} (rounded : IsRounded num den r) {factor : Nat}
    (positive : 0 < factor) : IsRounded (num * factor) (den * factor) r := by
  intro c
  rw [← Nat.mul_assoc, Nat.mul_le_mul_right_iff positive, Nat.mul_le_mul_right_iff positive]
  exact rounded c

theorem roundedMantissa_bounds (em : ExtendedMantissa) :
    em.mantissa ≤ em.roundedMantissa ∧ em.roundedMantissa ≤ em.mantissa + 1 ∧
      (em.roundBit = false → em.stickyBit = false → em.roundedMantissa = em.mantissa) := by
  obtain ⟨m, half, rest⟩ := em
  cases half <;> cases rest <;>
    simp [ExtendedMantissa.roundedMantissa, ExtendedMantissa.accuracy,
      Float.Model.UnpackedFloat.Accuracy.roundToNearestEven]
  omega

/-- A shift divides the mantissa, and notes nothing if nothing is lost. -/
theorem shiftRight_exact (m k : Nat) :
    let em := ExtendedMantissa.ofMantissaAndAccuracy m .exact >>> k
    em.mantissa = m / 2 ^ k ∧ (2 ^ k ∣ m → em.roundBit = false ∧ em.stickyBit = false) := by
  change
    let em := k.repeat ExtendedMantissa.shiftRightOne (ExtendedMantissa.ofMantissaAndAccuracy m .exact)
    em.mantissa = m / 2 ^ k ∧ (2 ^ k ∣ m → em.roundBit = false ∧ em.stickyBit = false)
  induction k with
  | zero => simp [Nat.repeat, ExtendedMantissa.ofMantissaAndAccuracy]
  | succ k ih =>
    obtain ⟨quotient, noted⟩ := ih
    simp only [Nat.repeat, ExtendedMantissa.shiftRightOne]
    refine ⟨by rw [quotient, Nat.div_div_eq_div_mul, pow_succ], fun divides => ?_⟩
    obtain ⟨half, rest⟩ := noted ((pow_dvd_pow 2 k.le_succ).trans divides)
    have even : m / 2 ^ k % 2 = 0 := by
      obtain ⟨c, rfl⟩ := divides
      rw [pow_succ, Nat.mul_assoc, Nat.mul_div_cancel_left _ (by positivity), Nat.mul_mod_right]
    rw [quotient, even, half, rest]
    exact ⟨rfl, rfl⟩

theorem isRounded_shiftRight (m k : Nat) :
    IsRounded m (2 ^ k) (ExtendedMantissa.ofMantissaAndAccuracy m .exact >>> k).roundedMantissa := by
  obtain ⟨quotient, noted⟩ := shiftRight_exact m k
  obtain ⟨least, greatest, same⟩ :=
    roundedMantissa_bounds (ExtendedMantissa.ofMantissaAndAccuracy m .exact >>> k)
  rw [quotient] at least greatest same
  have positive : 0 < 2 ^ k := by positivity
  intro c
  constructor
  · intro below
    exact ((Nat.le_div_iff_mul_le positive).mpr below).trans least
  · intro above
    by_cases divides : 2 ^ k ∣ m
    · obtain ⟨half, rest⟩ := noted divides
      rw [same half rest]
      exact Nat.div_le_of_le_mul (by rwa [Nat.mul_comm])
    · have strict : m < c * 2 ^ k := lt_of_le_of_ne above fun equal => divides ⟨c, by rw [equal, Nat.mul_comm]⟩
      have quotientBelow : m / 2 ^ k < c := (Nat.div_lt_iff_lt_mul positive).mpr strict
      omega

/-- The rank of a mantissa at a place. What is too large to be packed has the rank of the infinite double. -/
def rankAt (place m : Nat) : Nat :=
  min infinity (place * hiddenBit + m)

def rankOf : UnpackedFloat → Int
  | .notANumber => infinity + 2 ^ 51
  | .infinity sign => sign.apply infinity
  | .zero _ => 0
  | .finite sign m e _ => sign.apply (rankAt (e + 1074).toNat m)

/-- The mantissa has its full length, or the exponent is the smallest one. -/
def Canonical : UnpackedFloat → Prop
  | .finite _ m e _ => m < 2 ^ 53 ∧ -1074 ≤ e ∧ (2 ^ 52 ≤ m ∨ e = -1074)
  | _ => True

/-- The bits of a double by its three parts. -/
theorem toNat_packComponents (sign : Sign) (e : BitVec 11) (m : BitVec 52) :
    (Float.Model.UnpackedFloat.packComponents .binary64 sign e m).toNat =
      sign.toBitVec.toNat * signBit + (e.toNat * hiddenBit + m.toNat) := by
  have exponent := e.isLt
  have mantissa := m.isLt
  have inner : (sign.toBitVec ++ e).toNat = sign.toBitVec.toNat * 2 ^ 11 + e.toNat := by
    rw [BitVec.toNat_append, ← Nat.shiftLeft_add_eq_or_of_lt exponent, Nat.shiftLeft_eq]
  change ((sign.toBitVec ++ e) ++ m).toNat = _
  rw [BitVec.toNat_append, ← Nat.shiftLeft_add_eq_or_of_lt mantissa, Nat.shiftLeft_eq, inner, signBit,
    hiddenBit]
  omega

/-- Packed parts have the rank of their bits. -/
theorem rank_of_toNat {x : Float} {sign : Sign} {bits : Nat} (small : bits < signBit)
    (parts : x.toBits.toNat = sign.toBitVec.toNat * signBit + bits) : rank x = sign.apply bits := by
  cases sign with
  | negative =>
    have whole : x.toBits.toNat = signBit + bits := by simpa [Sign.toBitVec] using parts
    have negative : isNegative x = true := by simp [isNegative, whole]
    have size : magnitude x = bits := by
      rw [magnitude, whole, Nat.add_mod_left, Nat.mod_eq_of_lt small]
    rw [rank, negative, if_pos rfl, size, Sign.apply]
  | positive =>
    have whole : x.toBits.toNat = bits := by simpa [Sign.toBitVec] using parts
    have natural : isNegative x = false := by simpa [isNegative, whole] using small
    have size : magnitude x = bits := by rw [magnitude, whole, Nat.mod_eq_of_lt small]
    rw [rank, natural, if_neg Bool.false_ne_true, size, Sign.apply]

/-- The bits of a finite double that is packed, or those of the infinite one if it is too large. -/
theorem toNat_pack_finite {sign : Sign} {m : Nat} {e : Int} {positive : 0 < m}
    (canonical : Canonical (.finite sign m e positive)) :
    (Float.Model.UnpackedFloat.pack .binary64 (.finite sign m e positive)).toNat =
      sign.toBitVec.toNat * signBit + rankAt (e + 1074).toNat m := by
  obtain ⟨short, least, full⟩ := canonical
  have bias : (Format.exponentBias .binary64 : Int) = 1023 := by decide
  have length : m.log2 + 1 = 53 ↔ 2 ^ 52 ≤ m := by
    have shorter : m.log2 < 53 := (Nat.log2_lt positive.ne').mpr short
    rw [← Nat.le_log2 positive.ne']
    omega
  simp only [Float.Model.UnpackedFloat.pack, bias, Format.mantissaBits, Float.Model.UnpackedFloat.packedInfinity]
  split
  · next large =>
    have parts : (-1#11).toNat * hiddenBit + (0#52).toNat = infinity := by decide
    have rank : rankAt (e + 1074).toNat m = infinity := by
      simp only [rankAt, infinity, hiddenBit]
      omega
    rw [toNat_packComponents, rank, ← parts]
    rfl
  · next fits =>
    split
    · next normal =>
      have leading := length.mp normal
      have rank : (e + 1075).toNat * hiddenBit + m % 2 ^ 52 = rankAt (e + 1074).toNat m := by
        simp only [rankAt, infinity, hiddenBit]
        omega
      rw [toNat_packComponents, BitVec.toNat_ofNat, BitVec.toNat_ofNat, ← rank, Nat.mod_eq_of_lt (by omega)]
      congr 3
      omega
    · next subnormal =>
      have smallest : (e + 1074).toNat = 0 := by
        have := full.resolve_left (mt length.mpr subnormal)
        omega
      have shorter : m < 2 ^ 52 := Nat.not_le.mp (mt length.mpr subnormal)
      have rank : m = rankAt 0 m := by
        simp only [rankAt, infinity, hiddenBit]
        omega
      rw [toNat_packComponents, BitVec.toNat_ofNat, BitVec.toNat_ofNat, Nat.mod_eq_of_lt shorter, smallest,
        ← rank, Nat.zero_mod, Nat.zero_mul, Nat.zero_add]

/-- Packing keeps the rank. -/
theorem rank_pack {u : UnpackedFloat} (canonical : Canonical u) : rank (.ofModel (.pack u)) = rankOf u := by
  cases u with
  | notANumber => decide +kernel
  | infinity sign => cases sign <;> decide +kernel
  | zero sign => cases sign <;> decide +kernel
  | finite sign m e positive =>
    have small : rankAt (e + 1074).toNat m < signBit :=
      (Nat.min_le_left _ _).trans_lt (by decide)
    exact rank_of_toNat small (toNat_pack_finite canonical)

/-- What is unpacked is canonical. -/
theorem canonical_unpack (x : Float) : Canonical x.toModel.unpack := by
  have bias : (Format.exponentBias .binary64 : Int) = 1023 := by decide
  rw [Float.Model.unpack]
  fun_cases Float.Model.UnpackedFloat.unpack .binary64 x.toModel.toBits.toBitVec with
  | case1 | case2 | case3 => trivial
  | case4 mantissa exponent e signBit sign _ zero nonzero =>
    have short : mantissa.toNat < 2 ^ 52 := mantissa.isLt
    have smallest : e + 1 = -1074 := by
      simp only [e, zero, bias]
      rfl
    exact ⟨by omega, smallest.ge, .inr smallest⟩
  | case5 mantissa exponent e signBit sign _ nonzero =>
    have short : mantissa.toNat < 2 ^ 52 := mantissa.isLt
    have whole : (1#1 ++ mantissa).toNat = 2 ^ 52 + mantissa.toNat := by
      rw [BitVec.toNat_append, ← Nat.shiftLeft_add_eq_or_of_lt mantissa.isLt, Nat.shiftLeft_eq]
      rfl
    have least : -1074 ≤ e := by
      have positive : exponent.toNat ≠ 0 := fun zero => nonzero (BitVec.eq_of_toNat_eq zero)
      simp only [e, bias]
      omega
    rw [Canonical, whole]
    exact ⟨by omega, least, .inl (by omega)⟩

theorem rank_eq (x : Float) : rank x = rankOf x.toModel.unpack := by
  conv_lhs => rw [← Float.ofBits_toBits x]
  exact rank_pack (canonical_unpack x)

/-- A positive number of the smallest magnitudes has 53 digits at a scale, or fewer at the smallest one. -/
def HasScale (size scale : Nat) : Prop :=
  size < 2 ^ (53 + scale) ∧ (scale = 0 ∨ 2 ^ (52 + scale) ≤ size)

theorem shiftToTargetExponent_of_short {r : Nat} {t : Int} (short : r < 2 ^ 53) (least : -1074 ≤ t) :
    Float.Model.UnpackedFloat.shiftToTargetExponent .binary64 r t .exact = (⟨r, false, false⟩, t) := by
  have length : r.log2 ≤ 52 := by
    by_cases zero : r = 0
    · rw [zero]
      decide
    · exact Nat.lt_succ_iff.mp ((Nat.log2_lt zero).mpr short)
  have target : (Format.targetExponent .binary64 (totalExponent r t) - t).toNat = 0 := by
    simp only [Format.targetExponent, totalExponent, Format.mantissaBits, Format.minExponent]
    omega
  simp only [Float.Model.UnpackedFloat.shiftToTargetExponent, Float.Model.UnpackedFloat.shiftToExponent,
    target]
  rw [Int.natCast_zero, Int.add_zero]
  rfl

/-- A mantissa that was rounded up to one digit more has its last digit dropped. -/
theorem shiftToTargetExponent_of_full {t : Int} (least : -1074 ≤ t) :
    Float.Model.UnpackedFloat.shiftToTargetExponent .binary64 (2 ^ 53) t .exact =
      (⟨2 ^ 52, false, false⟩, t + 1) := by
  have target : (Format.targetExponent .binary64 (totalExponent (2 ^ 53) t) - t).toNat = 1 := by
    simp only [Format.targetExponent, totalExponent, Format.mantissaBits, Format.minExponent,
      Nat.log2_two_pow]
    omega
  simp only [Float.Model.UnpackedFloat.shiftToTargetExponent, Float.Model.UnpackedFloat.shiftToExponent,
    target]
  rfl

/-- What the first shift leaves decides the result, whether or not rounding adds a digit. -/
theorem rankOf_roundWithAccuracy (sign : Sign) {m r : Nat} {e t : Int} {em : ExtendedMantissa}
    (shifted : Float.Model.UnpackedFloat.shiftToTargetExponent .binary64 m e .exact = (em, t))
    (rounded : em.roundedMantissa = r) (least : -1074 ≤ t) (short : r ≤ 2 ^ 53)
    (full : 2 ^ 52 ≤ r ∨ t = -1074) :
    let result := Float.Model.UnpackedFloat.roundWithAccuracy .binary64 sign m e .exact
    Canonical result ∧ rankOf result = sign.apply (rankAt (t + 1074).toNat r) := by
  intro result
  have result_eq {final : ExtendedMantissa} {last : Int}
      (again : Float.Model.UnpackedFloat.shiftToTargetExponent .binary64 r t .exact = (final, last)) :
      result = if h : final.mantissa = 0 then .zero sign
        else .finite sign final.mantissa last (Nat.pos_of_ne_zero h) := by
    simp only [result, Float.Model.UnpackedFloat.roundWithAccuracy, shifted, rounded, again]
  rcases Nat.lt_or_eq_of_le short with shorter | longer
  · rw [result_eq (shiftToTargetExponent_of_short shorter least)]
    split
    · next zero =>
      have empty : r = 0 := zero
      have smallest : t = -1074 := full.resolve_left (by omega)
      rw [smallest, empty]
      exact ⟨trivial, by cases sign <;> decide⟩
    · exact ⟨⟨shorter, least, full⟩, rfl⟩
  · have equal : rankAt (t + 1 + 1074).toNat (2 ^ 52) = rankAt (t + 1074).toNat (2 ^ 53) := by
      have next : (t + 1 + 1074).toNat = (t + 1074).toNat + 1 := by omega
      rw [rankAt, rankAt, next, Nat.succ_mul, Nat.add_assoc]
      rfl
    rw [longer] at result_eq ⊢
    rw [result_eq (shiftToTargetExponent_of_full least), dif_neg (by decide)]
    exact ⟨⟨by decide, by omega, .inl le_rfl⟩, by rw [rankOf, equal]⟩

/-- The exponent to which a mantissa is brought before it is rounded. -/
def target (m : Nat) (e : Int) : Int :=
  max (m.log2 + e - 52) (-1074)

theorem targetExponent_eq (m : Nat) (e : Int) :
    Format.targetExponent .binary64 (totalExponent m e) = target m e := by
  simp only [Format.targetExponent, totalExponent, Format.mantissaBits, Format.minExponent, target]
  omega

theorem hasScale_target {m : Nat} {e : Int} (positive : 0 < m) (least : -1074 ≤ e) :
    HasScale (m * 2 ^ (e + 1074).toNat) (target m e + 1074).toNat := by
  have length := log2_mul_two_pow positive.ne' (e + 1074).toNat
  have nonzero : m * 2 ^ (e + 1074).toNat ≠ 0 := by positivity
  constructor
  · have digits : m.log2 + (e + 1074).toNat + 1 ≤ 53 + (target m e + 1074).toNat := by
      rw [target]
      omega
    exact (length ▸ Nat.lt_log2_self).trans_le (Nat.pow_le_pow_right (by decide) digits)
  · rcases le_or_gt (m.log2 + e - 52) (-1074) with small | large
    · exact .inl (by rw [target, max_eq_right small]; rfl)
    · have digits : 52 + (target m e + 1074).toNat = m.log2 + (e + 1074).toNat := by
        rw [target, max_eq_left large.le]
        omega
      rw [digits, ← length]
      exact .inr (Nat.log2_self_le nonzero)

/-- What is rounded at its scale has 53 digits, or one more of which the last is zero, or fewer at the smallest
scale. -/
theorem HasScale.rounded_bounds {size scale r : Nat} (scaled : HasScale size scale)
    (rounded : IsRounded size (2 ^ scale) r) : r ≤ 2 ^ 53 ∧ (scale = 0 ∨ 2 ^ 52 ≤ r) := by
  obtain ⟨above, leading⟩ := scaled
  rw [pow_add] at above leading
  exact ⟨(rounded (2 ^ 53)).2 above.le, leading.imp_right (rounded (2 ^ 52)).1⟩

/-- A mantissa is first moved to the left, so that none of its digits are lost before it is rounded. -/
theorem exists_roundWithAccuracy (sign : Sign) {m : Nat} {e : Int} (positive : 0 < m) (least : -1074 ≤ e) :
    ∃ (digits : Nat) (start : Int) (em : ExtendedMantissa),
      Float.Model.UnpackedFloat.round .binary64 sign m e =
          Float.Model.UnpackedFloat.roundWithAccuracy .binary64 sign digits start .exact ∧
        Float.Model.UnpackedFloat.shiftToTargetExponent .binary64 digits start .exact = (em, target m e) ∧
        IsRounded (m * 2 ^ (e + 1074).toNat) (2 ^ (target m e + 1074).toNat) em.roundedMantissa := by
  let left : Nat := (e - target m e).toNat
  let start : Int := e - left
  let k : Nat := (target m e - start).toNat
  have floor : -1074 ≤ target m e := le_max_right _ _
  have length : (m * 2 ^ left).log2 = m.log2 + left := log2_mul_two_pow positive.ne' left
  refine ⟨m * 2 ^ left, start, ExtendedMantissa.ofMantissaAndAccuracy (m * 2 ^ left) .exact >>> k, ?_, ?_, ?_⟩
  · simp only [Float.Model.UnpackedFloat.round, targetExponent_eq, Float.Model.UnpackedFloat.decreaseExponent,
      Nat.shiftLeft_eq]
    rfl
  · have same : target (m * 2 ^ left) start = target m e := by
      rw [target, target, length]
      omega
    have reached : start + k = target m e := by omega
    simp only [Float.Model.UnpackedFloat.shiftToTargetExponent, Float.Model.UnpackedFloat.shiftToExponent,
      targetExponent_eq, same]
    exact congrArg _ reached
  · have whole : m * 2 ^ (e + 1074).toNat = m * 2 ^ left * 2 ^ (start + 1074).toNat := by
      rw [Nat.mul_assoc, ← pow_add]
      congr 2
      omega
    have unit : 2 ^ (target m e + 1074).toNat = 2 ^ k * 2 ^ (start + 1074).toNat := by
      rw [← pow_add]
      congr 1
      omega
    rw [whole, unit]
    exact (isRounded_shiftRight _ k).scale (by positivity)

/-- A positive mantissa is scaled to 53 digits and rounded to a neighbour. -/
theorem exists_round (sign : Sign) {m : Nat} {e : Int} (positive : 0 < m) (least : -1074 ≤ e) :
    ∃ scale r : Nat, HasScale (m * 2 ^ (e + 1074).toNat) scale ∧
      IsRounded (m * 2 ^ (e + 1074).toNat) (2 ^ scale) r ∧
      let result := Float.Model.UnpackedFloat.round .binary64 sign m e
      Canonical result ∧ rankOf result = sign.apply (rankAt scale r) := by
  obtain ⟨digits, start, em, result, shifted, rounded⟩ := exists_roundWithAccuracy sign positive least
  have scaled := hasScale_target positive least
  obtain ⟨short, full⟩ := scaled.rounded_bounds rounded
  have floor : -1074 ≤ target m e := le_max_right _ _
  refine ⟨_, _, scaled, rounded, ?_⟩
  rw [result]
  exact rankOf_roundWithAccuracy sign shifted rfl floor short (full.symm.imp_right fun smallest => by omega)

section Neighbours

variable {size scale r m place : Nat} (scaled : HasScale size scale) (rounded : IsRounded size (2 ^ scale) r)
  (short : m < 2 ^ 53) (full : 2 ^ 52 ≤ m ∨ place = 0)

include scaled rounded short full

/-- A number that is not below a canonical one is not rounded below it. -/
theorem rankAt_le_rounded (below : m * 2 ^ place ≤ size) : rankAt place m ≤ rankAt scale r := by
  refine min_le_min_left _ ?_
  have bounds := scaled.rounded_bounds rounded
  obtain ⟨above, leading⟩ := scaled
  rcases lt_trichotomy place scale with lower | same | higher
  · have wide : 2 ^ 52 ≤ r := bounds.2.resolve_left (by omega)
    simp only [hiddenBit]
    omega
  · subst same
    exact Nat.add_le_add_left ((rounded m).1 below) _
  · -- a number of full length at a higher scale is larger
    have wide : 2 ^ 52 ≤ m := full.resolve_right (by omega)
    have larger : 2 ^ (53 + scale) ≤ m * 2 ^ place := by
      calc 2 ^ (53 + scale) ≤ 2 ^ (52 + place) := Nat.pow_le_pow_right (by decide) (by omega)
        _ = 2 ^ 52 * 2 ^ place := pow_add _ _ _
        _ ≤ m * 2 ^ place := Nat.mul_le_mul_right _ wide
    exact absurd (larger.trans below) (Nat.not_le.mpr above)

/-- A number that is not above a canonical one is not rounded above it. -/
theorem rounded_le_rankAt (above : size ≤ m * 2 ^ place) : rankAt scale r ≤ rankAt place m := by
  refine min_le_min_left _ ?_
  have bounds := scaled.rounded_bounds rounded
  obtain ⟨below, leading⟩ := scaled
  rcases lt_trichotomy scale place with lower | same | higher
  · have wide : 2 ^ 52 ≤ m := full.resolve_right (by omega)
    have narrow : r ≤ 2 ^ 53 := bounds.1
    simp only [hiddenBit]
    omega
  · subst same
    exact Nat.add_le_add_left ((rounded m).2 above) _
  · have larger : m * 2 ^ place < 2 ^ (52 + scale) := by
      calc m * 2 ^ place < 2 ^ 53 * 2 ^ place := Nat.mul_lt_mul_of_pos_right short (by positivity)
        _ = 2 ^ (53 + place) := (pow_add _ _ _).symm
        _ ≤ 2 ^ (52 + scale) := Nat.pow_le_pow_right (by decide) (by omega)
    have wide := leading.resolve_left (by omega)
    exact absurd (wide.trans above) (Nat.not_le.mpr larger)

end Neighbours

/-- A signed mantissa is rounded by its magnitude. -/
theorem exists_normalize {mantissa exponent : Int} (nonzero : mantissa ≠ 0) (least : -1074 ≤ exponent)
    (zeroSign : Sign) :
    ∃ (sign : Sign) (size scale r : Nat),
      sign.apply size = mantissa * 2 ^ (exponent + 1074).toNat ∧ HasScale size scale ∧
        IsRounded size (2 ^ scale) r ∧
        let result := Float.Model.UnpackedFloat.normalize .binary64 mantissa exponent zeroSign
        Canonical result ∧ rankOf result = sign.apply (rankAt scale r) := by
  rcases lt_or_gt_of_ne nonzero with negative | natural
  · obtain ⟨scale, r, scaled, rounded, ends⟩ := exists_round .negative (m := (-mantissa).toNat) (by omega) least
    refine ⟨.negative, _, scale, r, ?_, scaled, rounded, ?_⟩
    · have size : ((-mantissa).toNat : Int) = -mantissa := Int.toNat_of_nonneg (by omega)
      simp only [Sign.apply]
      push_cast
      rw [size]
      ring
    · simpa only [Float.Model.UnpackedFloat.normalize, Int.compare_eq_lt.mpr negative] using ends
  · obtain ⟨scale, r, scaled, rounded, ends⟩ := exists_round .positive (m := mantissa.toNat) (by omega) least
    refine ⟨.positive, _, scale, r, ?_, scaled, rounded, ?_⟩
    · have size : (mantissa.toNat : Int) = mantissa := Int.toNat_of_nonneg (by omega)
      simp only [Sign.apply]
      push_cast
      rw [size]
    · simpa only [Float.Model.UnpackedFloat.normalize, Int.compare_eq_gt.mpr natural] using ends

/-- A signed size that is not below a canonical double is not rounded below it. -/
theorem rankOf_le_apply_rankAt {sign other : Sign} {m size scale r : Nat} {e : Int} {positive : 0 < m}
    (canonical : Canonical (.finite sign m e positive)) (scaled : HasScale size scale)
    (rounded : IsRounded size (2 ^ scale) r)
    (below : sign.apply m * 2 ^ (e + 1074).toNat ≤ other.apply size) :
    rankOf (.finite sign m e positive) ≤ other.apply (rankAt scale r) := by
  obtain ⟨short, floor, full⟩ := canonical
  have full : 2 ^ 52 ≤ m ∨ (e + 1074).toNat = 0 := full.imp_right fun smallest => by omega
  rw [rankOf]
  generalize (e + 1074).toNat = place at below full
  have above : 0 < (m : Int) * 2 ^ place := by positivity
  cases sign with
  | positive =>
    cases other with
    | positive =>
      have under : m * 2 ^ place ≤ size := by
        zify
        exact below
      exact Int.ofNat_le.mpr (rankAt_le_rounded scaled rounded short full under)
    | negative =>
      simp only [Sign.apply] at below
      omega
  | negative =>
    cases other with
    | positive =>
      simp only [Sign.apply]
      omega
    | negative =>
      have under : size ≤ m * 2 ^ place := by
        simp only [Sign.apply] at below
        zify
        linarith
      exact Int.neg_le_neg (Int.ofNat_le.mpr (rounded_le_rankAt scaled rounded short full under))

/-- A signed mantissa that is not below a canonical double is not rounded below it. -/
theorem rankOf_le_normalize {sign : Sign} {m : Nat} {e exponent mantissa : Int} {positive : 0 < m}
    (canonical : Canonical (.finite sign m e positive)) (least : -1074 ≤ exponent)
    (below : sign.apply m * 2 ^ (e + 1074).toNat ≤ mantissa * 2 ^ (exponent + 1074).toNat)
    (zeroSign : Sign) :
    let result := Float.Model.UnpackedFloat.normalize .binary64 mantissa exponent zeroSign
    Canonical result ∧ rankOf result ≤ infinity ∧ rankOf (.finite sign m e positive) ≤ rankOf result := by
  intro result
  by_cases zero : mantissa = 0
  · have same : result = .zero zeroSign := by
      simp only [result, Float.Model.UnpackedFloat.normalize, zero]
      rfl
    rw [same]
    rw [zero, zero_mul] at below
    refine ⟨trivial, Int.natCast_nonneg _, ?_⟩
    cases sign with
    | positive =>
      have above : 0 < (m : Int) * 2 ^ (e + 1074).toNat := by positivity
      exact absurd above (not_lt.mpr below)
    | negative => exact neg_nonpos.mpr (Int.natCast_nonneg _)
  · obtain ⟨other, size, scale, r, same, scaled, rounded, number, rank⟩ := exists_normalize zero least zeroSign
    have capped : (rankAt scale r : Int) ≤ infinity := Int.ofNat_le.mpr (Nat.min_le_left _ _)
    rw [← same] at below
    rw [rank]
    refine ⟨number, ?_, rankOf_le_apply_rankAt canonical scaled rounded below⟩
    cases other with
    | positive | negative =>
      simp only [Sign.apply]
      omega

theorem rankAt_pos {m : Nat} (positive : 0 < m) (place : Nat) : 0 < rankAt place m :=
  lt_min (by decide) (Nat.add_pos_right _ positive)

theorem rankOf_finite_ne_zero {sign : Sign} {m : Nat} {e : Int} (positive : 0 < m) :
    rankOf (.finite sign m e positive) ≠ 0 := by
  have size := rankAt_pos positive (e + 1074).toNat
  cases sign with
  | positive | negative =>
    simp only [rankOf, Sign.apply]
    omega

/-- No number has a rank above that of the infinite double. -/
theorem rankOf_le_infinity_iff {u : UnpackedFloat} : rankOf u ≤ infinity ↔ u ≠ .notANumber := by
  have atLeast : 0 ≤ (infinity : Int) := Int.natCast_nonneg _
  cases u with
  | notANumber =>
    simp only [rankOf, ne_eq, not_true_eq_false, iff_false, not_le]
    omega
  | zero sign => simp [rankOf]
  | infinity sign =>
    cases sign with
    | positive | negative =>
      simp only [rankOf, Sign.apply, ne_eq, reduceCtorEq, not_false_eq_true, iff_true]
      omega
  | finite sign m e positive =>
    have capped : rankAt (e + 1074).toNat m ≤ infinity := Nat.min_le_left _ _
    cases sign with
    | positive | negative =>
      simp only [rankOf, Sign.apply, ne_eq, reduceCtorEq, not_false_eq_true, iff_true]
      omega

theorem rankOf_le_notANumber (u : UnpackedFloat) : rankOf u ≤ rankOf .notANumber := by
  by_cases wrong : u = .notANumber
  · rw [wrong]
  · have number := rankOf_le_infinity_iff.mpr wrong
    simp only [rankOf] at number ⊢
    omega

/-- The numbers above the zeros are the infinite double and the finite ones without a minus sign. -/
theorem positive_cases {v : UnpackedFloat} (above : 0 < rankOf v) (number : rankOf v ≤ infinity) :
    v = .infinity .positive ∨ ∃ m e positive, v = .finite .positive m e positive := by
  cases v with
  | notANumber => exact absurd rfl (rankOf_le_infinity_iff.mp number)
  | zero sign => exact absurd above (lt_irrefl 0)
  | infinity sign =>
    cases sign with
    | positive => exact .inl rfl
    | negative =>
      simp only [rankOf, Sign.apply] at above
      omega
  | finite sign m e positive =>
    cases sign with
    | positive => exact .inr ⟨m, e, positive, rfl⟩
    | negative =>
      simp only [rankOf, Sign.apply] at above
      omega

/-- A sum does not fall below the double to which a positive one was added, and does not stay at zero. -/
theorem rankOf_le_add {u v : UnpackedFloat} (canonicalLeft : Canonical u) (canonicalRight : Canonical v)
    (above : 0 < rankOf v) (number : rankOf v ≤ infinity) :
    let sum := Float.Model.UnpackedFloat.add .binary64 u v
    Canonical sum ∧ rankOf u ≤ rankOf sum ∧ (rankOf u = 0 → 0 < rankOf sum) := by
  have infinite : 0 < (infinity : Int) := by decide
  have beyond : 0 < rankOf .notANumber := by decide
  rcases positive_cases above number with rfl | ⟨m, e, positive, rfl⟩
  · cases u with
    | notANumber => exact ⟨trivial, le_rfl, fun _ => beyond⟩
    | infinity sign =>
      cases sign with
      | positive => exact ⟨trivial, le_rfl, fun _ => infinite⟩
      | negative => exact ⟨trivial, rankOf_le_notANumber _, fun _ => beyond⟩
    | zero | finite => exact ⟨trivial, rankOf_le_infinity_iff.mpr nofun, fun _ => infinite⟩
  · cases u with
    | notANumber => exact ⟨trivial, le_rfl, fun _ => beyond⟩
    | infinity sign =>
      refine ⟨trivial, le_rfl, fun zero => ?_⟩
      cases sign <;> exact absurd zero (by decide)
    | zero sign => exact ⟨canonicalRight, above.le, fun _ => above⟩
    | finite sign m' e' positive' =>
      -- both mantissas are brought to the smaller exponent, and nothing is lost
      let exponent := min e' e
      let sum := sign.apply (m' <<< (e' - exponent).toNat : Nat) + (m <<< (e - exponent).toNat : Nat)
      have least : -1074 ≤ exponent := le_min canonicalLeft.2.1 canonicalRight.2.1
      have below : sign.apply m' * 2 ^ (e' + 1074).toNat ≤ sum * 2 ^ (exponent + 1074).toNat := by
        have shifted : sign.apply m' * 2 ^ (e' + 1074).toNat =
            sign.apply (m' <<< (e' - exponent).toNat : Nat) * 2 ^ (exponent + 1074).toNat := by
          have split : (e' + 1074).toNat = (e' - exponent).toNat + (exponent + 1074).toNat := by omega
          rw [Nat.shiftLeft_eq, split, pow_add]
          cases sign <;> simp only [Sign.apply] <;> push_cast <;> ring
        rw [shifted, add_mul]
        exact le_add_of_nonneg_right (by positivity)
      obtain ⟨canonical, -, bound⟩ := rankOf_le_normalize canonicalLeft least below .positive
      exact ⟨canonical, bound, fun zero => absurd zero (rankOf_finite_ne_zero positive')⟩

def IsPositive (x : Float) : Prop :=
  0 < rank x ∧ rank x ≤ infinity

/-- A positive integer that is rounded to a double is still positive. -/
theorem isPositive_ofInt64 {n : Int64} (positive : 0 < n.toInt) : IsPositive (.ofModel (.ofInt64 n)) := by
  -- the smallest double above zero is not above the integer
  have smallest : Canonical (.finite .positive 1 (-1074) Nat.one_pos) :=
    ⟨by decide, by decide, .inr rfl⟩
  have below : Sign.positive.apply 1 * 2 ^ (-1074 + 1074 : Int).toNat ≤ n.toInt * 2 ^ (0 + 1074 : Int).toNat := by
    have scaled : 1 ≤ n.toInt * 2 ^ 1074 := Int.mul_pos positive (by positivity)
    exact scaled
  obtain ⟨canonical, number, bound⟩ := rankOf_le_normalize smallest (by decide) below .positive
  have same : rank (.ofModel (.ofInt64 n)) =
      rankOf (Float.Model.UnpackedFloat.normalize .binary64 n.toInt 0 .positive) := rank_pack canonical
  have least : 0 < rankOf (.finite .positive 1 (-1074) Nat.one_pos) := by decide
  rw [IsPositive, same]
  exact ⟨least.trans_le bound, number⟩

/-- What is above zero is positive. -/
theorem isPositive_of_zero_lt {x : Float} (above : .ofModel (.ofInt64 0) < x) : IsPositive x := by
  have zero : (Float.ofModel (.ofInt64 0)).toModel.unpack = .zero .positive := rfl
  have less : (UnpackedFloat.zero .positive).compare x.toModel.unpack = some .lt := by
    have decided : (Float.ofModel (.ofInt64 0)).toModel < x.toModel := of_decide_eq_true above
    rw [← zero]
    exact beq_iff_eq.mp decided
  rw [IsPositive, rank_eq]
  generalize x.toModel.unpack = u at less
  cases u with
  | notANumber | zero => cases less
  | infinity sign =>
    cases sign with
    | positive => exact ⟨by decide, le_rfl⟩
    | negative => cases less
  | finite sign m e positive =>
    cases sign with
    | positive => exact ⟨Int.natCast_pos.mpr (rankAt_pos positive _), rankOf_le_infinity_iff.mpr nofun⟩
    | negative => cases less

/-- Adding a positive double leads to a greater one, or to the same one again. -/
theorem rank_lt_rank_add_or_eq (x : Float) {s : Float} (positive : IsPositive s) :
    rank x < rank (x + s) ∨ x + s = x := by
  obtain ⟨above, number⟩ := positive
  rw [rank_eq s] at above number
  obtain ⟨canonical, bound, leaves⟩ := rankOf_le_add (canonical_unpack x) (canonical_unpack s) above number
  have sum : rank (x + s) = rankOf (Float.Model.UnpackedFloat.add .binary64 x.toModel.unpack s.toModel.unpack) :=
    rank_pack canonical
  rw [← sum, ← rank_eq x] at bound leaves
  rcases bound.lt_or_eq with greater | same
  · exact .inl greater
  · exact .inr (eq_of_rank_eq same fun zero => (leaves zero).ne (zero.symm.trans same)).symm

end PageServer.Binary64

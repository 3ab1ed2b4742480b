/-! # ASCII letter case

Only the letters of ASCII have two cases here; every other character stands for itself.
-/

namespace PageServer.Text

/-- The text with its ASCII letters in lower case. -/
def lower (text : List Char) : List Char :=
  text.map Char.toLower

/-- Whether two texts are the same up to the case of their ASCII letters. -/
def sameIgnoringCase (a b : List Char) : Bool :=
  lower a == lower b

theorem sameIgnoringCase_iff {a b : List Char} : sameIgnoringCase a b = true ↔ lower a = lower b :=
  beq_iff_eq

@[simp] theorem sameIgnoringCase_self (a : List Char) : sameIgnoringCase a a = true :=
  beq_self_eq_true _

theorem toNat_toLower (c : Char) :
    c.toLower.toNat = if 65 ≤ c.toNat ∧ c.toNat ≤ 90 then c.toNat + 32 else c.toNat := by
  unfold Char.toLower
  split
  · next upper =>
    have low : 65 ≤ c.toNat := upper.1
    have high : c.toNat ≤ 90 := upper.2
    rw [if_pos ⟨low, high⟩]
    have shifted : (c.val + ('a'.val - 'A'.val)).toNat = (c.val.toNat + 32) % 2 ^ 32 :=
      UInt32.toNat_add _ _
    have small : c.val.toNat ≤ 90 := high
    change (c.val + ('a'.val - 'A'.val)).toNat = c.val.toNat + 32
    omega
  · next other =>
    have outside : ¬ (65 ≤ c.toNat ∧ c.toNat ≤ 90) := other
    rw [if_neg outside]

theorem toLower_toLower (c : Char) : c.toLower.toLower = c.toLower := by
  apply Char.toNat_inj.mp
  rw [toNat_toLower, toNat_toLower]
  split
  · split <;> omega
  · rfl

/-- What becomes another character than a small letter was that character before. -/
theorem eq_of_toLower_eq {c d : Char} (same : c.toLower = d) (other : d.toNat < 97 ∨ 122 < d.toNat) :
    c = d := by
  apply Char.toNat_inj.mp
  have value := congrArg Char.toNat same
  rw [toNat_toLower] at value
  split at value <;> omega

/-- What becomes a small letter was that letter or its capital. -/
theorem eq_or_eq_of_toLower_eq {c small large : Char} (same : c.toLower = small)
    (pair : large.toNat + 32 = small.toNat) : c = small ∨ c = large := by
  have value := congrArg Char.toNat same
  rw [toNat_toLower] at value
  split at value
  · exact .inr (Char.toNat_inj.mp (by omega))
  · exact .inl (Char.toNat_inj.mp value)

@[simp] theorem lower_lower (text : List Char) : lower (lower text) = lower text := by
  simp only [lower, List.map_map]
  exact List.map_congr_left fun c _ => toLower_toLower c

/-- Such a character stands in a text exactly if it stands in the text in lower case. -/
theorem mem_lower_iff {text : List Char} {d : Char} (other : d.toNat < 97 ∨ 122 < d.toNat)
    (still : d.toLower = d) : d ∈ lower text ↔ d ∈ text := by
  constructor
  · intro inside
    obtain ⟨c, member, same⟩ := List.mem_map.mp inside
    rwa [← eq_of_toLower_eq same other]
  · intro member
    exact List.mem_map.mpr ⟨d, member, still⟩

end PageServer.Text

/-! # Digits to a base

The number that digits to a base spell, the highest one first. Neighbouring digits are put together as
one digit to the square of the base until few are left, so that a long run of digits costs few
multiplications of long numbers. That this is the plain reading from the left is `toNat_eq_foldl`.
-/

namespace PageServer.Digits

/-- The digits to the square of the base that neighbours make, from the lowest one up. `done` holds
those that were made before, the highest one first. -/
def pair (base : Nat) (done : List Nat) : List Nat → List Nat
  | low :: high :: rest => pair base ((low + base * high) :: done) rest
  | rest => done.reverse ++ rest

/-- The number with these digits, from the lowest one up. -/
def valueUp (base : Nat) (ds : List Nat) : Nat :=
  ds.foldr (fun d n => d + base * n) 0

/-- The number with these digits, from the lowest one up, which are put together so many times. -/
def pairedValueUp : Nat → Nat → List Nat → Nat
  | 0, base, ds => valueUp base ds
  | times + 1, base, ds => pairedValueUp times (base * base) (pair base [] ds)

/-- The number that digits to a base spell, the highest one first. -/
def toNat (base : Nat) (ds : List Nat) : Nat :=
  pairedValueUp (Nat.log2 ds.length) base ds.reverse

theorem valueUp_pair (base : Nat) (done ds : List Nat) :
    valueUp (base * base) (pair base done ds) =
      done.reverse.foldr (fun d n => d + base * base * n) (valueUp base ds) := by
  fun_induction pair base done ds with
  | case1 done low high rest next =>
    rw [next]
    simp [valueUp, Nat.mul_add, Nat.mul_assoc, Nat.add_assoc]
  | case2 done rest short =>
    match rest, short with
    | [], _ => simp [valueUp]
    | [d], _ => simp [valueUp]
    | low :: high :: rest, short => exact absurd rfl (short low high rest)

/-- Putting digits together does not change the number. -/
theorem pairedValueUp_eq (times base : Nat) (ds : List Nat) :
    pairedValueUp times base ds = valueUp base ds := by
  induction times generalizing base ds with
  | zero => rfl
  | succ times same => simp [pairedValueUp, same, valueUp_pair]

/-- Each digit is added to the number before it, moved up by one place. -/
theorem toNat_eq_foldl (base : Nat) (ds : List Nat) :
    toNat base ds = ds.foldl (fun n d => base * n + d) 0 := by
  simp [toNat, pairedValueUp_eq, valueUp, Nat.add_comm]

end PageServer.Digits

import Mathlib.Algebra.Group.Nat.Defs
import Mathlib.Order.Defs.LinearOrder

/-!
Exact readings of fixed-width arithmetic. Every operation is related to the
integer it stands for, so later proofs reason about integers and return to the
machine words only at their boundary.
-/

namespace SailwindOnline.MachineInt

def minI64 : Int := -9223372036854775808
def maxI64 : Int := 9223372036854775807

theorem toInt_bounds (value : Int64) : minI64 ≤ value.toInt ∧ value.toInt ≤ maxI64 := by
  have lower := value.le_toInt
  have upper := value.toInt_lt
  unfold minI64 maxI64
  omega

theorem toInt_ofInt_in_range (value : Int) (lower : minI64 ≤ value) (upper : value ≤ maxI64) :
    (Int64.ofInt value).toInt = value := by
  apply Int64.toInt_ofInt_of_le
  · simpa [minI64] using lower
  · unfold maxI64 at upper
    omega

def minI32 : Int := -2147483648
def maxI32 : Int := 2147483647

-- The value of an `i32` operation, or nothing where it overflows.
def checkedI32 (value : Int) : Option Int := if minI32 ≤ value ∧ value ≤ maxI32 then some value else none

theorem checkedI32_some (value : Int) (small : value.natAbs ≤ 2147483647) : checkedI32 value = some value := by
  unfold checkedI32 minI32 maxI32
  rw [if_pos (by omega)]

-- `i64::checked_add`: the exact sum, or nothing when it leaves the range.
def checkedAdd (left right : Int64) : Option Int64 :=
  if minI64 ≤ left.toInt + right.toInt ∧ left.toInt + right.toInt ≤ maxI64 then
    some (Int64.ofInt (left.toInt + right.toInt))
  else none

theorem checkedAdd_some (left right sum : Int64) (success : checkedAdd left right = some sum) :
    sum.toInt = left.toInt + right.toInt := by
  unfold checkedAdd at success
  split at success
  · rename_i range
    cases success
    exact toInt_ofInt_in_range _ range.1 range.2
  · contradiction

theorem checkedAdd_none (left right : Int64) (failure : checkedAdd left right = none) :
    left.toInt + right.toInt < minI64 ∨ maxI64 < left.toInt + right.toInt := by
  unfold checkedAdd at failure
  split at failure
  · contradiction
  · omega

-- `i64::saturating_sub`: the exact difference clamped to the range.
def saturatingSub (left right : Int64) : Int64 :=
  Int64.ofInt (max minI64 (min maxI64 (left.toInt - right.toInt)))

/-- A saturated difference that reaches a positive bound is no smaller than the exact one. -/
theorem add_le_of_le_saturatingSub {left right bound : Int64} (positive : 0 < bound)
    (reached : bound ≤ saturatingSub left right) : right.toInt + bound.toInt ≤ left.toInt := by
  have above := Int64.lt_iff_toInt_lt.mp positive
  have least := Int64.le_iff_toInt_le.mp reached
  have limits := toInt_bounds bound
  have zero : (0 : Int64).toInt = 0 := rfl
  rw [saturatingSub, toInt_ofInt_in_range _ (by omega) (by unfold minI64 maxI64; omega)] at least
  unfold minI64 maxI64 at *
  omega

-- `u64 as i64` and `i64 as u64` reinterpret the same bits.
theorem toUInt64_toInt64 (value : UInt64) : value.toInt64.toUInt64 = value := rfl

theorem toInt64_injective (left right : UInt64) (same : left.toInt64 = right.toInt64) :
    left = right := by
  have back := congrArg Int64.toUInt64 same
  simpa only [toUInt64_toInt64] using back

-- `i64::try_from(u64)`: the numeric value, or nothing above `i64::MAX`.
def tryI64 (value : UInt64) : Option Int64 :=
  if value.toNat ≤ maxI64.toNat then some value.toInt64 else none

theorem tryI64_some_iff (value : UInt64) (converted : Int64) :
    tryI64 value = some converted ↔ value.toNat < 2 ^ 63 ∧ converted = value.toInt64 := by
  unfold tryI64 maxI64
  split
  · rename_i small
    constructor
    · rintro ⟨⟩
      exact ⟨by omega, rfl⟩
    · rintro ⟨_, rfl⟩
      rfl
  · rename_i large
    constructor
    · intro impossible
      contradiction
    · rintro ⟨small, _⟩
      omega

theorem tryI64_none_iff (value : UInt64) : tryI64 value = none ↔ 2 ^ 63 ≤ value.toNat := by
  unfold tryI64 maxI64
  split <;> simp <;> omega

instance uint64LinearOrder : LinearOrder UInt64 where
  le_refl := UInt64.le_refl
  le_trans _ _ _ := UInt64.le_trans
  le_antisymm _ _ := UInt64.le_antisymm
  le_total := UInt64.le_total
  lt_iff_le_not_ge left right := by
    rw [UInt64.lt_iff_toNat_lt, UInt64.le_iff_toNat_le, UInt64.le_iff_toNat_le]
    omega
  toDecidableLE := inferInstance

instance int64LinearOrder : LinearOrder Int64 where
  le_refl := Int64.le_refl
  le_trans _ _ _ := Int64.le_trans
  le_antisymm _ _ := Int64.le_antisymm
  le_total := Int64.le_total
  lt_iff_le_not_ge left right := by
    rw [Int64.lt_iff_toInt_lt, Int64.le_iff_toInt_le, Int64.le_iff_toInt_le]
    omega
  toDecidableLE := inferInstance

end SailwindOnline.MachineInt

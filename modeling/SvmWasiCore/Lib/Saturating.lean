import Mathlib.Data.Int.Order.Basic
import Mathlib.Tactic.SplitIfs

/-!
Saturating and converting operations on 64-bit integers, and the integers they stand for.
-/

namespace SvmWasiCore.Lib.Saturating

/-- `i64::saturating_add` -/
def saturatingAdd (a b : Int64) : Int64 := Int64.ofIntClamp (a.toInt + b.toInt)

/-- `u64::saturating_sub` -/
def saturatingSub (a b : UInt64) : UInt64 := if b ≤ a then a - b else 0

lemma toInt_saturatingAdd (a b : Int64) : (saturatingAdd a b).toInt =
    max (-9223372036854775808) (min 9223372036854775807 (a.toInt + b.toInt)) := by
  have hmin : Int64.minValue.toInt = -9223372036854775808 := by decide
  have hmax : Int64.maxValue.toInt = 9223372036854775807 := by decide
  unfold saturatingAdd Int64.ofIntClamp
  split_ifs with hlow hhigh
  · rw [Int64.toInt_ofIntLE]
    omega
  · omega
  · omega

/-- The upper half of the unsigned range becomes the negative numbers. -/
lemma toInt_toInt64 (x : UInt64) : x.toInt64.toInt =
    if x.toNat < 9223372036854775808 then (x.toNat : ℤ)
    else x.toNat - 18446744073709551616 := by
  have h : x.toInt64.toInt = x.toBitVec.toInt := rfl
  have hnat : x.toBitVec.toNat = x.toNat := rfl
  rw [h, BitVec.toInt_eq_toNat_cond, hnat]
  split_ifs with hlow hhigh hhigh
  · rfl
  · omega
  · omega
  · rfl

lemma toNat_saturatingSub (a b : UInt64) :
    ((saturatingSub a b).toNat : ℤ) = max 0 ((a.toNat : ℤ) - b.toNat) := by
  unfold saturatingSub
  split_ifs with h
  · have hle := UInt64.le_iff_toNat_le.mp h
    rw [UInt64.toNat_sub_of_le _ _ h]
    omega
  · have hlt := mt UInt64.le_iff_toNat_le.mpr h
    rw [UInt64.toNat_zero]
    omega

/-- The whole range of an `i64`. -/
lemma toInt_bounds (a : Int64) :
    -9223372036854775808 ≤ a.toInt ∧ a.toInt ≤ 9223372036854775807 := by
  have hlow := a.le_toInt
  have hhigh := a.toInt_lt
  omega

end SvmWasiCore.Lib.Saturating

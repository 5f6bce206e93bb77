import SvmWasiCore.SubscriptionState

/-!
What a recurring delegation allows, against its specification over the integers.

The code casts the period's length to an `i64` and adds it to the start with saturation. Either
step can move the end of the period: the cast, of a length from `2 ^ 63` on, a whole `2 ^ 64`
back, and the saturation to the last second that can be told.
-/

namespace SvmWasiCore.Allowance

open Lib.ByteCodec Lib.Saturating SubscriptionState RecurringDelegation

variable {d : RecurringDelegation} {now : Int64}

/-! ### The specification -/

/-- When the current period ends. -/
def periodEnd (d : RecurringDelegation) : ℤ := d.currentPeriodStartTs.toInt + d.periodLengthS.toNat

/-- `expiryTs` is set and reached. -/
def Expired (d : RecurringDelegation) (now : ℤ) : Prop :=
  d.expiryTs.toInt ≠ 0 ∧ d.expiryTs.toInt ≤ now

instance (d : RecurringDelegation) (now : ℤ) : Decidable (Expired d now) :=
  inferInstanceAs (Decidable (_ ∧ _))

/-- Nothing once expired; the whole amount once the period is over; what is left of it before. -/
def allowance (d : RecurringDelegation) (now : ℤ) : ℤ :=
  if Expired d now then 0
  else if periodEnd d ≤ now then d.amountPerPeriod.toNat
  else max 0 (d.amountPerPeriod.toNat - d.amountPulledInPeriod.toNat)

/-! ### The code, over the integers -/

lemma isExpired_iff : d.isExpired now = true ↔ Expired d now.toInt := by
  have hzero : d.expiryTs ≠ 0 ↔ d.expiryTs.toInt ≠ 0 := by
    rw [Ne, ← Int64.toInt_inj, Int64.toInt_zero]
  rw [isExpired, Bool.and_eq_true, bne_iff_ne, decide_eq_true_eq, ge_iff_le,
    Int64.le_iff_toInt_le, hzero]
  rfl

/-- The end of the period as the code computes it. -/
def codeEnd (d : RecurringDelegation) : ℤ :=
  (saturatingAdd d.currentPeriodStartTs d.periodLengthS.toInt64).toInt

lemma toNat_amountAvailable : ((d.amountAvailable now).toNat : ℤ) =
    if Expired d now.toInt then 0
    else if codeEnd d ≤ now.toInt then (d.amountPerPeriod.toNat : ℤ)
    else max 0 (d.amountPerPeriod.toNat - d.amountPulledInPeriod.toNat) := by
  unfold amountAvailable codeEnd
  simp only [isExpired_iff, ge_iff_le, Int64.le_iff_toInt_le]
  split_ifs with hexp hend
  · rfl
  · rfl
  · exact toNat_saturatingSub _ _

/-! ### Where they differ -/

/-- The time is on different sides of the two ends of the period. -/
def EndMisjudged (d : RecurringDelegation) (now : ℤ) : Prop :=
  if d.periodLengthS.toNat < 9223372036854775808 then
    now = 9223372036854775807 ∧ now < periodEnd d
  else periodEnd d - 18446744073709551616 ≤ now ∧ now < periodEnd d

/-- The code's end is never late. -/
lemma endMisjudged_iff : EndMisjudged d now.toInt ↔
    codeEnd d ≤ now.toInt ∧ now.toInt < periodEnd d := by
  have hstart := toInt_bounds d.currentPeriodStartTs
  have hnow := toInt_bounds now
  have hlen := d.periodLengthS.toNat_lt
  unfold EndMisjudged codeEnd periodEnd
  rw [toInt_saturatingAdd, toInt_toInt64]
  split_ifs with hlow
  · omega
  · omega

lemma codeEnd_le (h : periodEnd d ≤ now.toInt) : codeEnd d ≤ now.toInt := by
  have hstart := toInt_bounds d.currentPeriodStartTs
  have hnow := toInt_bounds now
  unfold codeEnd
  unfold periodEnd at h
  rw [toInt_saturatingAdd, toInt_toInt64]
  split_ifs with hlow
  · omega
  · omega

/-- The delegation is running, something was pulled of something, and the end of the period is
misjudged. -/
structure Misjudged (d : RecurringDelegation) (now : ℤ) : Prop where
  running : ¬Expired d now
  perPeriod : d.amountPerPeriod.toNat ≠ 0
  pulled : d.amountPulledInPeriod.toNat ≠ 0
  periodEnd : EndMisjudged d now

/-- **When the amount is the specified one**: unless a wrong end of the period makes the code grant
the whole amount again. -/
theorem amountAvailable_eq_iff (d : RecurringDelegation) (now : Int64) :
    ((d.amountAvailable now).toNat : ℤ) = allowance d now.toInt ↔ ¬Misjudged d now.toInt := by
  rw [toNat_amountAvailable, allowance]
  by_cases hexp : Expired d now.toInt
  · rw [if_pos hexp, if_pos hexp]
    exact iff_of_true rfl fun h => h.running hexp
  rw [if_neg hexp, if_neg hexp]
  rcases Int.lt_or_le now.toInt (periodEnd d) with hend | hend
  · rw [if_neg (Int.not_le.mpr hend)]
    by_cases hcode : codeEnd d ≤ now.toInt
    · -- the whole amount is granted before the end of the period
      have hmis := endMisjudged_iff.mpr ⟨hcode, hend⟩
      rw [if_pos hcode]
      refine ⟨fun h hm => ?_, fun h => ?_⟩
      · have hper := hm.perPeriod
        have hpulled := hm.pulled
        omega
      · by_contra hne
        exact h ⟨hexp, by omega, by omega, hmis⟩
    · rw [if_neg hcode]
      exact iff_of_true rfl fun h => hcode (endMisjudged_iff.mp h.periodEnd).1
  · rw [if_pos hend, if_pos (codeEnd_le hend)]
    exact iff_of_true rfl fun h => Int.not_le.mpr (endMisjudged_iff.mp h.periodEnd).2 hend

/-- From time `0` on, one unit in `2 ^ 63` seconds, and it has been pulled. -/
def longPeriod : RecurringDelegation where
  delegator := ⟨.replicate 32 0⟩
  delegatee := ⟨.replicate 32 0⟩
  payer := ⟨.replicate 32 0⟩
  initId := 0
  subscriptionAuthority := ⟨.replicate 32 0⟩
  mint := ⟨.replicate 32 0⟩
  currentPeriodStartTs := 0
  periodLengthS := 9223372036854775808
  expiryTs := 0
  amountPerPeriod := 1
  amountPulledInPeriod := 1

def longPeriodBytes : Bytes :=
  [3] ++ List.replicate 185 0 ++ [0x80] ++ List.replicate 8 0 ++ [1] ++ List.replicate 7 0 ++ [1] ++
    List.replicate 7 0

/-- The code grants the unit again at once. -/
theorem longPeriod_granted_again :
    RecurringDelegation.unpack longPeriodBytes = .ok longPeriod ∧
      longPeriod.amountAvailable 0 = 1 ∧ allowance longPeriod 0 = 0 := by
  refine ⟨?_, by decide, by decide⟩
  decide +kernel

end SvmWasiCore.Allowance

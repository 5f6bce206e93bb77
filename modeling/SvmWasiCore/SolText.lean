import SvmWasiCore.Lib.Rounding
import SvmWasiCore.Lib.Decimal
import Mathlib.Data.Rat.Floor
import Mathlib.Tactic.LinearCombination

/-!
The text of a lamport amount in SOL.

`format_sol` divides doubles. Below 2 ^ 23 SOL the nine decimals it prints still are the lamports;
from there on the doubles lie too wide apart, and only an amount close to one of them is printed
as it is.
-/

namespace SvmWasiCore.SolText

open Lib.Rounding Lib

/-- Every number met here is a normal double. -/
def toDouble (x : ℚ) : ℚ := roundTo 53 x

/-- `lamports as f64 / 1_000_000_000.0`. -/
def solDouble (lamports : UInt64) : ℚ := toDouble (toDouble lamports.toNat / 10 ^ 9)

def formatSol (lamports : UInt64) : String :=
  .ofList (Decimal.fixed 9 (roundEven (solDouble lamports * 10 ^ 9)).toNat) ++ " SOL"

/-- What the text of an amount says, in SOL. -/
def solAmount (text : String) : ℚ := Decimal.value (text.toList.takeWhile (· != ' '))

def PrintsExactly (lamports : UInt64) : Prop :=
  solAmount (formatSol lamports) * 10 ^ 9 = lamports.toNat

/-! ### The amounts that are printed as they are -/

/-- Doubles near `n / 10 ^ 9` are `1 / scale n` apart. -/
def scale (n : ℕ) : ℕ := 2 ^ (52 - Nat.log 2 (n / 10 ^ 9))

/-- How far `n` lies above the nearest double, times `scale n`. -/
def residue (n : ℕ) : ℤ := Int.bmod (n * scale n) (10 ^ 9)

/-- What `n as f64` adds to `n`. -/
def drift (n : ℕ) : ℤ := offset (Nat.log 2 n - 52) n

/-- `n` is the number of lamports nearest to a double, and is still sent to this double after the
conversion of `n` to one. -/
structure NearDouble (n : ℕ) : Prop where
  printed : 2 * |residue n| < scale n ∨ 2 * |residue n| = scale n ∧ Even n
  reached : 2 * |drift n * scale n + residue n| < 10 ^ 9

instance (n : ℕ) : Decidable (NearDouble n) :=
  decidable_of_iff (_ ∧ _) ⟨fun h => ⟨h.1, h.2⟩, fun h => ⟨h.printed, h.reached⟩⟩

def Printable (n : ℕ) : Prop := n < 2 ^ 23 * 10 ^ 9 ∨ NearDouble n

instance (n : ℕ) : Decidable (Printable n) := inferInstanceAs (Decidable (_ ∨ _))

/-! ### From text to numbers -/

variable {lamports : UInt64}

lemma solAmount_formatSol (lamports : UInt64) : solAmount (formatSol lamports) * 10 ^ 9 =
    (roundEven (solDouble lamports * 10 ^ 9)).toNat := by
  obtain ⟨v, hv⟩ : ∃ v, v = (roundEven (solDouble lamports * 10 ^ 9)).toNat := ⟨_, rfl⟩
  have hdigits : ∀ c ∈ Decimal.fixed 9 v, (c != ' ') = true :=
    Decimal.ne_of_mem_fixed (by decide) (by decide)
  have hnumber : (formatSol lamports).toList.takeWhile (· != ' ') = Decimal.fixed 9 v := by
    rw [formatSol, ← hv, String.toList_append, String.toList_ofList,
      List.takeWhile_append_of_pos hdigits]
    exact List.append_nil _
  rw [solAmount, hnumber, Decimal.value_fixed (by norm_num), ← hv]
  exact div_mul_cancel₀ _ (by norm_num)

lemma solDouble_nonneg (lamports : UInt64) : 0 ≤ solDouble lamports :=
  roundTo_nonneg _ (div_nonneg (roundTo_nonneg _ (Nat.cast_nonneg _)) (by norm_num))

lemma printsExactly_iff_round :
    PrintsExactly lamports ↔ roundEven (solDouble lamports * 10 ^ 9) = lamports.toNat := by
  have hnonneg : 0 ≤ roundEven (solDouble lamports * 10 ^ 9) :=
    le_roundEven (by
      rw [Int.cast_zero]
      exact mul_nonneg (solDouble_nonneg lamports) (by norm_num))
  rw [PrintsExactly, solAmount_formatSol, Nat.cast_inj]
  omega

/-! ### Small amounts -/

lemma toDouble_natCast (n : ℕ) : toDouble (n : ℚ) = n + drift n := roundTo_natCast 53 n

/-- A whole number below `2 ^ 53` is a double. -/
lemma drift_of_lt {n : ℕ} (h : n < 2 ^ 53) : drift n = 0 := by
  have hlog : Nat.log 2 n < 53 := Nat.log_lt_of_lt_pow' (by norm_num) h
  have hzero : Nat.log 2 n - 52 = 0 := by omega
  rw [drift, hzero, offset_zero]

/-- Below `2 ^ 23` SOL the division is off by less than half a lamport. -/
lemma round_of_small {n : ℕ} (h : n < 2 ^ 23 * 10 ^ 9) :
    roundEven (toDouble (toDouble n / 10 ^ 9) * 10 ^ 9) = n := by
  have hdrift : drift n = 0 := drift_of_lt (h.trans (by norm_num))
  rw [toDouble_natCast, hdrift, Int.cast_zero, add_zero]
  rcases Nat.eq_zero_or_pos n with rfl | hpos
  · rw [Nat.cast_zero, zero_div, toDouble, roundTo_zero, zero_mul]
    exact roundEven_intCast 0
  obtain ⟨x, hx⟩ : ∃ x : ℚ, x = n / 10 ^ 9 := ⟨_, rfl⟩
  have hxpos : 0 < x := hx ▸ div_pos (Nat.cast_pos.mpr hpos) (by norm_num)
  have hxlt : x < 2 ^ ((22 : ℤ) + 1) := by
    rw [hx, div_lt_iff₀ (by norm_num)]
    exact_mod_cast h
  have hn : (n : ℚ) = x * 10 ^ 9 := by rw [hx, div_mul_cancel₀ _ (by norm_num)]
  have herr : 2 * |x - toDouble x| ≤ 2 ^ ((22 : ℤ) + 1 - 53) :=
    (abs_sub_roundTo_le 53 x).trans (ulp_le hxpos hxlt)
  have hscale : |toDouble x * 10 ^ 9 - n| = |x - toDouble x| * 10 ^ 9 := by
    rw [hn, ← sub_mul, abs_mul, abs_sub_comm]
    norm_num
  rw [← hx, roundEven_eq_iff]
  refine .inl ?_
  rw [Int.cast_natCast, hscale]
  calc 2 * (|x - toDouble x| * 10 ^ 9) = 2 * |x - toDouble x| * 10 ^ 9 := by ring
    _ ≤ 2 ^ ((22 : ℤ) + 1 - 53) * 10 ^ 9 := mul_le_mul_of_nonneg_right herr (by norm_num)
    _ < 1 := by norm_num

/-! ### Large amounts -/

/-- No quotient by `10 ^ 9` is a midpoint when the dividend has so many factors `2`. -/
lemma not_midpoint (z k : ℤ) : 2 * |(2 : ℤ) ^ 18 * z - k * (10 ^ 9 : ℕ)| ≠ (10 ^ 9 : ℕ) := by
  intro h
  rcases abs_cases ((2 : ℤ) ^ 18 * z - k * (10 ^ 9 : ℕ)) with habs | habs <;> omega

/-- Two roundings against one residue: the quotient `a * c / 10 ^ 9` goes to the multiple of
`10 ^ 9` nearest to `n * c`, and that one is near enough. -/
lemma near_iff {n a k z : ℤ} {c : ℕ} (hz : a * c = 2 ^ 18 * z) (hc : c < 10 ^ 9)
    (hk : roundEven (((a * c : ℤ) : ℚ) / (10 ^ 9 : ℕ)) = k) :
    (2 * |k * (10 ^ 9 : ℕ) - n * c| < c ∨ 2 * |k * (10 ^ 9 : ℕ) - n * c| = c ∧ Even n) ↔
      (2 * |Int.bmod (n * c) (10 ^ 9)| < c ∨ 2 * |Int.bmod (n * c) (10 ^ 9)| = c ∧ Even n) ∧
        2 * |(a - n) * c + Int.bmod (n * c) (10 ^ 9)| < (10 ^ 9 : ℕ) := by
  have hpos : 0 < 10 ^ 9 := by norm_num
  have hnear : 2 * |a * c - k * (10 ^ 9 : ℕ)| < (10 ^ 9 : ℕ) := by
    rcases (roundEven_intDiv_eq_iff hpos).mp hk with h | h
    · exact h
    · rw [hz] at h
      exact absurd h.1 (not_midpoint z k)
  refine ⟨fun h => ?_, fun h => ?_⟩
  · have hle : 2 * |k * (10 ^ 9 : ℕ) - n * c| ≤ c := le_of_lt_or_eq (h.imp_right And.left)
    have hresidue : Int.bmod (n * c) (10 ^ 9) = n * c - k * (10 ^ 9 : ℕ) := by
      obtain ⟨hlow, hhigh⟩ := abs_le.mp (le_refl |k * (10 ^ 9 : ℕ) - n * c|)
      refine (Int.bmod_eq_iff hpos).mpr ⟨by omega, by omega, -k, by ring⟩
    have hreach : (a - n) * c + (n * c - k * (10 ^ 9 : ℕ)) = a * c - k * (10 ^ 9 : ℕ) := by ring
    rw [hresidue, hreach, abs_sub_comm (n * c)]
    exact ⟨h, hnear⟩
  · obtain ⟨hprinted, hreached⟩ := h
    have hsplit := Int.bmod_add_bdiv' (n * c) (10 ^ 9)
    have hreach : (a - n) * c + Int.bmod (n * c) (10 ^ 9) =
        a * c - Int.bdiv (n * c) (10 ^ 9) * (10 ^ 9 : ℕ) := by linear_combination hsplit
    rw [hreach] at hreached
    have hround := (roundEven_intDiv_eq_iff (K := ℚ) hpos).mpr (.inl hreached)
    obtain rfl := hk.symm.trans hround
    have hdist : Int.bdiv (n * c) (10 ^ 9) * (10 ^ 9 : ℕ) - n * c =
        -Int.bmod (n * c) (10 ^ 9) := by linear_combination hsplit
    rw [hdist, abs_neg]
    exact hprinted

/-- The binade of an amount, and the grid its conversion to a double moves it on. -/
structure Binade (n t s : ℕ) : Prop where
  low : 2 ^ t * 10 ^ 9 ≤ n
  high : n < 2 ^ (t + 1) * 10 ^ 9
  ge : 23 ≤ t
  le : t ≤ 34
  grid : s ≤ t

lemma binade_of_large {n : ℕ} (h : 2 ^ 23 * 10 ^ 9 ≤ n) (hn : n < 2 ^ 64) :
    Binade n (Nat.log 2 (n / 10 ^ 9)) (Nat.log 2 n - 52) := by
  have hpos : 0 < 10 ^ 9 := by norm_num
  have hdiv : 2 ^ 23 ≤ n / 10 ^ 9 := (Nat.le_div_iff_mul_le hpos).mpr h
  have hdiv' : n / 10 ^ 9 < 2 ^ 35 := (Nat.div_lt_iff_lt_mul hpos).mpr (hn.trans (by norm_num))
  have hge : 23 ≤ Nat.log 2 (n / 10 ^ 9) := Nat.le_log_of_pow_le one_lt_two hdiv
  have hle : Nat.log 2 (n / 10 ^ 9) < 35 := Nat.log_lt_of_lt_pow' (by norm_num) hdiv'
  have hlog : Nat.log 2 n < 64 := Nat.log_lt_of_lt_pow' (by norm_num) hn
  refine ⟨?_, ?_, hge, by omega, by omega⟩
  · rw [← Nat.le_div_iff_mul_le hpos]
    exact Nat.pow_log_le_self 2 (by omega)
  · rw [← Nat.div_lt_iff_lt_mul hpos]
    exact Nat.lt_pow_succ_log_self one_lt_two _

/-- Dividing rounds at the unit of the binade the amount is in. -/
lemma toDouble_div {t c : ℕ} {a : ℤ} (hc : c = 2 ^ (52 - t)) (ht : t ≤ 34)
    (hlow : ((2 ^ t * 10 ^ 9 : ℕ) : ℤ) ≤ a) (hhigh : a ≤ ((2 ^ (t + 1) * 10 ^ 9 : ℕ) : ℤ)) :
    toDouble (a / 10 ^ 9) * 10 ^ 9 =
      ((roundEven (((a * c : ℤ) : ℚ) / (10 ^ 9 : ℕ)) * (10 ^ 9 : ℕ) : ℤ) : ℚ) / c := by
  have hxlow : (2 : ℚ) ^ (t : ℤ) ≤ a / 10 ^ 9 := by
    rw [le_div_iff₀ (by norm_num), zpow_natCast]
    exact_mod_cast hlow
  have hxhigh : (a : ℚ) / 10 ^ 9 ≤ 2 ^ ((t : ℤ) + 1) := by
    rw [div_le_iff₀ (by norm_num)]
    exact_mod_cast hhigh
  have hunit : (2 : ℚ) ^ ((t : ℤ) + 1 - (53 : ℕ)) = (c : ℚ)⁻¹ := by
    rw [hc, Nat.cast_pow, Nat.cast_ofNat, ← zpow_natCast, ← zpow_neg]
    congr 1
    omega
  have hquotient : (a : ℚ) / 10 ^ 9 / (c : ℚ)⁻¹ = ((a * c : ℤ) : ℚ) / (10 ^ 9 : ℕ) := by
    rw [div_inv_eq_mul]
    push_cast
    ring
  rw [toDouble, roundTo_eq (by norm_num) hxlow hxhigh, hunit, hquotient]
  push_cast
  ring

lemma round_of_large {n : ℕ} (h : 2 ^ 23 * 10 ^ 9 ≤ n) (hn : n < 2 ^ 64) :
    roundEven (toDouble (toDouble n / 10 ^ 9) * 10 ^ 9) = n ↔ NearDouble n := by
  obtain ⟨hlow, hhigh, hge, hle, hgrid⟩ := binade_of_large h hn
  obtain ⟨c, hc⟩ : ∃ c, c = scale n := ⟨_, rfl⟩
  obtain ⟨a, ha⟩ : ∃ a : ℤ, a = n + drift n := ⟨_, rfl⟩
  have halow := le_add_offset ((pow_dvd_pow 2 hgrid).mul_right (10 ^ 9)) hlow
  have hahigh := add_offset_le ((pow_dvd_pow 2 (hgrid.trans (Nat.le_succ _))).mul_right (10 ^ 9))
    hhigh.le
  have hdouble : toDouble (n : ℚ) = a := by
    rw [toDouble_natCast, ha]
    push_cast
    rfl
  have hfactor : a * c = 2 ^ 18 * (a * 2 ^ (34 - Nat.log 2 (n / 10 ^ 9))) := by
    have hpow : 52 - Nat.log 2 (n / 10 ^ 9) = 18 + (34 - Nat.log 2 (n / 10 ^ 9)) := by omega
    rw [hc, scale, hpow, pow_add]
    push_cast
    ring
  have hpos : 0 < c := hc ▸ Nat.two_pow_pos _
  have hlt : c < 10 ^ 9 := by
    calc c ≤ 2 ^ 29 := hc ▸ Nat.pow_le_pow_right two_pos (by omega)
      _ < 10 ^ 9 := by norm_num
  have hiff := near_iff (n := n) hfactor hlt rfl
  have hdrift : a - n = drift n := by omega
  rw [Int.even_coe_nat, hdrift] at hiff
  rw [hdouble, toDouble_div hc hle (ha ▸ halow) (ha ▸ hahigh), roundEven_intDiv_eq_iff hpos,
    Int.even_coe_nat, hiff, hc]
  exact ⟨fun h => ⟨h.1, h.2⟩, fun h => ⟨h.printed, h.reached⟩⟩

lemma printsExactly_iff : PrintsExactly lamports ↔ Printable lamports.toNat := by
  rw [printsExactly_iff_round, solDouble, Printable]
  rcases Nat.lt_or_ge lamports.toNat (2 ^ 23 * 10 ^ 9) with hlt | hge
  · exact iff_of_true (round_of_small hlt) (.inl hlt)
  · rw [round_of_large hge lamports.toNat_lt, or_iff_right (not_lt.mpr hge)]

/-- **Exact amounts.** The text of an amount says the amount below `2 ^ 23` SOL and near a double,
and nowhere else; such amounts have texts of their own. -/
theorem formatSol_exact_iff (lamports : UInt64) :
    (PrintsExactly lamports ↔ Printable lamports.toNat) ∧
    ∀ other : UInt64, Printable lamports.toNat → Printable other.toNat →
      formatSol lamports = formatSol other → lamports = other := by
  refine ⟨printsExactly_iff, fun other hlamports hother h => ?_⟩
  have hexact := printsExactly_iff.mpr hlamports
  have hexact' := printsExactly_iff.mpr hother
  rw [PrintsExactly, h, hexact'] at hexact
  exact UInt64.toNat_inj.mp (by exact_mod_cast hexact.symm)

/-- One lamport above `2 ^ 23` SOL, and two. -/
theorem lamports_misprinted : formatSol 8388608000000001 = "8388608.000000002 SOL" ∧
    formatSol 8388608000000002 = "8388608.000000002 SOL" ∧ ¬PrintsExactly 8388608000000001 := by
  refine ⟨by decide +kernel, by decide +kernel, ?_⟩
  rw [printsExactly_iff]
  decide +kernel

example : Printable (2 ^ 53 + 1) ∧ ¬Printable (2 ^ 53) := by decide +kernel

end SvmWasiCore.SolText

import Mathlib.Data.Int.Log
import Mathlib.Data.Rat.Floor
import Mathlib.Algebra.Order.Round
import Mathlib.Tactic.Linarith
import Mathlib.Tactic.FieldSimp
import Mathlib.Tactic.Ring
import Mathlib.Tactic.NormNum

/-!
Rounding to the nearest integer and to a binary significand, ties to even.
-/

namespace SvmWasiCore.Lib.Rounding

variable {K : Type*} [Field K] [LinearOrder K] [IsStrictOrderedRing K] [FloorRing K] {x y : K}
  {k : ℤ}

/-! ### Integers -/

def roundEven (x : K) : ℤ :=
  if 2 * Int.fract x < 1 then ⌊x⌋
  else if 1 < 2 * Int.fract x then ⌊x⌋ + 1
  else if Even ⌊x⌋ then ⌊x⌋ else ⌊x⌋ + 1

lemma abs_sub_roundEven_le (x : K) : 2 * |x - roundEven x| ≤ 1 := by
  have hfract := Int.self_sub_floor x
  have h0 := Int.fract_nonneg x
  have h1 := Int.fract_lt_one x
  unfold roundEven
  split_ifs <;> push_cast <;>
    rcases abs_cases (x - ⌊x⌋) with h | h <;> rcases abs_cases (x - (⌊x⌋ + 1)) with h' | h' <;>
    linarith

/-- A midpoint goes to an even number. -/
lemma even_roundEven (h : 2 * |x - roundEven x| = 1) : Even (roundEven x) := by
  have hfract := Int.self_sub_floor x
  have h0 := Int.fract_nonneg x
  have h1 := Int.fract_lt_one x
  unfold roundEven at h ⊢
  split_ifs at h ⊢ with hlow hhigh heven
  · rw [hfract, abs_of_nonneg h0] at h
    linarith
  · push_cast at h
    rw [abs_of_neg (by linarith)] at h
    linarith
  · exact heven
  · exact (Int.not_even_iff_odd.mp heven).add_one

/-- Another integer as near is a neighbour, with the number in the middle. -/
lemma midpoint_of_ne (h : 2 * |x - k| ≤ 1) (hne : roundEven x ≠ k) :
    |roundEven x - k| = 1 ∧ 2 * |x - roundEven x| = 1 ∧ 2 * |x - k| = 1 := by
  have hle := abs_sub_roundEven_le x
  have hgap : (1 : K) ≤ |(roundEven x : K) - k| := by
    rw [← Int.cast_sub, ← Int.cast_abs, ← Int.cast_one, Int.cast_le]
    exact Int.one_le_abs (sub_ne_zero.mpr hne)
  have htriangle : |(roundEven x : K) - k| ≤ |x - roundEven x| + |x - k| := by
    have h := abs_sub_le (roundEven x : K) x k
    rwa [abs_sub_comm (roundEven x : K) x] at h
  have hone : |(roundEven x : K) - k| = 1 := le_antisymm (by linarith) hgap
  rw [← Int.cast_sub, ← Int.cast_abs] at hone
  exact ⟨by exact_mod_cast hone, by linarith, by linarith⟩

/-- The nearest integer is unique but for the midpoints. -/
lemma roundEven_eq_iff :
    roundEven x = k ↔ 2 * |x - k| < 1 ∨ 2 * |x - k| = 1 ∧ Even k := by
  refine ⟨fun h => ?_, fun h => ?_⟩
  · subst h
    rcases (abs_sub_roundEven_le x).lt_or_eq with hlt | heq
    · exact .inl hlt
    · exact .inr ⟨heq, even_roundEven heq⟩
  · by_contra hne
    obtain ⟨hone, hmid, hmid'⟩ := midpoint_of_ne (le_of_lt_or_eq (h.imp_right And.left)) hne
    -- neighbours cannot both be even
    obtain ⟨a, ha⟩ := even_roundEven hmid
    obtain ⟨b, hb⟩ := (h.resolve_left hmid'.not_lt).2
    rcases abs_cases (roundEven x - k) with habs | habs <;> omega

@[simp] lemma roundEven_intCast (k : ℤ) : roundEven (k : K) = k :=
  roundEven_eq_iff.mpr (.inl (by simp))

lemma le_roundEven (h : (k : K) ≤ x) : k ≤ roundEven x := by
  by_contra hlt
  have hstep : (roundEven x : K) + 1 ≤ k := by exact_mod_cast not_le.mp hlt
  have herr := le_abs_self (x - roundEven x)
  linarith [abs_sub_roundEven_le x]

lemma roundEven_le (h : x ≤ k) : roundEven x ≤ k := by
  by_contra hlt
  have hstep : (k : K) + 1 ≤ roundEven x := by exact_mod_cast not_le.mp hlt
  have herr := neg_abs_le (x - roundEven x)
  linarith [abs_sub_roundEven_le x]

/-! ### Multiples of a unit -/

lemma roundEven_div_eq_iff {u : K} (hu : 0 < u) : roundEven (x / u) = k ↔
    2 * |x - k * u| < u ∨ 2 * |x - k * u| = u ∧ Even k := by
  have hscale : |x / u - k| * u = |x - k * u| := by
    rw [← abs_of_pos hu, ← abs_mul, abs_of_pos hu, sub_mul, div_mul_cancel₀ _ hu.ne']
  have hlt : 2 * |x / u - k| < 1 ↔ 2 * |x - k * u| < u := by
    rw [← hscale, ← mul_assoc, mul_lt_iff_lt_one_left hu]
  have heq : 2 * |x / u - k| = 1 ↔ 2 * |x - k * u| = u := by
    rw [← hscale, ← mul_assoc, mul_eq_right₀ hu.ne']
  rw [roundEven_eq_iff, hlt, heq]

/-- A quotient of integers, in integers. -/
lemma roundEven_intDiv_eq_iff {z : ℤ} {m : ℕ} (hm : 0 < m) :
    roundEven ((z : K) / m) = k ↔ 2 * |z - k * m| < m ∨ 2 * |z - k * m| = m ∧ Even k := by
  rw [roundEven_div_eq_iff (Nat.cast_pos.mpr hm)]
  exact_mod_cast Iff.rfl

/-- What is on the grid stays. -/
lemma roundEven_div_mul {u : K} (hu : u ≠ 0) (h : x = k * u) : roundEven (x / u) * u = x := by
  rw [h, mul_div_cancel_right₀ _ hu, roundEven_intCast]

/-- From `n` to the nearest multiple of `2 ^ s`. -/
def offset (s n : ℕ) : ℤ :=
  let low := n % 2 ^ s
  if 2 * low < 2 ^ s ∨ 2 * low = 2 ^ s ∧ Even (n / 2 ^ s) then -low else 2 ^ s - low

lemma offset_zero (n : ℕ) : offset 0 n = 0 := by
  simp [offset, Nat.mod_one]

lemma roundEven_natCast_div (s n : ℕ) :
    (roundEven ((n : K) / 2 ^ s) : K) * 2 ^ s = n + offset s n := by
  have hpos : (0 : K) < 2 ^ s := pow_pos two_pos s
  obtain ⟨low, hlow⟩ : ∃ low, low = n % 2 ^ s := ⟨_, rfl⟩
  obtain ⟨m, hm⟩ : ∃ m, m = n / 2 ^ s := ⟨_, rfl⟩
  have hlt : low < 2 ^ s := hlow ▸ Nat.mod_lt _ (pow_pos two_pos s)
  have hsplit : (n : K) = m * 2 ^ s + low := by
    have h := (Nat.div_add_mod' n (2 ^ s)).symm
    rw [← hm, ← hlow] at h
    exact_mod_cast h
  unfold offset
  dsimp only
  rw [← hlow, ← hm]
  split_ifs with hdown
  · have hround : roundEven ((n : K) / 2 ^ s) = m := by
      have hdist : |(n : K) - (m : ℤ) * 2 ^ s| = low := by
        rw [hsplit, Int.cast_natCast, add_sub_cancel_left, Nat.abs_cast]
      rw [roundEven_div_eq_iff hpos, hdist, Int.even_coe_nat]
      exact_mod_cast hdown
    rw [hround, hsplit]
    push_cast
    ring
  · have hround : roundEven ((n : K) / 2 ^ s) = (m + 1 : ℕ) := by
      have hdist : |(n : K) - ((m + 1 : ℕ) : ℤ) * 2 ^ s| = (2 ^ s - low : ℕ) := by
        rw [abs_sub_comm, hsplit, Nat.cast_sub hlt.le]
        push_cast
        rw [← abs_of_nonneg (sub_nonneg.mpr (by exact_mod_cast hlt.le : (low : K) ≤ 2 ^ s))]
        congr 1
        ring
      rw [roundEven_div_eq_iff hpos, hdist, Int.even_coe_nat, Nat.even_add_one]
      have hup : 2 * (2 ^ s - low) < 2 ^ s ∨ 2 * (2 ^ s - low) = 2 ^ s ∧ ¬Even m := by
        rcases lt_trichotomy (2 * low) (2 ^ s) with h | h | h
        · exact absurd (.inl h) hdown
        · exact .inr ⟨by omega, fun heven => hdown (.inr ⟨h, heven⟩)⟩
        · exact .inl (by omega)
      exact_mod_cast hup
    rw [hround, hsplit]
    push_cast
    ring

/-- The nearest multiple is not beyond another one. -/
lemma le_add_offset {s n b : ℕ} (hb : 2 ^ s ∣ b) (h : b ≤ n) : (b : ℤ) ≤ n + offset s n := by
  obtain ⟨j, rfl⟩ := hb
  have hpos : (0 : ℚ) < 2 ^ s := pow_pos two_pos s
  have hle : ((j : ℤ) : ℚ) ≤ n / 2 ^ s := by
    rw [le_div_iff₀ hpos, mul_comm]
    exact_mod_cast h
  have hround : ((j : ℤ) : ℚ) ≤ roundEven ((n : ℚ) / 2 ^ s) := Int.cast_le.mpr (le_roundEven hle)
  have hscaled := mul_le_mul_of_nonneg_right hround hpos.le
  rw [roundEven_natCast_div, mul_comm] at hscaled
  exact_mod_cast hscaled

lemma add_offset_le {s n b : ℕ} (hb : 2 ^ s ∣ b) (h : n ≤ b) : n + offset s n ≤ (b : ℤ) := by
  obtain ⟨j, rfl⟩ := hb
  have hpos : (0 : ℚ) < 2 ^ s := pow_pos two_pos s
  have hle : (n : ℚ) / 2 ^ s ≤ (j : ℤ) := by
    rw [div_le_iff₀ hpos, mul_comm]
    exact_mod_cast h
  have hround : (roundEven ((n : ℚ) / 2 ^ s) : ℚ) ≤ (j : ℤ) := Int.cast_le.mpr (roundEven_le hle)
  have hscaled := mul_le_mul_of_nonneg_right hround hpos.le
  rw [roundEven_natCast_div, mul_comm ((j : ℤ) : ℚ)] at hscaled
  exact_mod_cast hscaled

/-! ### Significands -/

/-- The unit in the last of `p` places. -/
def ulp (p : ℕ) (x : K) : K := 2 ^ (Int.log 2 x + 1 - p)

/-- A non-negative number to `p` binary places. -/
def roundTo (p : ℕ) (x : K) : K := roundEven (x / ulp p x) * ulp p x

lemma roundTo_zero (p : ℕ) : roundTo p (0 : K) = 0 := by
  have h := roundEven_intCast (K := K) 0
  rw [Int.cast_zero] at h
  rw [roundTo, zero_div, h, Int.cast_zero, zero_mul]

/-- The unit is that of the binade, whose upper end may be counted in. -/
lemma roundTo_eq {p : ℕ} {e : ℤ} (hp : 0 < p) (hlow : 2 ^ e ≤ x) (hhigh : x ≤ 2 ^ (e + 1)) :
    roundTo p x = roundEven (x / 2 ^ (e + 1 - p)) * 2 ^ (e + 1 - p) := by
  have hx : 0 < x := lt_of_lt_of_le (zpow_pos two_pos _) hlow
  rcases hhigh.lt_or_eq with hlt | heq
  · have hlog : Int.log 2 x = e := by
      have hge := (Int.zpow_le_iff_le_log one_lt_two hx).mp (by exact_mod_cast hlow)
      have hle := (Int.lt_zpow_iff_log_lt (x := e + 1) one_lt_two hx).mp (by exact_mod_cast hlt)
      omega
    rw [roundTo, ulp, hlog]
  · have hlog : Int.log 2 x = e + 1 := by
      rw [heq]
      exact_mod_cast Int.log_zpow (R := K) one_lt_two (e + 1)
    have hcoarse : x = ((2 ^ (p - 1) : ℤ) : K) * 2 ^ (e + 1 + 1 - p) := by
      rw [heq, Int.cast_pow, Int.cast_ofNat, ← zpow_natCast, ← zpow_add₀ two_ne_zero]
      congr 1
      omega
    have hfine : x = ((2 ^ p : ℤ) : K) * 2 ^ (e + 1 - p) := by
      rw [heq, Int.cast_pow, Int.cast_ofNat, ← zpow_natCast, ← zpow_add₀ two_ne_zero]
      congr 1
      omega
    rw [roundTo, ulp, hlog, roundEven_div_mul (zpow_ne_zero _ two_ne_zero) hcoarse,
      roundEven_div_mul (zpow_ne_zero _ two_ne_zero) hfine]

lemma ulp_pos (p : ℕ) (x : K) : 0 < ulp p x := zpow_pos two_pos _

/-- A number is off by half a unit at most. -/
lemma abs_sub_roundTo_le (p : ℕ) (x : K) : 2 * |x - roundTo p x| ≤ ulp p x := by
  have h := (roundEven_div_eq_iff (x := x) (k := roundEven (x / ulp p x)) (ulp_pos p x)).mp rfl
  exact le_of_lt_or_eq (h.imp_right And.left)

lemma roundTo_nonneg (p : ℕ) (hx : 0 ≤ x) : 0 ≤ roundTo p x := by
  have h : (0 : ℤ) ≤ roundEven (x / ulp p x) :=
    le_roundEven (by rw [Int.cast_zero]; exact div_nonneg hx (ulp_pos p x).le)
  exact mul_nonneg (Int.cast_nonneg h) (ulp_pos p x).le

lemma ulp_le {p : ℕ} {e : ℤ} (hx : 0 < x) (hhigh : x < 2 ^ (e + 1)) :
    ulp p x ≤ 2 ^ (e + 1 - p) := by
  have hlog := (Int.lt_zpow_iff_log_lt one_lt_two hx).mp (by exact_mod_cast hhigh)
  exact zpow_le_zpow_right₀ one_le_two (by omega)

/-- An integer loses its digits beyond the `p` first. -/
lemma roundTo_natCast (p n : ℕ) :
    roundTo p (n : K) = n + offset (Nat.log 2 n + 1 - p) n := by
  rw [roundTo, ulp, Int.log_natCast]
  rcases Nat.le_total p (Nat.log 2 n + 1) with hp | hp
  · have hunit : (2 : K) ^ ((Nat.log 2 n : ℤ) + 1 - p) = 2 ^ (Nat.log 2 n + 1 - p) := by
      rw [← zpow_natCast]
      congr 1
      omega
    rw [hunit, roundEven_natCast_div]
  · have hgrid : (n : K) = ((n * 2 ^ (p - (Nat.log 2 n + 1)) : ℕ) : ℤ) *
        2 ^ ((Nat.log 2 n : ℤ) + 1 - p) := by
      push_cast
      rw [mul_assoc, ← zpow_natCast, ← zpow_add₀ two_ne_zero]
      have hzero : ((p - (Nat.log 2 n + 1) : ℕ) : ℤ) + ((Nat.log 2 n : ℤ) + 1 - p) = 0 := by omega
      rw [hzero, zpow_zero, mul_one]
    rw [roundEven_div_mul (zpow_ne_zero _ two_ne_zero) hgrid, Nat.sub_eq_zero_of_le hp,
      offset_zero, Int.cast_zero, add_zero]

end SvmWasiCore.Lib.Rounding

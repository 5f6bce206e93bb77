import Mathlib.Data.Rat.Cast.Defs
import Mathlib.Algebra.Field.Rat
import Mathlib.Tactic.FieldSimp
import Mathlib.Tactic.NormNum

/-!
Fixed-point decimal text.
-/

namespace SvmWasiCore.Lib.Decimal

/-- Filled up to `d` digits. -/
def padded (d n : ℕ) : List Char :=
  .replicate (d - (Nat.toDigits 10 n).length) '0' ++ Nat.toDigits 10 n

/-- The number `n / 10 ^ d`, with `d` digits behind the point. -/
def fixed (d n : ℕ) : List Char :=
  Nat.toDigits 10 (n / 10 ^ d) ++ '.' :: padded d (n % 10 ^ d)

/-- The number with these digits before and behind the point. -/
def ofDigits (whole fraction : List Char) : ℚ :=
  Nat.ofDigitChars 10 whole 0 + Nat.ofDigitChars 10 fraction 0 / 10 ^ fraction.length

/-- The number that text says. -/
def value (text : List Char) : ℚ :=
  ofDigits (text.takeWhile (· != '.')) (text.dropWhile (· != '.')).tail

lemma length_padded {d n : ℕ} (hd : 0 < d) (h : n < 10 ^ d) : (padded d n).length = d := by
  have hlen := (Nat.length_toDigits_le_iff (b := 10) (by decide) hd).mpr h
  rw [padded, List.length_append, List.length_replicate]
  omega

lemma ofDigitChars_padded (d n : ℕ) : Nat.ofDigitChars 10 (padded d n) 0 = n := by
  rw [padded, Nat.ofDigitChars_append, Nat.ofDigitChars_replicate_zero, Nat.mul_zero,
    Nat.ofDigitChars_toDigits (by decide) (by decide)]

/-- Text of digits is told from what is no digit. -/
lemma ne_of_mem_toDigits {n : ℕ} {x : Char} (hx : x.isDigit = false) :
    ∀ c ∈ Nat.toDigits 10 n, (c != x) = true := by
  intro c hc
  have hdigit := Nat.isDigit_of_mem_toDigits (by decide) (by decide) hc
  rw [bne_iff_ne]
  rintro rfl
  exact absurd hdigit (by rw [hx]; decide)

lemma ne_of_mem_fixed {d n : ℕ} {x : Char} (hx : x.isDigit = false) (hpoint : x ≠ '.') :
    ∀ c ∈ fixed d n, (c != x) = true := by
  have hzero : x ≠ '0' := by
    rintro rfl
    exact absurd hx (by decide)
  intro c hc
  rw [fixed, List.mem_append, List.mem_cons, padded, List.mem_append] at hc
  rcases hc with hc | rfl | hc | hc
  · exact ne_of_mem_toDigits hx c hc
  · exact bne_iff_ne.mpr hpoint.symm
  · rw [List.eq_of_mem_replicate hc]
    exact bne_iff_ne.mpr hzero.symm
  · exact ne_of_mem_toDigits hx c hc

lemma value_fixed {d : ℕ} (hd : 0 < d) (n : ℕ) : value (fixed d n) = n / 10 ^ d := by
  have hdigits : ∀ c ∈ Nat.toDigits 10 (n / 10 ^ d), (c != '.') = true :=
    ne_of_mem_toDigits rfl
  have hwhole : (fixed d n).takeWhile (· != '.') = Nat.toDigits 10 (n / 10 ^ d) := by
    rw [fixed, List.takeWhile_append_of_pos hdigits, List.takeWhile_cons_of_neg (by simp),
      List.append_nil]
  have hfraction : ((fixed d n).dropWhile (· != '.')).tail = padded d (n % 10 ^ d) := by
    rw [fixed, List.dropWhile_append_of_pos hdigits, List.dropWhile_cons_of_neg (by simp),
      List.tail_cons]
  have hsplit : (n : ℚ) = (n / 10 ^ d : ℕ) * 10 ^ d + (n % 10 ^ d : ℕ) := by
    exact_mod_cast (Nat.div_add_mod' n (10 ^ d)).symm
  have hlen := length_padded hd (Nat.mod_lt n (pow_pos (by decide : 0 < 10) d))
  rw [value, hwhole, hfraction, ofDigits, hlen, ofDigitChars_padded,
    Nat.ofDigitChars_toDigits (by decide) (by decide), hsplit]
  field_simp

end SvmWasiCore.Lib.Decimal

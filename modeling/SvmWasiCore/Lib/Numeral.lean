import Mathlib.Data.Nat.Digits.Lemmas

/-!
Numerals that keep their leading zeros, most significant digit first.

A numeral is told by its leading zeros and its value, in any base. So it can be written in another
base, leading zero for leading zero, and brought back.
-/

namespace SvmWasiCore.Lib.Numeral

def value (b : ℕ) (ds : List ℕ) : ℕ := ds.foldl (fun n d => b * n + d) 0

/-- The number of leading zeros. -/
def zeros (ds : List ℕ) : ℕ := (ds.takeWhile (· = 0)).length

/-- The numeral with these leading zeros and this value. -/
def write (b z n : ℕ) : List ℕ := List.replicate z 0 ++ (b.digits n).reverse

/-- The same leading zeros and the same value in another base. -/
def rebase (b c : ℕ) (ds : List ℕ) : List ℕ := write c (zeros ds) (value b ds)

variable {b c d n : ℕ} {ds : List ℕ}

lemma value_eq_ofDigits : value b ds = Nat.ofDigits b ds.reverse := by
  rw [value, Nat.ofDigits_eq_foldr, List.foldr_reverse]
  congr 1
  funext n d
  exact add_comm _ _

@[simp] lemma value_zero_cons : value b (0 :: ds) = value b ds := by
  rw [value, List.foldl_cons, Nat.mul_zero, Nat.add_zero, value]

@[simp] lemma zeros_zero_cons : zeros (0 :: ds) = zeros ds + 1 := by
  simp [zeros]

lemma zeros_cons (h : d ≠ 0) : zeros (d :: ds) = 0 := by
  simp [zeros, h]

/-- A numeral is told by its leading zeros and its value. -/
lemma write_zeros_value (hb : 1 < b) (h : ∀ d ∈ ds, d < b) :
    write b (zeros ds) (value b ds) = ds := by
  induction ds with
  | nil => simp [write, zeros, value]
  | cons d ds ih =>
    by_cases hd : d = 0
    · subst hd
      rw [zeros_zero_cons, value_zero_cons, write, List.replicate_succ, List.cons_append]
      exact congrArg _ (ih (List.forall_mem_cons.mp h).2)
    · have hlast : ∀ hne : (d :: ds).reverse ≠ [], (d :: ds).reverse.getLast hne ≠ 0 := by
        intro hne
        rwa [List.getLast_reverse, List.head_cons]
      have hlt : ∀ x ∈ (d :: ds).reverse, x < b := by
        intro x hx
        exact h x (List.mem_reverse.mp hx)
      rw [zeros_cons hd, value_eq_ofDigits, write, Nat.digits_ofDigits b hb _ hlt hlast,
        List.reverse_reverse, List.replicate_zero, List.nil_append]

@[simp] lemma zeros_write {z : ℕ} : zeros (write b z n) = z := by
  induction z with
  | zero =>
    rw [write, List.replicate_zero, List.nil_append]
    by_cases hn : n = 0
    · simp [hn, zeros]
    · have hne : (b.digits n) ≠ [] := Nat.digits_ne_nil_iff_ne_zero.mpr hn
      have hlast := Nat.getLast_digit_ne_zero b hn
      rw [← List.dropLast_append_getLast hne, List.reverse_append, List.reverse_singleton,
        List.singleton_append]
      exact zeros_cons hlast
  | succ z ih =>
    rw [write, List.replicate_succ, List.cons_append, zeros_zero_cons]
    exact congrArg _ ih

@[simp] lemma value_write {z : ℕ} : value b (write b z n) = n := by
  induction z with
  | zero =>
    rw [write, List.replicate_zero, List.nil_append, value_eq_ofDigits, List.reverse_reverse,
      Nat.ofDigits_digits]
  | succ z ih =>
    rw [write, List.replicate_succ, List.cons_append, value_zero_cons]
    exact ih

lemma lt_of_mem_write (hb : 1 < b) {z : ℕ} (h : d ∈ write b z n) : d < b := by
  rcases List.mem_append.mp h with h | h
  · rw [(List.mem_replicate.mp h).2]
    omega
  · exact Nat.digits_lt_base hb (List.mem_reverse.mp h)

/-- There and back. -/
lemma rebase_rebase (hb : 1 < b) (h : ∀ d ∈ ds, d < b) : rebase c b (rebase b c ds) = ds := by
  rw [rebase, rebase, zeros_write, value_write]
  exact write_zeros_value hb h

lemma lt_of_mem_rebase (hc : 1 < c) (h : d ∈ rebase b c ds) : d < c := lt_of_mem_write hc h

end SvmWasiCore.Lib.Numeral

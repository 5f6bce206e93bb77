import Mathlib.Data.ZMod.Basic

/-!
Residues modulo `n` as multipliers of a commutative group.

A residue multiplies by its canonical representative. On all of the group the products
commute; on an element killed by `n` the multiplication also respects the arithmetic of the
residues.
-/

namespace SvmWasiCore.Lib.ScalarMul

variable {n : ℕ} {P : Type} [AddCommGroup P]

/-- `x · p`. -/
def mul (x : ZMod n) (p : P) : P := x.val • p

lemma mul_point_comm (x y : ZMod n) (p : P) : mul x (mul y p) = mul y (mul x p) := by
  unfold mul
  rw [smul_smul, smul_smul, Nat.mul_comm]

lemma mul_point_neg (x : ZMod n) (p : P) : mul x (-p) = -mul x p := smul_neg _ _

/-- On an element killed by `n` a multiple depends on the residue only. -/
lemma nsmul_mod {g : P} (hg : n • g = 0) (k : ℕ) : (k % n) • g = k • g := by
  have hturns : (n * (k / n)) • g = 0 := by
    rw [Nat.mul_comm, ← smul_smul, hg, smul_zero]
  calc (k % n) • g = (k % n) • g + (n * (k / n)) • g := by rw [hturns, add_zero]
    _ = (k % n + n * (k / n)) • g := (add_smul _ _ g).symm
    _ = k • g := by rw [Nat.mod_add_div]

/-- An element killed by `m` is killed by a residue modulo `n` when its remainder kills it. -/
lemma mul_eq_zero_iff_of_killed {m : ℕ} {p : P} (hp : m • p = 0) (x : ZMod n) :
    mul x p = 0 ↔ (x.val % m) • p = 0 := by
  rw [nsmul_mod hp]
  rfl

lemma mul_residue_add [NeZero n] {g : P} (hg : n • g = 0) (x y : ZMod n) :
    mul (x + y) g = mul x g + mul y g := by
  calc mul (x + y) g = ((x.val + y.val) % n) • g := by rw [mul, ZMod.val_add]
    _ = (x.val + y.val) • g := nsmul_mod hg _
    _ = mul x g + mul y g := add_smul _ _ g

lemma mul_residue_mul {g : P} (hg : n • g = 0) (x y : ZMod n) :
    mul (x * y) g = mul x (mul y g) := by
  calc mul (x * y) g = (x.val * y.val % n) • g := by rw [mul, ZMod.val_mul]
    _ = (x.val * y.val) • g := nsmul_mod hg _
    _ = mul x (mul y g) := (smul_smul _ _ g).symm

end SvmWasiCore.Lib.ScalarMul

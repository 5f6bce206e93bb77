import Mathlib.Data.Vector.Basic
import Mathlib.Logic.Equiv.Defs
import Mathlib.Data.Nat.Digits.Defs
import Mathlib.Algebra.Order.Ring.Nat

/-!
Natural numbers as little-endian byte strings of a fixed length, and fields read out of a longer
byte string at a fixed offset.
-/

namespace SvmWasiCore.Lib.LittleEndian

/-- The value of a byte string, lowest byte first. -/
def ofLe : List UInt8 → ℕ
  | [] => 0
  | b :: w => b.toNat + 256 * ofLe w

/-- The `k` lowest bytes of `n`. -/
def toLe : (k : ℕ) → ℕ → List.Vector UInt8 k
  | 0, _ => .nil
  | k + 1, n => UInt8.ofNat n ::ᵥ toLe k (n / 256)

@[simp] lemma ofLe_nil : ofLe [] = 0 := rfl
@[simp] lemma ofLe_cons (b : UInt8) (w : List UInt8) : ofLe (b :: w) = b.toNat + 256 * ofLe w := rfl

lemma ofLe_toLe (k n : ℕ) : ofLe (toLe k n).toList = n % 256 ^ k := by
  induction k generalizing n with
  | zero => simp [toLe, Nat.mod_one]
  | succ k ih =>
    rw [toLe, List.Vector.toList_cons, ofLe_cons, ih, UInt8.toNat_ofNat',
      show (2 : ℕ) ^ 8 = 256 from rfl, pow_succ', Nat.mod_mul]

/-- A number that fits is read back. -/
lemma ofLe_toLe_of_lt {k n : ℕ} (h : n < 256 ^ k) : ofLe (toLe k n).toList = n := by
  rw [ofLe_toLe, Nat.mod_eq_of_lt h]

lemma ofLe_lt (w : List UInt8) : ofLe w < 256 ^ w.length := by
  induction w with
  | nil => simp
  | cons b w ih =>
    have hb := b.toNat_lt
    rw [ofLe_cons, List.length_cons, pow_succ']
    omega

/-- The bytes of a number that was read are those it was read from. -/
lemma toLe_ofLe {k : ℕ} (v : List.Vector UInt8 k) : toLe k (ofLe v.toList) = v := by
  induction k with
  | zero => exact v.eq_nil.symm
  | succ k ih =>
    obtain ⟨b, v, rfl⟩ := v.exists_eq_cons
    have hb := b.toNat_lt
    have hlow : UInt8.ofNat (b.toNat + 256 * ofLe v.toList) = b := by
      rw [← UInt8.toNat_inj, UInt8.toNat_ofNat']
      omega
    have hhigh : (b.toNat + 256 * ofLe v.toList) / 256 = ofLe v.toList := by omega
    rw [List.Vector.toList_cons, ofLe_cons, toLe, hlow, hhigh, ih]

/-- A `u16` and its two bytes. -/
def u16Equiv : List.Vector UInt8 2 ≃ UInt16 where
  toFun v := .ofNat (ofLe v.toList)
  invFun n := toLe 2 n.toNat
  left_inv v := by
    have h := ofLe_lt v.toList
    rw [List.Vector.toList_length] at h
    beta_reduce
    rw [UInt16.toNat_ofNat_of_lt' h, toLe_ofLe]
  right_inv n := by
    beta_reduce
    rw [ofLe_toLe_of_lt n.toNat_lt, UInt16.ofNat_toNat]

/-- A `u32` and its four bytes. -/
def u32Equiv : List.Vector UInt8 4 ≃ UInt32 where
  toFun v := .ofNat (ofLe v.toList)
  invFun n := toLe 4 n.toNat
  left_inv v := by
    have h := ofLe_lt v.toList
    rw [List.Vector.toList_length] at h
    beta_reduce
    rw [UInt32.toNat_ofNat_of_lt' h, toLe_ofLe]
  right_inv n := by
    beta_reduce
    rw [ofLe_toLe_of_lt n.toNat_lt, UInt32.ofNat_toNat]

/-- A `u64` and its eight bytes. -/
def u64Equiv : List.Vector UInt8 8 ≃ UInt64 where
  toFun v := .ofNat (ofLe v.toList)
  invFun n := toLe 8 n.toNat
  left_inv v := by
    have h := ofLe_lt v.toList
    rw [List.Vector.toList_length] at h
    beta_reduce
    rw [UInt64.toNat_ofNat_of_lt' h, toLe_ofLe]
  right_inv n := by
    beta_reduce
    rw [ofLe_toLe_of_lt n.toNat_lt, UInt64.ofNat_toNat]

/-- An `i64` and its eight bytes, those of the `u64` with the same bits. -/
def i64Equiv : List.Vector UInt8 8 ≃ Int64 where
  toFun v := (u64Equiv v).toInt64
  invFun n := u64Equiv.symm n.toUInt64
  left_inv v := by
    beta_reduce
    rw [UInt64.toUInt64_toInt64, Equiv.symm_apply_apply]
  right_inv n := by
    beta_reduce
    rw [Equiv.apply_symm_apply, Int64.toInt64_toUInt64]

/-! ### Fields at an offset -/

/-- The `k` bytes of `w` from offset `i` on; `0` past the end. -/
def array (k : ℕ) (w : List UInt8) (i : ℕ) : List.Vector UInt8 k :=
  .ofFn fun j => w.getD (i + j) 0

def u16At (w : List UInt8) (i : ℕ) : UInt16 := .ofNat (ofLe (array 2 w i).toList)
def u32At (w : List UInt8) (i : ℕ) : UInt32 := .ofNat (ofLe (array 4 w i).toList)
def u64At (w : List UInt8) (i : ℕ) : UInt64 := .ofNat (ofLe (array 8 w i).toList)

lemma toList_array {k : ℕ} (w : List UInt8) {i : ℕ} (h : i + k ≤ w.length) :
    (array k w i).toList = (w.drop i).take k := by
  refine List.ext_getElem (by simp; omega) fun j hj _ => ?_
  rw [List.Vector.toList_length] at hj
  have hw : i + j < w.length := by omega
  simp [array, hw]

/-- A field that begins the string. -/
lemma array_append {k : ℕ} (v : List.Vector UInt8 k) (w : List UInt8) :
    array k (v.toList ++ w) 0 = v := by
  refine List.Vector.eq _ _ ?_
  rw [toList_array _ (by simp), List.drop_zero, List.take_left' v.toList_length]

lemma getD_drop (w : List UInt8) (i j : ℕ) : (w.drop i).getD j 0 = w.getD (i + j) 0 := by
  rw [List.getD_eq_getElem?_getD, List.getElem?_drop, ← List.getD_eq_getElem?_getD]

lemma getD_take {n i : ℕ} (w : List UInt8) (h : i < n) : (w.take n).getD i 0 = w.getD i 0 := by
  rw [List.getD_eq_getElem?_getD, List.getElem?_take_of_lt h, ← List.getD_eq_getElem?_getD]

lemma array_drop (k : ℕ) (w : List UInt8) (i j : ℕ) : array k (w.drop i) j = array k w (i + j) := by
  refine congrArg List.Vector.ofFn (funext fun l => ?_)
  rw [getD_drop, Nat.add_assoc]

lemma array_take {k n : ℕ} (w : List UInt8) {i : ℕ} (h : i + k ≤ n) :
    array k (w.take n) i = array k w i := by
  refine congrArg List.Vector.ofFn (funext fun l => ?_)
  have hl : i + l < n := by omega
  rw [getD_take w hl]

/-- The bytes of a field are the bytes of the string it was cut from. -/
lemma getD_array {k : ℕ} (w : List UInt8) (i : ℕ) {j : ℕ} (h : j < k) :
    (array k w i).toList.getD j 0 = w.getD (i + j) 0 := by
  have hlen : j < (array k w i).toList.length := by
    rwa [List.Vector.toList_length]
  rw [List.getD_eq_getElem?_getD, List.getElem?_eq_getElem hlen, Option.getD_some]
  simp only [array, List.Vector.toList_ofFn, List.getElem_ofFn]

lemma array_array {k l : ℕ} (w : List UInt8) (i : ℕ) {j : ℕ} (h : j + k ≤ l) :
    array k (array l w i).toList j = array k w (i + j) := by
  refine congrArg List.Vector.ofFn (funext fun m => ?_)
  have hm : j + m < l := by omega
  rw [getD_array w i hm, Nat.add_assoc]

lemma u16At_drop (w : List UInt8) (i j : ℕ) : u16At (w.drop i) j = u16At w (i + j) := by
  unfold u16At
  rw [array_drop]

lemma u16At_append (n : UInt16) (w : List UInt8) : u16At ((toLe 2 n.toNat).toList ++ w) 0 = n := by
  rw [u16At, array_append]
  exact u16Equiv.apply_symm_apply n

/-- The bytes of a `u16` are those it was read from. -/
lemma toLe_u16At (w : List UInt8) (i : ℕ) : toLe 2 (u16At w i).toNat = array 2 w i :=
  u16Equiv.symm_apply_apply _

lemma u32At_take {n : ℕ} (w : List UInt8) {i : ℕ} (h : i + 4 ≤ n) :
    u32At (w.take n) i = u32At w i := by
  unfold u32At
  rw [array_take w h]

lemma u32At_array {l : ℕ} (w : List UInt8) (i : ℕ) {j : ℕ} (h : j + 4 ≤ l) :
    u32At (array l w i).toList j = u32At w (i + j) := by
  unfold u32At
  rw [array_array w i h]

end SvmWasiCore.Lib.LittleEndian

import SvmWasiCore.Lib.ByteCodec
import Mathlib.Tactic.Common

/-!
The compact-u16 length prefix of `solana-short-vec`, and the vectors behind it.

A length is written in groups of seven bits, low group first, every byte but the last with
its top bit set. The decoder refuses every form but the shortest.
-/

namespace SvmWasiCore.ShortVec

open Lib.ByteCodec

/-- Why bincode refuses an input. -/
inductive DecodeError
  | unexpectedEof
  | tooLong (len : ℕ)
  | overflow (val : ℕ)
  | alias
  | byteThreeContinues
  deriving DecidableEq, Repr

def maxEncodingLength : ℕ := 3

/-! ### Writing -/

/-- The loop over `rem_val`, which runs at most `fuel` times. -/
def serLoop : ℕ → ℕ → Bytes
  | 0, _ => []
  | fuel + 1, rem =>
    let elem := rem % 128
    if rem / 128 = 0 then [UInt8.ofNat elem]
    else UInt8.ofNat (elem + 128) :: serLoop fuel (rem / 128)

/-- A length above `u16::MAX` is an error of the serializer. -/
def serShortU16 (len : ℕ) : Option Bytes :=
  if len ≤ 65535 then some (serLoop maxEncodingLength len) else none

/-! ### Reading -/

inductive VisitStatus
  | done (val : ℕ)
  | more (val : ℕ)

def visitByte (elem : UInt8) (val nth : ℕ) : Except DecodeError VisitStatus :=
  if elem.toNat = 0 ∧ nth ≠ 0 then .error .alias
  else if maxEncodingLength ≤ nth then .error (.tooLong (nth + 1))
  else if nth = maxEncodingLength - 1 ∧ 128 ≤ elem.toNat then .error .byteThreeContinues
  else
    let newVal := val + elem.toNat % 128 * 128 ^ nth
    if 65535 < newVal then .error (.overflow newVal)
    else if elem.toNat < 128 then .ok (.done newVal) else .ok (.more newVal)

/-- `visit_seq`: `left` bytes may still be read. -/
def visitSeq : (left nth val : ℕ) → Bytes → Except DecodeError (ℕ × Bytes)
  | 0, _, _, _ => .error .byteThreeContinues
  | _ + 1, _, _, [] => .error .unexpectedEof
  | left + 1, nth, val, elem :: w =>
    match visitByte elem val nth with
    | .error e => .error e
    | .ok (.done v) => .ok (v, w)
    | .ok (.more v) => visitSeq left (nth + 1) v w

def deShortU16 (w : Bytes) : Except DecodeError (ℕ × Bytes) := visitSeq maxEncodingLength 0 0 w

/-! ### The two are inverse -/

lemma visitSeq_done {left nth val : ℕ} {elem : UInt8} (w : Bytes) (hz : elem.toNat = 0 → nth = 0)
    (hn : nth < 3) (he : elem.toNat < 128) (hv : val + elem.toNat * 128 ^ nth ≤ 65535) :
    visitSeq (left + 1) nth val (elem :: w) = .ok (val + elem.toNat * 128 ^ nth, w) := by
  have h1 : ¬(elem.toNat = 0 ∧ nth ≠ 0) := fun h => h.2 (hz h.1)
  have h2 : ¬maxEncodingLength ≤ nth := by unfold maxEncodingLength; omega
  have h3 : ¬(nth = maxEncodingLength - 1 ∧ 128 ≤ elem.toNat) := by omega
  simp [visitSeq, visitByte, h1, h2, h3, he, Nat.mod_eq_of_lt he, Nat.not_lt.mpr hv]

lemma visitSeq_more {left nth val : ℕ} {elem : UInt8} (w : Bytes) (hn : nth < 2)
    (he : 128 ≤ elem.toNat) (hv : val + (elem.toNat - 128) * 128 ^ nth ≤ 65535) :
    visitSeq (left + 1) nth val (elem :: w) =
      visitSeq left (nth + 1) (val + (elem.toNat - 128) * 128 ^ nth) w := by
  have hlt := elem.toNat_lt
  have hm : elem.toNat % 128 = elem.toNat - 128 := by omega
  have h1 : ¬(elem.toNat = 0 ∧ nth ≠ 0) := by omega
  have h2 : ¬maxEncodingLength ≤ nth := by unfold maxEncodingLength; omega
  have h3 : ¬(nth = maxEncodingLength - 1 ∧ 128 ≤ elem.toNat) := by
    unfold maxEncodingLength; omega
  simp [visitSeq, visitByte, h1, h2, h3, Nat.not_lt.mpr he, hm, Nat.not_lt.mpr hv]

lemma serLoop_one {n : ℕ} (h : n < 128) : serLoop 3 n = [UInt8.ofNat n] := by
  have h0 : n / 128 = 0 := by omega
  simp [serLoop, h0, Nat.mod_eq_of_lt h]

lemma serLoop_two {n : ℕ} (h1 : 128 ≤ n) (h2 : n < 16384) :
    serLoop 3 n = [UInt8.ofNat (n % 128 + 128), UInt8.ofNat (n / 128)] := by
  have h3 : n / 128 ≠ 0 := by omega
  have h4 : n / 128 / 128 = 0 := by omega
  have h5 : n / 128 % 128 = n / 128 := by omega
  simp only [serLoop, h3, h4, h5, if_false, if_true]

lemma serLoop_three {n : ℕ} (h1 : 16384 ≤ n) (h2 : n ≤ 65535) :
    serLoop 3 n = [UInt8.ofNat (n % 128 + 128), UInt8.ofNat (n / 128 % 128 + 128),
      UInt8.ofNat (n / 16384)] := by
  have h3 : n / 128 ≠ 0 := by omega
  have h4 : n / 128 / 128 ≠ 0 := by omega
  have h5 : n / 128 / 128 / 128 = 0 := by omega
  have h6 : n / 128 / 128 % 128 = n / 16384 := by omega
  simp only [serLoop, h3, h4, h5, h6, if_false, if_true]

lemma toNat_ofNat {n : ℕ} (h : n < 256) : (UInt8.ofNat n).toNat = n := by
  rw [UInt8.toNat_ofNat']
  exact Nat.mod_eq_of_lt h

lemma ofNat_eq {b : UInt8} {n : ℕ} (h : n = b.toNat) : UInt8.ofNat n = b := by
  rw [h, UInt8.ofNat_toNat]

lemma deShortU16_ser {n : ℕ} (h : n ≤ 65535) (rest : Bytes) :
    deShortU16 (serLoop 3 n ++ rest) = .ok (n, rest) := by
  unfold deShortU16 maxEncodingLength
  rcases Nat.lt_or_ge n 128 with h1 | h1
  · have e := toNat_ofNat (show n < 256 by omega)
    rw [serLoop_one h1, List.singleton_append, visitSeq_done _ (by omega) (by omega) (by omega)
      (by omega), e]
    simp
  have e1 := toNat_ofNat (show n % 128 + 128 < 256 by omega)
  rcases Nat.lt_or_ge n 16384 with h2 | h2
  · have e2 := toNat_ofNat (show n / 128 < 256 by omega)
    rw [serLoop_two h1 h2, List.cons_append, visitSeq_more _ (by omega) (by omega) (by omega),
      List.singleton_append, visitSeq_done _ (by omega) (by omega) (by omega) (by omega), e1, e2]
    simp; omega
  · have e2 := toNat_ofNat (show n / 128 % 128 + 128 < 256 by omega)
    have e3 := toNat_ofNat (show n / 16384 < 256 by omega)
    rw [serLoop_three h2 h, List.cons_append, visitSeq_more _ (by omega) (by omega) (by omega),
      List.cons_append, visitSeq_more _ (by omega) (by omega) (by omega), List.singleton_append,
      visitSeq_done _ (by omega) (by omega) (by omega) (by omega), e1, e2, e3]
    simp; omega

/-- What one step of the decoder can have read. -/
lemma visitSeq_cases {left nth val n : ℕ} {w rest : Bytes}
    (h : visitSeq (left + 1) nth val w = .ok (n, rest)) :
    ∃ elem w', w = elem :: w' ∧ (elem.toNat = 0 → nth = 0) ∧ nth < 3 ∧
      ((elem.toNat < 128 ∧ n = val + elem.toNat * 128 ^ nth ∧ n ≤ 65535 ∧ rest = w') ∨
      (128 ≤ elem.toNat ∧ nth < 2 ∧
        visitSeq left (nth + 1) (val + (elem.toNat - 128) * 128 ^ nth) w' = .ok (n, rest))) := by
  cases w with
  | nil => simp [visitSeq] at h
  | cons elem w' =>
    have hlt := elem.toNat_lt
    refine ⟨elem, w', rfl, ?_⟩
    rw [visitSeq, visitByte, maxEncodingLength] at h
    by_cases h1 : elem.toNat = 0 ∧ nth ≠ 0
    · simp [h1] at h
    by_cases h2 : 3 ≤ nth
    · simp [h1, h2] at h
    by_cases h3 : nth = 3 - 1 ∧ 128 ≤ elem.toNat
    · rw [if_neg h1, if_neg h2, if_pos h3] at h
      simp at h
    by_cases h4 : 65535 < val + elem.toNat % 128 * 128 ^ nth
    · simp [h1, h2, h3, h4] at h
    refine ⟨by omega, by omega, ?_⟩
    by_cases h5 : elem.toNat < 128
    · simp only [h1, h2, h3, h4, h5, if_true, if_false, Except.ok.injEq, Prod.mk.injEq] at h
      rw [Nat.mod_eq_of_lt h5] at h h4
      exact Or.inl ⟨h5, h.1.symm, by omega, h.2.symm⟩
    · simp only [h1, h2, h3, h4, h5, if_false] at h
      rw [show elem.toNat % 128 = elem.toNat - 128 by omega] at h
      exact Or.inr ⟨by omega, by omega, h⟩

lemma ser_deShortU16 {n : ℕ} {w rest : Bytes} (h : deShortU16 w = .ok (n, rest)) :
    n ≤ 65535 ∧ w = serLoop 3 n ++ rest := by
  obtain ⟨a, w, rfl, -, -, ⟨ha, hn, hle, rfl⟩ | ⟨ha, -, h⟩⟩ := visitSeq_cases h
  · simp only [Nat.zero_add, pow_zero, Nat.mul_one] at hn
    refine ⟨hle, ?_⟩
    rw [serLoop_one (by omega), ofNat_eq hn]
    rfl
  have ha' := a.toNat_lt
  obtain ⟨b, w, rfl, hb0, -, ⟨hb, hn, hle, rfl⟩ | ⟨hb, -, h⟩⟩ := visitSeq_cases h
  · simp only [Nat.zero_add, pow_zero, Nat.mul_one, pow_one] at hn
    refine ⟨hle, ?_⟩
    rw [serLoop_two (by omega) (by omega), ofNat_eq (b := a) (by omega),
      ofNat_eq (b := b) (by omega)]
    rfl
  have hb' := b.toNat_lt
  obtain ⟨c, w, rfl, hc0, -, ⟨hc, hn, hle, rfl⟩ | ⟨-, hc, -⟩⟩ := visitSeq_cases h
  · simp only [Nat.zero_add, pow_zero, Nat.mul_one, pow_one, Nat.reduceAdd, Nat.reducePow] at hn
    refine ⟨hle, ?_⟩
    rw [serLoop_three (by omega) (by omega), ofNat_eq (b := a) (by omega),
      ofNat_eq (b := b) (by omega), ofNat_eq (b := c) (by omega)]
    rfl
  · omega

/-! ### The codecs -/

/-- A length, refused above `u16::MAX`. -/
def shortU16 : Codec DecodeError ℕ where
  enc := serShortU16
  dec := deShortU16
  dec_enc := by
    intro n p h rest
    simp only [serShortU16, Option.ite_none_right_eq_some, Option.some.injEq] at h
    obtain ⟨hn, rfl⟩ := h
    exact deShortU16_ser hn rest
  enc_dec := by
    intro w n rest h
    obtain ⟨hn, rfl⟩ := ser_deShortU16 h
    exact ⟨serLoop 3 n, by simp [serShortU16, hn, maxEncodingLength], rfl⟩

@[simp] lemma shortU16_fits (n : ℕ) : shortU16.Fits n ↔ n ≤ 65535 := by
  simp [Codec.Fits, shortU16, serShortU16]

def u8 : Codec DecodeError UInt8 := .byte .unexpectedEof

@[simp] lemma u8_fits (b : UInt8) : u8.Fits b := rfl

/-- A `Vec` with `serde(with = "solana_short_vec")`. -/
def shortVec {α : Type} (c : Codec DecodeError α) : Codec DecodeError (List α) :=
  .counted shortU16 c

@[simp] lemma shortVec_fits {α : Type} (c : Codec DecodeError α) (l : List α) :
    (shortVec c).Fits l ↔ l.length ≤ 65535 ∧ ∀ a ∈ l, c.Fits a := by
  rw [shortVec, Codec.counted_fits, shortU16_fits]

/-- A byte array of fixed length. -/
def byteArray (n : ℕ) : Codec DecodeError (List.Vector UInt8 n) := u8.fixed n

@[simp] lemma byteArray_fits {n : ℕ} (v : List.Vector UInt8 n) : (byteArray n).Fits v := by
  simp [byteArray]

end SvmWasiCore.ShortVec

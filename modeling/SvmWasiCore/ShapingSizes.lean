import SvmWasiCore.Shaping

/-!
How many bytes shaping leaves.

A suffix takes 17 bytes and the digits of its count, a marker 36 and the digits of its own; the
rest are the texts of what is kept.
-/

namespace SvmWasiCore.ShapingSizes

open Json JsonText Shaping

/-- The decimal digits of a number. -/
def digits (n : ℕ) : ℕ := (Nat.toDigits 10 n).length

lemma digits_le {n k : ℕ} (hk : 0 < k) (h : n < 10 ^ k) : digits n ≤ k :=
  (Nat.length_toDigits_le_iff (by decide) hk).mpr h

lemma isDigit_bounds {c : Char} (h : c.isDigit) : 48 ≤ c.toNat ∧ c.toNat ≤ 57 :=
  Char.isDigit_iff_toNat.mp h

lemma utf8Size_digit {c : Char} (h : c.isDigit) : c.utf8Size = 1 := by
  rw [Char.utf8Size_eq_one_iff, UInt32.le_iff_toNat_le]
  have hle : c.toNat ≤ 127 := Nat.le_trans (isDigit_bounds h).2 (by decide)
  exact hle

/-- A digit is written as it is. -/
lemma escape_digit {c : Char} (h : c.isDigit) : (escape c).utf8ByteSize = 1 := by
  have hbounds := isDigit_bounds h
  unfold escape
  split
  case h_8 =>
    rw [if_neg (by omega), String.utf8ByteSize_singleton]
    exact utf8Size_digit h
  all_goals omega

lemma ofList_cons (c : Char) (cs : List Char) :
    String.ofList (c :: cs) = .singleton c ++ .ofList cs := by
  rw [← List.singleton_append, String.ofList_append, ← String.singleton_eq_ofList]

lemma repr_size (n : ℕ) : n.repr.utf8ByteSize = digits n := by
  have hdigits : ∀ cs : List Char, (∀ c ∈ cs, c.isDigit) →
      (String.ofList cs).utf8ByteSize = cs.length := by
    intro cs hcs
    induction cs with
    | nil => rfl
    | cons c cs ih =>
      rw [ofList_cons, String.utf8ByteSize_append, String.utf8ByteSize_singleton,
        utf8Size_digit (hcs c List.mem_cons_self), ih fun d hd => hcs d (List.mem_cons_of_mem _ hd),
        List.length_cons]
      omega
  rw [Nat.repr_eq_ofList_toDigits]
  exact hdigits _ fun c hc => Nat.isDigit_of_mem_toDigits (by decide) (by decide) hc

@[simp] lemma escapedSize_append (cs ds : List Char) :
    escapedSize (cs ++ ds) = escapedSize cs + escapedSize ds := by
  rw [escapedSize, List.map_append, List.sum_append]
  rfl

lemma escapedSize_digits {cs : List Char} (h : ∀ c ∈ cs, c.isDigit) :
    escapedSize cs = cs.length := by
  induction cs with
  | nil => rfl
  | cons c cs ih =>
    have hrest := ih fun d hd => h d (List.mem_cons_of_mem _ hd)
    rw [escapedSize] at hrest ⊢
    rw [List.map_cons, List.sum_cons, escape_digit (h c List.mem_cons_self), hrest,
      List.length_cons]
    omega

lemma charsTotal_size (n : ℕ) : escapedSize (charsTotal n).toList = 17 + digits n := by
  have hopen : escapedSize "…(".toList = 4 := by decide
  have hclose : escapedSize " chars total)".toList = 13 := by decide
  have hrepr : escapedSize n.repr.toList = digits n := by
    rw [Nat.toList_repr, digits]
    exact escapedSize_digits fun c hc => Nat.isDigit_of_mem_toDigits (by decide) (by decide) hc
  rw [charsTotal, String.toList_append, String.toList_append, escapedSize_append,
    escapedSize_append, hopen, hclose, hrepr]
  omega

/-- An object of a boolean and a number. -/
lemma marker_size (floatText : UInt64 → String) (omitted : ℕ) :
    textSize floatText (marker omitted) = 36 + digits (omitted % UInt64.size) := by
  have hkeys : (quote "_truncated").utf8ByteSize = 12 ∧
      (quote "omitted_items").utf8ByteSize = 15 := by decide
  have htrue : "true".utf8ByteSize = 4 := by decide
  have hnumber : (UInt64.ofNat omitted).toNat = omitted % UInt64.size := UInt64.toNat_ofNat'
  rw [marker, textSize_object, List.map_cons, List.map_cons, List.map_nil, memberSize, memberSize,
    hkeys.1, hkeys.2, textSize, textSize, toText, toText, numberText, repr_size, hnumber]
  simp [joined]
  omega

/-! ### Bounds -/

/-- No character takes more than the six bytes of a control character. -/
lemma escape_le (c : Char) : (escape c).utf8ByteSize ≤ 6 := by
  unfold escape
  split
  case h_8 =>
    split_ifs with hcontrol
    · have hdigit : ∀ d < 16, (hexDigit d).utf8Size = 1 := by decide
      have hlead : "\\u00".utf8ByteSize = 4 := by decide
      rw [String.utf8ByteSize_append, String.utf8ByteSize_append, String.utf8ByteSize_singleton,
        String.utf8ByteSize_singleton, hdigit _ (by omega), hdigit _ (by omega), hlead]
    · rw [String.utf8ByteSize_singleton]
      exact Nat.le_trans c.utf8Size_le_four (by decide)
  all_goals decide

lemma marker_size_le (floatText : UInt64 → String) (omitted : ℕ) :
    textSize floatText (marker omitted) ≤ 56 := by
  have homitted : omitted % UInt64.size < UInt64.size := Nat.mod_lt _ (by decide)
  have hdigits := digits_le (k := 20) (by decide) (Nat.lt_trans homitted (by decide))
  rw [marker_size]
  omega

lemma sum_map_le {α : Type} {f : α → ℕ} {b : ℕ} {l : List α} (h : ∀ a ∈ l, f a ≤ b) :
    (l.map f).sum ≤ l.length * b := by
  have hsum := List.sum_le_card_nsmul (l.map f) b (List.forall_mem_map.mpr h)
  rwa [List.length_map, Nat.nsmul_eq_mul] at hsum

lemma joined_map_le {α : Type} {f : α → ℕ} {b : ℕ} {l : List α} (h : ∀ a ∈ l, f a ≤ b) :
    joined (l.map f) ≤ l.length * (b + 1) := by
  have hsum := sum_map_le h
  rw [joined, List.length_map, Nat.mul_succ]
  omega

lemma escapedSize_le (cs : List Char) : escapedSize cs ≤ 6 * cs.length := by
  rw [Nat.mul_comm]
  exact sum_map_le fun c _ => escape_le c

lemma length_le_utf8ByteSize (s : String) : s.length ≤ s.utf8ByteSize := by
  rw [← String.length_toList, ← String.ofList_toList (s := s), String.toList_ofList]
  induction s.toList with
  | nil => simp
  | cons c cs ih =>
    have hpos := c.utf8Size_pos
    rw [ofList_cons, String.utf8ByteSize_append, String.utf8ByteSize_singleton, List.length_cons]
    omega

lemma quote_le (s : String) : (quote s).utf8ByteSize ≤ 2 + 6 * s.utf8ByteSize := by
  have hescaped := escapedSize_le s.toList
  have hlength := length_le_utf8ByteSize s
  rw [String.length_toList] at hescaped
  rw [quote_size]
  omega

end SvmWasiCore.ShapingSizes

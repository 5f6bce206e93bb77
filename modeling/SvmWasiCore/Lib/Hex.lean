import SvmWasiCore.Lib.ByteCodec
import Mathlib.Algebra.Group.Nat.Even

/-!
Hexadecimal text.

Text is decoded byte by byte, as UTF-8. A digit is one byte there, and a character that is no
digit has no byte that is one, so it comes to the same as decoding character by character.
-/

namespace SvmWasiCore.Lib.Hex

open ByteCodec

inductive FromHexError
  | invalidHexCharacter (c : Char) (index : ℕ)
  | oddLength
  deriving DecidableEq

/-! ### Digits -/

def HEX_CHARS_LOWER : List Char :=
  ['0', '1', '2', '3', '4', '5', '6', '7', '8', '9', 'a', 'b', 'c', 'd', 'e', 'f']

/-- In either case. -/
def IsDigit (c : Char) : Prop := c.toLower ∈ HEX_CHARS_LOWER

instance (c : Char) : Decidable (IsDigit c) := inferInstanceAs (Decidable (_ ∈ _))

def digitValue (c : Char) : ℕ := HEX_CHARS_LOWER.idxOf c.toLower

def digitChar (n : ℕ) : Char := HEX_CHARS_LOWER.getD n '0'

lemma digitValue_lt {c : Char} (h : IsDigit c) : digitValue c < 16 :=
  List.idxOf_lt_length_iff.mpr h

lemma digitChar_digitValue {c : Char} (h : IsDigit c) : digitChar (digitValue c) = c.toLower := by
  have hlt := List.idxOf_lt_length_iff.mpr h
  rw [digitChar, digitValue, List.getD_eq_getElem?_getD, List.getElem?_eq_getElem hlt,
    Option.getD_some, List.getElem_idxOf]

lemma digitChar_spec : ∀ n < 16, IsDigit (digitChar n) ∧ digitValue (digitChar n) = n := by decide

/-! ### Decoding -/

/-- `b as char`. -/
def charOf (b : UInt8) : Char := .ofNat b.toNat

def val (c : UInt8) (index : ℕ) : Except FromHexError UInt8 :=
  if 65 ≤ c ∧ c ≤ 70 then .ok (c - 65 + 10)
  else if 97 ≤ c ∧ c ≤ 102 then .ok (c - 97 + 10)
  else if 48 ≤ c ∧ c ≤ 57 then .ok (c - 48)
  else .error (.invalidHexCharacter (charOf c) index)

/-- The pairs from offset `index` on. -/
def decodeFrom (index : ℕ) : Bytes → Except FromHexError Bytes
  | hi :: lo :: w => do
    let x ← val hi index
    let y ← val lo (index + 1)
    let rest ← decodeFrom (index + 2) w
    return (x <<< 4 ||| y) :: rest
  | [_] => .error .oddLength
  | [] => return []

def decode (w : Bytes) : Except FromHexError Bytes :=
  if w.length % 2 ≠ 0 then .error .oddLength else decodeFrom 0 w

/-- The bytes that pairs of digits stand for, the high digit first. -/
def bytesOf : List Char → Bytes
  | hi :: lo :: cs => .ofNat (16 * digitValue hi + digitValue lo) :: bytesOf cs
  | _ => []

lemma toOption_val (b : UInt8) (i : ℕ) : (val b i).toOption =
    if IsDigit (charOf b) then some (.ofNat (digitValue (charOf b))) else none := by
  have hindex : (val b i).toOption = (val b 0).toOption := by
    unfold val
    split_ifs <;> rfl
  have hall : ∀ n < 256, (val (.ofNat n) 0).toOption = if IsDigit (charOf (.ofNat n)) then
      some (.ofNat (digitValue (charOf (.ofNat n)))) else none := by decide +kernel
  have h := hall b.toNat b.toNat_lt
  rw [UInt8.ofNat_toNat] at h
  rw [hindex, h]

lemma val_eq_ok_iff {b d : UInt8} {i : ℕ} :
    val b i = .ok d ↔ IsDigit (charOf b) ∧ d = .ofNat (digitValue (charOf b)) := by
  have h := toOption_val b i
  cases hval : val b i with
  | error e =>
    rw [hval] at h
    refine iff_of_false (by simp) fun hd => ?_
    rw [if_pos hd.1] at h
    cases h
  | ok x =>
    rw [hval] at h
    split_ifs at h with hd
    · obtain rfl := Option.some.inj h
      simp [hd, eq_comm]
    · cases h

lemma shift_or : ∀ x < 16, ∀ y < 16,
    ((.ofNat x : UInt8) <<< 4 ||| .ofNat y) = .ofNat (16 * x + y) := by decide

lemma decodeFrom_eq_ok_iff {i : ℕ} {w v : Bytes} : decodeFrom i w = .ok v ↔
    Even w.length ∧ (∀ b ∈ w, IsDigit (charOf b)) ∧ v = bytesOf (w.map charOf) := by
  induction i, w using decodeFrom.induct generalizing v with
  | case1 i hi lo w ih =>
    have heven : Even (hi :: lo :: w).length ↔ Even w.length := by
      rw [List.length_cons, List.length_cons, Nat.even_add_one, Nat.even_add_one, not_not]
    simp only [heven, List.forall_mem_cons, List.map_cons, bytesOf]
    refine ⟨fun h => ?_, fun h => ?_⟩
    · obtain ⟨x, hx, h⟩ := bind_eq_ok.mp h
      obtain ⟨y, hy, h⟩ := bind_eq_ok.mp h
      obtain ⟨rest, hrest, h⟩ := bind_eq_ok.mp h
      obtain rfl := Except.ok.inj h
      obtain ⟨hdx, rfl⟩ := val_eq_ok_iff.mp hx
      obtain ⟨hdy, rfl⟩ := val_eq_ok_iff.mp hy
      obtain ⟨hlen, hdw, rfl⟩ := ih.mp hrest
      rw [shift_or _ (digitValue_lt hdx) _ (digitValue_lt hdy)]
      exact ⟨hlen, ⟨hdx, hdy, hdw⟩, rfl⟩
    · obtain ⟨hlen, ⟨hdx, hdy, hdw⟩, rfl⟩ := h
      rw [← shift_or _ (digitValue_lt hdx) _ (digitValue_lt hdy)]
      exact bind_eq_ok.mpr ⟨_, val_eq_ok_iff.mpr ⟨hdx, rfl⟩, bind_eq_ok.mpr
        ⟨_, val_eq_ok_iff.mpr ⟨hdy, rfl⟩, bind_eq_ok.mpr ⟨_, ih.mpr ⟨hlen, hdw, rfl⟩, rfl⟩⟩⟩
  | case2 => exact iff_of_false (by simp [decodeFrom]) (by simp)
  | case3 =>
    refine ⟨fun h => ?_, fun h => ?_⟩
    · obtain rfl := Except.ok.inj h
      exact ⟨Even.zero, by simp, rfl⟩
    · obtain ⟨-, -, rfl⟩ := h
      rfl

lemma decode_eq_ok_iff {w v : Bytes} : decode w = .ok v ↔
    Even w.length ∧ (∀ b ∈ w, IsDigit (charOf b)) ∧ v = bytesOf (w.map charOf) := by
  unfold decode
  split_ifs with hodd
  · exact iff_of_false (by simp) fun h => hodd (Nat.even_iff.mp h.1)
  · exact decodeFrom_eq_ok_iff

/-! ### Text -/

lemma toNat_charOf (b : UInt8) : (charOf b).toNat = b.toNat := by
  have hb : b.toNat < 55296 := lt_trans b.toNat_lt (by decide)
  rw [charOf, Char.ofNat, dif_pos (.inl hb)]
  rfl

lemma isDigit_lt {c : Char} (h : IsDigit c) : c.toNat < 128 := by
  by_cases hupper : c.val ≥ 'A'.val ∧ c.val ≤ 'Z'.val
  · have hle : c.toNat ≤ 90 := UInt32.le_iff_toNat_le.mp hupper.2
    omega
  · have hlower : c.toLower = c := dif_neg hupper
    have hall : ∀ c ∈ HEX_CHARS_LOWER, c.toNat < 128 := by simp [HEX_CHARS_LOWER]
    rw [IsDigit, hlower] at h
    exact hall c h

lemma utf8_of_lt {c : Char} (h : c.toNat < 128) :
    String.utf8EncodeChar c = [.ofNat c.toNat] ∧ charOf (.ofNat c.toNat) = c := by
  refine ⟨if_pos (Nat.le_of_lt_succ h), ?_⟩
  rw [charOf, UInt8.toNat_ofNat_of_lt' (lt_trans h (by decide)), Char.ofNat_toNat]

/-- No byte of a character beyond ASCII is in ASCII. -/
lemma le_of_mem_utf8 {c : Char} (hc : 128 ≤ c.toNat) :
    ∀ b ∈ String.utf8EncodeChar c, 128 ≤ b.toNat := by
  have hv : 128 ≤ c.val.toNat := hc
  unfold String.utf8EncodeChar
  dsimp only
  split_ifs <;> simp only [List.forall_mem_cons, List.not_mem_nil, false_implies, implies_true,
    and_true, UInt8.toNat_ofNat'] <;> omega

lemma isDigit_utf8 {c : Char} :
    (∀ b ∈ String.utf8EncodeChar c, IsDigit (charOf b)) ↔ IsDigit c := by
  by_cases hlt : c.toNat < 128
  · obtain ⟨hone, hchar⟩ := utf8_of_lt hlt
    rw [hone, List.forall_mem_singleton, hchar]
  · refine iff_of_false (fun h => ?_) fun h => hlt (isDigit_lt h)
    obtain ⟨b, hb⟩ := List.exists_mem_of_ne_nil _ (String.utf8EncodeChar_ne_nil (c := c))
    have hdigit := isDigit_lt (h b hb)
    have hbyte := le_of_mem_utf8 (not_lt.mp hlt) b hb
    rw [toNat_charOf] at hdigit
    omega

/-- Text of digits is read one byte a character. -/
lemma map_charOf_utf8 {cs : List Char} (h : ∀ c ∈ cs, IsDigit c) :
    (cs.flatMap String.utf8EncodeChar).map charOf = cs := by
  induction cs with
  | nil => rfl
  | cons c cs ih =>
    obtain ⟨hc, hcs⟩ := List.forall_mem_cons.mp h
    obtain ⟨hone, hchar⟩ := utf8_of_lt (isDigit_lt hc)
    rw [List.flatMap_cons, hone, List.map_append, ih hcs, List.map_singleton, hchar]
    rfl

/-- **Decoding of text.** -/
theorem decode_utf8_eq_ok_iff {cs : List Char} {v : Bytes} :
    decode (cs.flatMap String.utf8EncodeChar) = .ok v ↔
      Even cs.length ∧ (∀ c ∈ cs, IsDigit c) ∧ v = bytesOf cs := by
  have hdigits : (∀ b ∈ cs.flatMap String.utf8EncodeChar, IsDigit (charOf b)) ↔
      ∀ c ∈ cs, IsDigit c := by
    rw [List.forall_mem_flatMap]
    exact forall₂_congr fun _ _ => isDigit_utf8
  rw [decode_eq_ok_iff, hdigits, and_left_comm, and_left_comm (a := Even cs.length)]
  refine and_congr_right fun h => ?_
  have hmap := map_charOf_utf8 h
  have hlen := congrArg List.length hmap
  rw [List.length_map] at hlen
  rw [hlen, hmap]

/-! ### Encoding -/

def encodeChars (w : Bytes) : List Char :=
  w.flatMap fun b : UInt8 => [digitChar (b >>> 4).toNat, digitChar (b &&& 15).toNat]

def encode (w : Bytes) : String := .ofList (encodeChars w)

lemma toNat_high (b : UInt8) : (b >>> 4).toNat = b.toNat / 16 := by
  rw [UInt8.toNat_shiftRight]
  exact Nat.shiftRight_eq_div_pow _ 4

lemma toNat_low (b : UInt8) : (b &&& 15).toNat = b.toNat % 16 := by
  rw [UInt8.toNat_and]
  exact Nat.and_two_pow_sub_one_eq_mod _ 4

lemma encodeChars_cons (b : UInt8) (w : Bytes) : encodeChars (b :: w) =
    digitChar (b.toNat / 16) :: digitChar (b.toNat % 16) :: encodeChars w := by
  rw [encodeChars, List.flatMap_cons, toNat_high, toNat_low]
  rfl

lemma length_encodeChars (w : Bytes) : (encodeChars w).length = 2 * w.length := by
  induction w with
  | nil => rfl
  | cons b w ih =>
    rw [encodeChars_cons, List.length_cons, List.length_cons, ih, List.length_cons, Nat.mul_succ]

lemma isDigit_encodeChars (w : Bytes) : ∀ c ∈ encodeChars w, IsDigit c := by
  induction w with
  | nil => simp [encodeChars]
  | cons b w ih =>
    have hb := b.toNat_lt
    rw [encodeChars_cons, List.forall_mem_cons, List.forall_mem_cons]
    exact ⟨(digitChar_spec _ (by omega)).1, (digitChar_spec _ (by omega)).1, ih⟩

lemma bytesOf_encodeChars (w : Bytes) : bytesOf (encodeChars w) = w := by
  induction w with
  | nil => rfl
  | cons b w ih =>
    have hb := b.toNat_lt
    rw [encodeChars_cons, bytesOf, (digitChar_spec _ (by omega)).2,
      (digitChar_spec _ (by omega)).2, ih, Nat.div_add_mod, UInt8.ofNat_toNat]

/-- Induction on text of pairs. -/
@[elab_as_elim]
lemma pairs_induction {motive : (cs : List Char) → Even cs.length → Prop}
    (nil : motive [] Even.zero)
    (pair : ∀ hi lo cs h h', motive cs h → motive (hi :: lo :: cs) h') :
    ∀ (cs : List Char) (h : Even cs.length), motive cs h
  | [], _ => nil
  | [_], h => absurd h (by simp)
  | hi :: lo :: cs, h => by
    have hcs : Even cs.length := by
      rwa [List.length_cons, List.length_cons, Nat.even_add_one, Nat.even_add_one, not_not] at h
    exact pair hi lo cs hcs h (pairs_induction nil pair cs hcs)

lemma length_bytesOf {cs : List Char} (hlen : Even cs.length) :
    2 * (bytesOf cs).length = cs.length := by
  induction cs, hlen using pairs_induction with
  | nil => rfl
  | pair hi lo cs _ _ ih =>
    rw [bytesOf, List.length_cons, Nat.mul_succ, ih, List.length_cons, List.length_cons]

/-- Writing what text of digits stands for gives the text in lower case. -/
lemma encodeChars_bytesOf {cs : List Char} (hlen : Even cs.length) (h : ∀ c ∈ cs, IsDigit c) :
    encodeChars (bytesOf cs) = cs.map Char.toLower := by
  induction cs, hlen using pairs_induction with
  | nil => rfl
  | pair hi lo cs _ _ ih =>
    obtain ⟨hdx, h⟩ := List.forall_mem_cons.mp h
    obtain ⟨hdy, h⟩ := List.forall_mem_cons.mp h
    have hx := digitValue_lt hdx
    have hy := digitValue_lt hdy
    have hbyte : (UInt8.ofNat (16 * digitValue hi + digitValue lo)).toNat =
        16 * digitValue hi + digitValue lo := by
      rw [UInt8.toNat_ofNat']
      omega
    have hhigh : (16 * digitValue hi + digitValue lo) / 16 = digitValue hi := by omega
    have hlow : (16 * digitValue hi + digitValue lo) % 16 = digitValue lo := by omega
    rw [bytesOf, encodeChars_cons, hbyte, hhigh, hlow, digitChar_digitValue hdx,
      digitChar_digitValue hdy, ih h]
    rfl

end SvmWasiCore.Lib.Hex

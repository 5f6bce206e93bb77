import Mathlib.Tactic.Common

/-!
Base64 with the standard alphabet and mandatory canonical padding.

Three bytes become four symbols. A last group of one or two bytes is padded, and the decoder
refuses padding anywhere else, missing padding, and bits set under the padding.
-/

namespace SvmWasiCore.Lib.Base64

/-- The symbol of a six-bit value. -/
def symbol (v : ℕ) : Char :=
  if v < 26 then Char.ofNat (65 + v)
  else if v < 52 then Char.ofNat (71 + v)
  else if v < 62 then Char.ofNat (v - 4)
  else if v = 62 then '+' else '/'

def value? (c : Char) : Option ℕ :=
  let n := c.toNat
  if 65 ≤ n ∧ n ≤ 90 then some (n - 65)
  else if 97 ≤ n ∧ n ≤ 122 then some (n - 71)
  else if 48 ≤ n ∧ n ≤ 57 then some (n + 4)
  else if n = 43 then some 62
  else if n = 47 then some 63
  else none

def pad : Char := '='

/-! ### Encoding -/

def encodeChars : List UInt8 → List Char
  | [] => []
  | [a] =>
    let n := a.toNat * 16
    [symbol (n / 64), symbol (n % 64), pad, pad]
  | [a, b] =>
    let n := (a.toNat * 256 + b.toNat) * 4
    [symbol (n / 4096), symbol (n / 64 % 64), symbol (n % 64), pad]
  | a :: b :: c :: w =>
    let n := (a.toNat * 256 + b.toNat) * 256 + c.toNat
    symbol (n / 262144) :: symbol (n / 4096 % 64) :: symbol (n / 64 % 64) :: symbol (n % 64) ::
      encodeChars w

def encode (w : List UInt8) : String := String.ofList (encodeChars w)

/-! ### Decoding -/

/-- Four symbols carry three bytes. -/
def quad (a b c d : Char) : Option (List UInt8) := do
  let n := ((← value? a) * 64 + (← value? b)) * 4096 + (← value? c) * 64 + (← value? d)
  return [UInt8.ofNat (n / 65536), UInt8.ofNat (n / 256), UInt8.ofNat n]

/-- A last group whose fourth symbol is the pad. -/
def padded (a b c : Char) : Option (List UInt8) := do
  let n := (← value? a) * 64 + (← value? b)
  if c = pad then
    if n % 16 = 0 then return [UInt8.ofNat (n / 16)] else none
  else
    let m := n * 64 + (← value? c)
    if m % 4 = 0 then return [UInt8.ofNat (m / 1024), UInt8.ofNat (m / 4)] else none

def decodeChars : List Char → Option (List UInt8)
  | [] => some []
  | a :: b :: c :: d :: w =>
    if w = [] ∧ d = pad then padded a b c
    else do
      let p ← quad a b c d
      let q ← decodeChars w
      return p ++ q
  | _ => none

def decode (s : String) : Option (List UInt8) := decodeChars s.toList

/-! ### Decoding undoes encoding -/

@[simp] lemma value?_symbol {v : ℕ} (h : v < 64) : value? (symbol v) = some v := by
  have key : ∀ v : Fin 64, value? (symbol v) = some v.val := by decide
  exact key ⟨v, h⟩

lemma symbol_ne_pad {v : ℕ} (h : v < 64) : symbol v ≠ pad := by
  intro e
  have hv := value?_symbol h
  have hp : value? pad = none := by decide
  simp [e, hp] at hv

lemma ofNat_of_mod {n : ℕ} {b : UInt8} (h : n % 256 = b.toNat) : UInt8.ofNat n = b := by
  rw [← UInt8.toNat_inj, UInt8.toNat_ofNat']
  exact h

lemma quad_symbols {p q r s : ℕ} (hp : p < 64) (hq : q < 64) (hr : r < 64) (hs : s < 64) :
    quad (symbol p) (symbol q) (symbol r) (symbol s) =
      some [UInt8.ofNat (((p * 64 + q) * 4096 + r * 64 + s) / 65536),
        UInt8.ofNat (((p * 64 + q) * 4096 + r * 64 + s) / 256),
        UInt8.ofNat ((p * 64 + q) * 4096 + r * 64 + s)] := by
  simp [quad, hp, hq, hr, hs]

lemma decodeChars_encodeChars (w : List UInt8) : decodeChars (encodeChars w) = some w := by
  induction w using encodeChars.induct with
  | case1 => rfl
  | case2 a =>
    have ha := a.toNat_lt
    obtain ⟨n, hn⟩ : ∃ n, n = a.toNat * 16 := ⟨_, rfl⟩
    have h1 : n / 64 < 64 := by omega
    have h2 : n % 64 < 64 := by omega
    have hb : UInt8.ofNat ((n / 64 * 64 + n % 64) / 16) = a := ofNat_of_mod (by omega)
    have hz : (n / 64 * 64 + n % 64) % 16 = 0 := by omega
    simp only [encodeChars, decodeChars, padded, ← hn]
    simp [h1, h2, hb, hz]
  | case3 a b =>
    have ha := a.toNat_lt
    have hb := b.toNat_lt
    obtain ⟨n, hn⟩ : ∃ n, n = (a.toNat * 256 + b.toNat) * 4 := ⟨_, rfl⟩
    have h1 : n / 4096 < 64 := by omega
    have h2 : n / 64 % 64 < 64 := by omega
    have h3 : n % 64 < 64 := by omega
    have hm : (n / 4096 * 64 + n / 64 % 64) * 64 + n % 64 = n := by omega
    have e1 : UInt8.ofNat (n / 1024) = a := ofNat_of_mod (by omega)
    have e2 : UInt8.ofNat (n / 4) = b := ofNat_of_mod (by omega)
    have hz : n % 4 = 0 := by omega
    simp only [encodeChars, decodeChars, padded, ← hn]
    simp [h1, h2, h3, symbol_ne_pad h3, hm, e1, e2, hz]
  | case4 a b c w ih =>
    have ha := a.toNat_lt
    have hb := b.toNat_lt
    have hc := c.toNat_lt
    obtain ⟨n, hn⟩ : ∃ n, n = (a.toNat * 256 + b.toNat) * 256 + c.toNat := ⟨_, rfl⟩
    have hm : (n / 262144 * 64 + n / 4096 % 64) * 4096 + n / 64 % 64 * 64 + n % 64 = n := by
      omega
    have e1 : UInt8.ofNat (n / 65536) = a := ofNat_of_mod (by omega)
    have e2 : UInt8.ofNat (n / 256) = b := ofNat_of_mod (by omega)
    have e3 : UInt8.ofNat n = c := ofNat_of_mod (by omega)
    have hq := quad_symbols (p := n / 262144) (q := n / 4096 % 64) (r := n / 64 % 64)
      (s := n % 64) (by omega) (by omega) (by omega) (by omega)
    rw [hm, e1, e2, e3] at hq
    have hne : ¬(encodeChars w = [] ∧ symbol (n % 64) = pad) :=
      fun h => symbol_ne_pad (by omega) h.2
    simp only [encodeChars, ← hn]
    rw [decodeChars, if_neg hne, hq, ih]
    rfl

/-- **Decoding undoes encoding.** -/
theorem decode_encode (w : List UInt8) : decode (encode w) = some w := by
  simp [decode, encode, decodeChars_encodeChars]

end SvmWasiCore.Lib.Base64

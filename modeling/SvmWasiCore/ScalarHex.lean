import SvmWasiCore.Stealth
import SvmWasiCore.Fields
import SvmWasiCore.Lib.Hex

/-!
Private scalars as hexadecimal text, the form they have in an operator's config.

A text names a scalar only when it is the encoding of one, up to the case of its digits: nothing
is reduced modulo `L`.
-/

namespace SvmWasiCore.ScalarHex

open Lib.ByteCodec Lib.LittleEndian Lib Dalek Stealth Fields

def scalarToHex (scalar : Scalar) : String := Hex.encode scalar.toBytes.toList

/-- `display` is what `hex` prints of its errors. -/
def scalarFromHex (display : Hex.FromHexError → String) (hexStr : String) :
    Except StealthError Scalar := do
  let bytes ← (Hex.decode (byteString hexStr)).mapError fun e => .invalidScalarHex (display e)
  if h : bytes.length = 32 then
    match Scalar.fromCanonicalBytes ⟨bytes, h⟩ with
    | some scalar => .ok scalar
    | none => .error (.invalidScalarHex "not a canonical scalar mod L")
  else .error (.invalidScalarHex "expected 32 bytes")

/-- The bytes the text stands for, read as a little-endian number. -/
def textValue (hexStr : String) : ℕ := ofLe (Hex.bytesOf hexStr.toList)

/-- The text is 64 digits for a number below `L`. -/
structure Canonical (hexStr : String) : Prop where
  length_eq : hexStr.length = 64
  digits : ∀ c ∈ hexStr.toList, Hex.IsDigit c
  lt : textValue hexStr < L

variable {display : Hex.FromHexError → String} {hexStr : String} {scalar : Scalar}

lemma fromCanonicalBytes_eq_some_iff {b : List.Vector UInt8 32} :
    Scalar.fromCanonicalBytes b = some scalar ↔
      ofLe b.toList < L ∧ scalar.val = ofLe b.toList := by
  unfold Scalar.fromCanonicalBytes
  split_ifs with hlt
  · rw [Option.some.injEq]
    refine ⟨fun h => ⟨hlt, ?_⟩, fun h => ?_⟩
    · rw [← h, ZMod.val_natCast_of_lt hlt]
    · rw [← h.2, ZMod.natCast_zmod_val]
  · exact iff_of_false (by simp) fun h => hlt h.1

lemma Canonical.even (h : Canonical hexStr) : Even hexStr.toList.length := by
  rw [String.length_toList, h.length_eq]
  decide

lemma Canonical.length_bytesOf (h : Canonical hexStr) :
    (Hex.bytesOf hexStr.toList).length = 32 := by
  have hlen := Hex.length_bytesOf h.even
  rw [String.length_toList, h.length_eq] at hlen
  omega

/-- A step that fails ends in this error, whatever it says. -/
lemma scalarFromHex_error {e : StealthError} (h : scalarFromHex display hexStr = .error e) :
    ∃ msg, e = .invalidScalarHex msg := by
  rcases bind_eq_error h with hdecode | ⟨bytes, hdecode, h⟩
  · cases hhex : Hex.decode (byteString hexStr) with
    | ok v =>
      rw [hhex] at hdecode
      cases hdecode
    | error e' =>
      rw [hhex] at hdecode
      exact ⟨_, (Except.error.inj hdecode).symm⟩
  · split_ifs at h with hlen
    · cases hbytes : Scalar.fromCanonicalBytes ⟨bytes, hlen⟩ with
      | some s =>
        rw [hbytes] at h
        cases h
      | none =>
        rw [hbytes] at h
        exact ⟨_, (Except.error.inj h).symm⟩
    · exact ⟨_, (Except.error.inj h).symm⟩

lemma scalarFromHex_eq_ok_iff : scalarFromHex display hexStr = .ok scalar ↔
    Canonical hexStr ∧ scalar.val = textValue hexStr := by
  refine ⟨fun h => ?_, fun h => ?_⟩
  · obtain ⟨bytes, hdecode, h⟩ := bind_eq_ok.mp h
    obtain ⟨heven, hdigits, rfl⟩ := Hex.decode_utf8_eq_ok_iff.mp (mapError_eq_ok_iff.mp hdecode)
    have hlen := Hex.length_bytesOf heven
    split_ifs at h with h32
    · cases hbytes : Scalar.fromCanonicalBytes ⟨Hex.bytesOf hexStr.toList, h32⟩ with
      | none =>
        rw [hbytes] at h
        cases h
      | some s =>
        rw [hbytes] at h
        obtain rfl := Except.ok.inj h
        obtain ⟨hlt, hval⟩ := fromCanonicalBytes_eq_some_iff.mp hbytes
        rw [h32, String.length_toList] at hlen
        exact ⟨⟨hlen.symm, hdigits, hlt⟩, hval⟩
  · obtain ⟨hcanonical, hval⟩ := h
    have hdecode := Hex.decode_utf8_eq_ok_iff.mpr ⟨hcanonical.even, hcanonical.digits, rfl⟩
    have hbytes : Scalar.fromCanonicalBytes ⟨_, hcanonical.length_bytesOf⟩ = some scalar :=
      fromCanonicalBytes_eq_some_iff.mpr ⟨hcanonical.lt, hval⟩
    refine bind_eq_ok.mpr ⟨_, mapError_eq_ok_iff.mpr hdecode, ?_⟩
    rw [dif_pos hcanonical.length_bytesOf, hbytes]

/-! ### Encodings -/

lemma textValue_encode (b : List.Vector UInt8 32) :
    textValue (Hex.encode b.toList) = ofLe b.toList := by
  rw [textValue, Hex.encode, String.toList_ofList, Hex.bytesOf_encodeChars]

/-- The encoding of any number is digits, whether or not it is below `L`. -/
lemma canonical_encode_iff (b : List.Vector UInt8 32) :
    Canonical (Hex.encode b.toList) ↔ ofLe b.toList < L := by
  rw [← textValue_encode]
  refine ⟨Canonical.lt, fun h => ⟨?_, ?_, h⟩⟩
  · rw [← String.length_toList, Hex.encode, String.toList_ofList, Hex.length_encodeChars,
      List.Vector.toList_length]
  · rw [Hex.encode, String.toList_ofList]
    exact Hex.isDigit_encodeChars _

lemma scalarFromHex_scalarToHex (scalar : Scalar) :
    scalarFromHex display (scalarToHex scalar) = .ok scalar := by
  obtain ⟨hlt, hval⟩ := fromCanonicalBytes_eq_some_iff.mp (fromCanonicalBytes_toBytes scalar)
  rw [scalarFromHex_eq_ok_iff, scalarToHex, canonical_encode_iff, textValue_encode]
  exact ⟨hlt, hval⟩

/-- What is accepted is what would be written, up to case. -/
lemma scalarToHex_of_canonical (h : Canonical hexStr) (hval : scalar.val = textValue hexStr) :
    scalarToHex scalar = hexStr.toLower := by
  have hbytes : scalar.toBytes = ⟨Hex.bytesOf hexStr.toList, h.length_bytesOf⟩ := by
    rw [Scalar.toBytes, hval]
    exact toLe_ofLe ⟨Hex.bytesOf hexStr.toList, h.length_bytesOf⟩
  have hlower : hexStr.toLower.toList = hexStr.toList.map Char.toLower := String.toList_map
  rw [scalarToHex, hbytes, Hex.encode, ← String.toList_inj, String.toList_ofList, hlower]
  exact Hex.encodeChars_bytesOf h.even h.digits

/-- **Stored scalars are decoded exactly.** -/
theorem scalar_hex_exact (display : Hex.FromHexError → String) :
    (∀ scalar, scalarFromHex display (scalarToHex scalar) = .ok scalar) ∧
    (∀ hexStr scalar, scalarFromHex display hexStr = .ok scalar ↔
      hexStr.length = 64 ∧ (∀ c ∈ hexStr.toList, Hex.IsDigit c) ∧ textValue hexStr < L ∧
        scalar.val = textValue hexStr) ∧
    (∀ hexStr scalar, scalarFromHex display hexStr = .ok scalar →
      scalarToHex scalar = hexStr.toLower) ∧
    (∀ hexStr, (∀ scalar, scalarFromHex display hexStr ≠ .ok scalar) →
      ∃ msg, scalarFromHex display hexStr = .error (.invalidScalarHex msg)) ∧
    (∀ n, L ≤ n → n < 256 ^ 32 → ∃ msg,
      scalarFromHex display (Hex.encode (toLe 32 n).toList) = .error (.invalidScalarHex msg)) := by
  have hrefused (hexStr : String) (h : ∀ scalar, scalarFromHex display hexStr ≠ .ok scalar) :
      ∃ msg, scalarFromHex display hexStr = .error (.invalidScalarHex msg) := by
    cases hresult : scalarFromHex display hexStr with
    | ok scalar => exact absurd hresult (h scalar)
    | error e =>
      obtain ⟨msg, rfl⟩ := scalarFromHex_error hresult
      exact ⟨msg, rfl⟩
  refine ⟨scalarFromHex_scalarToHex, fun hexStr scalar => ?_, fun hexStr scalar h => ?_, hrefused,
    fun n hL hn => hrefused _ fun scalar h => ?_⟩
  · rw [scalarFromHex_eq_ok_iff]
    refine ⟨fun h => ⟨h.1.length_eq, h.1.digits, h.1.lt, h.2⟩, fun h => ?_⟩
    obtain ⟨hlen, hdigits, hlt, hval⟩ := h
    exact ⟨⟨hlen, hdigits, hlt⟩, hval⟩
  · obtain ⟨hcanonical, hval⟩ := scalarFromHex_eq_ok_iff.mp h
    exact scalarToHex_of_canonical hcanonical hval
  · have hlt := (canonical_encode_iff _).mp (scalarFromHex_eq_ok_iff.mp h).1
    rw [ofLe_toLe_of_lt hn] at hlt
    omega

end SvmWasiCore.ScalarHex

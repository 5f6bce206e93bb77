import SvmWasiCore.Lib.ByteCodec
import SvmWasiCore.Lib.Numeral

/-!
Base58 text: the bytes as a numeral in base 256, written in base 58. A leading zero byte is a
leading `1`.
-/

namespace SvmWasiCore.Lib.Base58

open ByteCodec Numeral

/-- The digits, in their order. -/
def alphabet : List Char :=
  "123456789ABCDEFGHJKLMNPQRSTUVWXYZabcdefghijkmnopqrstuvwxyz".toList

def digitChar (d : ℕ) : Char := alphabet.getD d '1'

def digitValue (c : Char) : Option ℕ := if c ∈ alphabet then some (alphabet.idxOf c) else none

def encode (w : Bytes) : String := .ofList ((rebase 256 58 (w.map UInt8.toNat)).map digitChar)

def decode (s : String) : Option Bytes := do
  let ds ← s.toList.mapM digitValue
  return (rebase 58 256 ds).map .ofNat

variable {d : ℕ}

lemma alphabet_nodup : alphabet.Nodup := by decide

lemma alphabet_length : alphabet.length = 58 := by decide

lemma digitValue_digitChar (h : d < 58) : digitValue (digitChar d) = some d := by
  have hlt : d < alphabet.length := by rwa [alphabet_length]
  have hchar : digitChar d = alphabet[d] := by
    rw [digitChar, List.getD_eq_getElem?_getD, List.getElem?_eq_getElem hlt, Option.getD_some]
  rw [digitValue, hchar, if_pos (List.getElem_mem hlt), alphabet_nodup.idxOf_getElem]

lemma digits_digitChars {ds : List ℕ} (h : ∀ d ∈ ds, d < 58) :
    (ds.map digitChar).mapM digitValue = some ds := by
  induction ds with
  | nil => rfl
  | cons d ds ih =>
    rw [List.forall_mem_cons] at h
    rw [List.map_cons, List.mapM_cons, digitValue_digitChar h.1, ih h.2]
    rfl

/-- Text written for bytes is read back. -/
lemma decode_encode (w : Bytes) : decode (encode w) = some w := by
  have hlt : ∀ d ∈ w.map UInt8.toNat, d < 256 := by
    intro d hd
    obtain ⟨x, -, rfl⟩ := List.mem_map.mp hd
    exact x.toNat_lt
  have hdigits : ∀ d ∈ rebase 256 58 (w.map UInt8.toNat), d < 58 :=
    fun d => lt_of_mem_rebase (by decide)
  rw [decode, encode, String.toList_ofList, digits_digitChars hdigits]
  change some _ = _
  rw [rebase_rebase (by decide) hlt, List.map_map]
  exact congrArg some ((List.map_congr_left fun x _ => UInt8.ofNat_toNat).trans (List.map_id w))

lemma encode_injective : Function.Injective encode := by
  intro v w h
  have hv := decode_encode v
  rw [h, decode_encode] at hv
  exact (Option.some.inj hv).symm

end SvmWasiCore.Lib.Base58

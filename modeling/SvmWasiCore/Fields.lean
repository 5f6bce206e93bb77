import SvmWasiCore.Basic
import SvmWasiCore.Lib.FixedWidth

/-!
Keys, hashes and little-endian integers as fields of packed records.
-/

namespace SvmWasiCore.Fields

open Lib.ByteCodec Lib.LittleEndian Lib.FixedWidth

/-- `b"text"`. -/
def byteString (text : String) : Bytes := text.toList.flatMap String.utf8EncodeChar

/-- `to_le_bytes`. -/
def u16Bytes (n : UInt16) : Bytes := (toLe 2 n.toNat).toList
def u32Bytes (n : UInt32) : Bytes := (toLe 4 n.toNat).toList
def u64Bytes (n : UInt64) : Bytes := (toLe 8 n.toNat).toList
def i64Bytes (n : Int64) : Bytes := (toLe 8 n.toUInt64.toNat).toList

variable {ε : Type} (eof : ε)

def bytesField (n : ℕ) : Codec ε (List.Vector UInt8 n) := (Codec.byte eof).fixed n

def pubkeyEquiv : List.Vector UInt8 32 ≃ Pubkey where
  toFun := Pubkey.mk
  invFun := Pubkey.bytes
  left_inv := Function.leftInverse_iff_comp.mpr rfl
  right_inv := Function.rightInverse_iff_comp.mpr rfl

def hashEquiv : List.Vector UInt8 32 ≃ Hash where
  toFun := Hash.mk
  invFun := Hash.bytes
  left_inv := Function.leftInverse_iff_comp.mpr rfl
  right_inv := Function.rightInverse_iff_comp.mpr rfl

def keyField : Codec ε Pubkey := (bytesField eof 32).iso pubkeyEquiv
def hashField : Codec ε Hash := (bytesField eof 32).iso hashEquiv

def u16Field : Codec ε UInt16 := (bytesField eof 2).iso u16Equiv
def u32Field : Codec ε UInt32 := (bytesField eof 4).iso u32Equiv
def u64Field : Codec ε UInt64 := (bytesField eof 8).iso u64Equiv
def i64Field : Codec ε Int64 := (bytesField eof 8).iso i64Equiv

/-! ### Reading -/

lemma reads_keyField : Reads (keyField eof) 32 fun w => ⟨array 32 w 0⟩ :=
  reads_iso (reads_bytes eof 32) _

lemma reads_hashField : Reads (hashField eof) 32 fun w => ⟨array 32 w 0⟩ :=
  reads_iso (reads_bytes eof 32) _

lemma reads_u16Field : Reads (u16Field eof) 2 fun w => u16At w 0 :=
  reads_iso (reads_bytes eof 2) _

lemma reads_u32Field : Reads (u32Field eof) 4 fun w => u32At w 0 :=
  reads_iso (reads_bytes eof 4) _

lemma reads_u64Field : Reads (u64Field eof) 8 fun w => u64At w 0 :=
  reads_iso (reads_bytes eof 8) _

lemma reads_i64Field : Reads (i64Field eof) 8 fun w => (u64At w 0).toInt64 :=
  reads_iso (reads_bytes eof 8) _

/-! ### Writing -/

lemma bytesField_enc {n : ℕ} (v : List.Vector UInt8 n) :
    (bytesField eof n).enc v = some v.toList := by
  have hlist (w : Bytes) : (Codec.byte eof).encList w = some w := by
    induction w with
    | nil => rfl
    | cons b w ih =>
      rw [Codec.encList_cons, ih]
      rfl
  exact hlist v.toList

@[simp] lemma keyField_enc (k : Pubkey) : (keyField eof).enc k = some k.bytes.toList :=
  bytesField_enc eof k.bytes

@[simp] lemma hashField_enc (h : Hash) : (hashField eof).enc h = some h.bytes.toList :=
  bytesField_enc eof h.bytes

@[simp] lemma u16Field_enc (n : UInt16) : (u16Field eof).enc n = some (toLe 2 n.toNat).toList :=
  bytesField_enc eof _

@[simp] lemma u32Field_enc (n : UInt32) : (u32Field eof).enc n = some (toLe 4 n.toNat).toList :=
  bytesField_enc eof _

@[simp] lemma u64Field_enc (n : UInt64) : (u64Field eof).enc n = some (toLe 8 n.toNat).toList :=
  bytesField_enc eof _

@[simp] lemma i64Field_enc (n : Int64) :
    (i64Field eof).enc n = some (toLe 8 n.toUInt64.toNat).toList :=
  bytesField_enc eof _

/-! ### Telling fields apart -/

variable {w w' : Bytes}

lemma keyBytes_inj {k k' : Pubkey} : k.bytes.toList = k'.bytes.toList ↔ k = k' :=
  Pubkey.toList_injective.eq_iff

lemma keyBytes_append_inj {k k' : Pubkey} :
    k.bytes.toList ++ w = k'.bytes.toList ++ w' ↔ k = k' ∧ w = w' :=
  append_inj_of_width (fun k : Pubkey => k.bytes.toList_length) Pubkey.toList_injective

lemma u64Bytes_injective : Function.Injective u64Bytes := fun _ _ h =>
  u64Equiv.symm.injective (List.Vector.eq _ _ h)

lemma i64Bytes_injective : Function.Injective i64Bytes := fun _ _ h =>
  i64Equiv.symm.injective (List.Vector.eq _ _ h)

lemma u64Bytes_append_inj {n n' : UInt64} :
    u64Bytes n ++ w = u64Bytes n' ++ w' ↔ n = n' ∧ w = w' :=
  append_inj_of_width (fun _ => List.Vector.toList_length _) u64Bytes_injective

lemma i64Bytes_append_inj {n n' : Int64} :
    i64Bytes n ++ w = i64Bytes n' ++ w' ↔ n = n' ∧ w = w' :=
  append_inj_of_width (fun _ => List.Vector.toList_length _) i64Bytes_injective

end SvmWasiCore.Fields

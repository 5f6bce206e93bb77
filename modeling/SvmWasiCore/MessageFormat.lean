import SvmWasiCore.Basic

/-!
The two message formats of `solana-message` and their bincode encodings.

Every field is encoded in declaration order with no padding; every `Vec` carries a compact-u16
length.
-/

namespace SvmWasiCore.MessageFormat

open Lib.ByteCodec ShortVec

structure MessageHeader where
  numRequiredSignatures : UInt8
  numReadonlySignedAccounts : UInt8
  numReadonlyUnsignedAccounts : UInt8
  deriving DecidableEq

structure CompiledInstruction where
  programIdIndex : UInt8
  accounts : List UInt8
  data : List UInt8
  deriving DecidableEq

structure MessageAddressTableLookup where
  accountKey : Pubkey
  writableIndexes : List UInt8
  readonlyIndexes : List UInt8
  deriving DecidableEq

/-- The legacy `Message`. -/
structure Message where
  header : MessageHeader
  accountKeys : List Pubkey
  recentBlockhash : Hash
  instructions : List CompiledInstruction
  deriving DecidableEq

/-- `v0::Message`. -/
structure MessageV0 where
  header : MessageHeader
  accountKeys : List Pubkey
  recentBlockhash : Hash
  instructions : List CompiledInstruction
  addressTableLookups : List MessageAddressTableLookup
  deriving DecidableEq

/-- The first byte of a serialized versioned message, version `0`. -/
def messageVersionPrefix : UInt8 := 0x80

/-! ### Encodings -/

def messageHeaderCodec : Codec DecodeError MessageHeader :=
  (u8.seq (u8.seq u8)).iso
    ⟨fun x => ⟨x.1, x.2.1, x.2.2⟩, fun h => (h.1, h.2, h.3), fun _ => rfl, fun _ => rfl⟩

def compiledInstructionCodec : Codec DecodeError CompiledInstruction :=
  (u8.seq ((shortVec u8).seq (shortVec u8))).iso
    ⟨fun x => ⟨x.1, x.2.1, x.2.2⟩, fun i => (i.1, i.2, i.3), fun _ => rfl, fun _ => rfl⟩

def messageAddressTableLookupCodec : Codec DecodeError MessageAddressTableLookup :=
  (pubkeyCodec.seq ((shortVec u8).seq (shortVec u8))).iso
    ⟨fun x => ⟨x.1, x.2.1, x.2.2⟩, fun l => (l.1, l.2, l.3), fun _ => rfl, fun _ => rfl⟩

def messageCodec : Codec DecodeError Message :=
  (messageHeaderCodec.seq ((shortVec pubkeyCodec).seq (hashCodec.seq
    (shortVec compiledInstructionCodec)))).iso
    ⟨fun x => ⟨x.1, x.2.1, x.2.2.1, x.2.2.2⟩, fun m => (m.1, m.2, m.3, m.4),
      fun _ => rfl, fun _ => rfl⟩

def messageV0Codec : Codec DecodeError MessageV0 :=
  (messageHeaderCodec.seq ((shortVec pubkeyCodec).seq (hashCodec.seq
    ((shortVec compiledInstructionCodec).seq (shortVec messageAddressTableLookupCodec))))).iso
    ⟨fun x => ⟨x.1, x.2.1, x.2.2.1, x.2.2.2.1, x.2.2.2.2⟩, fun m => (m.1, m.2, m.3, m.4, m.5),
      fun _ => rfl, fun _ => rfl⟩

/-! ### What serializes -/

/-- No vector of the instruction is longer than a compact-u16 can say. -/
def CompiledInstruction.Short (i : CompiledInstruction) : Prop :=
  i.accounts.length ≤ 65535 ∧ i.data.length ≤ 65535

def MessageAddressTableLookup.Short (l : MessageAddressTableLookup) : Prop :=
  l.writableIndexes.length ≤ 65535 ∧ l.readonlyIndexes.length ≤ 65535

structure Message.Short (m : Message) : Prop where
  accountKeys : m.accountKeys.length ≤ 65535
  instructions : m.instructions.length ≤ 65535
  instruction : ∀ i ∈ m.instructions, i.Short

structure MessageV0.Short (m : MessageV0) : Prop where
  accountKeys : m.accountKeys.length ≤ 65535
  instructions : m.instructions.length ≤ 65535
  instruction : ∀ i ∈ m.instructions, i.Short
  addressTableLookups : m.addressTableLookups.length ≤ 65535
  addressTableLookup : ∀ l ∈ m.addressTableLookups, l.Short

@[simp] lemma messageHeaderCodec_fits (h : MessageHeader) : messageHeaderCodec.Fits h := by
  simp [messageHeaderCodec]

@[simp] lemma compiledInstructionCodec_fits (i : CompiledInstruction) :
    compiledInstructionCodec.Fits i ↔ i.Short := by
  simp [compiledInstructionCodec, CompiledInstruction.Short]

@[simp] lemma messageAddressTableLookupCodec_fits (l : MessageAddressTableLookup) :
    messageAddressTableLookupCodec.Fits l ↔ l.Short := by
  simp [messageAddressTableLookupCodec, MessageAddressTableLookup.Short]

/-- A legacy message serializes exactly when all its vectors are short. -/
lemma messageCodec_fits (m : Message) : messageCodec.Fits m ↔ m.Short := by
  simp only [messageCodec, Codec.iso_fits, Codec.seq_fits, shortVec_fits, messageHeaderCodec_fits,
    pubkeyCodec_fits, hashCodec_fits, compiledInstructionCodec_fits, Equiv.coe_fn_symm_mk, true_and,
    implies_true, and_true]
  refine ⟨fun h => ?_, fun h => ?_⟩
  · obtain ⟨h1, h2, h3⟩ := h
    exact ⟨h1, h2, h3⟩
  · exact ⟨h.1, h.2, h.3⟩

/-- A v0 message serializes exactly when all its vectors are short. -/
lemma messageV0Codec_fits (m : MessageV0) : messageV0Codec.Fits m ↔ m.Short := by
  simp only [messageV0Codec, Codec.iso_fits, Codec.seq_fits, shortVec_fits, messageHeaderCodec_fits,
    pubkeyCodec_fits, hashCodec_fits, compiledInstructionCodec_fits,
    messageAddressTableLookupCodec_fits, Equiv.coe_fn_symm_mk, true_and, implies_true, and_true]
  refine ⟨fun h => ?_, fun h => ?_⟩
  · obtain ⟨h1, ⟨h2, h3⟩, h4, h5⟩ := h
    exact ⟨h1, h2, h3, h4, h5⟩
  · exact ⟨h.1, ⟨h.2, h.3⟩, h.4, h.5⟩

end SvmWasiCore.MessageFormat

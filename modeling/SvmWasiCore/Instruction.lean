import SvmWasiCore.Basic

/-!
Instructions before compilation, and the two builders whose output the message compilers meet:
`AdvanceNonceAccount` and a memo.
-/

namespace SvmWasiCore

open Lib.ByteCodec

structure AccountMeta where
  pubkey : Pubkey
  isSigner : Bool
  isWritable : Bool
  deriving DecidableEq

namespace AccountMeta

def new (pubkey : Pubkey) (isSigner : Bool) : AccountMeta := ⟨pubkey, isSigner, true⟩
def newReadonly (pubkey : Pubkey) (isSigner : Bool) : AccountMeta := ⟨pubkey, isSigner, false⟩

end AccountMeta

structure Instruction where
  programId : Pubkey
  accounts : List AccountMeta
  data : Bytes
  deriving DecidableEq

namespace Instruction

/-- An instruction without its flags, as a validator runs it. -/
structure Bare where
  programId : Pubkey
  accounts : List Pubkey
  data : Bytes
  deriving DecidableEq

def bare (ix : Instruction) : Bare := ⟨ix.programId, ix.accounts.map (·.pubkey), ix.data⟩

/-- Every pubkey the instruction names. -/
def keys (ix : Instruction) : List Pubkey := ix.programId :: ix.accounts.map (·.pubkey)

/-- No vector of the instruction is longer than a compact-u16 can say. -/
def Short (ix : Instruction) : Prop := ix.accounts.length ≤ 65535 ∧ ix.data.length ≤ 65535

instance (ix : Instruction) : Decidable ix.Short := inferInstanceAs (Decidable (_ ∧ _))

end Instruction

namespace System

def id : Pubkey := ⟨.replicate 32 0⟩

def recentBlockhashesSysvarId : Pubkey :=
  ⟨⟨[6, 167, 213, 23, 25, 44, 86, 142, 224, 138, 132, 95, 115, 210, 151, 136,
    207, 3, 92, 49, 69, 178, 26, 179, 68, 216, 6, 46, 169, 64, 0, 0], rfl⟩⟩

/-- The data is the bincode discriminant of `SystemInstruction::AdvanceNonceAccount`. -/
def advanceNonceAccount (noncePubkey authorizedPubkey : Pubkey) : Instruction where
  programId := id
  accounts := [.new noncePubkey false, .newReadonly recentBlockhashesSysvarId false,
    .newReadonly authorizedPubkey true]
  data := [4, 0, 0, 0]

end System

namespace Memo

def id : Pubkey :=
  ⟨⟨[5, 74, 83, 90, 153, 41, 33, 6, 77, 36, 232, 113, 96, 218, 56, 124,
    124, 53, 181, 221, 188, 146, 187, 129, 228, 31, 168, 64, 65, 5, 68, 141], rfl⟩⟩

/-- The data is the memo's UTF-8 text, whatever its length. -/
def buildMemo (memo : String) (signers : List Pubkey) : Instruction where
  programId := id
  accounts := signers.map fun signer => .newReadonly signer true
  data := memo.toList.flatMap String.utf8EncodeChar

end Memo

end SvmWasiCore

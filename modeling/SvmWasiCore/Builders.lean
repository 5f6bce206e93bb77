import SvmWasiCore.Subscriptions

/-!
The builders of the programs that have an interface crate, and of associated token accounts.

System instructions are a bincode tag and packed fields, token instructions a one-byte tag and
packed fields. Either token crate only builds for its own program.
-/

namespace SvmWasiCore

open Lib.ByteCodec Lib.LittleEndian Fields ProgramAddress

/-! ### The system program -/

namespace System

/-- SysvarRent111111111111111111111111111111111. -/
def rentSysvarId : Pubkey :=
  ⟨⟨[6, 167, 213, 23, 25, 44, 92, 81, 33, 140, 201, 76, 61, 74, 241, 127,
    88, 218, 238, 8, 155, 161, 253, 68, 227, 219, 217, 138, 0, 0, 0, 0], rfl⟩⟩

/-- `NonceState::size()`. -/
def NONCE_STATE_SIZE : UInt64 := 80

def createAccount (fromPubkey toPubkey : Pubkey) (lamports space : UInt64) (owner : Pubkey) :
    Instruction where
  programId := id
  accounts := [.new fromPubkey true, .new toPubkey true]
  data := [0, 0, 0, 0] ++ (u64Bytes lamports ++ (u64Bytes space ++ owner.bytes.toList))

def transfer (fromPubkey toPubkey : Pubkey) (lamports : UInt64) : Instruction where
  programId := id
  accounts := [.new fromPubkey true, .new toPubkey false]
  data := [2, 0, 0, 0] ++ u64Bytes lamports

def withdrawNonceAccount (noncePubkey authorizedPubkey toPubkey : Pubkey) (lamports : UInt64) :
    Instruction where
  programId := id
  accounts := [.new noncePubkey false, .new toPubkey false,
    .newReadonly recentBlockhashesSysvarId false, .newReadonly rentSysvarId false,
    .newReadonly authorizedPubkey true]
  data := [5, 0, 0, 0] ++ u64Bytes lamports

/-- Only found inside `createNonceAccount`. -/
def initializeNonceAccount (noncePubkey authority : Pubkey) : Instruction where
  programId := id
  accounts := [.new noncePubkey false, .newReadonly recentBlockhashesSysvarId false,
    .newReadonly rentSysvarId false]
  data := [6, 0, 0, 0] ++ authority.bytes.toList

def createNonceAccount (fromPubkey noncePubkey authority : Pubkey) (lamports : UInt64) :
    List Instruction :=
  [createAccount fromPubkey noncePubkey lamports NONCE_STATE_SIZE id,
    initializeNonceAccount noncePubkey authority]

def authorizeNonceAccount (noncePubkey authorizedPubkey newAuthority : Pubkey) : Instruction where
  programId := id
  accounts := [.new noncePubkey false, .newReadonly authorizedPubkey true]
  data := [7, 0, 0, 0] ++ newAuthority.bytes.toList

end System

/-! ### The token programs -/

namespace Token

/-- TokenkegQfeZyiNwAJbNbGKPFXCWuBvf9Ss623VQ5DA. -/
def tokenProgramId : Pubkey :=
  ⟨⟨[6, 221, 246, 225, 215, 101, 161, 147, 217, 203, 225, 70, 206, 235, 121, 172,
    28, 180, 133, 237, 95, 91, 55, 145, 58, 140, 245, 133, 126, 255, 0, 169], rfl⟩⟩

/-- TokenzQdBNbLqP5VEhdkAS6EPFLC1PHnBqCXEpPxuEb. -/
def token2022ProgramId : Pubkey :=
  ⟨⟨[6, 221, 246, 225, 238, 117, 143, 222, 24, 66, 93, 188, 228, 108, 205, 218,
    182, 26, 252, 77, 131, 185, 13, 39, 254, 189, 249, 40, 216, 161, 139, 252], rfl⟩⟩

/-- An instruction of either crate, refused by its `check_program_account` for another program. -/
def ofCrate (crateId programId : Pubkey) (accounts : List AccountMeta) (data : Bytes) :
    Option Instruction :=
  if programId = crateId then some ⟨programId, accounts, data⟩ else none

/-- The dispatch by program id that both builders share. -/
def dispatch (programId : Pubkey) (accounts : List AccountMeta) (data : Bytes) :
    Exec Instruction :=
  if programId = token2022ProgramId then
    expect (ofCrate token2022ProgramId programId accounts data)
      "token_2022_program_id always passes Token-2022's own check_program_account"
  else
    expect (ofCrate tokenProgramId programId accounts data)
      "token_program_id must be spl_token_interface::id() or spl_token_2022_interface::id()"

def transfer (source destination owner : Pubkey) (amount : UInt64) (programId : Pubkey) :
    Exec Instruction :=
  dispatch programId [.new source false, .new destination false, .newReadonly owner true]
    ([3] ++ u64Bytes amount)

def transferChecked (source mint destination owner : Pubkey) (amount : UInt64) (decimals : UInt8)
    (programId : Pubkey) : Exec Instruction :=
  dispatch programId
    [.new source false, .newReadonly mint false, .new destination false, .newReadonly owner true]
    ([12] ++ (u64Bytes amount ++ [decimals]))

end Token

/-! ### Associated token accounts -/

namespace AssociatedTokenAccount

def CREATE : UInt8 := 0
def CREATE_IDEMPOTENT : UInt8 := 1

/-- ATokenGPvbdGVxr1b2hvZbsiqW5xWH25efTNsLJA8knL. -/
def id : Pubkey :=
  ⟨⟨[140, 151, 37, 143, 78, 36, 137, 241, 187, 61, 16, 41, 20, 142, 13, 131,
    11, 90, 19, 153, 218, 255, 16, 132, 4, 142, 123, 216, 219, 233, 248, 89], rfl⟩⟩

variable (search : AddressSearch)

def getAssociatedTokenAddress (wallet mint tokenProgramId : Pubkey) : Option Pubkey := do
  let (address, _) ← search.tryFindProgramAddress
    [wallet.bytes.toList, tokenProgramId.bytes.toList, mint.bytes.toList] id
  return address

def build (fundingAccount wallet mint tokenProgramId : Pubkey) (tag : UInt8) :
    Option Instruction := do
  let associatedAccount ← getAssociatedTokenAddress search wallet mint tokenProgramId
  return {
    programId := id
    accounts := [.new fundingAccount true, .new associatedAccount false, .newReadonly wallet false,
      .newReadonly mint false, .newReadonly System.id false, .newReadonly tokenProgramId false]
    data := [tag] }

def createAssociatedTokenAccount (fundingAccount wallet mint tokenProgramId : Pubkey) :
    Option Instruction :=
  build search fundingAccount wallet mint tokenProgramId CREATE

def createAssociatedTokenAccountIdempotent (fundingAccount wallet mint tokenProgramId : Pubkey) :
    Option Instruction :=
  build search fundingAccount wallet mint tokenProgramId CREATE_IDEMPOTENT

end AssociatedTokenAccount

end SvmWasiCore

import SvmWasiCore.Basic
import SvmWasiCore.Lib.Tlv

/-!
Mint and token account state, and the extensions of a mint.

The readers of `spl-token-2022-interface` are the ones called here: `Mint::unpack`,
`Account::unpack`, `StateWithExtensions::<Mint>::unpack` and the record scan under
`get_extension`.
-/

namespace SvmWasiCore.TokenState

open Lib.ByteCodec Lib.LittleEndian

inductive ProgramError
  | invalidArgument
  | invalidAccountData
  | uninitializedAccount
  /-- `TokenError::ExtensionNotFound` -/
  | extensionNotFound
  deriving DecidableEq

inductive TokenStateError
  | program (e : ProgramError)
  deriving DecidableEq

/-! ### Base state -/

structure Mint where
  mintAuthority : Option Pubkey
  supply : UInt64
  decimals : UInt8
  isInitialized : Bool
  freezeAuthority : Option Pubkey
  deriving DecidableEq

def Mint.LEN : ℕ := 82
def Multisig.LEN : ℕ := 355
/-- Where the account-type byte of an extended account stands. -/
def BASE_ACCOUNT_LENGTH : ℕ := 165

def pubkeyAt (w : Bytes) (i : ℕ) : Pubkey := ⟨array 32 w i⟩

def unpackCoptionKey (w : Bytes) (i : ℕ) : Except ProgramError (Option Pubkey) :=
  match u32At w i with
  | 0 => .ok none
  | 1 => .ok (some (pubkeyAt w (i + 4)))
  | _ => .error .invalidAccountData

def Mint.unpackFromSlice (src : Bytes) : Except ProgramError Mint := do
  let mintAuthority ← unpackCoptionKey src 0
  let isInitialized ← match src.getD 45 0 with
    | 0 => .ok false
    | 1 => .ok true
    | _ => .error .invalidAccountData
  let freezeAuthority ← unpackCoptionKey src 46
  return ⟨mintAuthority, u64At src 36, src.getD 44 0, isInitialized, freezeAuthority⟩

/-- `Pack::unpack`. -/
def Mint.unpack (input : Bytes) : Except ProgramError Mint := do
  if input.length ≠ Mint.LEN then
    throw .invalidAccountData
  let value ← Mint.unpackFromSlice input
  if value.isInitialized then return value else throw .uninitializedAccount

def unpackMint (data : Bytes) : Except TokenStateError Mint :=
  (Mint.unpack (data.take (min Mint.LEN data.length))).mapError .program

inductive AccountState
  | uninitialized
  | initialized
  | frozen
  deriving DecidableEq

/-- The `Account` of the token programs. -/
structure TokenAccount where
  mint : Pubkey
  owner : Pubkey
  amount : UInt64
  delegate : Option Pubkey
  state : AccountState
  isNative : Option UInt64
  delegatedAmount : UInt64
  closeAuthority : Option Pubkey
  deriving DecidableEq

def TokenAccount.LEN : ℕ := 165

def unpackCoptionU64 (w : Bytes) (i : ℕ) : Except ProgramError (Option UInt64) :=
  match u32At w i with
  | 0 => .ok none
  | 1 => .ok (some (u64At w (i + 4)))
  | _ => .error .invalidAccountData

def AccountState.tryFromPrimitive : UInt8 → Except ProgramError AccountState
  | 0 => .ok .uninitialized
  | 1 => .ok .initialized
  | 2 => .ok .frozen
  | _ => .error .invalidAccountData

def TokenAccount.unpackFromSlice (src : Bytes) : Except ProgramError TokenAccount := do
  let delegate ← unpackCoptionKey src 72
  let state ← AccountState.tryFromPrimitive (src.getD 108 0)
  let isNative ← unpackCoptionU64 src 109
  let closeAuthority ← unpackCoptionKey src 129
  return ⟨pubkeyAt src 0, pubkeyAt src 32, u64At src 64, delegate, state, isNative,
    u64At src 121, closeAuthority⟩

/-- `Pack::unpack`; an account is initialized in every state but the first. -/
def TokenAccount.unpack (input : Bytes) : Except ProgramError TokenAccount := do
  if input.length ≠ TokenAccount.LEN then
    throw .invalidAccountData
  let value ← TokenAccount.unpackFromSlice input
  if value.state ≠ .uninitialized then return value else throw .uninitializedAccount

def unpackTokenAccount (data : Bytes) : Except TokenStateError TokenAccount :=
  (TokenAccount.unpack (data.take (min TokenAccount.LEN data.length))).mapError .program

/-! ### Extensions -/

structure StateWithExtensions where
  base : Mint
  tlvData : Bytes
  deriving DecidableEq

/-- The record area of `rest`, what follows the base state. -/
def tlvDataOf (rest : Bytes) : Except ProgramError Bytes :=
  if rest = [] then .ok []
  else
    let accountTypeIndex := BASE_ACCOUNT_LENGTH - Mint.LEN
    let tlvStartIndex := accountTypeIndex + 1
    if rest.length < tlvStartIndex then .error .invalidAccountData
    else if rest.take accountTypeIndex ≠ List.replicate accountTypeIndex 0 then
      .error .invalidAccountData
    else if rest.getD accountTypeIndex 0 ≠ 1 then .error .invalidAccountData
    else .ok (rest.drop tlvStartIndex)

def StateWithExtensions.unpack (input : Bytes) : Except ProgramError StateWithExtensions := do
  if input.length = Multisig.LEN ∨ input.length < Mint.LEN then
    throw .invalidAccountData
  let base ← Mint.unpack (input.take Mint.LEN)
  let tlvData ← tlvDataOf (input.drop Mint.LEN)
  return ⟨base, tlvData⟩

structure TlvIndices where
  typeStart : ℕ
  lengthStart : ℕ
  valueStart : ℕ
  deriving DecidableEq

def getTlvIndices (typeStart : ℕ) : TlvIndices := ⟨typeStart, typeStart + 2, typeStart + 4⟩

/-- An extension of a mint as `get_extension` sees it: its type and the size of its value. -/
structure Extension where
  type : UInt16
  size : ℕ
  initialized : type ≠ 0

/-- The scan for an extension of a mint, from `startIndex` on. A record of another type, known or
not, is skipped by its length field, which only the next turn of the loop holds against the end. -/
def getExtensionIndices (v : Extension) (tlvData : Bytes) (startIndex : ℕ) :
    Except ProgramError TlvIndices :=
  if startIndex < tlvData.length then
    let tlvIndices := getTlvIndices startIndex
    if tlvData.length < tlvIndices.valueStart then .error .invalidAccountData
    else if u16At tlvData tlvIndices.typeStart = v.type then .ok tlvIndices
    else if u16At tlvData tlvIndices.typeStart = 0 then .error .extensionNotFound
    else
      let length := u16At tlvData tlvIndices.lengthStart
      getExtensionIndices v tlvData (tlvIndices.valueStart + length.toNat)
  else .error .invalidAccountData
termination_by tlvData.length - startIndex
decreasing_by
  simp only [getTlvIndices]
  omega

def getExtensionBytes (v : Extension) (tlvData : Bytes) : Except ProgramError Bytes := do
  let tlvIndices ← getExtensionIndices v tlvData 0
  let length := u16At tlvData tlvIndices.lengthStart
  let valueEnd := tlvIndices.valueStart + length.toNat
  if tlvData.length < valueEnd then
    throw .invalidAccountData
  return (tlvData.take valueEnd).drop tlvIndices.valueStart

/-- The value of an extension; casting it to the extension's type checks its size. -/
def StateWithExtensions.getExtension (state : StateWithExtensions) (v : Extension) :
    Except ProgramError Bytes := do
  let bytes ← getExtensionBytes v state.tlvData
  if bytes.length = v.size then return bytes else throw .invalidArgument

/-! ### The finders -/

structure TransferFee where
  epoch : UInt64
  maximumFee : UInt64
  transferFeeBasisPoints : UInt16
  deriving DecidableEq

structure TransferFeeConfig where
  transferFeeConfigAuthority : Option Pubkey
  withdrawWithheldAuthority : Option Pubkey
  withheldAmount : UInt64
  /-- In effect while the current epoch is before the newer fee's. -/
  olderTransferFee : TransferFee
  newerTransferFee : TransferFee
  deriving DecidableEq

structure TransferHookConfig where
  authority : Option Pubkey
  programId : Option Pubkey
  deriving DecidableEq

/-- An `OptionalNonZeroPubkey` at offset `i`. -/
def optionalPubkeyAt (raw : Bytes) (i : ℕ) : Option Pubkey :=
  if pubkeyAt raw i = ⟨.replicate 32 0⟩ then none else some (pubkeyAt raw i)

def transferFeeAt (raw : Bytes) (i : ℕ) : TransferFee :=
  ⟨u64At raw i, u64At raw (i + 8), u16At raw (i + 16)⟩

def transferFeeConfig : Extension := ⟨1, 108, by decide⟩
def permanentDelegate : Extension := ⟨12, 32, by decide⟩
def transferHook : Extension := ⟨14, 64, by decide⟩

def transferFeeConfigOf (raw : Bytes) : Option TransferFeeConfig :=
  some ⟨optionalPubkeyAt raw 0, optionalPubkeyAt raw 32, u64At raw 64, transferFeeAt raw 72,
    transferFeeAt raw 90⟩

def delegateOf (raw : Bytes) : Option Pubkey := optionalPubkeyAt raw 0

def transferHookOf (raw : Bytes) : Option TransferHookConfig :=
  some ⟨optionalPubkeyAt raw 0, optionalPubkeyAt raw 32⟩

/-- What the three finders do: whatever goes wrong after `unpack` reads as absent. -/
def findExtension {α : Type} (v : Extension) (decode : Bytes → Option α) (mintData : Bytes) :
    Except TokenStateError (Option α) :=
  match StateWithExtensions.unpack mintData with
  | .error e => .error (.program e)
  | .ok state =>
    match state.getExtension v with
    | .error _ => .ok none
    | .ok raw => .ok (decode raw)

def findTransferFeeConfig : Bytes → Except TokenStateError (Option TransferFeeConfig) :=
  findExtension transferFeeConfig transferFeeConfigOf

def findPermanentDelegate : Bytes → Except TokenStateError (Option Pubkey) :=
  findExtension permanentDelegate delegateOf

def findTransferHook : Bytes → Except TokenStateError (Option TransferHookConfig) :=
  findExtension transferHook transferHookOf

end SvmWasiCore.TokenState

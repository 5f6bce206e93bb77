import SvmWasiCore.Instruction
import SvmWasiCore.ProgramAddress

/-!
The builders of the subscriptions program, and the addresses they derive.

The program takes the dump of a packed struct behind a discriminator byte, so the data of every
call is the concatenation of its little-endian fields.
-/

namespace SvmWasiCore.Subscriptions

open Lib.ByteCodec Fields ProgramAddress

def INIT_SUBSCRIPTION_AUTHORITY_DISCRIMINATOR : UInt8 := 0
def CREATE_RECURRING_DELEGATION_DISCRIMINATOR : UInt8 := 2
def TRANSFER_RECURRING_DISCRIMINATOR : UInt8 := 5

/-- De1egAFMkMWZSN5rYXRj9CAdheBamobVNubTsi9avR44. -/
def id : Pubkey :=
  ⟨⟨[187, 199, 119, 175, 186, 104, 240, 18, 62, 192, 196, 209, 183, 238, 137, 110,
    147, 1, 201, 41, 197, 90, 6, 186, 149, 24, 33, 88, 37, 140, 21, 169], rfl⟩⟩

variable (search : AddressSearch)

/-- One for each pair of a user and a mint. -/
def subscriptionAuthorityPda (user tokenMint : Pubkey) : Option (Pubkey × UInt8) :=
  search.tryFindProgramAddress
    [byteString "SubscriptionAuthority", user.bytes.toList, tokenMint.bytes.toList] id

def recurringDelegationPda (subscriptionAuthority delegator delegatee : Pubkey)
    (nonce : UInt64) : Option (Pubkey × UInt8) :=
  search.tryFindProgramAddress
    [byteString "delegation", subscriptionAuthority.bytes.toList, delegator.bytes.toList,
      delegatee.bytes.toList, u64Bytes nonce] id

/-- One for the whole program. -/
def eventAuthorityPda : Option (Pubkey × UInt8) :=
  search.tryFindProgramAddress [byteString "event_authority"] id

def initializeSubscriptionAuthority (user tokenMint userAta tokenProgram : Pubkey) :
    Option Instruction := do
  let (subscriptionAuthority, _) ← subscriptionAuthorityPda search user tokenMint
  return {
    programId := id
    accounts := [.new user true, .new subscriptionAuthority false, .newReadonly tokenMint false,
      .new userAta false, .newReadonly System.id false, .newReadonly tokenProgram false]
    data := [INIT_SUBSCRIPTION_AUTHORITY_DISCRIMINATOR] }

def createRecurringDelegation (delegator delegatee tokenMint : Pubkey)
    (nonce amountPerPeriod periodLengthS : UInt64)
    (startTs expiryTs expectedSubscriptionAuthorityInitId : Int64) : Option Instruction := do
  let (subscriptionAuthority, _) ← subscriptionAuthorityPda search delegator tokenMint
  let (delegationAccount, _) ←
    recurringDelegationPda search subscriptionAuthority delegator delegatee nonce
  return {
    programId := id
    accounts := [.new delegator true, .newReadonly subscriptionAuthority false,
      .new delegationAccount false, .newReadonly delegatee false, .newReadonly System.id false]
    data := [CREATE_RECURRING_DELEGATION_DISCRIMINATOR] ++ (u64Bytes nonce ++
      (u64Bytes amountPerPeriod ++ (u64Bytes periodLengthS ++ (i64Bytes startTs ++
        (i64Bytes expiryTs ++ i64Bytes expectedSubscriptionAuthorityInitId))))) }

def transferRecurring (delegationAccount delegator delegatee tokenMint delegatorAta receiverAta
    tokenProgram : Pubkey) (amount : UInt64) : Option Instruction := do
  let (subscriptionAuthority, _) ← subscriptionAuthorityPda search delegator tokenMint
  let (eventAuthority, _) ← eventAuthorityPda search
  return {
    programId := id
    accounts := [.new delegationAccount false, .newReadonly subscriptionAuthority false,
      .new delegatorAta false, .new receiverAta false, .newReadonly tokenMint false,
      .newReadonly tokenProgram false, .newReadonly delegatee true,
      .newReadonly eventAuthority false, .newReadonly id false]
    data := [TRANSFER_RECURRING_DISCRIMINATOR] ++ (u64Bytes amount ++
      (delegator.bytes.toList ++ tokenMint.bytes.toList)) }

end SvmWasiCore.Subscriptions

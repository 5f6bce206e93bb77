import SvmWasiCore.TokenState
import SvmWasiCore.Lib.Saturating

/-!
The account states of the subscriptions program, and what a recurring delegation allows to pull.

Both layouts are packed: every field stands at a fixed offset, in little-endian order. The time
arithmetic is that of `i64`.
-/

namespace SvmWasiCore.SubscriptionState

open Lib.ByteCodec Lib.LittleEndian Lib.Saturating TokenState

inductive SubscriptionStateError
  | wrongLength (actual expected : ℕ) (kind : String)
  | wrongDiscriminator (actual expected : UInt8) (kind : String)
  deriving DecidableEq

def DISCRIMINATOR_SUBSCRIPTION_AUTHORITY : UInt8 := 0
def DISCRIMINATOR_RECURRING_DELEGATION : UInt8 := 3
def SUBSCRIPTION_AUTHORITY_LEN : ℕ := 106
def RECURRING_DELEGATION_LEN : ℕ := 211

/-- `i64::from_le_bytes` of a field. -/
def i64At (w : Bytes) (i : ℕ) : Int64 := (u64At w i).toInt64

/-- What both `unpack`s check before they read the fields. -/
def checkKind (data : Bytes) (expectedLen : ℕ) (discriminator : UInt8) (kind : String) :
    Except SubscriptionStateError Unit :=
  if data.length ≠ expectedLen then
    .error (.wrongLength data.length expectedLen kind)
  else if data.getD 0 0 ≠ discriminator then
    .error (.wrongDiscriminator (data.getD 0 0) discriminator kind)
  else .ok ()

structure SubscriptionAuthority where
  user : Pubkey
  tokenMint : Pubkey
  payer : Pubkey
  bump : UInt8
  initId : Int64
  deriving DecidableEq

def SubscriptionAuthority.unpack (data : Bytes) :
    Except SubscriptionStateError SubscriptionAuthority := do
  checkKind data SUBSCRIPTION_AUTHORITY_LEN DISCRIMINATOR_SUBSCRIPTION_AUTHORITY
    "SubscriptionAuthority"
  return ⟨pubkeyAt data 1, pubkeyAt data 33, pubkeyAt data 65, data.getD 97 0, i64At data 98⟩

/-- Up to `amountPerPeriod` every `periodLengthS` seconds; skipped periods do not accumulate. -/
structure RecurringDelegation where
  delegator : Pubkey
  delegatee : Pubkey
  payer : Pubkey
  initId : Int64
  subscriptionAuthority : Pubkey
  mint : Pubkey
  currentPeriodStartTs : Int64
  periodLengthS : UInt64
  expiryTs : Int64
  amountPerPeriod : UInt64
  amountPulledInPeriod : UInt64
  deriving DecidableEq

namespace RecurringDelegation

def unpack (data : Bytes) : Except SubscriptionStateError RecurringDelegation := do
  checkKind data RECURRING_DELEGATION_LEN DISCRIMINATOR_RECURRING_DELEGATION
    "RecurringDelegation"
  return {
    delegator := pubkeyAt data 3
    delegatee := pubkeyAt data 35
    payer := pubkeyAt data 67
    initId := i64At data 99
    subscriptionAuthority := pubkeyAt data 107
    mint := pubkeyAt data 139
    currentPeriodStartTs := i64At data 171
    periodLengthS := u64At data 179
    expiryTs := i64At data 187
    amountPerPeriod := u64At data 195
    amountPulledInPeriod := u64At data 203 }

/-- `0` means the delegation never expires. -/
def isExpired (d : RecurringDelegation) (currentUnixTime : Int64) : Bool :=
  d.expiryTs != 0 && currentUnixTime ≥ d.expiryTs

def amountAvailable (d : RecurringDelegation) (currentUnixTime : Int64) : UInt64 :=
  if d.isExpired currentUnixTime then 0
  else
    let periodElapsed :=
      currentUnixTime ≥ saturatingAdd d.currentPeriodStartTs d.periodLengthS.toInt64
    if periodElapsed then d.amountPerPeriod
    else saturatingSub d.amountPerPeriod d.amountPulledInPeriod

end RecurringDelegation

end SvmWasiCore.SubscriptionState

import SvmWasiCore.Rpc
import SvmWasiCore.Lib.Base64

/-!
The JSON-RPC client: accounts, balances and the blockhash.

The text forms of keys and hashes are read by `solana-pubkey` and `solana-hash`, and these and the
base64 engine say in their own words what is wrong with a text. The three are parameters.
-/

namespace SvmWasiCore.RpcAccounts

open Json Rpc Lib Lib.ByteCodec

/-- `from_str` of a key and of a hash with the texts of their errors, and the text of a base64
error. -/
structure TextForms where
  pubkeyFromStr : String → Except String Pubkey
  hashFromStr : String → Except String Hash
  base64Error : String → String

structure AccountInfo where
  lamports : UInt64
  data : Bytes
  owner : Pubkey
  executable : Bool
  rentEpoch : UInt64
  deriving DecidableEq

structure BlockhashInfo where
  blockhash : Hash
  lastValidBlockHeight : UInt64
  deriving DecidableEq

/-- `amount` is kept as the decimal text it arrives in. -/
structure TokenAmount where
  amount : String
  decimals : UInt8
  uiAmount : Option Float

structure TokenAccountEntry where
  pubkey : Pubkey
  account : AccountInfo
  deriving DecidableEq

/-! ### Decoders -/

variable (texts : TextForms)

def decodePubkey (value : Value) (field : String) : Except RpcError Pubkey := do
  let s ← decodeOr value.asStr s!"expected a string for `{field}`"
  (texts.pubkeyFromStr s).mapError fun e => .decode s!"invalid pubkey in `{field}`: {e}"

/-- A member that must be a u64, refused with `msg` when it is not. -/
def requireU64 (value : Value) (field msg : String) : Except RpcError UInt64 := do
  decodeOr (← require value field).asU64 msg

def decodeAccountInfo (value : Value) : Except RpcError AccountInfo := do
  let lamports ← requireU64 value "lamports" "`lamports` is not a u64"
  let owner ← decodePubkey texts (← require value "owner") "owner"
  let executable := (← require value "executable").asBool.getD false
  let rentEpoch ← requireU64 value "rentEpoch" "`rentEpoch` is not a u64"
  let base64Str ← decodeOr (((← require value "data").getAt 0).bind Value.asStr)
    "expected `data` as [base64, \"base64\"] — request base64 encoding"
  let data ← decodeOr (Base64.decode base64Str)
    s!"invalid base64 account data: {texts.base64Error base64Str}"
  return ⟨lamports, data, owner, executable, rentEpoch⟩

/-- An account that may be missing. -/
def decodeAccount (value : Value) : Except RpcError (Option AccountInfo) :=
  if value.isNull then .ok none
  else do return some (← decodeAccountInfo texts value)

def decodeBlockhash (value : Value) : Except RpcError BlockhashInfo := do
  let blockhashStr ← decodeOr (← require value "blockhash").asStr "`blockhash` is not a string"
  let blockhash ← (texts.hashFromStr blockhashStr).mapError fun e =>
    .decode s!"invalid blockhash: {e}"
  let lastValidBlockHeight ← requireU64 value "lastValidBlockHeight"
    "`lastValidBlockHeight` is not a u64"
  return ⟨blockhash, lastValidBlockHeight⟩

/-- `decimals` is read as a u64 and cast to a u8. -/
def decodeTokenAmount (value : Value) : Except RpcError TokenAmount := do
  let amount ← decodeOr (← require value "amount").asStr "`amount` is not a string"
  let decimals ← requireU64 value "decimals" "`decimals` is not a number"
  let uiAmount := (value.get "uiAmount").bind Value.asF64
  return ⟨amount, decimals.toUInt8, uiAmount⟩

def decodeTokenAccountEntry (entry : Value) : Except RpcError TokenAccountEntry := do
  let pubkey ← decodePubkey texts (← require entry "pubkey") "pubkey"
  let account ← decodeAccountInfo texts (← require entry "account")
  return ⟨pubkey, account⟩

/-! ### Requests -/

def confirmed : String × Value := ("commitment", text "confirmed")

/-- `json!` sorts the members. -/
def confirmedBase64 : Value := .object [confirmed, ("encoding", text "base64")]

def latestBlockhashParams : Value := .array [.object [confirmed]]

/-- The parameters of `getBalance` and `getTokenAccountBalance`. -/
def balanceParams (pubkey : Pubkey) : Value :=
  .array [text (toBase58 pubkey), .object [confirmed]]

def accountInfoParams (pubkey : Pubkey) : Value :=
  .array [text (toBase58 pubkey), confirmedBase64]

def multipleAccountsParams (pubkeys : List Pubkey) : Value :=
  .array [.array (pubkeys.map fun pubkey => text (toBase58 pubkey)), confirmedBase64]

def tokenAccountsByOwnerParams (owner mint : Pubkey) : Value :=
  .array [text (toBase58 owner), .object [("mint", text (toBase58 mint))], confirmedBase64]

/-- A `usize` is written as the `u64` it fits in. -/
def rentExemptionParams (dataLen : UInt64) : Value := .array [.number (.posInt dataLen)]

def sendTransactionParams (transactionBase64 : String) : Value :=
  .array [text transactionBase64, .object [("encoding", text "base64"),
    ("preflightCommitment", text "confirmed")]]

end RpcAccounts

namespace Rpc.RpcClient

open Json RpcAccounts

variable (texts : TextForms) (client : RpcClient)

def getLatestBlockhash : Except RpcError BlockhashInfo × RpcClient :=
  let (value, client) := client.callValue "getLatestBlockhash" latestBlockhashParams
  (do decodeBlockhash texts (← value), client)

def getBalance (pubkey : Pubkey) : Except RpcError UInt64 × RpcClient :=
  let (value, client) := client.callValue "getBalance" (balanceParams pubkey)
  (do decodeOr (← value).asU64 "expected a u64 `value`", client)

def getAccountInfo (pubkey : Pubkey) : Except RpcError (Option AccountInfo) × RpcClient :=
  let (value, client) := client.callValue "getAccountInfo" (accountInfoParams pubkey)
  (do decodeAccount texts (← value), client)

def getMultipleAccounts (pubkeys : List Pubkey) :
    Except RpcError (List (Option AccountInfo)) × RpcClient :=
  let (value, client) := client.callValue "getMultipleAccounts" (multipleAccountsParams pubkeys)
  (do
    let array ← decodeOr (← value).asArray "expected an array `value`"
    array.mapM (decodeAccount texts), client)

def getTokenAccountBalance (tokenAccount : Pubkey) : Except RpcError TokenAmount × RpcClient :=
  let (value, client) := client.callValue "getTokenAccountBalance" (balanceParams tokenAccount)
  (do decodeTokenAmount (← value), client)

def getTokenAccountsByOwner (owner mint : Pubkey) :
    Except RpcError (List TokenAccountEntry) × RpcClient :=
  let (value, client) := client.callValue "getTokenAccountsByOwner"
    (tokenAccountsByOwnerParams owner mint)
  (do
    let array ← decodeOr (← value).asArray "expected an array `value`"
    array.mapM (decodeTokenAccountEntry texts), client)

/-- The signature, in base58. -/
def sendTransaction (transactionBase64 : String) : Except RpcError String × RpcClient :=
  let (result, client) := client.call "sendTransaction" (sendTransactionParams transactionBase64)
  (do decodeOr (← result).asStr "expected a string signature", client)

def getMinimumBalanceForRentExemption (dataLen : UInt64) : Except RpcError UInt64 × RpcClient :=
  let (result, client) := client.call "getMinimumBalanceForRentExemption"
    (rentExemptionParams dataLen)
  (do decodeOr (← result).asU64 "expected a u64 result", client)

end Rpc.RpcClient

end SvmWasiCore

import SvmWasiCore.Basic
import SvmWasiCore.Json
import SvmWasiCore.Lib.Base58

/-!
The JSON-RPC client: requests, the response envelope, and the decoders of transaction outcomes.

A transport answers a request with a JSON value or an error. Every request carries an id of its
own, so a transport that answers differently each time is a function of the request too.
-/

namespace SvmWasiCore.Rpc

open Json

inductive RpcError
  | transport (msg : String)
  | rpc (code : Int64) (message : String)
  | decode (msg : String)
  deriving DecidableEq

structure RpcClient where
  transport : Value → Except RpcError Value
  nextId : UInt64

def RpcClient.new (transport : Value → Except RpcError Value) : RpcClient := ⟨transport, 1⟩

def require (value : Value) (field : String) : Except RpcError Value :=
  match value.get field with
  | some member => .ok member
  | none => .error (.decode s!"missing `{field}`")

/-- `opt.ok_or_else(..)` for a value of the wrong shape. -/
def decodeOr {α : Type} (o : Option α) (msg : String) : Except RpcError α :=
  match o with
  | some a => .ok a
  | none => .error (.decode msg)

/-- `json!("text")`. -/
def text (s : String) : Value := .string s

/-! ### Requests and responses -/

/-- One request; `json!` sorts the members. -/
def request (id : UInt64) (method : String) (params : Value) : Value :=
  .object [("id", .number (.posInt id)), ("jsonrpc", text "2.0"), ("method", text method),
    ("params", params)]

/-- The `result` of a response, or its `error`. -/
def resultOf (response : Value) : Except RpcError Value :=
  match response.get "error" with
  | some error =>
    let code := ((error.get "code").bind Value.asI64).getD 0
    let message := ((error.get "message").bind Value.asStr).getD "unknown RPC error"
    .error (.rpc code message)
  | none => decodeOr (response.get "result") "response has neither `result` nor `error`"

namespace RpcClient

variable (client : RpcClient)

def call (method : String) (params : Value) : Except RpcError Value × RpcClient :=
  (do resultOf (← client.transport (request client.nextId method params)),
    { client with nextId := client.nextId + 1 })

/-- The `value` inside the `result`. -/
def callValue (method : String) (params : Value) : Except RpcError Value × RpcClient :=
  let (result, client) := client.call method params
  (do decodeOr ((← result).get "value") s!"`{method}` result missing `value`", client)

end RpcClient

/-! ### Transaction outcomes -/

structure SimulateTransactionResult where
  err : Option Value
  logs : List String
  unitsConsumed : Option UInt64

structure SignatureStatus where
  slot : UInt64
  confirmations : Option UInt64
  err : Option Value
  confirmationStatus : Option String

structure SignatureInfo where
  signature : String
  slot : UInt64
  err : Option Value
  memo : Option String
  blockTime : Option Int64
  confirmationStatus : Option String

/-- `value.get("err").cloned().filter(|v| !v.is_null())`: no error and no member look the same. -/
def errOf (value : Value) : Option Value := (value.get "err").filter fun v => !v.isNull

/-- What `simulate_transaction` makes of the `value`. -/
def decodeSimulation (value : Value) : SimulateTransactionResult where
  err := errOf value
  logs := (((value.get "logs").bind Value.asArray).map fun items =>
    items.filterMap Value.asStr).getD []
  unitsConsumed := (value.get "unitsConsumed").bind Value.asU64

def decodeSlot (entry : Value) : Except RpcError UInt64 := do
  decodeOr (← require entry "slot").asU64 "`slot` is not a u64"

def decodeSignatureStatus (entry : Value) : Except RpcError (Option SignatureStatus) :=
  if entry.isNull then .ok none
  else do
    let slot ← decodeSlot entry
    let confirmations := (entry.get "confirmations").bind Value.asU64
    let confirmationStatus := (entry.get "confirmationStatus").bind Value.asStr
    return some ⟨slot, confirmations, errOf entry, confirmationStatus⟩

def decodeSignatureInfo (entry : Value) : Except RpcError SignatureInfo := do
  let signature ← decodeOr (← require entry "signature").asStr "`signature` is not a string"
  let slot ← decodeSlot entry
  let memo := (entry.get "memo").bind Value.asStr
  let blockTime := (entry.get "blockTime").bind Value.asI64
  let confirmationStatus := (entry.get "confirmationStatus").bind Value.asStr
  return ⟨signature, slot, errOf entry, memo, blockTime, confirmationStatus⟩

/-- `Pubkey::to_string`. -/
def toBase58 (pubkey : Pubkey) : String := Lib.Base58.encode pubkey.bytes.toList

/-! The parameters of the three requests; `json!` sorts the members here too. -/

def simulateParams (transactionBase64 : String) : Value :=
  .array [text transactionBase64, .object [("commitment", text "confirmed"),
    ("encoding", text "base64"), ("sigVerify", .bool false)]]

def signatureStatusesParams (signatures : List String) : Value :=
  .array [.array (signatures.map text), .object [("searchTransactionHistory", .bool true)]]

def signaturesForAddressParams (address : Pubkey) (untilSignature : Option String) : Value :=
  let opts := ("commitment", text "confirmed") ::
    (untilSignature.map fun signature => ("until", text signature)).toList
  .array [text (toBase58 address), .object opts]

namespace RpcClient

variable (client : RpcClient)

def simulateTransaction (transactionBase64 : String) :
    Except RpcError SimulateTransactionResult × RpcClient :=
  let (value, client) := client.callValue "simulateTransaction" (simulateParams transactionBase64)
  (do return decodeSimulation (← value), client)

def getSignatureStatuses (signatures : List String) :
    Except RpcError (List (Option SignatureStatus)) × RpcClient :=
  let (value, client) := client.callValue "getSignatureStatuses"
    (signatureStatusesParams signatures)
  (do
    let array ← decodeOr (← value).asArray "expected an array `value`"
    array.mapM decodeSignatureStatus, client)

def getSignaturesForAddress (address : Pubkey) (untilSignature : Option String) :
    Except RpcError (List SignatureInfo) × RpcClient :=
  let (result, client) := client.call "getSignaturesForAddress"
    (signaturesForAddressParams address untilSignature)
  (do
    let array ← decodeOr (← result).asArray "expected an array result"
    array.mapM decodeSignatureInfo, client)

end RpcClient

end SvmWasiCore.Rpc

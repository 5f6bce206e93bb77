import SvmWasiCore.RpcAccounts
import SvmWasiCore.RpcOutcomes

/-!
The methods of the JSON-RPC client as data: the name and the parameters each sends, and what it
makes of the result.
-/

namespace SvmWasiCore.RpcMethods

open Json Rpc RpcAccounts RpcOutcomes Lib

inductive Method
  | getLatestBlockhash
  | getBalance (pubkey : Pubkey)
  | getAccountInfo (pubkey : Pubkey)
  | getMultipleAccounts (pubkeys : List Pubkey)
  | getTokenAccountBalance (tokenAccount : Pubkey)
  | getTokenAccountsByOwner (owner mint : Pubkey)
  | simulateTransaction (transactionBase64 : String)
  | sendTransaction (transactionBase64 : String)
  | getSignatureStatuses (signatures : List String)
  | getSignaturesForAddress (address : Pubkey) (untilSignature : Option String)
  | getMinimumBalanceForRentExemption (dataLen : UInt64)

namespace Method

/-- What the method returns when it succeeds. -/
def Answer : Method → Type
  | .getLatestBlockhash => BlockhashInfo
  | .getBalance _ => UInt64
  | .getAccountInfo _ => Option AccountInfo
  | .getMultipleAccounts _ => List (Option AccountInfo)
  | .getTokenAccountBalance _ => TokenAmount
  | .getTokenAccountsByOwner _ _ => List TokenAccountEntry
  | .simulateTransaction _ => SimulateTransactionResult
  | .sendTransaction _ => String
  | .getSignatureStatuses _ => List (Option SignatureStatus)
  | .getSignaturesForAddress _ _ => List SignatureInfo
  | .getMinimumBalanceForRentExemption _ => UInt64

def name : Method → String
  | .getLatestBlockhash => "getLatestBlockhash"
  | .getBalance _ => "getBalance"
  | .getAccountInfo _ => "getAccountInfo"
  | .getMultipleAccounts _ => "getMultipleAccounts"
  | .getTokenAccountBalance _ => "getTokenAccountBalance"
  | .getTokenAccountsByOwner _ _ => "getTokenAccountsByOwner"
  | .simulateTransaction _ => "simulateTransaction"
  | .sendTransaction _ => "sendTransaction"
  | .getSignatureStatuses _ => "getSignatureStatuses"
  | .getSignaturesForAddress _ _ => "getSignaturesForAddress"
  | .getMinimumBalanceForRentExemption _ => "getMinimumBalanceForRentExemption"

def params : Method → Value
  | .getLatestBlockhash => latestBlockhashParams
  | .getBalance pubkey => balanceParams pubkey
  | .getAccountInfo pubkey => accountInfoParams pubkey
  | .getMultipleAccounts pubkeys => multipleAccountsParams pubkeys
  | .getTokenAccountBalance tokenAccount => balanceParams tokenAccount
  | .getTokenAccountsByOwner owner mint => tokenAccountsByOwnerParams owner mint
  | .simulateTransaction transactionBase64 => simulateParams transactionBase64
  | .sendTransaction transactionBase64 => sendTransactionParams transactionBase64
  | .getSignatureStatuses signatures => signatureStatusesParams signatures
  | .getSignaturesForAddress address untilSignature =>
    signaturesForAddressParams address untilSignature
  | .getMinimumBalanceForRentExemption dataLen => rentExemptionParams dataLen

/-- The `value` inside a `result`. -/
def valueOf (method : String) (result : Except RpcError Value) : Except RpcError Value := do
  decodeOr ((← result).get "value") s!"`{method}` result missing `value`"

def items (msg : String) (result : Except RpcError Value) : Except RpcError (List Value) := do
  decodeOr (← result).asArray msg

variable (texts : TextForms)

/-- What the method makes of what `call` returns. -/
def decode : (m : Method) → Except RpcError Value → Except RpcError m.Answer
  | m@(.getLatestBlockhash), result => do decodeBlockhash texts (← valueOf m.name result)
  | m@(.getBalance _), result => do
    decodeOr (← valueOf m.name result).asU64 "expected a u64 `value`"
  | m@(.getAccountInfo _), result => do decodeAccount texts (← valueOf m.name result)
  | m@(.getMultipleAccounts _), result => do
    (← items "expected an array `value`" (valueOf m.name result)).mapM (decodeAccount texts)
  | m@(.getTokenAccountBalance _), result => do decodeTokenAmount (← valueOf m.name result)
  | m@(.getTokenAccountsByOwner _ _), result => do
    (← items "expected an array `value`" (valueOf m.name result)).mapM
      (decodeTokenAccountEntry texts)
  | m@(.simulateTransaction _), result => do return decodeSimulation (← valueOf m.name result)
  | .sendTransaction _, result => do decodeOr (← result).asStr "expected a string signature"
  | m@(.getSignatureStatuses _), result => do
    (← items "expected an array `value`" (valueOf m.name result)).mapM decodeSignatureStatus
  | .getSignaturesForAddress _ _, result => do
    (← items "expected an array result" result).mapM decodeSignatureInfo
  | .getMinimumBalanceForRentExemption _, result => do
    decodeOr (← result).asU64 "expected a u64 result"

/-- The method called on a client. -/
def on (client : RpcClient) : (m : Method) → Except RpcError m.Answer × RpcClient
  | .getLatestBlockhash => client.getLatestBlockhash texts
  | .getBalance pubkey => client.getBalance pubkey
  | .getAccountInfo pubkey => client.getAccountInfo texts pubkey
  | .getMultipleAccounts pubkeys => client.getMultipleAccounts texts pubkeys
  | .getTokenAccountBalance tokenAccount => client.getTokenAccountBalance tokenAccount
  | .getTokenAccountsByOwner owner mint => client.getTokenAccountsByOwner texts owner mint
  | .simulateTransaction transactionBase64 => client.simulateTransaction transactionBase64
  | .sendTransaction transactionBase64 => client.sendTransaction transactionBase64
  | .getSignatureStatuses signatures => client.getSignatureStatuses signatures
  | .getSignaturesForAddress address untilSignature =>
    client.getSignaturesForAddress address untilSignature
  | .getMinimumBalanceForRentExemption dataLen =>
    client.getMinimumBalanceForRentExemption dataLen

/-- The request of the method under an id. -/
def request (m : Method) (id : UInt64) : Value := Rpc.request id m.name m.params

/-- What the method makes of what the transport returns. -/
def answer (m : Method) (response : Except RpcError Value) : Except RpcError m.Answer :=
  m.decode texts (response >>= resultOf)

variable {texts}

/-- Every method sends one request, under the client's next id. -/
lemma on_eq (client : RpcClient) (m : Method) : m.on texts client =
    (m.answer texts (client.transport (m.request client.nextId)),
      { client with nextId := client.nextId + 1 }) := by
  have hassoc {α β : Type} (x : Except RpcError Value) (f : Value → Except RpcError α)
      (g : α → Except RpcError β) : (x >>= fun v => f v >>= g) = (x >>= f) >>= g := by
    cases x <;> rfl
  cases m with
  | getMultipleAccounts pubkeys => exact congrArg (·, _) (hassoc _ _ _)
  | getTokenAccountsByOwner owner mint => exact congrArg (·, _) (hassoc _ _ _)
  | getSignatureStatuses signatures => exact congrArg (·, _) (hassoc _ _ _)
  | getSignaturesForAddress address untilSignature => exact congrArg (·, _) (hassoc _ _ _)
  | _ => rfl

end Method

/-! ### What a request says -/

/-- Keys and hashes are read as base58. -/
def sampleTexts : TextForms where
  pubkeyFromStr s :=
    match Base58.decode s with
    | some b => if h : b.length = 32 then .ok ⟨b, h⟩ else .error "String is the wrong size"
    | none => .error "Invalid Base58 string"
  hashFromStr s :=
    match Base58.decode s with
    | some b =>
      if h : b.length = 32 then .ok ⟨b, h⟩ else .error "string decoded to wrong size for hash"
    | none => .error "failed to decode string to hash"
  base64Error _ := "Invalid padding"

lemma pubkeyFromStr_sample (pubkey : Pubkey) :
    sampleTexts.pubkeyFromStr (toBase58 pubkey) = .ok pubkey := by
  obtain ⟨⟨w, hw⟩⟩ := pubkey
  have hdecode : Base58.decode (toBase58 ⟨⟨w, hw⟩⟩) = some w := Base58.decode_encode _
  simp [sampleTexts, hdecode, hw]

lemma toBase58_injective : Function.Injective toBase58 :=
  Base58.encode_injective.comp Pubkey.toList_injective

@[simp] lemma toBase58_inj {a b : Pubkey} : toBase58 a = toBase58 b ↔ a = b :=
  toBase58_injective.eq_iff

@[simp] lemma text_inj {s t : String} : text s = text t ↔ s = t := by
  rw [text, text, Value.string.injEq]

lemma map_text_inj {α : Type} {f : α → String} (hf : Function.Injective f) {l l' : List α} :
    l.map (fun a => text (f a)) = l'.map (fun a => text (f a)) ↔ l = l' :=
  List.map_inj_right fun _ _ h => hf (text_inj.mp h)

namespace Method

/-- Methods of one name that send the same parameters are the same call. -/
lemma eq_of_params {m m' : Method} (hname : m.name = m'.name) (h : m.params = m'.params) :
    m = m' := by
  cases m <;> cases m' <;> simp [name] at hname <;>
    simp [params, balanceParams, accountInfoParams, multipleAccountsParams,
      tokenAccountsByOwnerParams, simulateParams, sendTransactionParams, signatureStatusesParams,
      rentExemptionParams, signaturesForAddressParams] at h
  case getLatestBlockhash.getLatestBlockhash => rfl
  case getMultipleAccounts.getMultipleAccounts =>
    rw [(map_text_inj toBase58_injective).mp h]
  case getTokenAccountsByOwner.getTokenAccountsByOwner => rw [h.1, h.2]
  case getSignatureStatuses.getSignatureStatuses =>
    rw [(map_text_inj Function.injective_id).mp h]
  case getSignaturesForAddress.getSignaturesForAddress s _ s' =>
    obtain ⟨rfl, h⟩ := h
    cases s <;> cases s' <;> simp_all
  all_goals rw [h]

/-- **A request says which call it is**: its id, its method and every argument. -/
lemma request_inj {m m' : Method} {id id' : UInt64} :
    m.request id = m'.request id' ↔ id = id' ∧ m = m' := by
  refine ⟨fun h => ?_, fun h => ?_⟩
  · simp only [request, Rpc.request, Value.object.injEq, List.cons.injEq, Prod.mk.injEq,
      true_and, and_true, Value.number.injEq, Number.posInt.injEq, text_inj] at h
    exact ⟨h.1, eq_of_params h.2.1 h.2.2⟩
  · rw [h.1, h.2]

end Method

end SvmWasiCore.RpcMethods

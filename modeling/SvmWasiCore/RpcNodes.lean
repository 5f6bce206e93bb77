import SvmWasiCore.RpcSessions

/-!
A node behind the transport.

The node has a state and replies to calls. What it writes for a reply has the documented members,
and possibly others. A session over the wire comes to what it would on the node itself.
-/

namespace SvmWasiCore.RpcNodes

open Json Rpc RpcAccounts RpcMethods RpcOutcomes RpcSessions Lib Lib.Collect Lib.Interaction

/-- What a node replies to each call: the answer, its own error, or that it was not reached. -/
abbrev Node (σ : Type) := World Method (fun m => Except RpcError m.Answer) σ

/-! ### What a node writes -/

def u64 (n : UInt64) : Value := .number (.posInt n)

def i64 (n : Int64) : Value := .number (if n < 0 then .negInt n else .posInt n.toUInt64)

def hashText (hash : Hash) : String := Base58.encode hash.bytes.toList

/-- The member is there, or missing or null when there is nothing to say. -/
def Holds (v : Value) (key : String) : Option Value → Prop
  | some w => w ≠ .null ∧ v.get key = some w
  | none => v.get key = none ∨ v.get key = some .null

/-- `err` is always there, null for success. -/
def WritesErr (v : Value) (err : Option Value) : Prop :=
  err ≠ some .null ∧ v.get "err" = some (err.getD .null)

structure WritesBlockhash (a : BlockhashInfo) (v : Value) : Prop where
  blockhash : v.get "blockhash" = some (text (hashText a.blockhash))
  lastValidBlockHeight : v.get "lastValidBlockHeight" = some (u64 a.lastValidBlockHeight)

structure WritesAccount (a : AccountInfo) (v : Value) : Prop where
  lamports : v.get "lamports" = some (u64 a.lamports)
  owner : v.get "owner" = some (text (toBase58 a.owner))
  executable : v.get "executable" = some (.bool a.executable)
  rentEpoch : v.get "rentEpoch" = some (u64 a.rentEpoch)
  data : v.get "data" = some (.array [text (Base64.encode a.data), text "base64"])

/-- An account, or null for none. -/
def WritesOptional {α : Type} (writes : α → Value → Prop) : Option α → Value → Prop
  | some a, v => writes a v
  | none, v => v = .null

structure WritesTokenAmount (a : TokenAmount) (v : Value) : Prop where
  amount : v.get "amount" = some (text a.amount)
  decimals : v.get "decimals" = some (u64 a.decimals.toUInt64)
  uiAmount : ∃ n : Option Number, Holds v "uiAmount" (n.map .number) ∧
    a.uiAmount = n.bind fun n => (Value.number n).asF64

structure WritesTokenAccountEntry (a : TokenAccountEntry) (v : Value) : Prop where
  pubkey : v.get "pubkey" = some (text (toBase58 a.pubkey))
  account : ∃ w, v.get "account" = some w ∧ WritesAccount a.account w

structure WritesSimulation (a : SimulateTransactionResult) (v : Value) : Prop where
  err : WritesErr v a.err
  logs : v.get "logs" = some (.array (a.logs.map text)) ∨ a.logs = [] ∧ Holds v "logs" none
  unitsConsumed : Holds v "unitsConsumed" (a.unitsConsumed.map u64)

structure WritesSignatureStatus (a : SignatureStatus) (v : Value) : Prop where
  slot : v.get "slot" = some (u64 a.slot)
  confirmations : Holds v "confirmations" (a.confirmations.map u64)
  err : WritesErr v a.err
  confirmationStatus : Holds v "confirmationStatus" (a.confirmationStatus.map text)

structure WritesSignatureInfo (a : SignatureInfo) (v : Value) : Prop where
  signature : v.get "signature" = some (text a.signature)
  slot : v.get "slot" = some (u64 a.slot)
  err : WritesErr v a.err
  memo : Holds v "memo" (a.memo.map text)
  blockTime : Holds v "blockTime" (a.blockTime.map i64)
  confirmationStatus : Holds v "confirmationStatus" (a.confirmationStatus.map text)

def WritesItems {α : Type} (writes : α → Value → Prop) (as : List α) (v : Value) : Prop :=
  ∃ items, v = .array items ∧ List.Forall₂ writes as items

/-- In a `value`, next to the context. -/
def InValue (writes : Value → Prop) (result : Value) : Prop :=
  ∃ v, result.get "value" = some v ∧ writes v

/-- The `result` for an answer. -/
def WritesAnswer : (m : Method) → m.Answer → Value → Prop
  | .getLatestBlockhash, a => InValue (WritesBlockhash a)
  | .getBalance _, a => InValue (· = u64 a)
  | .getAccountInfo _, a => InValue (WritesOptional WritesAccount a)
  | .getMultipleAccounts _, a => InValue (WritesItems (WritesOptional WritesAccount) a)
  | .getTokenAccountBalance _, a => InValue (WritesTokenAmount a)
  | .getTokenAccountsByOwner _ _, a => InValue (WritesItems WritesTokenAccountEntry a)
  | .simulateTransaction _, a => InValue (WritesSimulation a)
  | .sendTransaction _, a => (· = text a)
  | .getSignatureStatuses _, a => InValue (WritesItems (WritesOptional WritesSignatureStatus) a)
  | .getSignaturesForAddress _ _, a => WritesItems WritesSignatureInfo a
  | .getMinimumBalanceForRentExemption _, a => (· = u64 a)

/-- What the transport returns for a reply. -/
def Writes (m : Method) : Except RpcError m.Answer → Except RpcError Value → Prop
  | .ok a, response => ∃ v result, response = .ok v ∧ v.get "error" = none ∧
    v.get "result" = some result ∧ WritesAnswer m a result
  | .error (.rpc code message), response => ∃ v e, response = .ok v ∧ v.get "error" = some e ∧
    e.get "code" = some (i64 code) ∧ e.get "message" = some (text message)
  | .error (.transport msg), response => response = .error (.transport msg)
  | .error (.decode _), _ => False

/-- The transport passes the requests of the client on to the node. -/
def Serves {σ : Type} (node : Node σ) (send : Transport σ) : Prop :=
  ∀ (s : σ) (m : Method) (id : UInt64), (send s (m.request id)).2 = (node s m).2 ∧
    Writes m (node s m).1 (send s (m.request id)).1

/-- Keys and hashes are read as they are written. -/
structure ReadsBack (texts : TextForms) : Prop where
  pubkey : ∀ pubkey, texts.pubkeyFromStr (toBase58 pubkey) = .ok pubkey
  hash : ∀ hash, texts.hashFromStr (hashText hash) = .ok hash

/-! ### Reading it back -/

variable {texts : TextForms} {v : Value} {key : String}

lemma asU64_u64 (n : UInt64) : (u64 n).asU64 = some n := rfl

lemma asI64_i64 (n : Int64) : (i64 n).asI64 = some n := by
  unfold i64
  split_ifs with h
  · rfl
  · have hn : 0 ≤ n := Int64.not_lt.mp h
    have hclamp : n.toNatClampNeg < 2 ^ 63 := by
      have := n.toInt_lt
      rw [Int64.toNatClampNeg]
      omega
    rw [Value.asI64, Int64.toNat_toUInt64_of_le hn, if_pos (by
      change (n.toNatClampNeg : ℤ) ≤ 2 ^ 63 - 1
      omega), Int64.ofNat_toNatClampNeg n hn]

/-- An optional member is read by any reader that does not take null for a value. -/
lemma Holds.read {α : Type} {write : α → Value} {read : Value → Option α} {o : Option α}
    (h : Holds v key (o.map write)) (hnull : read .null = none)
    (hread : ∀ a, read (write a) = some a) : (v.get key).bind read = o := by
  cases o with
  | none =>
    rcases h with h | h
    · rw [h]
      rfl
    · rw [h]
      exact hnull
  | some a =>
    rw [h.2]
    exact hread a

lemma errOf_of_writes {err : Option Value} (h : WritesErr v err) : errOf v = err := by
  obtain ⟨hnull, h⟩ := h
  rw [errOf, h]
  cases err with
  | none => rfl
  | some w =>
    have hw : w.isNull = false := Bool.eq_false_iff.mpr fun hw => hnull (by simpa using hw)
    rw [Option.getD_some, Option.filter_some, hw]
    rfl

lemma requireU64_of_get {msg : String} {n : UInt64} (h : v.get key = some (u64 n)) :
    requireU64 v key msg = .ok n := by
  rw [requireU64, require_eq_ok_iff.mpr h]
  rfl

lemma decodePubkey_of_text (hreads : ReadsBack texts) (pubkey : Pubkey) (field : String) :
    decodePubkey texts (text (toBase58 pubkey)) field = .ok pubkey := by
  change Except.mapError _ (texts.pubkeyFromStr (toBase58 pubkey)) = _
  rw [hreads.pubkey]
  rfl

lemma decodeBlockhash_of_writes (hreads : ReadsBack texts) {a : BlockhashInfo}
    (h : WritesBlockhash a v) : decodeBlockhash texts v = .ok a := by
  unfold decodeBlockhash
  rw [require_eq_ok_iff.mpr h.blockhash, requireU64_of_get h.lastValidBlockHeight]
  change (Except.mapError _ (texts.hashFromStr (hashText a.blockhash)) >>= _) = _
  rw [hreads.hash]
  rfl

lemma decodeAccountInfo_of_writes (hreads : ReadsBack texts) {a : AccountInfo}
    (h : WritesAccount a v) : decodeAccountInfo texts v = .ok a := by
  have hdata (msg : String) : decodeOr (Base64.decode (Base64.encode a.data)) msg = .ok a.data :=
    decodeOr_eq_ok_iff.mpr (Base64.decode_encode _)
  unfold decodeAccountInfo
  rw [requireU64_of_get h.lamports, require_eq_ok_iff.mpr h.owner,
    require_eq_ok_iff.mpr h.executable, requireU64_of_get h.rentEpoch,
    require_eq_ok_iff.mpr h.data]
  change (decodePubkey texts _ _ >>= _) = _
  rw [decodePubkey_of_text hreads]
  change (decodeOr (Base64.decode (Base64.encode a.data)) _ >>= _) = _
  rw [hdata]
  rfl

lemma isNull_of_get {w : Value} (h : v.get key = some w) : v.isNull = false := by
  cases v with
  | null => cases h
  | _ => rfl

lemma decodeAccount_of_writes (hreads : ReadsBack texts) {a : Option AccountInfo}
    (h : WritesOptional WritesAccount a v) : decodeAccount texts v = .ok a := by
  unfold decodeAccount
  cases a with
  | none =>
    obtain rfl : v = .null := h
    rfl
  | some a =>
    have haccount : WritesAccount a v := h
    rw [if_neg (by simp [isNull_of_get haccount.lamports]),
      decodeAccountInfo_of_writes hreads haccount]
    rfl

lemma decodeTokenAmount_of_writes {a : TokenAmount} (h : WritesTokenAmount a v) :
    decodeTokenAmount v = .ok a := by
  obtain ⟨n, hn, huiAmount⟩ := h.uiAmount
  have hui : (v.get "uiAmount").bind Value.asF64 = a.uiAmount := by
    rw [huiAmount]
    cases n with
    | none => rcases hn with hn | hn <;> rw [hn] <;> rfl
    | some n =>
      rw [hn.2]
      rfl
  unfold decodeTokenAmount
  rw [require_eq_ok_iff.mpr h.amount, requireU64_of_get h.decimals, hui]
  change Except.ok (⟨a.amount, a.decimals.toUInt64.toUInt8, a.uiAmount⟩ : TokenAmount) = _
  rw [UInt8.toUInt8_toUInt64]

lemma decodeTokenAccountEntry_of_writes (hreads : ReadsBack texts) {a : TokenAccountEntry}
    (h : WritesTokenAccountEntry a v) : decodeTokenAccountEntry texts v = .ok a := by
  obtain ⟨w, hw, haccount⟩ := h.account
  unfold decodeTokenAccountEntry
  rw [require_eq_ok_iff.mpr h.pubkey, require_eq_ok_iff.mpr hw]
  change (decodePubkey texts _ _ >>= _) = _
  rw [decodePubkey_of_text hreads]
  change (decodeAccountInfo texts w >>= _) = _
  rw [decodeAccountInfo_of_writes hreads haccount]
  rfl

lemma decodeSimulation_of_writes {a : SimulateTransactionResult} (h : WritesSimulation a v) :
    decodeSimulation v = a := by
  have hlogs : (((v.get "logs").bind Value.asArray).map fun items =>
      items.filterMap Value.asStr).getD [] = a.logs := by
    rcases h.logs with h | ⟨hnil, h | h⟩
    · rw [h]
      change (a.logs.map text).filterMap Value.asStr = a.logs
      rw [List.filterMap_map]
      exact List.filterMap_some
    · rw [h, hnil]
      rfl
    · rw [h, hnil]
      rfl
  rw [decodeSimulation, errOf_of_writes h.err, hlogs, h.unitsConsumed.read rfl asU64_u64]

lemma decodeSlot_of_get {n : UInt64} (h : v.get "slot" = some (u64 n)) : decodeSlot v = .ok n := by
  rw [decodeSlot, require_eq_ok_iff.mpr h]
  rfl

lemma decodeSignatureStatus_of_writes {a : Option SignatureStatus}
    (h : WritesOptional WritesSignatureStatus a v) : decodeSignatureStatus v = .ok a := by
  unfold decodeSignatureStatus
  cases a with
  | none =>
    obtain rfl : v = .null := h
    rfl
  | some a =>
    have hstatus : WritesSignatureStatus a v := h
    rw [if_neg (by simp [isNull_of_get hstatus.slot]), decodeSlot_of_get hstatus.slot,
      errOf_of_writes hstatus.err, hstatus.confirmations.read rfl asU64_u64,
      hstatus.confirmationStatus.read rfl fun _ => rfl]
    rfl

lemma decodeSignatureInfo_of_writes {a : SignatureInfo} (h : WritesSignatureInfo a v) :
    decodeSignatureInfo v = .ok a := by
  unfold decodeSignatureInfo
  rw [require_eq_ok_iff.mpr h.signature, decodeSlot_of_get h.slot, errOf_of_writes h.err,
    h.memo.read rfl fun _ => rfl, h.blockTime.read rfl asI64_i64,
    h.confirmationStatus.read rfl fun _ => rfl]
  rfl

lemma mapM_of_writes {α : Type} {writes : α → Value → Prop} {f : Value → Except RpcError α}
    (hf : ∀ a v, writes a v → f v = .ok a) {as : List α} {items : List Value}
    (h : List.Forall₂ writes as items) : items.mapM f = .ok as :=
  mapM_eq_ok_iff.mpr (h.flip.imp fun v a => hf a v)

lemma valueOf_of_get {result : Value} {name : String} (h : result.get "value" = some v) :
    Method.valueOf name (.ok result) = .ok v :=
  decodeOr_eq_ok_iff.mpr h

lemma items_array (msg : String) (items : List Value) :
    Method.items msg (.ok (.array items)) = .ok items := rfl

/-- Every answer a node writes is what the method makes of it. -/
lemma decode_of_writes (hreads : ReadsBack texts) (m : Method) {a : m.Answer} {result : Value}
    (h : WritesAnswer m a result) : m.decode texts (.ok result) = .ok a := by
  cases m with
  | getLatestBlockhash =>
    obtain ⟨v, hv, h⟩ := h
    rw [Method.decode, valueOf_of_get hv]
    exact decodeBlockhash_of_writes hreads h
  | getBalance pubkey =>
    obtain ⟨v, hv, rfl⟩ := h
    rw [Method.decode, valueOf_of_get hv]
    rfl
  | getAccountInfo pubkey =>
    obtain ⟨v, hv, h⟩ := h
    rw [Method.decode, valueOf_of_get hv]
    exact decodeAccount_of_writes hreads h
  | getMultipleAccounts pubkeys =>
    obtain ⟨v, hv, items, rfl, h⟩ := h
    rw [Method.decode, valueOf_of_get hv, items_array]
    exact mapM_of_writes (fun _ _ h => decodeAccount_of_writes hreads h) h
  | getTokenAccountBalance tokenAccount =>
    obtain ⟨v, hv, h⟩ := h
    rw [Method.decode, valueOf_of_get hv]
    exact decodeTokenAmount_of_writes h
  | getTokenAccountsByOwner owner mint =>
    obtain ⟨v, hv, items, rfl, h⟩ := h
    rw [Method.decode, valueOf_of_get hv, items_array]
    exact mapM_of_writes (fun _ _ h => decodeTokenAccountEntry_of_writes hreads h) h
  | simulateTransaction transactionBase64 =>
    obtain ⟨v, hv, h⟩ := h
    rw [Method.decode, valueOf_of_get hv]
    exact congrArg Except.ok (decodeSimulation_of_writes h)
  | sendTransaction transactionBase64 =>
    obtain rfl : result = text a := h
    rfl
  | getSignatureStatuses signatures =>
    obtain ⟨v, hv, items, rfl, h⟩ := h
    rw [Method.decode, valueOf_of_get hv, items_array]
    exact mapM_of_writes (fun _ _ h => decodeSignatureStatus_of_writes h) h
  | getSignaturesForAddress address untilSignature =>
    obtain ⟨items, rfl, h⟩ := h
    rw [Method.decode, items_array]
    exact mapM_of_writes (fun _ _ h => decodeSignatureInfo_of_writes h) h
  | getMinimumBalanceForRentExemption dataLen =>
    obtain rfl : result = u64 a := h
    rfl

/-- A reply comes through, be it an answer, an error of the node or of the transport. -/
lemma answer_of_writes (hreads : ReadsBack texts) {m : Method} {reply : Except RpcError m.Answer}
    {response : Except RpcError Value} (h : Writes m reply response) :
    m.answer texts response = reply := by
  rw [Method.answer]
  cases reply with
  | ok a =>
    obtain ⟨v, result, hv, herror, hresult, h⟩ := h
    have hof : resultOf v = .ok result := by
      rw [resultOf, herror]
      exact decodeOr_eq_ok_iff.mpr hresult
    rw [hv]
    change m.decode texts (resultOf v) = _
    rw [hof]
    exact decode_of_writes hreads m h
  | error e =>
    cases e with
    | rpc code message =>
      obtain ⟨v, e, hv, herror, hcode, hmessage⟩ := h
      have hof : resultOf v = .error (.rpc code message) := by
        rw [resultOf, herror]
        simp only [hcode, hmessage, Option.bind_some, asI64_i64, Option.getD_some]
        rfl
      rw [hv]
      change m.decode texts (resultOf v) = _
      rw [hof]
      cases m <;> rfl
    | transport msg =>
      obtain rfl : response = .error (.transport msg) := h
      cases m <;> rfl
    | decode msg => exact h.elim

/-! ### Sessions -/

variable {α σ : Type} {node : Node σ} {send : Transport σ}

/-- **The client is the node.** A session on a transport that passes its requests on to a node
comes to what it would on the node itself, leaves the node in the same state, and sends one
request a call, numbered from the client's id on. -/
theorem session_on_node (hreads : ReadsBack texts) (h : Serves node send) (p : Session α)
    (s : σ) (id : UInt64) :
    let (a, calls, s') := p.runIn node s
    let (result, tr, left) := (onWire texts p id).runIn send s
    result = (a, id + .ofNat calls.length) ∧ left = s' ∧
      tr.map Event.effect = calls.mapIdx fun k call => call.effect.request (id + .ofNat k) := by
  induction p generalizing s id with
  | done a => simp [onWire, Prog.runIn]
  | ask m next ih =>
    obtain ⟨hleft, hwrites⟩ := h s m id
    obtain ⟨hresult, hstate, hrequests⟩ := ih (node s m).1 (node s m).2 (id + 1)
    simp only [onWire, Prog.runIn, answer_of_writes hreads hwrites, hleft]
    refine ⟨?_, hstate, ?_⟩
    · rw [hresult, List.length_cons, next_id]
    · rw [List.map_cons, List.mapIdx_cons, hrequests]
      simp [next_id]

/-! ### One node -/

lemma readsBack_sample : ReadsBack sampleTexts where
  pubkey := pubkeyFromStr_sample
  hash hash := by
    obtain ⟨⟨w, hw⟩⟩ := hash
    have hdecode : Base58.decode (hashText ⟨⟨w, hw⟩⟩) = some w := Base58.decode_encode _
    simp [sampleTexts, hdecode, hw]

/-- Every account has the same balance, which grows by a lamport a query, and no data. -/
def sampleNode : Node UInt64 := fun lamports m =>
  match m with
  | .getBalance _ => (.ok lamports, lamports + 1)
  | .getAccountInfo _ => (.ok none, lamports)
  | _ => (.error (.rpc (-32601) "Method not found"), lamports)

def sampleSend : Transport UInt64 := fun lamports request =>
  let context := ("context", .object [("slot", u64 433648265)])
  match request.get "method" with
  | some (.string "getBalance") =>
    (.ok (.object [("result", .object [context, ("value", u64 lamports)])]), lamports + 1)
  | some (.string "getAccountInfo") =>
    (.ok (.object [("result", .object [context, ("value", .null)])]), lamports)
  | _ =>
    (.ok (.object [("error", .object [("code", i64 (-32601)),
      ("message", text "Method not found")])]), lamports)

lemma serves_sample : Serves sampleNode sampleSend := by
  intro lamports m id
  cases m with
  | getBalance pubkey => exact ⟨rfl, _, _, rfl, rfl, rfl, _, rfl, rfl⟩
  | getAccountInfo pubkey => exact ⟨rfl, _, _, rfl, rfl, rfl, _, rfl, rfl⟩
  | _ => exact ⟨rfl, _, _, rfl, rfl, rfl, rfl⟩

/-- Two queries. -/
def sampleSession : Session (Except RpcError UInt64 × Except RpcError UInt64) :=
  .ask (.getBalance ⟨.replicate 32 0⟩) fun first =>
    .ask (.getBalance ⟨.replicate 32 1⟩) fun second => .done (first, second)

theorem session_on_node_sample :
    ((onWire sampleTexts sampleSession 1).runIn sampleSend 890880).1 =
      ((.ok 890880, .ok 890881), 3) :=
  (session_on_node readsBack_sample serves_sample sampleSession 890880 1).1

end SvmWasiCore.RpcNodes

import SvmWasiCore.RpcAccounts
import SvmWasiCore.RpcOutcomes

/-!
The numbers of a response and the numbers a caller gets.

Every method reads its numbers at fixed places of the response, with `as_u64`, and refuses what
that does not take. All results but one keep them in a `u64`; the decimals of a token amount are
cast to a `u8` without a check.
-/

namespace SvmWasiCore.RpcNumbers

open Json Rpc RpcAccounts RpcOutcomes Lib.ByteCodec Lib.Collect

variable {α : Type}

/-- The integer a JSON number stands for. A double is none, whatever its value. -/
def intOf : Value → Option ℤ
  | .number (.posInt n) => some n.toNat
  | .number (.negInt n) => some n.toInt
  | _ => none

/-- A natural number below `bound` stands at the place. -/
def Fits (bound : ℕ) (place : Option Value) : Prop :=
  ∃ n : ℕ, n < bound ∧ place.bind intOf = some (n : ℤ)

/-- A result `r` has the numbers that stand at `places`, in its `fields`, and is refused when
one of them does not fit. -/
structure Faithful (bound : ℕ) (places : List (Option Value)) (fields : α → List ℕ)
    (r : Except RpcError α) : Prop where
  equal : ∀ a, r = .ok a → places.map (·.bind intOf) = (fields a).map fun n : ℕ => some (n : ℤ)
  refused : ∀ place ∈ places, ¬Fits bound place → ∃ msg, r = .error (.decode msg)

/-! ### Errors -/

/-- The only errors are those of a response of the wrong shape. -/
def OnlyDecode (x : Except RpcError α) : Prop := ∀ e, x = .error e → ∃ msg, e = .decode msg

lemma OnlyDecode.ok (a : α) : OnlyDecode (.ok a) := by
  intro e h
  cases h

lemma OnlyDecode.bind {β : Type} {x : Except RpcError α} {f : α → Except RpcError β}
    (hx : OnlyDecode x) (hf : ∀ a, OnlyDecode (f a)) : OnlyDecode (x >>= f) := by
  intro e h
  rcases bind_eq_error h with h | ⟨a, -, h⟩
  · exact hx e h
  · exact hf a e h

lemma OnlyDecode.mapM {β : Type} {f : α → Except RpcError β} (hf : ∀ a, OnlyDecode (f a))
    (l : List α) : OnlyDecode (l.mapM f) := by
  intro e h
  obtain ⟨a, -, h⟩ := exists_of_mapM_error h
  exact hf a e h

lemma onlyDecode_decodeOr (o : Option α) (msg : String) : OnlyDecode (decodeOr o msg) :=
  fun _ h => decodeOr_error h

lemma onlyDecode_require (v : Value) (field : String) : OnlyDecode (require v field) :=
  fun _ h => require_error h

lemma onlyDecode_requireU64 (v : Value) (field msg : String) :
    OnlyDecode (requireU64 v field msg) :=
  (onlyDecode_require v field).bind fun _ => onlyDecode_decodeOr _ _

/-- A refused text is an error of the response. -/
lemma onlyDecode_mapError {x : Except String α} {msg : String → String} :
    OnlyDecode (x.mapError fun e => .decode (msg e)) := by
  intro e h
  rcases x with e' | a
  · exact ⟨msg e', (Except.error.inj h).symm⟩
  · cases h

/-! ### Decoders -/

/-- A decoder that is faithful whatever it is given. -/
structure Decodes (bound : ℕ) (places : Value → List (Option Value)) (fields : α → List ℕ)
    (f : Value → Except RpcError α) : Prop where
  onlyDecode : ∀ v, OnlyDecode (f v)
  equal : ∀ v a, f v = .ok a →
    (places v).map (·.bind intOf) = (fields a).map fun n : ℕ => some (n : ℤ)
  bounded : ∀ a, ∀ n ∈ fields a, n < bound

variable {bound : ℕ} {places : Value → List (Option Value)} {fields : α → List ℕ}
  {f : Value → Except RpcError α}

lemma Decodes.faithful (hf : Decodes bound places fields f) (v : Value) :
    Faithful bound (places v) fields (f v) := by
  refine ⟨hf.equal v, fun place hplace hfits => ?_⟩
  rcases hfv : f v with e | a
  · obtain ⟨msg, rfl⟩ := hf.onlyDecode v e hfv
    exact ⟨msg, rfl⟩
  · have hmem := List.mem_map_of_mem (f := (·.bind intOf)) hplace
    rw [hf.equal v a hfv] at hmem
    obtain ⟨n, hn, heq⟩ := List.mem_map.mp hmem
    exact absurd ⟨n, hf.bounded a n hn, heq.symm⟩ hfits

/-- The places of the entries of an array, one entry after the other. -/
def entryPlaces (places : Value → List (Option Value)) (v : Value) : List (Option Value) :=
  (v.asArray.getD []).flatMap places

/-- A list of entries is decoded entry by entry. -/
lemma Decodes.entries (hf : Decodes bound places fields f) (msg : String) :
    Decodes bound (entryPlaces places) (fun l : List α => l.flatMap fields)
      (fun v => do (← decodeOr v.asArray msg).mapM f) where
  onlyDecode v := (onlyDecode_decodeOr _ _).bind fun _ => OnlyDecode.mapM hf.onlyDecode _
  equal v l h := by
    obtain ⟨entries, harray, h⟩ := bind_eq_ok.mp h
    rw [decodeOr_eq_ok_iff] at harray
    rw [entryPlaces, harray, Option.getD_some, List.map_flatMap, List.map_flatMap]
    exact flatMap_of_mapM_ok h hf.equal
  bounded l n hn := by
    obtain ⟨a, -, hn⟩ := List.mem_flatMap.mp hn
    exact hf.bounded a n hn

lemma intOf_of_asU64 {v : Value} {n : UInt64} (h : v.asU64 = some n) :
    intOf v = some (n.toNat : ℤ) := by
  obtain rfl := asU64_eq_some_iff.mp h
  rfl

lemma intOf_of_requireU64 {v : Value} {field msg : String} {n : UInt64}
    (h : requireU64 v field msg = .ok n) : (v.get field).bind intOf = some (n.toNat : ℤ) := by
  obtain ⟨w, hw, h⟩ := bind_eq_ok.mp h
  rw [require_eq_ok_iff] at hw
  rw [hw]
  exact intOf_of_asU64 (decodeOr_eq_ok_iff.mp h)

lemma singleton_lt_size (n : UInt64) : ∀ m ∈ [n.toNat], m < UInt64.size := by
  intro m hm
  rw [List.mem_singleton.mp hm]
  exact n.toNat_lt

lemma u64_decodes (msg : String) : Decodes UInt64.size (fun v => [some v])
    (fun n : UInt64 => [n.toNat]) (fun v => decodeOr v.asU64 msg) where
  onlyDecode v := onlyDecode_decodeOr _ _
  equal v n h := by
    have hn := intOf_of_asU64 (decodeOr_eq_ok_iff.mp h)
    simp [hn]
  bounded := singleton_lt_size

/-! ### Accounts -/

variable {texts : TextForms}

lemma onlyDecode_decodePubkey (v : Value) (field : String) :
    OnlyDecode (decodePubkey texts v field) :=
  (onlyDecode_decodeOr _ _).bind fun _ => onlyDecode_mapError

def accountPlaces (v : Value) : List (Option Value) := [v.get "lamports", v.get "rentEpoch"]

def accountFields (account : AccountInfo) : List ℕ :=
  [account.lamports.toNat, account.rentEpoch.toNat]

lemma accountFields_lt (account : AccountInfo) : ∀ n ∈ accountFields account, n < UInt64.size := by
  intro n hn
  simp only [accountFields, List.mem_cons, List.not_mem_nil, or_false] at hn
  rcases hn with rfl | rfl
  · exact account.lamports.toNat_lt
  · exact account.rentEpoch.toNat_lt

lemma accountInfo_decodes :
    Decodes UInt64.size accountPlaces accountFields (decodeAccountInfo texts) where
  onlyDecode v := by
    refine (onlyDecode_requireU64 _ _ _).bind fun lamports => ?_
    refine (onlyDecode_require _ _).bind fun owner => ?_
    refine (onlyDecode_decodePubkey _ _).bind fun key => ?_
    refine (onlyDecode_require _ _).bind fun executable => ?_
    refine (onlyDecode_requireU64 _ _ _).bind fun rentEpoch => ?_
    refine (onlyDecode_require _ _).bind fun tuple => ?_
    refine (onlyDecode_decodeOr _ _).bind fun base64Str => ?_
    refine (onlyDecode_decodeOr _ _).bind fun data => ?_
    exact OnlyDecode.ok _
  equal v account h := by
    obtain ⟨lamports, hlamports, h⟩ := bind_eq_ok.mp h
    obtain ⟨owner, -, h⟩ := bind_eq_ok.mp h
    obtain ⟨key, -, h⟩ := bind_eq_ok.mp h
    obtain ⟨executable, -, h⟩ := bind_eq_ok.mp h
    obtain ⟨rentEpoch, hrent, h⟩ := bind_eq_ok.mp h
    obtain ⟨tuple, -, h⟩ := bind_eq_ok.mp h
    obtain ⟨base64Str, -, h⟩ := bind_eq_ok.mp h
    obtain ⟨data, -, h⟩ := bind_eq_ok.mp h
    obtain rfl := Except.ok.inj h
    simp [accountPlaces, accountFields, intOf_of_requireU64 hlamports, intOf_of_requireU64 hrent]
  bounded := accountFields_lt

/-- An account that may be missing has no places then. -/
def optionalPlaces (places : Value → List (Option Value)) (v : Value) : List (Option Value) :=
  if v.isNull then [] else places v

lemma account_decodes : Decodes UInt64.size (optionalPlaces accountPlaces)
    (fun account => account.elim [] accountFields) (decodeAccount texts) where
  onlyDecode v := by
    unfold decodeAccount
    split_ifs
    · exact OnlyDecode.ok _
    · exact (accountInfo_decodes.onlyDecode v).bind fun _ => OnlyDecode.ok _
  equal v account h := by
    unfold decodeAccount at h
    unfold optionalPlaces
    split_ifs at h ⊢ with hnull
    · obtain rfl := Except.ok.inj h
      rfl
    · obtain ⟨info, hinfo, h⟩ := bind_eq_ok.mp h
      obtain rfl := Except.ok.inj h
      exact accountInfo_decodes.equal v info hinfo
  bounded account n hn := by
    cases account with
    | none => cases hn
    | some info => exact accountFields_lt info n hn

/-- The account is a member of the entry. -/
def tokenAccountPlaces (e : Value) : List (Option Value) :=
  [(e.get "account").bind (·.get "lamports"), (e.get "account").bind (·.get "rentEpoch")]

lemma tokenAccountEntry_decodes :
    Decodes UInt64.size tokenAccountPlaces
      (fun entry => accountFields entry.account) (decodeTokenAccountEntry texts) where
  onlyDecode v := by
    refine (onlyDecode_require _ _).bind fun pubkey => ?_
    refine (onlyDecode_decodePubkey _ _).bind fun key => ?_
    refine (onlyDecode_require _ _).bind fun account => ?_
    exact (accountInfo_decodes.onlyDecode _).bind fun _ => OnlyDecode.ok _
  equal v entry h := by
    obtain ⟨pubkey, -, h⟩ := bind_eq_ok.mp h
    obtain ⟨key, -, h⟩ := bind_eq_ok.mp h
    obtain ⟨account, haccount, h⟩ := bind_eq_ok.mp h
    obtain ⟨info, hinfo, h⟩ := bind_eq_ok.mp h
    obtain rfl := Except.ok.inj h
    rw [require_eq_ok_iff] at haccount
    rw [tokenAccountPlaces, haccount]
    exact accountInfo_decodes.equal account info hinfo
  bounded entry := accountFields_lt entry.account

/-! ### The other results -/

lemma blockhash_decodes : Decodes UInt64.size (fun v => [v.get "lastValidBlockHeight"])
    (fun info => [info.lastValidBlockHeight.toNat]) (decodeBlockhash texts) where
  onlyDecode v := by
    refine (onlyDecode_require _ _).bind fun blockhash => ?_
    refine (onlyDecode_decodeOr _ _).bind fun blockhashStr => ?_
    refine onlyDecode_mapError.bind fun hash => ?_
    exact (onlyDecode_requireU64 _ _ _).bind fun _ => OnlyDecode.ok _
  equal v info h := by
    obtain ⟨blockhash, -, h⟩ := bind_eq_ok.mp h
    obtain ⟨blockhashStr, -, h⟩ := bind_eq_ok.mp h
    obtain ⟨hash, -, h⟩ := bind_eq_ok.mp h
    obtain ⟨height, hheight, h⟩ := bind_eq_ok.mp h
    obtain rfl := Except.ok.inj h
    simp [intOf_of_requireU64 hheight]
  bounded info := singleton_lt_size info.lastValidBlockHeight

def slotPlaces (e : Value) : List (Option Value) := [e.get "slot"]

lemma intOf_of_decodeSlot {v : Value} {n : UInt64} (h : decodeSlot v = .ok n) :
    (v.get "slot").bind intOf = some (n.toNat : ℤ) := by
  have hslot : requireU64 v "slot" "`slot` is not a u64" = .ok n := h
  exact intOf_of_requireU64 hslot

lemma signatureStatus_decodes : Decodes UInt64.size (optionalPlaces slotPlaces)
    (fun status => status.elim [] fun s => [s.slot.toNat]) decodeSignatureStatus where
  onlyDecode := signatureStatus_decoder.decode
  equal v status h := by
    unfold decodeSignatureStatus at h
    unfold optionalPlaces
    split_ifs at h ⊢ with hnull
    · obtain rfl := Except.ok.inj h
      rfl
    · obtain ⟨slot, hslot, h⟩ := bind_eq_ok.mp h
      obtain rfl := Except.ok.inj h
      simp [slotPlaces, intOf_of_decodeSlot hslot]
  bounded status n hn := by
    cases status with
    | none => cases hn
    | some s => exact singleton_lt_size s.slot n hn

lemma signatureInfo_decodes : Decodes UInt64.size slotPlaces
    (fun info => [info.slot.toNat]) decodeSignatureInfo where
  onlyDecode := signatureInfo_decoder.decode
  equal v info h := by
    obtain ⟨member, -, h⟩ := bind_eq_ok.mp h
    obtain ⟨signature, -, h⟩ := bind_eq_ok.mp h
    obtain ⟨slot, hslot, h⟩ := bind_eq_ok.mp h
    obtain rfl := Except.ok.inj h
    simp [slotPlaces, intOf_of_decodeSlot hslot]
  bounded info := singleton_lt_size info.slot

/-! ### Decimals -/

/-- A token amount whose decimals the cast changes. -/
structure NarrowsDecimals (v : Value) : Prop where
  amount : ∃ s, v.get "amount" = some (.string s)
  decimals : ∃ n, v.get "decimals" = some (.number (.posInt n)) ∧ UInt8.size ≤ n.toNat

lemma onlyDecode_decodeTokenAmount (v : Value) : OnlyDecode (decodeTokenAmount v) := by
  refine (onlyDecode_require _ _).bind fun amount => ?_
  refine (onlyDecode_decodeOr _ _).bind fun text => ?_
  exact (onlyDecode_requireU64 _ _ _).bind fun _ => OnlyDecode.ok _

lemma decodeTokenAmount_ok {v : Value} {a : TokenAmount} (h : decodeTokenAmount v = .ok a) :
    (∃ s, v.get "amount" = some (.string s)) ∧
      ∃ n, v.get "decimals" = some (.number (.posInt n)) ∧ a.decimals = n.toUInt8 := by
  obtain ⟨amount, hamount, h⟩ := bind_eq_ok.mp h
  obtain ⟨s, hs, h⟩ := bind_eq_ok.mp h
  obtain ⟨n, hn, h⟩ := bind_eq_ok.mp h
  obtain rfl := Except.ok.inj h
  obtain ⟨decimals, hdecimals, hn⟩ := bind_eq_ok.mp hn
  rw [require_eq_ok_iff] at hamount hdecimals
  rw [decodeOr_eq_ok_iff] at hs hn
  rw [asStr_eq_some_iff] at hs
  rw [asU64_eq_some_iff] at hn
  exact ⟨⟨s, hs ▸ hamount⟩, n, hn ▸ hdecimals, rfl⟩

/-- The amount's text and any u64 of decimals are enough for a result. -/
lemma exists_decodeTokenAmount {v : Value} {s : String} {n : UInt64}
    (hamount : v.get "amount" = some (.string s))
    (hdecimals : v.get "decimals" = some (.number (.posInt n))) :
    ∃ a, decodeTokenAmount v = .ok a :=
  ⟨_, bind_eq_ok.mpr ⟨_, require_eq_ok_iff.mpr hamount, bind_eq_ok.mpr ⟨s, rfl,
    bind_eq_ok.mpr ⟨n, bind_eq_ok.mpr ⟨_, require_eq_ok_iff.mpr hdecimals, rfl⟩, rfl⟩⟩⟩⟩

lemma fits_posInt_iff {n : UInt64} :
    Fits bound (some (.number (.posInt n))) ↔ n.toNat < bound := by
  refine ⟨fun h => ?_, fun h => ⟨n.toNat, h, rfl⟩⟩
  obtain ⟨m, hm, heq⟩ := h
  have hnm : (n.toNat : ℤ) = m := Option.some.inj heq
  omega

def decimalsPlaces (v : Value) : List (Option Value) := [v.get "decimals"]

def decimalsFields (a : TokenAmount) : List ℕ := [a.decimals.toNat]

/-- A token amount is told as it is unless the cast changes its decimals. -/
lemma tokenAmount_faithful_iff (v : Value) :
    Faithful UInt8.size (decimalsPlaces v) decimalsFields (decodeTokenAmount v) ↔
      ¬NarrowsDecimals v := by
  refine ⟨fun h hnarrows => ?_, fun h => ⟨fun a ha => ?_, fun place hplace hfits => ?_⟩⟩
  · obtain ⟨⟨s, hs⟩, n, hn, hlarge⟩ := hnarrows
    obtain ⟨a, ha⟩ := exists_decodeTokenAmount hs hn
    have hplace : v.get "decimals" ∈ decimalsPlaces v := List.mem_singleton_self _
    have hfits : ¬Fits UInt8.size (v.get "decimals") := by
      rw [hn, fits_posInt_iff]
      exact Nat.not_lt.mpr hlarge
    obtain ⟨msg, herr⟩ := h.refused _ hplace hfits
    rw [ha] at herr
    cases herr
  · obtain ⟨hamount, n, hn, hdecimals⟩ := decodeTokenAmount_ok ha
    have hsmall : n.toNat < UInt8.size := by
      by_contra hlarge
      exact h ⟨hamount, n, hn, Nat.le_of_not_lt hlarge⟩
    have hmod : n.toUInt8.toNat = n.toNat := by
      rw [UInt64.toNat_toUInt8]
      exact Nat.mod_eq_of_lt hsmall
    simp only [decimalsPlaces, decimalsFields, hdecimals, hmod, hn, List.map_cons, List.map_nil]
    rfl
  · rcases hv : decodeTokenAmount v with e | a
    · obtain ⟨msg, rfl⟩ := onlyDecode_decodeTokenAmount v e hv
      exact ⟨msg, rfl⟩
    · obtain ⟨hamount, n, hn, -⟩ := decodeTokenAmount_ok hv
      obtain rfl := List.mem_singleton.mp hplace
      rw [hn, fits_posInt_iff] at hfits
      exact absurd ⟨hamount, n, hn, Nat.le_of_not_lt hfits⟩ h

/-! ### The methods -/

/-- The places of a payload, where the response has one. -/
def placesIn (payload : Option Value) (places : Value → List (Option Value)) :
    List (Option Value) := (payload.map places).getD []

/-- A method is as faithful as its decoder is on the payload. -/
lemma faithful_payload_iff {payload : Option Value} {result : Except RpcError Value}
    (hpayload : ∀ v, result = .ok v ↔ payload = some v) :
    Faithful bound (placesIn payload places) fields (result >>= f) ↔
      ∀ v, payload = some v → Faithful bound (places v) fields (f v) := by
  rcases payload with _ | w
  · refine iff_of_true ⟨fun a h => ?_, fun place hplace => ?_⟩ (by simp)
    · obtain ⟨v, hv, -⟩ := bind_eq_ok.mp h
      cases (hpayload v).mp hv
    · cases hplace
  · have hresult : result = .ok w := (hpayload w).mpr rfl
    rw [hresult]
    refine ⟨fun h v hv => ?_, fun h => h w rfl⟩
    obtain rfl := Option.some.inj hv
    exact h

lemma Decodes.faithful_payload (hf : Decodes bound places fields f) {payload : Option Value}
    {result : Except RpcError Value} (hpayload : ∀ v, result = .ok v ↔ payload = some v) :
    Faithful bound (placesIn payload places) fields (result >>= f) :=
  (faithful_payload_iff hpayload).mpr fun v _ => hf.faithful v

/-- The transport answers the request with the response. -/
def Answers (client : RpcClient) (method : String) (params response : Value) : Prop :=
  client.transport (request client.nextId method params) = .ok response

/-- Every method that returns numbers is faithful on the response. -/
structure NumbersFaithful (texts : TextForms) (response : Value) : Prop where
  latestBlockhash : ∀ client, Answers client "getLatestBlockhash" latestBlockhashParams response →
    Faithful UInt64.size (placesIn (valueIn response) fun v => [v.get "lastValidBlockHeight"])
      (fun info => [info.lastValidBlockHeight.toNat]) (client.getLatestBlockhash texts).1
  balance : ∀ client pubkey, Answers client "getBalance" (balanceParams pubkey) response →
    Faithful UInt64.size (placesIn (valueIn response) fun v => [some v])
      (fun lamports => [lamports.toNat]) (client.getBalance pubkey).1
  accountInfo : ∀ client pubkey,
    Answers client "getAccountInfo" (accountInfoParams pubkey) response →
    Faithful UInt64.size (placesIn (valueIn response) (optionalPlaces accountPlaces))
      (fun account => account.elim [] accountFields) (client.getAccountInfo texts pubkey).1
  multipleAccounts : ∀ client pubkeys,
    Answers client "getMultipleAccounts" (multipleAccountsParams pubkeys) response →
    Faithful UInt64.size
      (placesIn (valueIn response) (entryPlaces (optionalPlaces accountPlaces)))
      (fun accounts => accounts.flatMap fun account => account.elim [] accountFields)
      (client.getMultipleAccounts texts pubkeys).1
  tokenAccountBalance : ∀ client tokenAccount,
    Answers client "getTokenAccountBalance" (balanceParams tokenAccount) response →
    Faithful UInt8.size (placesIn (valueIn response) decimalsPlaces) decimalsFields
      (client.getTokenAccountBalance tokenAccount).1
  tokenAccountsByOwner : ∀ client owner mint,
    Answers client "getTokenAccountsByOwner" (tokenAccountsByOwnerParams owner mint) response →
    Faithful UInt64.size (placesIn (valueIn response) (entryPlaces tokenAccountPlaces))
      (fun entries => entries.flatMap fun entry => accountFields entry.account)
      (client.getTokenAccountsByOwner texts owner mint).1
  signatureStatuses : ∀ client signatures,
    Answers client "getSignatureStatuses" (signatureStatusesParams signatures) response →
    Faithful UInt64.size
      (placesIn (valueIn response) (entryPlaces (optionalPlaces slotPlaces)))
      (fun statuses => statuses.flatMap fun status => status.elim [] fun s => [s.slot.toNat])
      (client.getSignatureStatuses signatures).1
  signaturesForAddress : ∀ client address untilSignature,
    Answers client "getSignaturesForAddress"
      (signaturesForAddressParams address untilSignature) response →
    Faithful UInt64.size (placesIn (resultIn response) (entryPlaces slotPlaces))
      (fun infos => infos.flatMap fun info => [info.slot.toNat])
      (client.getSignaturesForAddress address untilSignature).1
  minimumBalance : ∀ client dataLen,
    Answers client "getMinimumBalanceForRentExemption" (rentExemptionParams dataLen) response →
    Faithful UInt64.size (placesIn (resultIn response) fun v => [some v])
      (fun lamports => [lamports.toNat]) (client.getMinimumBalanceForRentExemption dataLen).1

/-- **When the typed numbers are those of the response**: unless it is a token amount whose
decimals do not fit a `u8`, in which case they are cut to one. -/
theorem numbersFaithful_iff (texts : TextForms) (response : Value) :
    NumbersFaithful texts response ↔ ∀ v, valueIn response = some v → ¬NarrowsDecimals v := by
  refine ⟨fun h => ?_, fun h => ?_⟩
  · have hbalance := h.tokenAccountBalance (replying response) ⟨.replicate 32 0⟩ rfl
    have hpayload : ∀ v, ((replying response).callValue "getTokenAccountBalance"
        (balanceParams ⟨.replicate 32 0⟩)).1 = .ok v ↔ valueIn response = some v :=
      fun v => callValue_eq_ok_iff rfl
    intro v hv
    exact (tokenAmount_faithful_iff v).mp ((faithful_payload_iff hpayload).mp hbalance v hv)
  · refine ⟨?_, ?_, ?_, ?_, ?_, ?_, ?_, ?_, ?_⟩
    · intro client hanswer
      exact blockhash_decodes.faithful_payload fun v => callValue_eq_ok_iff hanswer
    · intro client pubkey hanswer
      exact (u64_decodes _).faithful_payload fun v => callValue_eq_ok_iff hanswer
    · intro client pubkey hanswer
      exact account_decodes.faithful_payload fun v => callValue_eq_ok_iff hanswer
    · intro client pubkeys hanswer
      exact (account_decodes.entries _).faithful_payload fun v => callValue_eq_ok_iff hanswer
    · intro client tokenAccount hanswer
      refine (faithful_payload_iff fun v => callValue_eq_ok_iff hanswer).mpr fun v hv => ?_
      exact (tokenAmount_faithful_iff v).mpr (h v hv)
    · intro client owner mint hanswer
      exact (tokenAccountEntry_decodes.entries _).faithful_payload fun v =>
        callValue_eq_ok_iff hanswer
    · intro client signatures hanswer
      exact (signatureStatus_decodes.entries _).faithful_payload fun v =>
        callValue_eq_ok_iff hanswer
    · intro client address untilSignature hanswer
      exact (signatureInfo_decodes.entries _).faithful_payload fun v => call_eq_ok_iff hanswer
    · intro client dataLen hanswer
      exact (u64_decodes _).faithful_payload fun v => call_eq_ok_iff hanswer

/-- A token amount of 256 decimals. -/
def wideDecimals : Value := responseOf (.object [("amount", text "1"),
  ("decimals", .number (.posInt 256)), ("uiAmount", .null), ("uiAmountString", text "0")])

theorem wideDecimals_read_as_zero :
    (∃ a, ((replying wideDecimals).getTokenAccountBalance ⟨.replicate 32 1⟩).1 = .ok a ∧
      a.decimals = 0) ∧
    ¬Faithful UInt8.size (placesIn (valueIn wideDecimals) decimalsPlaces) decimalsFields
      ((replying wideDecimals).getTokenAccountBalance ⟨.replicate 32 1⟩).1 := by
  have hrun : ((replying wideDecimals).getTokenAccountBalance ⟨.replicate 32 1⟩).1 =
      .ok ⟨"1", 0, none⟩ := rfl
  refine ⟨⟨_, hrun, rfl⟩, fun h => ?_⟩
  have hplaces := h.equal _ hrun
  have hne : [some (256 : ℤ)] = [some (0 : ℤ)] := hplaces
  simp at hne

end SvmWasiCore.RpcNumbers

import SvmWasiCore.RpcAccounts
import SvmWasiCore.RpcOutcomes

/-!
The answers to a batch of keys or signatures.

The two batch methods decode the `value` of the response entry by entry. They follow the response
position by position; how many entries were asked for plays no part in it.
-/

namespace SvmWasiCore.RpcBatches

open Json Rpc RpcAccounts RpcOutcomes Lib.ByteCodec Lib.Collect

variable {β : Type}

/-- The `value` in what the transport answers to a request. -/
def payloadOf (client : RpcClient) (method : String) (params : Value) : Option Value :=
  (client.transport (request client.nextId method params)).toOption.bind valueIn

lemma callValue_eq_ok_iff_payloadOf {client : RpcClient} {method : String} {params v : Value} :
    (client.callValue method params).1 = .ok v ↔ payloadOf client method params = some v := by
  unfold payloadOf
  rcases h : client.transport (request client.nextId method params) with e | response
  · refine iff_of_false ?_ (by simp [Except.toOption])
    intro hv
    obtain ⟨result, hresult, -⟩ := bind_eq_ok.mp hv
    obtain ⟨response, hresponse, -⟩ := bind_eq_ok.mp hresult
    rw [h] at hresponse
    cases hresponse
  · exact callValue_eq_ok_iff h

/-- The result `r` of a batch method follows the entries of the payload: there is one exactly when
all of them can be decoded, and then each stands at its own place. -/
structure Follows (payload : Option Value) (f : Value → Except RpcError (Option β))
    (r : Except RpcError (List (Option β))) : Prop where
  ok_iff : (∃ l, r = .ok l) ↔
    ∃ entries, payload = some (.array entries) ∧ ∀ e ∈ entries, ∃ o, f e = .ok o
  length : ∀ l entries, r = .ok l → payload = some (.array entries) → l.length = entries.length
  entry : ∀ l entries, r = .ok l → payload = some (.array entries) →
    ∀ (i : ℕ) e, entries[i]? = some e → ∃ o, l[i]? = some o ∧ f e = .ok o ∧ (o = none ↔ e = .null)

/-- An entry is decoded to `none` when it is `null`, and only then. -/
def NoneIffNull (f : Value → Except RpcError (Option β)) : Prop :=
  ∀ e o, f e = .ok o → (o = none ↔ e = .null)

lemma decodeAccount_none_iff (texts : TextForms) : NoneIffNull (decodeAccount texts) := by
  intro e o h
  unfold decodeAccount at h
  split_ifs at h with hnull
  · obtain rfl := Except.ok.inj h
    exact iff_of_true rfl (Value.isNull_iff.mp hnull)
  · obtain ⟨info, -, h⟩ := bind_eq_ok.mp h
    obtain rfl := Except.ok.inj h
    exact iff_of_false (by simp) (mt Value.isNull_iff.mpr hnull)

lemma decodeSignatureStatus_none_iff : NoneIffNull decodeSignatureStatus := by
  intro e o h
  unfold decodeSignatureStatus at h
  split_ifs at h with hnull
  · obtain rfl := Except.ok.inj h
    exact iff_of_true rfl (Value.isNull_iff.mp hnull)
  · obtain ⟨slot, -, h⟩ := bind_eq_ok.mp h
    obtain rfl := Except.ok.inj h
    exact iff_of_false (by simp) (mt Value.isNull_iff.mpr hnull)

/-- What both methods do with their payload. -/
lemma follows_payload {f : Value → Except RpcError (Option β)} (hf : NoneIffNull f)
    {payload : Option Value} {result : Except RpcError Value}
    (hpayload : ∀ v, result = .ok v ↔ payload = some v) (msg : String) :
    Follows payload f (do (← decodeOr (← result).asArray msg).mapM f) := by
  have hrun (l : List (Option β)) : (do (← decodeOr (← result).asArray msg).mapM f) = .ok l ↔
      ∃ entries, payload = some (.array entries) ∧ entries.mapM f = .ok l := by
    simp only [bind_eq_ok, decodeOr_eq_ok_iff, Value.asArray_eq_some_iff, hpayload]
    refine ⟨fun h => ?_, fun h => ?_⟩
    · obtain ⟨v, hv, entries, rfl, hl⟩ := h
      exact ⟨entries, hv, hl⟩
    · obtain ⟨entries, hentries, hl⟩ := h
      exact ⟨_, hentries, entries, rfl, hl⟩
  have hone {l : List (Option β)} {entries : List Value}
      (hl : (do (← decodeOr (← result).asArray msg).mapM f) = .ok l)
      (hentries : payload = some (.array entries)) :
      List.Forall₂ (fun e o => f e = .ok o) entries l := by
    obtain ⟨entries', hentries', hmap⟩ := (hrun l).mp hl
    obtain rfl := Value.array.inj (Option.some.inj (hentries.symm.trans hentries'))
    exact mapM_eq_ok_iff.mp hmap
  refine ⟨⟨fun h => ?_, fun h => ?_⟩, ?_, ?_⟩
  · obtain ⟨l, hl⟩ := h
    obtain ⟨entries, hentries, hmap⟩ := (hrun l).mp hl
    exact ⟨entries, hentries, forall_of_mapM_ok hmap⟩
  · obtain ⟨entries, hentries, hall⟩ := h
    obtain ⟨l, hmap⟩ := exists_mapM_ok hall
    exact ⟨l, (hrun l).mpr ⟨entries, hentries, hmap⟩⟩
  · intro l entries hl hentries
    exact (hone hl hentries).length_eq.symm
  · intro l entries hl hentries i e he
    obtain ⟨hlen, hget⟩ := List.forall₂_iff_get.mp (hone hl hentries)
    obtain ⟨hi, rfl⟩ := List.getElem?_eq_some_iff.mp he
    have hi' : i < l.length := hlen ▸ hi
    have ho := hget i hi hi'
    exact ⟨l[i], List.getElem?_eq_getElem hi', ho, hf _ _ ho⟩

/-- **Batch answers follow the response**, entry by entry: a result is the list of the decoded
entries, as long as the response has them. -/
theorem batches_follow (texts : TextForms) (client : RpcClient) :
    (∀ pubkeys, Follows
      (payloadOf client "getMultipleAccounts" (multipleAccountsParams pubkeys))
      (decodeAccount texts) (client.getMultipleAccounts texts pubkeys).1) ∧
    ∀ signatures, Follows
      (payloadOf client "getSignatureStatuses" (signatureStatusesParams signatures))
      decodeSignatureStatus (client.getSignatureStatuses signatures).1 := by
  refine ⟨fun pubkeys => ?_, fun signatures => ?_⟩
  · exact follows_payload (decodeAccount_none_iff texts)
      (fun _ => callValue_eq_ok_iff_payloadOf) _
  · exact follows_payload decodeSignatureStatus_none_iff
      (fun _ => callValue_eq_ok_iff_payloadOf) _

/-- A response with one entry, for an account that does not exist. -/
def oneEntry : Value := responseOf (.array [.null])

/-- Two keys, or two signatures, asked for, and one entry taken for an answer. -/
theorem oneEntry_accepted :
    ((replying oneEntry).getMultipleAccounts
      { pubkeyFromStr := fun _ => .error "", hashFromStr := fun _ => .error "",
        base64Error := fun _ => "" } [⟨.replicate 32 1⟩, ⟨.replicate 32 2⟩]).1 = .ok [none] ∧
    ((replying oneEntry).getSignatureStatuses ["5VERv8NM", "2jg3Q6vW"]).1 = .ok [none] :=
  ⟨rfl, rfl⟩

end SvmWasiCore.RpcBatches

import SvmWasiCore.Rpc
import SvmWasiCore.Lib.Collect

/-!
What the outcome decoders report.

All three read the `err` member of a JSON entry, and take a missing one for "no error". The
responses on which they tell the truth are described here on the JSON alone.
-/

namespace SvmWasiCore.RpcOutcomes

open Json Rpc Lib.ByteCodec Lib.Collect

/-! ### The envelope -/

/-- The `result` of a response that reports no error. -/
def resultIn (response : Value) : Option Value :=
  if (response.get "error").isSome then none else response.get "result"

/-- The `value` inside it. -/
def valueIn (response : Value) : Option Value := (resultIn response).bind (·.get "value")

variable {client : RpcClient} {method : String} {params response v : Value}

lemma decodeOr_eq_ok_iff {α : Type} {o : Option α} {msg : String} {a : α} :
    decodeOr o msg = .ok a ↔ o = some a := by
  cases o <;> simp [decodeOr]

lemma resultOf_eq_ok_iff : resultOf response = .ok v ↔ resultIn response = some v := by
  unfold resultOf resultIn
  rcases response.get "error" with _ | e
  · simp [decodeOr_eq_ok_iff]
  · simp

lemma call_eq_ok_iff (h : client.transport (request client.nextId method params) = .ok response) :
    (client.call method params).1 = .ok v ↔ resultIn response = some v := by
  change (client.transport _ >>= resultOf) = _ ↔ _
  rw [h]
  exact resultOf_eq_ok_iff

lemma callValue_eq_ok_iff
    (h : client.transport (request client.nextId method params) = .ok response) :
    (client.callValue method params).1 = .ok v ↔ valueIn response = some v := by
  change ((client.call method params).1 >>= fun result => decodeOr (result.get "value") _) = _ ↔ _
  rw [bind_eq_ok, valueIn, Option.bind_eq_some_iff]
  simp only [call_eq_ok_iff h, decodeOr_eq_ok_iff]

/-! ### One entry -/

lemma errOf_eq_none_iff : errOf v = none ↔ v.get "err" = none ∨ v.get "err" = some .null := by
  unfold errOf
  rcases hv : v.get "err" with _ | e
  · simp
  · simp [Option.filter_eq_none_iff]

/-- The entry has a `slot` that is an unsigned integer. -/
def HasSlot (entry : Value) : Prop := ∃ n, entry.get "slot" = some (.number (.posInt n))

/-- The entry has a `signature` that is a string. -/
def HasSignature (entry : Value) : Prop := ∃ s, entry.get "signature" = some (.string s)

lemma require_eq_ok_iff {field : String} {w : Value} :
    require v field = .ok w ↔ v.get field = some w := by
  unfold require
  rcases v.get field with _ | m <;> simp

lemma asU64_eq_some_iff {n : UInt64} : v.asU64 = some n ↔ v = .number (.posInt n) := by
  cases v with
  | number n => cases n <;> simp [Value.asU64]
  | _ => simp [Value.asU64]

lemma asStr_eq_some_iff {s : String} : v.asStr = some s ↔ v = .string s := by
  cases v <;> simp [Value.asStr]

lemma decodeSlot_ok_iff : (∃ n, decodeSlot v = .ok n) ↔ HasSlot v := by
  unfold decodeSlot HasSlot
  simp only [bind_eq_ok, require_eq_ok_iff, decodeOr_eq_ok_iff, asU64_eq_some_iff]
  refine ⟨fun h => ?_, fun h => ?_⟩
  · obtain ⟨n, w, hw, rfl⟩ := h
    exact ⟨n, hw⟩
  · obtain ⟨n, hn⟩ := h
    exact ⟨n, _, hn, rfl⟩

/-- A decoder of entries that takes the error from `err`, and ignores entries of one kind. -/
structure EntryDecoder {β : Type} (f : Value → Except RpcError β) (ignored fit : Value → Prop)
    (reportsSuccess : β → Prop) : Prop where
  fit_iff : ∀ e, (∃ b, f e = .ok b) ↔ fit e
  success_iff : ∀ e b, f e = .ok b → (reportsSuccess b ↔ ¬ignored e ∧ errOf e = none)
  decode : ∀ e err, f e = .error err → ∃ msg, err = .decode msg

/-- A status that says the transaction succeeded. -/
def StatusSuccess (status : Option SignatureStatus) : Prop := ∃ s, status = some s ∧ s.err = none

def InfoSuccess (info : SignatureInfo) : Prop := info.err = none

lemma decodeOr_error {α : Type} {o : Option α} {msg : String} {e : RpcError}
    (h : decodeOr o msg = .error e) : ∃ msg, e = .decode msg := by
  cases o with
  | none =>
    cases h
    exact ⟨_, rfl⟩
  | some a => cases h

lemma require_error {field : String} {e : RpcError} (h : require v field = .error e) :
    ∃ msg, e = .decode msg := by
  unfold require at h
  rcases hf : v.get field with _ | w
  · rw [hf] at h
    cases h
    exact ⟨_, rfl⟩
  · rw [hf] at h
    cases h

lemma decodeSlot_error {e : RpcError} (h : decodeSlot v = .error e) : ∃ msg, e = .decode msg := by
  rcases bind_eq_error h with h | ⟨w, -, h⟩
  · exact require_error h
  · exact decodeOr_error h

lemma signatureStatus_decoder :
    EntryDecoder decodeSignatureStatus (· = .null) (fun e => e = .null ∨ HasSlot e)
      StatusSuccess where
  fit_iff e := by
    unfold decodeSignatureStatus
    by_cases hnull : e = .null
    · simp [hnull, Value.isNull]
    · rw [if_neg (by rwa [Value.isNull_iff]), or_iff_right hnull, ← decodeSlot_ok_iff]
      simp only [bind_eq_ok]
      refine ⟨fun h => ?_, fun h => ?_⟩
      · obtain ⟨b, n, hn, -⟩ := h
        exact ⟨n, hn⟩
      · obtain ⟨n, hn⟩ := h
        exact ⟨_, n, hn, rfl⟩
  success_iff e b h := by
    unfold decodeSignatureStatus at h
    by_cases hnull : e = .null
    · rw [if_pos (by rwa [Value.isNull_iff])] at h
      cases h
      simp [StatusSuccess, hnull]
    · rw [if_neg (by rwa [Value.isNull_iff])] at h
      obtain ⟨n, -, h⟩ := bind_eq_ok.mp h
      cases h
      simp [StatusSuccess, hnull]
  decode e err h := by
    unfold decodeSignatureStatus at h
    split_ifs at h
    rcases bind_eq_error h with h | ⟨n, -, h⟩
    · exact decodeSlot_error h
    · cases h

lemma signatureInfo_decoder :
    EntryDecoder decodeSignatureInfo (fun _ => False) (fun e => HasSignature e ∧ HasSlot e)
      InfoSuccess where
  fit_iff e := by
    unfold decodeSignatureInfo
    rw [← decodeSlot_ok_iff]
    simp only [bind_eq_ok, require_eq_ok_iff, decodeOr_eq_ok_iff, asStr_eq_some_iff, HasSignature]
    refine ⟨fun h => ?_, fun h => ?_⟩
    · obtain ⟨b, w, hw, s, rfl, n, hn, -⟩ := h
      exact ⟨⟨s, hw⟩, n, hn⟩
    · obtain ⟨⟨s, hs⟩, n, hn⟩ := h
      exact ⟨_, _, hs, s, rfl, n, hn, rfl⟩
  success_iff e b h := by
    unfold decodeSignatureInfo at h
    obtain ⟨w, -, h⟩ := bind_eq_ok.mp h
    obtain ⟨s, -, h⟩ := bind_eq_ok.mp h
    obtain ⟨n, -, h⟩ := bind_eq_ok.mp h
    cases h
    simp [InfoSuccess]
  decode e err h := by
    unfold decodeSignatureInfo at h
    rcases bind_eq_error h with h | ⟨w, -, h⟩
    · exact require_error h
    rcases bind_eq_error h with h | ⟨s, -, h⟩
    · exact decodeOr_error h
    rcases bind_eq_error h with h | ⟨n, -, h⟩
    · exact decodeSlot_error h
    · cases h

/-! ### What a caller relies on -/

/-- A simulation's result `r` on a response: it succeeds without an error only where `err` is
`null`, and a `value` without an `err` member is refused. -/
structure SimulationFailsClosed (response : Value) (r : Except RpcError SimulateTransactionResult) :
    Prop where
  success : ∀ s, r = .ok s → s.err = none →
    ∃ v, valueIn response = some v ∧ v.get "err" = some .null
  missing : ∀ v, valueIn response = some v → v.get "err" = none → ∃ msg, r = .error (.decode msg)

/-- The same of a list of entries, in `payload`. -/
structure EntriesFailClosed {β : Type} (payload : Option Value) (ignored : Value → Prop)
    (reportsSuccess : β → Prop) (r : Except RpcError (List β)) : Prop where
  success : ∀ l, r = .ok l → ∀ (i : ℕ) b, l[i]? = some b → reportsSuccess b →
    ∃ entries e, payload = some (.array entries) ∧ entries[i]? = some e ∧ e.get "err" = some .null
  missing : ∀ entries e, payload = some (.array entries) → e ∈ entries → ¬ignored e →
    e.get "err" = none → ∃ msg, r = .error (.decode msg)
  notArray : ∀ v, payload = some v → (∀ entries, v ≠ .array entries) →
    ∃ msg, r = .error (.decode msg)

/-- If all entries of the payload are fit to be decoded, none of them lacks an `err` member. -/
def ErrPresent (payload : Option Value) (ignored fit : Value → Prop) : Prop :=
  ∀ entries, payload = some (.array entries) → (∀ e ∈ entries, fit e) →
    ∀ e ∈ entries, ¬ignored e → e.get "err" ≠ none

lemma simulation_failsClosed_iff {tx : String} (h : client.transport
      (request client.nextId "simulateTransaction" (simulateParams tx)) = .ok response) :
    SimulationFailsClosed response (client.simulateTransaction tx).1 ↔
      ∀ v, valueIn response = some v → v.get "err" ≠ none := by
  have hok {s : SimulateTransactionResult} : (client.simulateTransaction tx).1 = .ok s ↔
      ∃ v, valueIn response = some v ∧ decodeSimulation v = s := by
    change ((client.callValue _ _).1 >>= fun v => pure (decodeSimulation v)) = _ ↔ _
    simp only [bind_eq_ok, callValue_eq_ok_iff h, pure, Except.pure, Except.ok.injEq]
  refine ⟨fun hclosed => ?_, fun hpresent => ?_⟩
  · intro v hv hmissing
    obtain ⟨msg, herr⟩ := hclosed.missing v hv hmissing
    rw [hok.mpr ⟨v, hv, rfl⟩] at herr
    cases herr
  · refine ⟨fun s hs herr => ?_, fun v hv hmissing => absurd hmissing (hpresent v hv)⟩
    obtain ⟨v, hv, rfl⟩ := hok.mp hs
    rcases errOf_eq_none_iff.mp herr with hmissing | hnull
    · exact absurd hmissing (hpresent v hv)
    · exact ⟨v, hv, hnull⟩

/-- What the two list methods do with their payload. -/
lemma entries_failClosed_iff {β : Type} {f : Value → Except RpcError β}
    {ignored fit : Value → Prop} {reportsSuccess : β → Prop}
    (hf : EntryDecoder f ignored fit reportsSuccess) {payload : Option Value}
    {result : Except RpcError Value} (hpayload : ∀ v, result = .ok v ↔ payload = some v)
    {msg : String} :
    EntriesFailClosed payload ignored reportsSuccess
        (do (← decodeOr (← result).asArray msg).mapM f) ↔ ErrPresent payload ignored fit := by
  have hrun {entries : List Value} (h : payload = some (.array entries)) :
      (do (← decodeOr (← result).asArray msg).mapM f) = entries.mapM f := by
    rw [(hpayload _).mpr h]
    rfl
  refine ⟨fun hclosed => ?_, fun hpresent => ?_⟩
  · intro entries hentries hfit e he hignored hmissing
    obtain ⟨msg', herr⟩ := hclosed.missing entries e hentries he hignored hmissing
    obtain ⟨l, hl⟩ := exists_mapM_ok fun e he => (hf.fit_iff e).mpr (hfit e he)
    rw [hrun hentries, hl] at herr
    cases herr
  · refine ⟨?_, ?_, ?_⟩
    · intro l hl i b hb hsuccess
      obtain ⟨v, hv, h⟩ := bind_eq_ok.mp hl
      obtain ⟨entries, harray, h⟩ := bind_eq_ok.mp h
      rw [decodeOr_eq_ok_iff, Value.asArray_eq_some_iff] at harray
      subst harray
      have hentries := (hpayload _).mp hv
      obtain ⟨e, he, hfe⟩ := getElem?_of_mapM_ok h hb
      obtain ⟨hignored, herr⟩ := (hf.success_iff e b hfe).mp hsuccess
      have hfit : ∀ e ∈ entries, fit e := fun e he => (hf.fit_iff e).mp (forall_of_mapM_ok h e he)
      rcases errOf_eq_none_iff.mp herr with hmissing | hnull
      · exact absurd hmissing
          (hpresent entries hentries hfit e (List.mem_of_getElem? he) hignored)
      · exact ⟨entries, e, hentries, he, hnull⟩
    · intro entries e hentries he hignored hmissing
      rw [hrun hentries]
      rcases hl : entries.mapM f with err | l
      · obtain ⟨e', -, hfe'⟩ := exists_of_mapM_error hl
        obtain ⟨msg', rfl⟩ := hf.decode e' err hfe'
        exact ⟨msg', rfl⟩
      · have hfit : ∀ e ∈ entries, fit e :=
          fun e he => (hf.fit_iff e).mp (forall_of_mapM_ok hl e he)
        exact absurd hmissing (hpresent entries hentries hfit e he hignored)
    · intro v hv harray
      refine ⟨msg, ?_⟩
      rw [(hpayload v).mpr hv]
      change (decodeOr v.asArray msg >>= _) = _
      rcases ha : v.asArray with _ | entries
      · rfl
      · exact absurd (Value.asArray_eq_some_iff.mp ha) (harray entries)

/-- **When the client fails closed on transaction outcomes**: exactly when the response never lets
a missing `err` member through, that is, when a simulated `value` has one, and a list of entries
that can all be decoded has one in each. -/
theorem outcomes_failClosed_iff (client : RpcClient) (response : Value) :
    (∀ tx, client.transport (request client.nextId "simulateTransaction" (simulateParams tx))
        = .ok response →
      (SimulationFailsClosed response (client.simulateTransaction tx).1 ↔
        ∀ v, valueIn response = some v → v.get "err" ≠ none)) ∧
    (∀ signatures, client.transport (request client.nextId "getSignatureStatuses"
        (signatureStatusesParams signatures)) = .ok response →
      (EntriesFailClosed (valueIn response) (· = .null) StatusSuccess
          (client.getSignatureStatuses signatures).1 ↔
        ErrPresent (valueIn response) (· = .null) (fun e => e = .null ∨ HasSlot e))) ∧
    (∀ address untilSignature, client.transport (request client.nextId "getSignaturesForAddress"
        (signaturesForAddressParams address untilSignature)) = .ok response →
      (EntriesFailClosed (resultIn response) (fun _ => False) InfoSuccess
          (client.getSignaturesForAddress address untilSignature).1 ↔
        ErrPresent (resultIn response) (fun _ => False)
          (fun e => HasSignature e ∧ HasSlot e))) := by
  refine ⟨fun tx h => simulation_failsClosed_iff h, fun signatures h => ?_,
    fun address untilSignature h => ?_⟩
  · exact entries_failClosed_iff signatureStatus_decoder fun v => callValue_eq_ok_iff h
  · exact entries_failClosed_iff signatureInfo_decoder fun v => call_eq_ok_iff h

/-- A response whose `result` wraps the given value. -/
def responseOf (value : Value) : Value := .object [("result", .object [("value", value)])]

/-- The outcome of a transaction that ran, simulated and in a list. -/
def ranValue : Value := .object [("err", .null), ("logs", .array [text "Program log: ok"]),
  ("unitsConsumed", .number (.posInt 150))]

def ranEntry : Value := .object [("err", .null), ("signature", text "5VERv8NM"),
  ("slot", .number (.posInt 150))]

def ranList : Value := .object [("result", .array [ranEntry])]

/-- A client whose transport always gives the same response. -/
def replying (response : Value) : RpcClient := .new fun _ => .ok response

theorem outcomes_failClosed_iff_ranResponse :
    SimulationFailsClosed (responseOf ranValue)
      ((replying (responseOf ranValue)).simulateTransaction "AQ==").1 ∧
    EntriesFailClosed (valueIn (responseOf (.array [ranEntry]))) (· = .null) StatusSuccess
      ((replying (responseOf (.array [ranEntry]))).getSignatureStatuses ["5VERv8NM"]).1 ∧
    EntriesFailClosed (resultIn ranList) (fun _ => False) InfoSuccess
      ((replying ranList).getSignaturesForAddress ⟨.replicate 32 1⟩ none).1 := by
  have hvalue : ranValue.get "err" = some .null := rfl
  have hentry : ranEntry.get "err" = some .null := rfl
  have hpresent {ignored fit : Value → Prop} :
      ErrPresent (some (.array [ranEntry])) ignored fit := by
    intro entries hentries hfit e he hignored
    obtain rfl := Value.array.inj (Option.some.inj hentries)
    obtain rfl := List.mem_singleton.mp he
    simp [hentry]
  refine ⟨?_, ?_, ?_⟩
  · refine ((outcomes_failClosed_iff _ (responseOf ranValue)).1 "AQ==" rfl).mpr fun v hv => ?_
    obtain rfl : ranValue = v := Option.some.inj hv
    simp [hvalue]
  · exact ((outcomes_failClosed_iff _ (responseOf (.array [ranEntry]))).2.1 ["5VERv8NM"] rfl).mpr
      hpresent
  · exact ((outcomes_failClosed_iff _ ranList).2.2 ⟨.replicate 32 1⟩ none rfl).mpr hpresent

/-- A `value` of `null` reads as a simulation without error. -/
theorem missing_err_reads_as_success :
    ((replying (responseOf .null)).simulateTransaction "AQ==").1
      = .ok ⟨none, [], none⟩ ∧
    ¬SimulationFailsClosed (responseOf .null)
      ((replying (responseOf .null)).simulateTransaction "AQ==").1 := by
  have hrun : ((replying (responseOf .null)).simulateTransaction "AQ==").1
      = .ok ⟨none, [], none⟩ := rfl
  refine ⟨hrun, fun h => ?_⟩
  obtain ⟨msg, herr⟩ := h.missing .null rfl rfl
  rw [hrun] at herr
  cases herr

end SvmWasiCore.RpcOutcomes

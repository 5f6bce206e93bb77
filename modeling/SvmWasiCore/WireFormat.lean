import SvmWasiCore.Envelope

/-!
The bytes of a versioned transaction, in both directions.

What `serialize` writes and what `tryFromBytes` accepts are both described by the two codecs:
the signature array, the version byte, the message. The parser asks nothing about how the
counts it read relate, so a signer meets whatever the sender of the bytes chose.
-/

namespace SvmWasiCore.WireFormat

open Lib Lib.ByteCodec ShortVec MessageFormat Dalek Sign Envelope

@[simp] lemma signatureArray_fits (l : List Signature) :
    signatureArray.Fits l ↔ l.length ≤ 65535 := by
  simp [signatureArray]

/-- No vector of the transaction is longer than a compact-u16 can say. -/
structure Short (tx : VersionedTransaction) : Prop where
  signatures : tx.signatures.length ≤ 65535
  message : tx.message.Short

/-! ### What is written and what is read -/

lemma messageBytes_ok_iff {tx : VersionedTransaction} {w : Bytes} :
    tx.messageBytes = .ok w ↔
      ∃ p, messageV0Codec.enc tx.message = some p ∧ w = messageVersionPrefix :: p := by
  rw [VersionedTransaction.messageBytes, bind_eq_ok]
  simp only [expect_eq_ok, pure, Except.pure, Except.ok.injEq, eq_comm (b := w)]

lemma serializeWithSignatures_ok_iff {sigs : List Signature} {mb w : Bytes} :
    serializeWithSignatures sigs mb = .ok w ↔
      ∃ q, signatureArray.enc sigs = some q ∧ w = q ++ mb := by
  rw [serializeWithSignatures, bind_eq_ok]
  simp only [expect_eq_ok, pure, Except.pure, Except.ok.injEq, eq_comm (b := w)]

/-- Serialization is the encoded signature array followed by the message bytes. -/
lemma serialize_ok_iff {tx : VersionedTransaction} {w : Bytes} :
    tx.serialize = .ok w ↔
      ∃ q mb, signatureArray.enc tx.signatures = some q ∧ tx.messageBytes = .ok mb ∧
        w = q ++ mb := by
  rw [VersionedTransaction.serialize, bind_eq_ok]
  simp only [serializeWithSignatures_ok_iff]
  refine ⟨fun h => ?_, fun h => ?_⟩
  · obtain ⟨mb, hmb, q, hq, hw⟩ := h
    exact ⟨q, mb, hq, hmb, hw⟩
  · obtain ⟨q, mb, hq, hmb, hw⟩ := h
    exact ⟨mb, hmb, q, hq, hw⟩

/-- The parser accepts exactly the serializations, with anything after them. -/
lemma tryFromBytes_ok_iff {b : Bytes} {tx : VersionedTransaction} :
    VersionedTransaction.tryFromBytes b = .ok tx ↔
      ∃ w rest, tx.serialize = .ok w ∧ b = w ++ rest := by
  simp only [serialize_ok_iff, messageBytes_ok_iff]
  refine ⟨fun h => ?_, fun h => ?_⟩
  · unfold VersionedTransaction.tryFromBytes at h
    split at h
    · simp at h
    · simp at h
    · next sigs v mb hs =>
      split at h
      · simp at h
      · next hv =>
        split at h
        · simp at h
        · next m rest hm =>
          obtain ⟨q, hq, rfl⟩ := signatureArray.enc_dec hs
          obtain ⟨p, hp, rfl⟩ := messageV0Codec.enc_dec hm
          obtain rfl := Except.ok.inj h
          obtain rfl := not_not.mp hv
          exact ⟨_, rest, ⟨q, _, hq, ⟨p, hp, rfl⟩, rfl⟩, by simp⟩
  · obtain ⟨w, rest, ⟨q, mb, hq, ⟨p, hp, rfl⟩, rfl⟩, rfl⟩ := h
    have hs := signatureArray.dec_enc hq (messageVersionPrefix :: (p ++ rest))
    have hm := messageV0Codec.dec_enc hp rest
    rw [List.append_assoc, List.cons_append]
    simp [VersionedTransaction.tryFromBytes, hs, hm]

/-! ### What does not panic -/

lemma returns_messageBytes_iff (tx : VersionedTransaction) :
    Returns tx.messageBytes ↔ tx.message.Short := by
  calc Returns tx.messageBytes
      ↔ Returns (expect (messageV0Codec.enc tx.message) "message always serializes") :=
        returns_bind_of_returns fun _ => returns_ok _
    _ ↔ messageV0Codec.Fits tx.message := returns_expect_iff
    _ ↔ tx.message.Short := messageV0Codec_fits tx.message

lemma returns_serializeWithSignatures_iff (sigs : List Signature) (mb : Bytes) :
    Returns (serializeWithSignatures sigs mb) ↔ sigs.length ≤ 65535 := by
  calc Returns (serializeWithSignatures sigs mb)
      ↔ Returns (expect (signatureArray.enc sigs) "signature array always serializes") :=
        returns_bind_of_returns fun _ => returns_ok _
    _ ↔ signatureArray.Fits sigs := returns_expect_iff
    _ ↔ sigs.length ≤ 65535 := signatureArray_fits sigs

/-- A transaction serializes exactly when all its vectors are short. -/
lemma returns_serialize_iff (tx : VersionedTransaction) : Returns tx.serialize ↔ Short tx := by
  rw [VersionedTransaction.serialize, returns_bind_iff (returns_serializeWithSignatures_iff _),
    returns_messageBytes_iff]
  exact ⟨fun ⟨hm, hs⟩ => ⟨hs, hm⟩, fun ⟨hs, hm⟩ => ⟨hm, hs⟩⟩

lemma returns_toBase64_iff (tx : VersionedTransaction) :
    Returns tx.toBase64 ↔ Returns tx.serialize :=
  returns_bind_of_returns fun _ => returns_ok _

/-- A legacy transaction serializes on the same terms. -/
lemma returns_serialize_legacy_iff (tx : Transaction) :
    Returns tx.serialize ↔ tx.message.Short ∧ tx.signatures.length ≤ 65535 := by
  rw [Transaction.serialize, returns_bind_iff (returns_serializeWithSignatures_iff _),
    returns_expect_iff, ← messageCodec_fits]
  rfl

lemma tryFromBytes_serialize {tx : VersionedTransaction} {w : Bytes}
    (h : tx.serialize = .ok w) : VersionedTransaction.tryFromBytes w = .ok tx :=
  tryFromBytes_ok_iff.mpr ⟨w, [], h, by simp⟩

/-- What the parser accepts can be serialized. -/
lemma short_of_tryFromBytes {b : Bytes} {tx : VersionedTransaction}
    (h : VersionedTransaction.tryFromBytes b = .ok tx) : Short tx := by
  obtain ⟨w, -, hw, -⟩ := tryFromBytes_ok_iff.mp h
  exact (returns_serialize_iff tx).mp ⟨w, hw⟩

/-! ### Round trip -/

/-- **Decoding undoes encoding**, of bytes and of base64 text. -/
theorem parse_serialize (tx : VersionedTransaction) (h : Short tx) :
    (∃ w, tx.serialize = .ok w ∧ VersionedTransaction.tryFromBytes w = .ok tx) ∧
    ∃ s, tx.toBase64 = .ok s ∧ VersionedTransaction.tryFromBase64 s = .ok tx := by
  obtain ⟨w, hw⟩ := (returns_serialize_iff tx).mpr h
  have hp := tryFromBytes_serialize hw
  refine ⟨⟨w, hw, hp⟩, Base64.encode w, ?_, ?_⟩
  · rw [VersionedTransaction.toBase64, hw]
    rfl
  · rw [VersionedTransaction.tryFromBase64, Base64.decode_encode]
    exact hp

/-- A signed transaction with an instruction and a table lookup. -/
def sampleTx : VersionedTransaction where
  signatures := [.default]
  message :=
    { header := ⟨1, 0, 1⟩
      accountKeys := [⟨.replicate 32 1⟩, ⟨.replicate 32 2⟩]
      recentBlockhash := ⟨.replicate 32 9⟩
      instructions := [⟨1, [0, 2], [2, 0, 0, 0]⟩]
      addressTableLookups := [⟨⟨.replicate 32 3⟩, [7], []⟩] }

lemma sampleTx_short : Short sampleTx where
  signatures := by decide
  message := ⟨by decide, by decide, by simp [sampleTx, CompiledInstruction.Short], by decide,
    by simp [sampleTx, MessageAddressTableLookup.Short]⟩

theorem parse_serialize_sampleTx :
    (∃ w, sampleTx.serialize = .ok w ∧ VersionedTransaction.tryFromBytes w = .ok sampleTx) ∧
    ∃ s, sampleTx.toBase64 = .ok s ∧ VersionedTransaction.tryFromBase64 s = .ok sampleTx :=
  parse_serialize sampleTx sampleTx_short

/-! ### Signing what was parsed -/

lemma fillSlot_notRequired {sigs : List Signature} {keys : List Pubkey} {n : UInt8} {pk : Pubkey}
    (s : Signature) (hn : n.toNat ≤ keys.length) (hpk : pk ∉ keys.take n.toNat) :
    fillSlot sigs keys n pk s = .ok (.error .notARequiredSigner, sigs) := by
  have hp := position_eq_none_iff.mpr hpk
  simp [fillSlot, sliceTo, hn, hp, bind, Except.bind, pure, Except.pure]

lemma fillSlot_required {sigs : List Signature} {keys : List Pubkey} {n : UInt8} {pk : Pubkey}
    (s : Signature) (hn : n.toNat ≤ keys.length) (hpk : pk ∈ keys.take n.toNat) :
    fillSlot sigs keys n pk s =
      (setAt sigs ((keys.take n.toNat).idxOf pk) s).map fun l => (.ok (), l) := by
  have hp := position_eq_some_iff.mpr ⟨hpk, rfl⟩
  simp only [fillSlot, sliceTo, if_pos hn, bind, Except.bind, hp]
  cases setAt sigs ((keys.take n.toNat).idxOf pk) s <;> rfl

lemma fillSlot_sliceEnd {sigs : List Signature} {keys : List Pubkey} {n : UInt8} (pk : Pubkey)
    (s : Signature) (hn : ¬n.toNat ≤ keys.length) :
    fillSlot sigs keys n pk s = .error (.sliceEnd n.toNat keys.length) := by
  simp [fillSlot, sliceTo, hn, bind, Except.bind]

/-- Filling a slot returns when the required keys are there and the key's slot exists. -/
lemma returns_fillSlot_iff (sigs : List Signature) (keys : List Pubkey) (n : UInt8) (pk : Pubkey)
    (s : Signature) :
    Returns (fillSlot sigs keys n pk s) ↔ n.toNat ≤ keys.length ∧
      (pk ∈ keys.take n.toNat → (keys.take n.toNat).idxOf pk < sigs.length) := by
  by_cases hn : n.toNat ≤ keys.length
  · by_cases hpk : pk ∈ keys.take n.toNat
    · rw [fillSlot_required s hn hpk, setAt, and_iff_right hn, forall_prop_of_true hpk]
      split_ifs with hslot
      · exact iff_of_true (returns_ok _) hslot
      · exact iff_of_false (not_returns_error _) hslot
    · simp [fillSlot_notRequired s hn hpk, hn, hpk]
  · simp [fillSlot_sliceEnd pk s hn, hn]

/-- The header does not ask for more signers than there are keys, and each required key first
occurs at a position that has a signature slot. -/
def SlotsCover (tx : VersionedTransaction) : Prop :=
  let n := tx.message.header.numRequiredSignatures.toNat
  n ≤ tx.message.accountKeys.length ∧
    ∀ pk ∈ tx.message.accountKeys.take n,
      (tx.message.accountKeys.take n).idxOf pk < tx.signatures.length

/-- With distinct required keys this is a comparison of the three counts. -/
lemma slotsCover_iff_of_nodup {tx : VersionedTransaction}
    (hd : (tx.message.accountKeys.take tx.message.header.numRequiredSignatures.toNat).Nodup) :
    SlotsCover tx ↔
      tx.message.header.numRequiredSignatures.toNat ≤ tx.message.accountKeys.length ∧
      tx.message.header.numRequiredSignatures.toNat ≤ tx.signatures.length := by
  refine and_congr_right fun hn => ⟨fun h => ?_, fun h pk hpk => ?_⟩
  · by_contra hlt
    have hi : tx.signatures.length <
        (tx.message.accountKeys.take tx.message.header.numRequiredSignatures.toNat).length := by
      rw [List.length_take]; omega
    have := h _ (List.getElem_mem hi)
    rw [hd.idxOf_getElem] at this
    omega
  · have hlt := List.idxOf_lt_length_iff.mpr hpk
    rw [List.length_take] at hlt
    omega

lemma returns_insertSignature_iff (tx : VersionedTransaction) (pk : Pubkey) (s : Signature) :
    Returns (tx.insertSignature pk s) ↔
      Returns (fillSlot tx.signatures tx.message.accountKeys
        tx.message.header.numRequiredSignatures pk s) :=
  returns_bind_of_returns fun _ => returns_ok _

variable {P : Type} [AddCommGroup P] {E : Ed25519 P}

lemma returns_trySign_iff {tx : VersionedTransaction} {mb : Bytes} (hmb : tx.messageBytes = .ok mb)
    (kp : Keypair E) :
    Returns (tx.trySign kp) ↔
      Returns (fillSlot tx.signatures tx.message.accountKeys
        tx.message.header.numRequiredSignatures kp.pubkey (kp.signMessage mb)) := by
  rw [VersionedTransaction.trySign, hmb]
  change Returns (signInto _ _ _ mb kp >>= _) ↔ Returns (signInto _ _ _ mb kp)
  exact returns_bind_of_returns fun _ => returns_ok _

/-- **When a parsed transaction can be signed.** No signer panics on it exactly when its counts
agree; the parser does not check that they do. -/
theorem signers_return_iff {b : Bytes} {tx : VersionedTransaction}
    (h : VersionedTransaction.tryFromBytes b = .ok tx) :
    ((∀ pk s, Returns (tx.insertSignature pk s)) ∧ ∀ kp : Keypair E, Returns (tx.trySign kp)) ↔
      SlotsCover tx := by
  obtain ⟨mb, hmb⟩ := (returns_messageBytes_iff tx).mpr (short_of_tryFromBytes h).message
  simp only [returns_insertSignature_iff, returns_trySign_iff hmb, returns_fillSlot_iff]
  refine ⟨fun h => ?_, fun h => ?_⟩
  · obtain ⟨h, -⟩ := h
    exact ⟨(h ⟨.replicate 32 0⟩ .default).1, fun pk hpk => (h pk .default).2 hpk⟩
  · obtain ⟨hn, hs⟩ := h
    exact ⟨fun pk _ => ⟨hn, hs pk⟩, fun kp => ⟨hn, hs kp.pubkey⟩⟩

/-- One required signer, and neither an account key nor a signature. -/
def noKeysTx : VersionedTransaction where
  signatures := []
  message := ⟨⟨1, 0, 0⟩, [], .default, [], []⟩

def noKeysBytes : Bytes := [0, 0x80, 1, 0, 0, 0] ++ List.replicate 32 0 ++ [0, 0]

/-- One required signer with its key, and no signature slot. -/
def noSlotTx : VersionedTransaction where
  signatures := []
  message := ⟨⟨1, 0, 0⟩, [⟨.replicate 32 5⟩], .default, [], []⟩

def noSlotBytes : Bytes :=
  [0, 0x80, 1, 0, 0, 1] ++ List.replicate 32 5 ++ List.replicate 32 0 ++ [0, 0]

theorem signers_return_iff_noKeys :
    ((∀ pk s, Returns (noKeysTx.insertSignature pk s)) ∧
      ∀ kp : Keypair multiples, Returns (noKeysTx.trySign kp)) ↔ SlotsCover noKeysTx :=
  signers_return_iff (b := noKeysBytes) rfl

/-- The keypair of the all-zero seed. -/
def zeroKeypair : Keypair multiples :=
  ⟨.replicate 32 0, ⟨(verifyingKey multiples (.replicate 32 0)).compressed⟩, rfl⟩

/-- Both inputs are accepted, and filling a slot of them is out of bounds: of the account keys
in one, of the signatures in the other. -/
theorem signers_panic :
    (VersionedTransaction.tryFromBytes noKeysBytes = .ok noKeysTx ∧
      noKeysTx.insertSignature ⟨.replicate 32 5⟩ .default = .error (.sliceEnd 1 0) ∧
      noKeysTx.trySign zeroKeypair = .error (.sliceEnd 1 0)) ∧
    (VersionedTransaction.tryFromBytes noSlotBytes = .ok noSlotTx ∧
      noSlotTx.insertSignature ⟨.replicate 32 5⟩ .default = .error (.indexOutOfBounds 0 0)) :=
  ⟨⟨rfl, rfl, rfl⟩, rfl, rfl⟩

end SvmWasiCore.WireFormat

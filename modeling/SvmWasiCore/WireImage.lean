import SvmWasiCore.WireFormat
import SvmWasiCore.Lib.Framing

/-!
Which byte strings the parser takes for a transaction.

It takes every serialization, whatever follows it. How far the serialization reaches is told by
the counts in the input alone; what stands behind it is never looked at. A byte string cut short
is refused, and of the legacy encodings only those with a first header byte of `0x80` get past
the version check.
-/

namespace SvmWasiCore.WireImage

open Lib.ByteCodec Lib.Framing ShortVec MessageFormat Envelope WireFormat

/-! ### What the counts say -/

/-- A vector behind its compact-u16 length. -/
def vecFrame (f : Frame) : Frame := counted (fun w => (deShortU16 w).toOption) f

def instructionFrame : Frame := seq (bytes 1) (seq (vecFrame (bytes 1)) (vecFrame (bytes 1)))

def lookupFrame : Frame := seq (bytes 32) (seq (vecFrame (bytes 1)) (vecFrame (bytes 1)))

/-- Three header bytes, the account keys, the blockhash, the instructions, the lookups. -/
def messageFrame : Frame :=
  seq (bytes 3) (seq (vecFrame (bytes 32)) (seq (bytes 32)
    (seq (vecFrame instructionFrame) (vecFrame lookupFrame))))

/-- The version byte. -/
def versionFrame : Frame
  | [] => none
  | b :: w => if b = messageVersionPrefix then some w else none

/-- What is left of the input when its counts are followed from the signatures to the last
lookup; nothing when it breaks off before. -/
def leftOver (b : Bytes) : Option Bytes :=
  seq (vecFrame (bytes 64)) (seq versionFrame messageFrame) b

/-- Nothing stands behind the message. -/
def Exact (b : Bytes) : Prop := ∀ rest, leftOver b = some rest → rest = []

lemma frames_vec {α : Type} {f : Frame} {c : Codec DecodeError α} (hf : Frames f c) :
    Frames (vecFrame f) (shortVec c) := frames_counted hf shortU16

lemma frames_u8 : Frames (bytes 1) u8 := frames_byte _

lemma frames_signatureArray : Frames (vecFrame (bytes 64)) signatureArray :=
  frames_vec (frames_iso (frames_byteArray _ 64) _)

lemma frames_pubkey : Frames (bytes 32) pubkeyCodec := frames_iso (frames_byteArray _ 32) _

lemma frames_hash : Frames (bytes 32) hashCodec := frames_iso (frames_byteArray _ 32) _

lemma frames_header : Frames (bytes 3) messageHeaderCodec := by
  have h : Frames (seq (bytes 1) (seq (bytes 1) (bytes 1))) messageHeaderCodec :=
    frames_iso (frames_seq frames_u8 (frames_seq frames_u8 frames_u8)) _
  rwa [seq_bytes, seq_bytes] at h

lemma frames_instruction : Frames instructionFrame compiledInstructionCodec :=
  frames_iso (frames_seq frames_u8 (frames_seq (frames_vec frames_u8) (frames_vec frames_u8))) _

lemma frames_lookup : Frames lookupFrame messageAddressTableLookupCodec :=
  frames_iso
    (frames_seq frames_pubkey (frames_seq (frames_vec frames_u8) (frames_vec frames_u8))) _

lemma frames_message : Frames messageFrame messageV0Codec :=
  frames_iso (frames_seq frames_header (frames_seq (frames_vec frames_pubkey) (frames_seq
    frames_hash (frames_seq (frames_vec frames_instruction) (frames_vec frames_lookup))))) _

/-- The counts can be followed exactly through the inputs the parser accepts, and then what is
left is what stands behind the serialization. -/
lemma leftOver_eq_some_iff {b rest : Bytes} : leftOver b = some rest ↔
    ∃ tx w, VersionedTransaction.tryFromBytes b = .ok tx ∧ tx.serialize = .ok w ∧
      b = w ++ rest := by
  simp only [leftOver, seq, Option.bind_eq_some_iff, frames_signatureArray.eq_some_iff,
    frames_message.eq_some_iff]
  refine ⟨fun h => ?_, fun h => ?_⟩
  · obtain ⟨w1, ⟨sigs, hs⟩, w2, hv, m, hm⟩ := h
    have hw1 : w1 = messageVersionPrefix :: w2 := by
      cases w1 with
      | nil => cases hv
      | cons v w1 =>
        rw [versionFrame] at hv
        split_ifs at hv with hbyte
        rw [hbyte, Option.some.inj hv]
    subst hw1
    obtain ⟨q, hq, rfl⟩ := signatureArray.enc_dec hs
    obtain ⟨p, hp, rfl⟩ := messageV0Codec.enc_dec hm
    have hw : VersionedTransaction.serialize ⟨sigs, m⟩ = .ok (q ++ messageVersionPrefix :: p) :=
      serialize_ok_iff.mpr ⟨q, _, hq, messageBytes_ok_iff.mpr ⟨p, hp, rfl⟩, rfl⟩
    refine ⟨⟨sigs, m⟩, _, tryFromBytes_ok_iff.mpr ⟨_, rest, hw, ?_⟩, hw, ?_⟩
    · simp
    · simp
  · obtain ⟨tx, w, -, hw, rfl⟩ := h
    obtain ⟨q, mb, hq, hmb, rfl⟩ := serialize_ok_iff.mp hw
    obtain ⟨p, hp, rfl⟩ := messageBytes_ok_iff.mp hmb
    refine ⟨messageVersionPrefix :: (p ++ rest), ⟨tx.signatures, ?_⟩, p ++ rest, ?_, tx.message,
      messageV0Codec.dec_enc hp rest⟩
    · rw [List.append_assoc]
      exact signatureArray.dec_enc hq _
    · rw [versionFrame, if_pos rfl]

/-! ### Canonical inputs -/

/-- The bytes behind the message are the ones the parser forgets. -/
lemma serialize_of_exact {b : Bytes} {tx : VersionedTransaction} (he : Exact b)
    (h : VersionedTransaction.tryFromBytes b = .ok tx) : tx.serialize = .ok b := by
  obtain ⟨w, rest, hw, rfl⟩ := tryFromBytes_ok_iff.mp h
  have hrest : rest = [] := he rest (leftOver_eq_some_iff.mpr ⟨tx, w, h, hw, rfl⟩)
  rw [hrest, List.append_nil]
  exact hw

/-- **When what the parser takes is a serialization**: exactly when nothing stands behind the
message. On these inputs the parser takes the image of `serialize` and takes no two of them for
one transaction. -/
theorem canonical_iff (b : Bytes) :
    ((∀ tx, VersionedTransaction.tryFromBytes b = .ok tx → tx.serialize = .ok b) ↔ Exact b) ∧
    (Exact b → ((∃ tx, VersionedTransaction.tryFromBytes b = .ok tx) ↔
      ∃ tx : VersionedTransaction, tx.serialize = .ok b)) ∧
    ∀ b' tx, Exact b → Exact b' → VersionedTransaction.tryFromBytes b = .ok tx →
      VersionedTransaction.tryFromBytes b' = .ok tx → b = b' := by
  refine ⟨⟨fun h => ?_, fun he tx => serialize_of_exact he⟩, fun he => ⟨fun h => ?_, fun h => ?_⟩,
    ?_⟩
  · intro rest hrest
    obtain ⟨tx, w, htx, hw, hb⟩ := leftOver_eq_some_iff.mp hrest
    have hwb : w = b := Except.ok.inj (hw.symm.trans (h tx htx))
    rw [hwb] at hb
    exact List.self_eq_append_right.mp hb
  · obtain ⟨tx, htx⟩ := h
    exact ⟨tx, serialize_of_exact he htx⟩
  · obtain ⟨tx, hw⟩ := h
    exact ⟨tx, tryFromBytes_serialize hw⟩
  · intro b' tx he he' h h'
    have hb := serialize_of_exact he h
    have hb' := serialize_of_exact he' h'
    exact Except.ok.inj (hb.symm.trans hb')

/-- A serialization with a byte behind it. -/
def paddedBytes : Bytes := noKeysBytes ++ [7]

theorem padded_accepted :
    VersionedTransaction.tryFromBytes paddedBytes = .ok noKeysTx ∧
      noKeysTx.serialize = .ok noKeysBytes ∧ noKeysTx.serialize ≠ .ok paddedBytes := by
  have hw : noKeysTx.serialize = .ok noKeysBytes := rfl
  refine ⟨tryFromBytes_ok_iff.mpr ⟨noKeysBytes, [7], hw, rfl⟩, hw, ?_⟩
  rw [hw]
  intro h
  have hlen := congrArg List.length (Except.ok.inj h)
  simp [paddedBytes] at hlen

/-! ### Inputs cut short -/

/-- **A truncated transaction is refused**: no strict prefix of a serialization is taken. -/
theorem truncated_refused (tx : VersionedTransaction) (h : Short tx) :
    ∃ w, tx.serialize = .ok w ∧ ∀ p, p <+: w → p ≠ w →
      ∃ e, VersionedTransaction.tryFromBytes p = .error e := by
  obtain ⟨w, hw⟩ := (returns_serialize_iff tx).mpr h
  refine ⟨w, hw, fun p hp hne => ?_⟩
  obtain ⟨s, rfl⟩ := hp
  rcases hparse : VersionedTransaction.tryFromBytes p with e | tx'
  · exact ⟨e, rfl⟩
  · -- what was taken from `p` is taken from all of `w`, so it is `tx`
    obtain ⟨w', rest, hw', rfl⟩ := tryFromBytes_ok_iff.mp hparse
    have htx' : VersionedTransaction.tryFromBytes (w' ++ rest ++ s) = .ok tx' :=
      tryFromBytes_ok_iff.mpr ⟨w', rest ++ s, hw', List.append_assoc ..⟩
    obtain rfl : tx' = tx := Except.ok.inj (htx'.symm.trans (tryFromBytes_serialize hw))
    have hww : w' = w' ++ rest ++ s := Except.ok.inj (hw'.symm.trans hw)
    rw [List.append_assoc, List.self_eq_append_right, List.append_eq_nil_iff] at hww
    obtain ⟨rfl, rfl⟩ := hww
    exact absurd (by simp) hne

theorem truncated_refused_sampleTx :
    ∃ w, sampleTx.serialize = .ok w ∧ ∀ p, p <+: w → p ≠ w →
      ∃ e, VersionedTransaction.tryFromBytes p = .error e :=
  truncated_refused sampleTx sampleTx_short

/-! ### Legacy inputs -/

/-- A legacy encoding begins with the number of required signatures. -/
lemma enc_message {m : Message} {p : Bytes} (h : messageCodec.enc m = some p) :
    ∃ q, p = m.header.numRequiredSignatures :: q := by
  have hfits : messageCodec.enc m =
      (messageHeaderCodec.seq ((shortVec pubkeyCodec).seq (hashCodec.seq
        (shortVec compiledInstructionCodec)))).enc (m.1, m.2, m.3, m.4) := rfl
  rw [hfits, Codec.seq_enc, Option.bind_eq_some_iff] at h
  obtain ⟨header, hheader, h⟩ := h
  obtain ⟨q, -, rfl⟩ := Option.map_eq_some_iff.mp h
  have hbytes : messageHeaderCodec.enc m.header = some [m.header.numRequiredSignatures,
      m.header.numReadonlySignedAccounts, m.header.numReadonlyUnsignedAccounts] := rfl
  obtain rfl := Option.some.inj (hbytes.symm.trans hheader)
  exact ⟨_, rfl⟩

/-- What the parser makes of a signature array and what follows it. -/
lemma tryFromBytes_append {sigs : List Signature} {q : Bytes} (h : signatureArray.enc sigs = some q)
    (v : UInt8) (mb : Bytes) : VersionedTransaction.tryFromBytes (q ++ v :: mb) =
      if v ≠ messageVersionPrefix then .error .notVersioned
      else match messageV0Codec.dec mb with
        | .error e => .error (.message e)
        | .ok (message, _) => .ok { signatures := sigs, message } := by
  have hsigs := signatureArray.dec_enc h (v :: mb)
  rcases hmessage : messageV0Codec.dec mb with e | ⟨m, rest⟩
  · simp [VersionedTransaction.tryFromBytes, hsigs, hmessage]
  · simp [VersionedTransaction.tryFromBytes, hsigs, hmessage]

/-- **When a legacy transaction is refused as not versioned**: unless its message requires exactly
128 signatures, a count that reads as the version byte. -/
theorem legacy_refused_iff (message : Message) (h : message.Short) :
    ∃ w, (Transaction.newUnsigned message).serialize = .ok w ∧
      (VersionedTransaction.tryFromBytes w = .error .notVersioned ↔
        message.header.numRequiredSignatures ≠ 128) := by
  have hslots : (Transaction.newUnsigned message).signatures.length ≤ 65535 := by
    have := message.header.numRequiredSignatures.toNat_lt
    simp only [Transaction.newUnsigned, List.length_replicate]
    omega
  obtain ⟨w, hw⟩ := (returns_serialize_legacy_iff _).mpr ⟨h, hslots⟩
  refine ⟨w, hw, ?_⟩
  obtain ⟨p, hp, hser⟩ := bind_eq_ok.mp hw
  obtain ⟨q, hq, rfl⟩ := serializeWithSignatures_ok_iff.mp hser
  obtain ⟨mb, rfl⟩ := enc_message (expect_eq_ok.mp hp)
  have hmessage : (Transaction.newUnsigned message).message = message := rfl
  rw [tryFromBytes_append hq, hmessage]
  by_cases hn : message.header.numRequiredSignatures = messageVersionPrefix
  · -- the count is taken for the version byte, and the rest is read as a v0 message
    refine iff_of_false ?_ (not_not.mpr hn)
    rw [if_neg (not_not.mpr hn)]
    rcases messageV0Codec.dec mb with e | ⟨m, rest⟩ <;> simp
  · refine iff_of_true ?_ hn
    rw [if_pos hn]

/-- No keys and no instructions, and no signer. -/
def emptyMessage : Message := ⟨⟨0, 0, 0⟩, [], .default, []⟩

theorem legacy_refused_iff_emptyMessage :
    ∃ w, (Transaction.newUnsigned emptyMessage).serialize = .ok w ∧
      (VersionedTransaction.tryFromBytes w = .error .notVersioned ↔
        emptyMessage.header.numRequiredSignatures ≠ 128) :=
  legacy_refused_iff emptyMessage ⟨by decide, by decide, by simp [emptyMessage]⟩

/-- A legacy message of 128 signers, with one empty instruction. -/
def confusedMessage : Message := ⟨⟨128, 0, 0⟩, [], .default, [⟨0, [], []⟩]⟩

/-- What its serialization parses to: the two other header bytes and the key count are read as the
header, and the blockhash one byte further on. -/
def confusedTx : VersionedTransaction where
  signatures := List.replicate 128 .default
  message := ⟨⟨0, 0, 0⟩, [], ⟨List.replicate 31 0 ++ [1], by simp⟩, [], []⟩

/-- The legacy serialization with 128 signers is taken for a versioned transaction. -/
theorem confused_accepted :
    ∃ w, (Transaction.newUnsigned confusedMessage).serialize = .ok w ∧
      VersionedTransaction.tryFromBytes w = .ok confusedTx := by
  let mb : Bytes := List.replicate 35 0 ++ [1, 0, 0, 0]
  have hmb : messageCodec.enc confusedMessage = some (messageVersionPrefix :: mb) := rfl
  have hread : messageV0Codec.dec mb = .ok (confusedTx.message, [0]) := rfl
  obtain ⟨q, hq⟩ : ∃ q, signatureArray.enc confusedTx.signatures = some q :=
    Option.isSome_iff_exists.mp ((signatureArray_fits _).mpr (by simp [confusedTx]))
  refine ⟨q ++ messageVersionPrefix :: mb, ?_, ?_⟩
  · exact bind_eq_ok.mpr ⟨_, expect_eq_ok.mpr hmb, serializeWithSignatures_ok_iff.mpr ⟨q, hq, rfl⟩⟩
  · rw [tryFromBytes_append hq, if_neg (not_not.mpr rfl), hread]

end SvmWasiCore.WireImage

import SvmWasiCore.DurableNonce
import SvmWasiCore.WireFormat

/-!
From instructions to bytes.

Compilation checks account indexes and header counts; serialization wants every vector within a
compact-u16. What lies between the two is the number of instructions and the lengths of each one's
own vectors, which nothing checks before an `expect` does.
-/

namespace SvmWasiCore.WireLimits

open Lib.ByteCodec MessageFormat MessageCompiler KeyClasses TableLookups Compilation DurableNonce
open Envelope WireFormat

variable {payer nonceAccount nonceAuthority : Pubkey} {nonceBlockhash : Hash}
  {ixs : List Instruction} {tables : List AddressLookupTableAccount} {m : MessageV0} {l : Message}

/-- The instruction list and each instruction can be written. -/
def Writes (ixs : List Instruction) : Prop := ixs.length ≤ 65535 ∧ ∀ ix ∈ ixs, ix.Short

lemma indexed_short (keys : List Pubkey) (ix : Instruction) :
    (indexed keys ix).Short ↔ ix.Short := by
  simp [CompiledInstruction.Short, indexed, Instruction.Short]

lemma writes_iff (keys : List Pubkey) :
    ((ixs.map (indexed keys)).length ≤ 65535 ∧ ∀ i ∈ ixs.map (indexed keys), i.Short) ↔
      Writes ixs := by
  simp [Writes, indexed_short]

/-- The nonce advance itself is short. -/
lemma writes_durable : Writes (durable nonceAccount nonceAuthority ixs) ↔
    ixs.length < 65535 ∧ ∀ ix ∈ ixs, ix.Short := by
  have hadvance : (System.advanceNonceAccount nonceAccount nonceAuthority).Short := by
    simp [Instruction.Short, System.advanceNonceAccount]
  simp only [Writes, durable, List.length_cons, List.forall_mem_cons, hadvance, true_and,
    Nat.succ_le_iff]

/-! ### v0 -/

lemma Reads.short {t : AddressLookupTableAccount} {lookup : MessageAddressTableLookup}
    {loaded : LoadedAddresses} (h : Reads t lookup loaded) (hw : loaded.writable.length ≤ 65535)
    (hr : loaded.readonly.length ≤ 65535) : lookup.Short := by
  have h1 := congrArg List.length h.writable
  have h2 := congrArg List.length h.readonly
  simp only [List.length_map] at h1 h2
  exact ⟨h1 ▸ hw, h2 ▸ hr⟩

lemma length_le_flatMap {α β : Type} (f : α → List β) {xs : List α} {a : α} (h : a ∈ xs) :
    (f a).length ≤ (xs.flatMap f).length := by
  obtain ⟨s, t, rfl⟩ := List.append_of_mem h
  simp only [List.flatMap_append, List.flatMap_cons, List.length_append]
  omega

/-- All keys and lookups of a compiled message are few; only the instructions can be too long. -/
lemma short_iff_of_built {blockhash : Hash} {map : KeyMetaMap}
    {ls : List (MessageAddressTableLookup × LoadedAddresses)}
    (h : Built payer ixs tables blockhash ls map m) : m.Short ↔ Writes ixs := by
  have hlen := h.length_le
  rw [allKeys, List.length_append, ← h.accountKeys] at hlen
  have hkeys : (keysOf ls).length = (writableOf ls).length + (readonlyOf ls).length :=
    List.length_append
  have hlookups : m.addressTableLookups.length ≤ 65535 := by
    have := h.extracted.length_le
    rw [h.addressTableLookups, List.length_map]
    omega
  have hlookup : ∀ lookup ∈ m.addressTableLookups, lookup.Short := by
    intro lookup hmem
    rw [h.addressTableLookups] at hmem
    obtain ⟨l, hl, rfl⟩ := List.mem_map.mp hmem
    obtain ⟨t, -, hreads⟩ := h.extracted.loads.exists_table hl
    have hw : l.2.writable.length ≤ (writableOf ls).length :=
      length_le_flatMap (fun l => l.2.writable) hl
    have hr : l.2.readonly.length ≤ (readonlyOf ls).length :=
      length_le_flatMap (fun l => l.2.readonly) hl
    exact Reads.short hreads (by omega) (by omega)
  rw [← writes_iff (allKeys payer map ls), ← h.instructions]
  refine ⟨fun hm => ?_, fun h => ?_⟩
  · exact ⟨hm.instructions, hm.instruction⟩
  · obtain ⟨h1, h2⟩ := h
    exact ⟨by omega, h1, h2, hlookups, hlookup⟩

/-- A compiled v0 message is written, whole or for signing, unless an instruction is too long. -/
lemma v0_returns_iff (h : compileV0WithDurableNonce payer nonceAccount nonceAuthority
      nonceBlockhash ixs tables = .ok m) :
    (Returns (VersionedTransaction.newUnsigned m).serialize ↔
      Writes (durable nonceAccount nonceAuthority ixs)) ∧
    (Returns (VersionedTransaction.newUnsigned m).toBase64 ↔
      Writes (durable nonceAccount nonceAuthority ixs)) ∧
    (Returns (VersionedTransaction.newUnsigned m).messageBytesToSign ↔
      Writes (durable nonceAccount nonceAuthority ixs)) := by
  obtain ⟨ls, map, hb⟩ := built_of_tryCompile (v0_ok_iff.mp h)
  have hshort := short_iff_of_built hb
  have hslots : (VersionedTransaction.newUnsigned m).signatures.length ≤ 65535 := by
    have := m.header.numRequiredSignatures.toNat_lt
    simp only [VersionedTransaction.newUnsigned, List.length_replicate]
    omega
  have hserialize : Returns (VersionedTransaction.newUnsigned m).serialize ↔
      Writes (durable nonceAccount nonceAuthority ixs) := by
    rw [returns_serialize_iff, ← hshort]
    exact ⟨fun h => h.message, fun h => ⟨hslots, h⟩⟩
  refine ⟨hserialize, ?_, ?_⟩
  · rw [returns_toBase64_iff, hserialize]
  · rw [← hshort]
    exact returns_messageBytes_iff _

/-! ### Legacy -/

/-- What a legacy message needs in order to be built and written. -/
structure WithinLimits (payer nonceAccount nonceAuthority : Pubkey) (ixs : List Instruction) :
    Prop where
  instructions : ixs.length < 65535
  instruction : ∀ ix ∈ ixs, ix.accounts.length ≤ 65535 ∧ ix.data.length ≤ 65535
  keys : (keySet (System.advanceNonceAccount nonceAccount nonceAuthority :: ixs) payer).card
    ≤ 65535
  signers : (signerSet (System.advanceNonceAccount nonceAccount nonceAuthority :: ixs) payer).card
    ≤ 255
  readonlyUnsigned : (readonlyUnsignedSet
    (System.advanceNonceAccount nonceAccount nonceAuthority :: ixs) payer).card ≤ 255

/-- From instructions to the bytes of an unsigned legacy transaction. -/
def legacyBytes (payer nonceAccount nonceAuthority : Pubkey) (nonceBlockhash : Hash)
    (ixs : List Instruction) : Exec Bytes := do
  let message ← compileLegacyWithDurableNonce payer nonceAccount nonceAuthority nonceBlockhash ixs
  (Transaction.newUnsigned message).serialize

/-- A compiled legacy message is written unless it has too many keys or an instruction is too
long. -/
lemma legacy_returns_iff (h : compileLegacyWithDurableNonce payer nonceAccount nonceAuthority
      nonceBlockhash ixs = .ok l) :
    Returns (Transaction.newUnsigned l).serialize ↔
      (keySet (durable nonceAccount nonceAuthority ixs) payer).card ≤ 65535 ∧
        Writes (durable nonceAccount nonceAuthority ixs) := by
  have hslots : (Transaction.newUnsigned l).signatures.length ≤ 65535 := by
    have := l.header.numRequiredSignatures.toNat_lt
    simp only [Transaction.newUnsigned, List.length_replicate]
    omega
  obtain ⟨header, hparts, rfl⟩ := legacy_ok_iff.mp h
  rw [returns_serialize_legacy_iff, and_iff_left hslots, ← compile_static_length,
    ← writes_iff (compile (durable nonceAccount nonceAuthority ixs) payer).staticAccountKeys]
  exact ⟨fun h => ⟨h.accountKeys, h.instructions, h.instruction⟩,
    fun ⟨h1, h2, h3⟩ => ⟨h1, h2, h3⟩⟩

lemma legacyBytes_returns_iff :
    Returns (legacyBytes payer nonceAccount nonceAuthority nonceBlockhash ixs) ↔
      WithinLimits payer nonceAccount nonceAuthority ixs := by
  have haccepts : (∃ l, compileLegacyWithDurableNonce payer nonceAccount nonceAuthority
      nonceBlockhash ixs = .ok l) ↔ _ := legacy_accepts_iff
  have hwrites : Writes (durable nonceAccount nonceAuthority ixs) ↔ _ := writes_durable
  refine ⟨fun h => ?_, fun h => ?_⟩
  · obtain ⟨w, hw⟩ := h
    obtain ⟨l, hl, hser⟩ := bind_eq_ok.mp hw
    obtain ⟨hsigners, hreadonly⟩ := haccepts.mp ⟨l, hl⟩
    obtain ⟨hkeys, hix⟩ := (legacy_returns_iff hl).mp ⟨w, hser⟩
    obtain ⟨hcount, hshort⟩ := hwrites.mp hix
    exact ⟨hcount, hshort, hkeys, hsigners, hreadonly⟩
  · obtain ⟨hcount, hshort, hkeys, hsigners, hreadonly⟩ := h
    obtain ⟨l, hl⟩ := haccepts.mpr ⟨hsigners, hreadonly⟩
    obtain ⟨w, hw⟩ := (legacy_returns_iff hl).mpr ⟨hkeys, hwrites.mpr ⟨hcount, hshort⟩⟩
    exact ⟨w, bind_eq_ok.mpr ⟨l, hl, hw⟩⟩

/-! ### Both formats -/

/-- No panic on the way from instructions to bytes. -/
structure BuildsAndSerializes (payer nonceAccount nonceAuthority : Pubkey) (nonceBlockhash : Hash)
    (ixs : List Instruction) (tables : List AddressLookupTableAccount) : Prop where
  v0 : ∀ m, compileV0WithDurableNonce payer nonceAccount nonceAuthority nonceBlockhash ixs tables
      = .ok m →
    Returns (VersionedTransaction.newUnsigned m).serialize ∧
      Returns (VersionedTransaction.newUnsigned m).toBase64 ∧
      Returns (VersionedTransaction.newUnsigned m).messageBytesToSign
  legacy : Returns (legacyBytes payer nonceAccount nonceAuthority nonceBlockhash ixs)

/-- **When building and serializing never panics**: exactly when there are few enough keys, signers
and instructions, and no instruction is too long. -/
theorem buildsAndSerializes_iff (payer nonceAccount nonceAuthority : Pubkey)
    (nonceBlockhash : Hash) (ixs : List Instruction) (tables : List AddressLookupTableAccount) :
    BuildsAndSerializes payer nonceAccount nonceAuthority nonceBlockhash ixs tables ↔
      WithinLimits payer nonceAccount nonceAuthority ixs := by
  refine ⟨fun h => ?_, fun h => ?_⟩
  · exact legacyBytes_returns_iff.mp h.legacy
  · have hix : Writes (durable nonceAccount nonceAuthority ixs) :=
      writes_durable.mpr ⟨h.instructions, h.instruction⟩
    refine ⟨fun m hm => ?_, legacyBytes_returns_iff.mpr h⟩
    obtain ⟨h1, h2, h3⟩ := v0_returns_iff hm
    exact ⟨h1.mpr hix, h2.mpr hix, h3.mpr hix⟩

/-- A memo of `n` letters. -/
def memoOf (n : ℕ) : Instruction := Memo.buildMemo (.ofList (List.replicate n 'a')) []

lemma memoOf_length (n : ℕ) : (memoOf n).data.length = n := by
  have hletter : 'a'.utf8Size = 1 := rfl
  simp [memoOf, Memo.buildMemo, List.length_flatMap, hletter]

/-- A memo that is too long compiles, and then panics. -/
theorem long_memo_panics :
    (∃ m, compileV0WithDurableNonce (sampleKey 1) (sampleKey 2) (sampleKey 1) .default
        [memoOf 65536] [] = .ok m ∧
      ¬Returns (VersionedTransaction.newUnsigned m).serialize) ∧
    ¬BuildsAndSerializes (sampleKey 1) (sampleKey 2) (sampleKey 1) .default [memoOf 65536] [] := by
  have hlong : ¬(memoOf 65536).data.length ≤ 65535 := by
    rw [memoOf_length]
    decide
  have hwrites : ¬Writes (durable (sampleKey 2) (sampleKey 1) [memoOf 65536]) := by
    intro h
    exact hlong ((writes_durable.mp h).2 _ List.mem_cons_self).2
  refine ⟨?_, fun h => ?_⟩
  · obtain ⟨m, hm⟩ : ∃ m, compileV0WithDurableNonce (sampleKey 1) (sampleKey 2) (sampleKey 1)
        .default [memoOf 65536] [] = .ok m :=
      v0_accepts_iff.mpr (by decide +kernel)
    exact ⟨m, hm, fun h => hwrites ((v0_returns_iff hm).1.mp h)⟩
  · have hlimits := legacyBytes_returns_iff.mp h.legacy
    exact hlong (hlimits.instruction _ List.mem_cons_self).2

end SvmWasiCore.WireLimits

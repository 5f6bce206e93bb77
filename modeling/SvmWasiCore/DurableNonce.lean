import SvmWasiCore.Compilation

/-!
Durable-nonce messages.

`AdvanceNonceAccount` leads the instruction list, so its accounts are laid out and numbered with all
others, and drained as others are, except the nonce account itself. What a v0 message means is read
off its indexes, its header and the lookup tables it names.
-/

namespace SvmWasiCore.DurableNonce

open Lib.ByteCodec Lib.Collect Lib.EntryMap MessageFormat MessageCompiler
open KeyClasses TableLookups Compilation

/-- What both entry points compile. -/
def durable (nonceAccount nonceAuthority : Pubkey) (ixs : List Instruction) : List Instruction :=
  System.advanceNonceAccount nonceAccount nonceAuthority :: ixs

variable {payer nonceAccount nonceAuthority : Pubkey} {nonceBlockhash : Hash}
  {ixs : List Instruction} {tables : List AddressLookupTableAccount} {m : MessageV0} {l : Message}

lemma v0_ok_iff : compileV0WithDurableNonce payer nonceAccount nonceAuthority nonceBlockhash ixs
    tables = .ok m ↔
      tryCompile payer (durable nonceAccount nonceAuthority ixs) tables nonceBlockhash = .ok m :=
  Iff.rfl

lemma legacy_ok_iff : compileLegacyWithDurableNonce payer nonceAccount nonceAuthority
    nonceBlockhash ixs = .ok l ↔ ∃ header,
      (compile (durable nonceAccount nonceAuthority ixs) payer).tryIntoMessageComponents =
        .ok (header, (compile (durable nonceAccount nonceAuthority ixs) payer).staticAccountKeys) ∧
      l = ⟨header, (compile (durable nonceAccount nonceAuthority ixs) payer).staticAccountKeys,
        nonceBlockhash, (durable nonceAccount nonceAuthority ixs).map (indexed
          (compile (durable nonceAccount nonceAuthority ixs) payer).staticAccountKeys)⟩ := by
  unfold compileLegacyWithDurableNonce
  refine ⟨fun h => ?_, fun h => ?_⟩
  · obtain ⟨l', hl', h⟩ := bind_eq_ok.mp h
    obtain ⟨header, hparts, rfl⟩ := newMessage_ok_iff.mp hl'
    cases h
    exact ⟨header, hparts, rfl⟩
  · obtain ⟨header, hparts, rfl⟩ := h
    have hnew := newMessage_ok_iff.mpr ⟨header, hparts, rfl⟩
    change (newMessage (durable nonceAccount nonceAuthority ixs) payer >>= _) = _
    rw [hnew]
    rfl

/-! ### Meaning -/

/-- The message `m` says what the instructions say: read through the header and the loaded keys,
it is the same list, and nobody signs or writes for want of a flag. -/
structure Preserves (payer : Pubkey) (ixs : List Instruction) (blockhash : Hash) (m : MessageV0)
    (writable readonly : List Pubkey) : Prop where
  instructions : m.instructions.mapM (resolve (m.accountKeys ++ writable ++ readonly)) =
    some (ixs.map Instruction.bare)
  signers : ∀ k, MarkedSigner ixs k → k ∈ signerKeys m.header m.accountKeys
  writables : ∀ k, MarkedWritable ixs k →
    k ∈ writableKeys m.header m.accountKeys ∨ k ∈ writable
  noNewSigner : ∀ k ∈ signerKeys m.header m.accountKeys, k = payer ∨ MarkedSigner ixs k
  payer_first : m.accountKeys[0]? = some payer
  recentBlockhash : m.recentBlockhash = blockhash

lemma preserves_of_built {blockhash : Hash} {map : KeyMetaMap}
    {ls : List (MessageAddressTableLookup × LoadedAddresses)}
    (h : Built payer ixs tables blockhash ls map m) :
    Preserves payer ixs blockhash m (writableOf ls) (readonlyOf ls) where
  instructions := by
    have hall : m.accountKeys ++ writableOf ls ++ readonlyOf ls = allKeys payer map ls := by
      rw [h.accountKeys, List.append_assoc]
      rfl
    have hcovers : ∀ ix ∈ ixs, Covers (allKeys payer map ls) ix :=
      covers_keySet fun _ hk => (mem_allKeys h.extracted).mpr hk
    rw [hall, h.instructions]
    exact mapM_some fun ix hix => resolve_indexed h.length_le (hcovers ix hix)
  signers k hk := by
    rw [h.accountKeys, mem_signerKeys_static h.header, h.extracted.rest, signer_compile]
    by_cases hl : k ∈ keysOf ls
    · exact absurd hk (not_signer_of_loaded h.extracted hl).2.1
    · exact .inr ⟨hl, .inr hk⟩
  writables k hk := by
    rw [h.accountKeys, mem_writableKeys_static h.header, h.extracted.rest, writable_compile]
    by_cases hl : k ∈ keysOf ls
    · obtain ⟨hp, hs, hi, hn⟩ := not_signer_of_loaded h.extracted hl
      have hw : Writable (compile ixs payer).keyMetaMap k := by
        rw [writable_iff, signer_compile, invoked_compile, nonce_compile, writable_compile]
        exact ⟨fun h => h.elim hp hs, hi, hn, .inr hk⟩
      exact .inr (h.extracted.writable_of_mem hw hl)
    · exact .inl (.inr ⟨hl, .inr hk⟩)
  noNewSigner k hk := by
    rw [h.accountKeys, mem_signerKeys_static h.header, h.extracted.rest, signer_compile] at hk
    rcases hk with hk | ⟨-, hk⟩
    · exact .inl hk
    · exact hk
  payer_first := by
    rw [h.accountKeys]
    rfl
  recentBlockhash := h.recentBlockhash

/-- The lookups load, from tables with the supplied addresses, what the compiler took. -/
lemma loads_addresses {ls : List (MessageAddressTableLookup × LoadedAddresses)}
    (h : Loads tables ls) {addresses : Pubkey → List Pubkey}
    (ht : ∀ t ∈ tables, addresses t.key = t.addresses) :
    (ls.map (·.1)).mapM (loadFrom addresses) = some (ls.map (·.2)) := by
  refine mapM_some fun l hl => ?_
  obtain ⟨t, htable, hreads⟩ := h.exists_table hl
  exact hreads.loadFrom_eq (ht t htable)

/-- **Durable-nonce v0 compilation preserves meaning**: the lookups of the message read their keys
out of the supplied tables, and with these keys the message says what the nonce advance and the
instructions say. -/
theorem v0_preserves (payer nonceAccount nonceAuthority : Pubkey) (nonceBlockhash : Hash)
    (ixs : List Instruction) (tables : List AddressLookupTableAccount) (m : MessageV0)
    (h : compileV0WithDurableNonce payer nonceAccount nonceAuthority nonceBlockhash ixs tables
      = .ok m) :
    ∃ ls, Loads tables ls ∧ m.addressTableLookups = ls.map (·.1) ∧
      (∀ addresses : Pubkey → List Pubkey, (∀ t ∈ tables, addresses t.key = t.addresses) →
        m.addressTableLookups.mapM (loadFrom addresses) = some (ls.map (·.2))) ∧
      Preserves payer (System.advanceNonceAccount nonceAccount nonceAuthority :: ixs)
        nonceBlockhash m (writableOf ls) (readonlyOf ls) := by
  obtain ⟨ls, map, hb⟩ := built_of_tryCompile (v0_ok_iff.mp h)
  have hloads := hb.extracted.loads
  refine ⟨ls, hloads, hb.addressTableLookups, fun addresses ht => ?_, preserves_of_built hb⟩
  rw [hb.addressTableLookups]
  exact loads_addresses hloads ht

/-- A table that lists the nonce account `sampleKey 2`, and the receiver of a payment. -/
def sampleTable : AddressLookupTableAccount := ⟨sampleKey 9, [sampleKey 2, sampleKey 3]⟩

/-- A transfer of one lamport from `sampleKey 1` to `sampleKey 3`. -/
def payment : Instruction where
  programId := System.id
  accounts := [.new (sampleKey 1) true, .new (sampleKey 3) false]
  data := [2, 0, 0, 0, 1, 0, 0, 0, 0, 0, 0, 0]

/-- Compiled with `sampleTable`: the receiver is loaded, at index 4, and the nonce is not. -/
def paymentMessage : MessageV0 where
  header := ⟨1, 0, 2⟩
  accountKeys := [sampleKey 1, sampleKey 2, System.id, System.recentBlockhashesSysvarId]
  recentBlockhash := .default
  instructions := [⟨2, [1, 3, 0], [4, 0, 0, 0]⟩, ⟨2, [0, 4], [2, 0, 0, 0, 1, 0, 0, 0, 0, 0, 0, 0]⟩]
  addressTableLookups := [⟨sampleKey 9, [1], []⟩]

lemma compile_payment : compileV0WithDurableNonce (sampleKey 1) (sampleKey 2) (sampleKey 1)
    .default [payment] [sampleTable] = .ok paymentMessage := by
  decide +kernel

theorem v0_preserves_payment : ∃ ls, Loads [sampleTable] ls ∧
    paymentMessage.addressTableLookups = ls.map (·.1) ∧
    (∀ addresses : Pubkey → List Pubkey, (∀ t ∈ [sampleTable], addresses t.key = t.addresses) →
      paymentMessage.addressTableLookups.mapM (loadFrom addresses) = some (ls.map (·.2))) ∧
    Preserves (sampleKey 1) [System.advanceNonceAccount (sampleKey 2) (sampleKey 1), payment]
      .default paymentMessage (writableOf ls) (readonlyOf ls) :=
  v0_preserves (sampleKey 1) (sampleKey 2) (sampleKey 1) .default [payment] [sampleTable]
    paymentMessage compile_payment

/-! ### Where the nonce account stands -/

/-- The nonce is a static key, and the first instruction names it by a static index. -/
def NonceStatic (nonceAccount : Pubkey) (m : MessageV0) : Prop :=
  nonceAccount ∈ m.accountKeys ∧ ∃ first rest index others, m.instructions = first :: rest ∧
    first.accounts = index :: others ∧ index.toNat < m.accountKeys.length ∧
      m.accountKeys[index.toNat]? = some nonceAccount

lemma nonce_mem_keySet : nonceAccount ∈ keySet (durable nonceAccount nonceAuthority ixs) payer :=
  mem_keySet.mpr (.inr ⟨_, List.mem_cons_self, .inr ⟨_, List.mem_cons_self, rfl⟩⟩)

lemma getNoncePubkey_durable :
    getNoncePubkey (durable nonceAccount nonceAuthority ixs) = some nonceAccount := rfl

/-- **The nonce account is a static key**, whatever the tables list and whatever the instructions
make of it. -/
theorem nonce_static (payer nonceAccount nonceAuthority : Pubkey) (nonceBlockhash : Hash)
    (ixs : List Instruction) (tables : List AddressLookupTableAccount) (m : MessageV0)
    (h : compileV0WithDurableNonce payer nonceAccount nonceAuthority nonceBlockhash ixs tables
      = .ok m) : NonceStatic nonceAccount m := by
  obtain ⟨ls, map, hb⟩ := built_of_tryCompile (v0_ok_iff.mp h)
  have hkept : nonceAccount ∉ keysOf ls := fun hl =>
    (not_signer_of_loaded hb.extracted hl).2.2.2 getNoncePubkey_durable
  have hmem : nonceAccount ∈ m.accountKeys := by
    rw [hb.accountKeys, mem_static_iff hb.extracted]
    exact ⟨nonce_mem_keySet, hkept⟩
  -- the numbering starts with the static keys, so the nonce has its place among them as index
  have hindex : (indexOf (allKeys payer map ls) nonceAccount).toNat =
      m.accountKeys.idxOf nonceAccount := by
    have hall : nonceAccount ∈ allKeys payer map ls :=
      (mem_allKeys hb.extracted).mpr nonce_mem_keySet
    rw [indexOf_toNat hb.length_le hall, allKeys, ← hb.accountKeys, List.idxOf_append_of_mem hmem]
  refine ⟨hmem, _, _, indexOf (allKeys payer map ls) nonceAccount, _, hb.instructions, rfl, ?_⟩
  rw [hindex]
  exact ⟨List.idxOf_lt_length_of_mem hmem, List.getElem?_idxOf hmem⟩

theorem nonce_static_payment : NonceStatic (sampleKey 2) paymentMessage :=
  nonce_static _ _ _ _ _ _ _ compile_payment

/-! ### The two formats -/

/-- The compilers agree when there are no tables: they accept the same inputs, and build messages
that say the same. -/
structure Agree (payer nonceAccount nonceAuthority : Pubkey) (nonceBlockhash : Hash)
    (ixs : List Instruction) : Prop where
  accept : (∃ m, compileV0WithDurableNonce payer nonceAccount nonceAuthority nonceBlockhash ixs []
    = .ok m) ↔ ∃ l, compileLegacyWithDurableNonce payer nonceAccount nonceAuthority nonceBlockhash
      ixs = .ok l
  same : ∀ l m, compileLegacyWithDurableNonce payer nonceAccount nonceAuthority nonceBlockhash ixs
      = .ok l →
    compileV0WithDurableNonce payer nonceAccount nonceAuthority nonceBlockhash ixs [] = .ok m →
    m = ⟨l.header, l.accountKeys, l.recentBlockhash, l.instructions, []⟩

lemma legacy_accepts_iff : (∃ l, compileLegacyWithDurableNonce payer nonceAccount nonceAuthority
    nonceBlockhash ixs = .ok l) ↔
      (signerSet (durable nonceAccount nonceAuthority ixs) payer).card ≤ 255 ∧
      (readonlyUnsignedSet (durable nonceAccount nonceAuthority ixs) payer).card ≤ 255 := by
  rw [← components_ok_iff_fits]
  refine ⟨fun h => ?_, fun h => ?_⟩
  · obtain ⟨l, hl⟩ := h
    obtain ⟨header, hparts, -⟩ := legacy_ok_iff.mp hl
    exact ⟨header, hparts⟩
  · obtain ⟨header, hparts⟩ := h
    exact ⟨_, legacy_ok_iff.mpr ⟨header, hparts, rfl⟩⟩

/-- The v0 compiler asks for one thing more: that there are no more than 256 keys. -/
lemma v0_accepts_iff : (∃ m, compileV0WithDurableNonce payer nonceAccount nonceAuthority
    nonceBlockhash ixs [] = .ok m) ↔
      ((signerSet (durable nonceAccount nonceAuthority ixs) payer).card ≤ 255 ∧
      (readonlyUnsignedSet (durable nonceAccount nonceAuthority ixs) payer).card ≤ 255) ∧
      (keySet (durable nonceAccount nonceAuthority ixs) payer).card ≤ 256 := by
  rw [← components_ok_iff_fits, ← compile_static_length]
  refine ⟨fun h => ?_, fun h => ?_⟩
  · obtain ⟨m, hm⟩ := h
    obtain ⟨header, hparts, hlen, -⟩ := tryCompile_nil_ok_iff.mp (v0_ok_iff.mp hm)
    exact ⟨⟨header, hparts⟩, hlen⟩
  · obtain ⟨⟨header, hparts⟩, hlen⟩ := h
    exact ⟨_, v0_ok_iff.mpr (tryCompile_nil_ok_iff.mpr ⟨header, hparts, hlen, rfl⟩)⟩

lemma same_message (hl : compileLegacyWithDurableNonce payer nonceAccount nonceAuthority
      nonceBlockhash ixs = .ok l)
    (hm : compileV0WithDurableNonce payer nonceAccount nonceAuthority nonceBlockhash ixs []
      = .ok m) :
    m = ⟨l.header, l.accountKeys, l.recentBlockhash, l.instructions, []⟩ := by
  obtain ⟨header, hparts, rfl⟩ := legacy_ok_iff.mp hl
  obtain ⟨header', hparts', -, rfl⟩ := tryCompile_nil_ok_iff.mp (v0_ok_iff.mp hm)
  rw [hparts] at hparts'
  cases hparts'
  rfl

/-- **When the legacy and v0 compilers agree**: unless there are more than 256 keys and the header
counts fit all the same, when only the v0 compiler refuses. -/
theorem agree_iff (payer nonceAccount nonceAuthority : Pubkey) (nonceBlockhash : Hash)
    (ixs : List Instruction) :
    Agree payer nonceAccount nonceAuthority nonceBlockhash ixs ↔
      (keySet (System.advanceNonceAccount nonceAccount nonceAuthority :: ixs) payer).card ≤ 256 ∨
      255 < (signerSet (System.advanceNonceAccount nonceAccount nonceAuthority :: ixs) payer).card ∨
      255 < (readonlyUnsignedSet (System.advanceNonceAccount nonceAccount nonceAuthority :: ixs)
        payer).card := by
  have hiff : Agree payer nonceAccount nonceAuthority nonceBlockhash ixs ↔
      ((∃ m, compileV0WithDurableNonce payer nonceAccount nonceAuthority nonceBlockhash ixs []
        = .ok m) ↔ ∃ l, compileLegacyWithDurableNonce payer nonceAccount nonceAuthority
          nonceBlockhash ixs = .ok l) :=
    ⟨fun h => h.accept, fun h => ⟨h, fun _ _ => same_message⟩⟩
  rw [hiff, v0_accepts_iff, legacy_accepts_iff]
  change _ ↔ (keySet (durable _ _ ixs) payer).card ≤ 256 ∨
    255 < (signerSet (durable _ _ ixs) payer).card ∨
      255 < (readonlyUnsignedSet (durable _ _ ixs) payer).card
  omega

/-- Where they differ, the v0 compiler reports the overflow. -/
lemma v0_overflow (hfits : HeaderFits (compile (durable nonceAccount nonceAuthority ixs) payer))
    (hcard : 256 < (keySet (durable nonceAccount nonceAuthority ixs) payer).card) :
    compileV0WithDurableNonce payer nonceAccount nonceAuthority nonceBlockhash ixs []
      = .error .accountIndexOverflow := by
  obtain ⟨header, hparts⟩ := components_of_fits hfits
  rw [← compile_static_length] at hcard
  change tryCompile payer (durable nonceAccount nonceAuthority ixs) [] nonceBlockhash = _
  rw [tryCompile_nil, hparts]
  change (tryCompileInstructions _ (durable nonceAccount nonceAuthority ixs) >>= _) = _
  rw [tryCompileInstructions_overflow hcard]
  rfl

/-- An instruction with `n` writable accounts that do not sign. -/
def wideInstruction (n : ℕ) : Instruction where
  programId := sampleKey n
  accounts := (List.range n).map fun i => .new (sampleKey i) false
  data := []

/-- It, behind the nonce advance. -/
def wide (n : ℕ) : List Instruction := durable (sampleKey 2) (sampleKey 1) [wideInstruction n]

lemma sampleKey_inj {a b : ℕ} (ha : a < 256 ^ 32) (hb : b < 256 ^ 32)
    (h : sampleKey a = sampleKey b) : a = b := by
  have hle := congrArg (fun k : Pubkey => Lib.LittleEndian.ofLe k.bytes.toList) h
  simp only [sampleKey] at hle
  rwa [Lib.LittleEndian.ofLe_toLe_of_lt ha, Lib.LittleEndian.ofLe_toLe_of_lt hb] at hle

lemma wide_keys {n : ℕ} (hn : n ≤ 256 ^ 32) : n ≤ (keySet (wide n) (sampleKey 1)).card := by
  have hinj : Set.InjOn sampleKey (Finset.range n) := by
    intro a ha b hb h
    rw [Finset.coe_range, Set.mem_Iio] at ha hb
    exact sampleKey_inj (by omega) (by omega) h
  have hsub : (Finset.range n).image sampleKey ⊆ keySet (wide n) (sampleKey 1) := by
    intro k hk
    obtain ⟨i, hi, rfl⟩ := Finset.mem_image.mp hk
    refine mem_keySet.mpr (.inr ⟨wideInstruction n, by simp [wide, durable], .inr ?_⟩)
    refine ⟨.new (sampleKey i) false, ?_, rfl⟩
    exact List.mem_map_of_mem (List.mem_range.mpr (Finset.mem_range.mp hi))
  calc n = ((Finset.range n).image sampleKey).card := by
        rw [Finset.card_image_of_injOn hinj, Finset.card_range]
    _ ≤ _ := Finset.card_le_card hsub

lemma signerSet_wide_subset (n : ℕ) : signerSet (wide n) (sampleKey 1) ⊆ {sampleKey 1} := by
  intro k hk
  rw [Finset.mem_singleton]
  rcases (Finset.mem_filter.mp hk).2 with rfl | ⟨ix, hix, a, ha, rfl, hsigner⟩
  · rfl
  · rcases List.mem_cons.mp hix with rfl | hix
    · simp only [System.advanceNonceAccount, List.mem_cons, List.not_mem_nil, or_false] at ha
      rcases ha with rfl | rfl | rfl
      · cases hsigner
      · cases hsigner
      · rfl
    · obtain rfl := List.mem_singleton.mp hix
      obtain ⟨i, -, rfl⟩ := List.mem_map.mp ha
      cases hsigner

/-- All the accounts of the last instruction are written. -/
lemma readonlyUnsignedSet_wide_subset (n : ℕ) : readonlyUnsignedSet (wide n) (sampleKey 1) ⊆
    {System.id, System.recentBlockhashesSysvarId, sampleKey n} := by
  intro k hk
  obtain ⟨hk, hpayer, -, hreadonly⟩ := Finset.mem_filter.mp hk
  rw [Finset.mem_insert, Finset.mem_insert, Finset.mem_singleton]
  rcases mem_keySet.mp hk with rfl | ⟨ix, hix, hkey⟩
  · exact absurd rfl hpayer
  · have hwrites {a : AccountMeta} (ha : a ∈ ix.accounts) (hw : a.isWritable) :
        MarkedWritable (wide n) a.pubkey := ⟨ix, hix, a, ha, rfl, hw⟩
    rcases List.mem_cons.mp hix with rfl | hix'
    · rcases hkey with rfl | ⟨a, ha, rfl⟩
      · exact .inl rfl
      · have ha' := ha
        simp only [System.advanceNonceAccount, List.mem_cons, List.not_mem_nil, or_false] at ha'
        rcases ha' with rfl | rfl | rfl
        · exact absurd (hwrites ha rfl) hreadonly
        · exact .inr (.inl rfl)
        · exact absurd rfl hpayer
    · obtain rfl := List.mem_singleton.mp hix'
      rcases hkey with rfl | ⟨a, ha, rfl⟩
      · exact .inr (.inr rfl)
      · obtain ⟨i, -, rfl⟩ := List.mem_map.mp ha
        exact absurd (hwrites ha rfl) hreadonly

lemma wide_fits (n : ℕ) : (signerSet (wide n) (sampleKey 1)).card ≤ 255 ∧
    (readonlyUnsignedSet (wide n) (sampleKey 1)).card ≤ 255 := by
  refine ⟨?_, ?_⟩
  · exact (Finset.card_le_card (signerSet_wide_subset n)).trans (by simp)
  · exact (Finset.card_le_card (readonlyUnsignedSet_wide_subset n)).trans
      (Finset.card_le_three.trans (by decide))

/-- The legacy compiler returns a message for 300 keys, the v0 compiler an overflow. -/
theorem wide_disagree :
    (∃ l, compileLegacyWithDurableNonce (sampleKey 1) (sampleKey 2) (sampleKey 1) .default
      [wideInstruction 300] = .ok l) ∧
    compileV0WithDurableNonce (sampleKey 1) (sampleKey 2) (sampleKey 1) .default
      [wideInstruction 300] [] = .error .accountIndexOverflow ∧
    ¬Agree (sampleKey 1) (sampleKey 2) (sampleKey 1) .default [wideInstruction 300] := by
  have hfits := wide_fits 300
  have hcard : 256 < (keySet (wide 300) (sampleKey 1)).card := by
    have := wide_keys (n := 300) (by norm_num)
    omega
  have hlegacy : ∃ l, compileLegacyWithDurableNonce (sampleKey 1) (sampleKey 2) (sampleKey 1)
      .default [wideInstruction 300] = .ok l := legacy_accepts_iff.mpr hfits
  refine ⟨hlegacy, v0_overflow (compile_headerFits.mpr hfits) hcard, fun h => ?_⟩
  have hv0 := v0_accepts_iff.mp (h.accept.mpr hlegacy)
  exact absurd hv0.2 (Nat.not_le.mpr hcard)

end SvmWasiCore.DurableNonce

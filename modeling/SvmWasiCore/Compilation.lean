import SvmWasiCore.TableLookups

/-!
What the two compilers produce.

Both number the same keys by their position. As long as every position fits in a byte, the indexes
of a compiled instruction read the instruction back; past 256 keys the v0 compiler stops with an
error and the legacy one keeps the low byte.
-/

namespace SvmWasiCore.Compilation

open Lib.ByteCodec Lib.Collect Lib.EntryMap MessageFormat MessageCompiler KeyClasses TableLookups

/-! ### Instructions as indexes -/

/-- The position of a key, cut to a byte. -/
def indexOf (keys : List Pubkey) (k : Pubkey) : UInt8 := .ofNat (keys.idxOf k)

/-- An instruction with every key replaced by its position. -/
def indexed (keys : List Pubkey) (ix : Instruction) : CompiledInstruction where
  programIdIndex := indexOf keys ix.programId
  accounts := ix.accounts.map fun a => indexOf keys a.pubkey
  data := ix.data

/-- Reads every index of a compiled instruction. -/
def resolve (keys : List Pubkey) (ix : CompiledInstruction) : Option Instruction.Bare := do
  let programId ← keys[ix.programIdIndex.toNat]?
  let accounts ← ix.accounts.mapM fun i => keys[i.toNat]?
  return ⟨programId, accounts, ix.data⟩

variable {keys : List Pubkey} {ix : Instruction} {ixs : List Instruction} {k : Pubkey}

lemma indexOf_toNat (hlen : keys.length ≤ 256) (hk : k ∈ keys) :
    (indexOf keys k).toNat = keys.idxOf k := by
  have := List.idxOf_lt_length_of_mem hk
  rw [indexOf, UInt8.toNat_ofNat']
  omega

lemma getElem?_indexOf (hlen : keys.length ≤ 256) (hk : k ∈ keys) :
    keys[(indexOf keys k).toNat]? = some k := by
  rw [indexOf_toNat hlen hk, List.getElem?_idxOf hk]

/-- The instruction's keys are all there. -/
def Covers (keys : List Pubkey) (ix : Instruction) : Prop := ∀ k ∈ ix.keys, k ∈ keys

lemma Covers.programId (h : Covers keys ix) : ix.programId ∈ keys := h _ List.mem_cons_self

lemma Covers.account (h : Covers keys ix) {a : AccountMeta} (ha : a ∈ ix.accounts) :
    a.pubkey ∈ keys := h _ (List.mem_cons_of_mem _ (List.mem_map_of_mem ha))

/-- Up to 256 keys, the indexes read the instruction back. -/
lemma resolve_indexed (hlen : keys.length ≤ 256) (h : Covers keys ix) :
    resolve keys (indexed keys ix) = some ix.bare := by
  have haccounts : (ix.accounts.map fun a => indexOf keys a.pubkey).mapM
      (fun i => keys[i.toNat]?) = some (ix.accounts.map (·.pubkey)) :=
    mapM_some fun a ha => getElem?_indexOf hlen (h.account ha)
  simp only [resolve, indexed]
  rw [getElem?_indexOf hlen h.programId, haccounts]
  rfl

/-! ### The v0 numbering -/

/-- The loop numbers keys that are all different by their position. -/
lemma accountIndexMap_ok (hnd : keys.Nodup) {index : ℕ} (hlen : index + keys.length ≤ 256)
    (map : Std.TreeMap Pubkey UInt8) : ∃ indexes, accountIndexMap map index keys = .ok indexes ∧
      ∀ k, indexes[k]? = if k ∈ keys then some (.ofNat (index + keys.idxOf k)) else map[k]? := by
  induction keys generalizing index map with
  | nil => exact ⟨map, rfl, by simp⟩
  | cons key keys ih =>
    obtain ⟨hkey, hnd⟩ := List.nodup_cons.mp hnd
    rw [List.length_cons] at hlen
    obtain ⟨indexes, hok, hget⟩ :=
      ih hnd (by omega : index + 1 + keys.length ≤ 256) (map.insert key (.ofNat index))
    refine ⟨indexes, ?_, fun k => ?_⟩
    · rw [accountIndexMap, tryIntoU8, if_pos (by omega : index ≤ 255)]
      exact hok
    · rw [hget, Std.TreeMap.getElem?_insert]
      by_cases hk : k ∈ keys
      · have hne : key ≠ k := by
          rintro rfl
          exact hkey hk
        rw [if_pos hk, if_pos (List.mem_cons_of_mem _ hk), List.idxOf_cons_ne _ hne]
        congr 2
        omega
      · by_cases he : key = k
        · subst he
          simp [hkey]
        · simp [hk, he, Ne.symm he]

/-- It stops at the first position past a byte. -/
lemma accountIndexMap_overflow {index : ℕ} (hi : index ≤ 256) (hlen : 256 < index + keys.length)
    (map : Std.TreeMap Pubkey UInt8) :
    accountIndexMap map index keys = .error .accountIndexOverflow := by
  induction keys generalizing index map with
  | nil =>
    rw [List.length_nil] at hlen
    omega
  | cons key keys ih =>
    rw [List.length_cons] at hlen
    rw [accountIndexMap, tryIntoU8]
    split_ifs with h
    · exact ih (by omega) (by omega) _
    · rfl

lemma tryCompileInstructions_ok (hnd : keys.Nodup) (hlen : keys.length ≤ 256)
    (h : ∀ ix ∈ ixs, Covers keys ix) :
    tryCompileInstructions keys ixs = .ok (ixs.map (indexed keys)) := by
  obtain ⟨indexes, hok, hget⟩ := accountIndexMap_ok hnd (by omega : 0 + keys.length ≤ 256) ∅
  have hindex {k : Pubkey} (hk : k ∈ keys) :
      getAccountIndex indexes k = .ok (indexOf keys k) := by
    rw [getAccountIndex, hget, if_pos hk, Nat.zero_add]
    rfl
  have hix : ∀ ix ∈ ixs, tryCompileInstruction indexes ix = .ok (indexed keys ix) := by
    intro ix hix
    have haccounts := mapM_ok fun (a : AccountMeta) ha => hindex ((h ix hix).account ha)
    rw [tryCompileInstruction, haccounts, hindex (h ix hix).programId]
    rfl
  rw [tryCompileInstructions, hok]
  exact mapM_ok hix

lemma tryCompileInstructions_overflow (hlen : 256 < keys.length) :
    tryCompileInstructions keys ixs = .error .accountIndexOverflow := by
  rw [tryCompileInstructions, accountIndexMap_overflow (by omega) (by omega)]
  rfl

/-! ### The legacy numbering -/

lemma compileInstructions_ok (h : ∀ ix ∈ ixs, Covers keys ix) :
    ixs.mapM (compileInstruction keys) = .ok (ixs.map (indexed keys)) := by
  have hindex {k : Pubkey} (hk : k ∈ keys) : positionAsU8 keys k = .ok (indexOf keys k) := by
    rw [positionAsU8, position_eq_some_iff.mpr ⟨hk, rfl⟩]
    rfl
  refine mapM_ok fun ix hix => ?_
  have haccounts := mapM_ok fun (a : AccountMeta) ha => hindex ((h ix hix).account ha)
  rw [compileInstruction, haccounts, hindex (h ix hix).programId]
  rfl

/-! ### The v0 compiler -/

variable {payer : Pubkey} {tables : List AddressLookupTableAccount} {blockhash : Hash}
  {m : MessageV0} {ls : List (MessageAddressTableLookup × LoadedAddresses)} {map : KeyMetaMap}

lemma covers_keySet (hkeys : ∀ k, k ∈ keySet ixs payer → k ∈ keys) :
    ∀ ix ∈ ixs, Covers keys ix := by
  intro ix hix k hk
  refine hkeys k (mem_keySet.mpr (.inr ⟨ix, hix, ?_⟩))
  rcases List.mem_cons.mp hk with rfl | hk
  · exact .inl rfl
  · obtain ⟨a, ha, hak⟩ := List.mem_map.mp hk
    exact .inr ⟨a, ha, hak⟩

/-- The static keys of a layout and what the tables took. -/
def allKeys (payer : Pubkey) (map : KeyMetaMap)
    (ls : List (MessageAddressTableLookup × LoadedAddresses)) : List Pubkey :=
  (CompiledKeys.mk payer map).staticAccountKeys ++ keysOf ls

/-- A key a table took is neither the payer nor a signer nor a program nor the nonce account. -/
lemma not_signer_of_loaded (h : Extracted (compile ixs payer).keyMetaMap tables ls map)
    (hk : k ∈ keysOf ls) :
    k ≠ payer ∧ ¬MarkedSigner ixs k ∧ ¬Invoked ixs k ∧ getNoncePubkey ixs ≠ some k := by
  have hs : _ ↔ k = payer ∨ MarkedSigner ixs k := signer_compile
  have hi : Holds (fun m => m.isInvoked) (compile ixs payer).keyMetaMap k ↔ _ := invoked_compile
  have hn : Holds (fun m => m.isNonce) (compile ixs payer).keyMetaMap k ↔ _ := nonce_compile
  rcases List.mem_append.mp hk with hw | hr
  · have := writable_iff.mp ((h.writable k).mp hw).1
    tauto
  · have := readonly_iff.mp ((h.readonly k).mp hr).1
    tauto

lemma present_of_loaded (h : Extracted (compile ixs payer).keyMetaMap tables ls map)
    (hk : k ∈ keysOf ls) : k ∈ keySet ixs payer := by
  rw [← present_compile]
  rcases List.mem_append.mp hk with hw | hr
  · exact ((h.writable k).mp hw).1.present
  · exact ((h.readonly k).mp hr).1.present

/-- The static keys are the ones no table took. -/
lemma mem_static_iff (h : Extracted (compile ixs payer).keyMetaMap tables ls map) :
    k ∈ (CompiledKeys.mk payer map).staticAccountKeys ↔ k ∈ keySet ixs payer ∧ k ∉ keysOf ls := by
  rw [mem_staticAccountKeys, h.rest, present_compile]
  refine ⟨fun h' => ?_, fun h => ?_⟩
  · rcases h' with rfl | hk
    · exact ⟨payer_mem_keySet, fun hk => (not_signer_of_loaded h hk).1 rfl⟩
    · exact hk.symm
  · obtain ⟨hk, hn⟩ := h
    exact .inr ⟨hn, hk⟩

lemma mem_allKeys (h : Extracted (compile ixs payer).keyMetaMap tables ls map) :
    k ∈ allKeys payer map ls ↔ k ∈ keySet ixs payer := by
  rw [allKeys, List.mem_append, mem_static_iff h]
  refine ⟨fun h' => ?_, fun hk => ?_⟩
  · rcases h' with hk | hk
    · exact hk.1
    · exact present_of_loaded h hk
  · by_cases hl : k ∈ keysOf ls
    · exact .inr hl
    · exact .inl ⟨hk, hl⟩

lemma allKeys_nodup (h : Extracted (compile ixs payer).keyMetaMap tables ls map) :
    (allKeys payer map ls).Nodup := by
  refine staticAccountKeys_nodup.append h.nodup fun k hk hl => ?_
  exact ((mem_static_iff h).mp hk).2 hl

/-- A v0 message as the compiler builds it, with the map and the lookups behind it. -/
structure Built (payer : Pubkey) (ixs : List Instruction)
    (tables : List AddressLookupTableAccount) (blockhash : Hash)
    (ls : List (MessageAddressTableLookup × LoadedAddresses)) (map : KeyMetaMap)
    (m : MessageV0) : Prop where
  extracted : Extracted (compile ixs payer).keyMetaMap tables ls map
  header : HeaderOf ⟨payer, map⟩ m.header
  accountKeys : m.accountKeys = (CompiledKeys.mk payer map).staticAccountKeys
  length_le : (allKeys payer map ls).length ≤ 256
  instructions : m.instructions = ixs.map (indexed (allKeys payer map ls))
  addressTableLookups : m.addressTableLookups = ls.map (·.1)
  recentBlockhash : m.recentBlockhash = blockhash

lemma built_of_tryCompile (h : tryCompile payer ixs tables blockhash = .ok m) :
    ∃ ls map, Built payer ixs tables blockhash ls map m := by
  obtain ⟨⟨ls, map⟩, hls, h⟩ := bind_eq_ok.mp h
  obtain ⟨⟨header, static⟩, hparts, h⟩ := bind_eq_ok.mp h
  obtain ⟨instructions, hix, h⟩ := bind_eq_ok.mp h
  cases h
  have hext := extracted_of_extractTableLookups hls
  obtain ⟨-, hheader, rfl⟩ := components_ok hparts
  rw [loadedKeys_map] at hix
  change tryCompileInstructions (allKeys payer map ls) ixs = _ at hix
  have hlen : (allKeys payer map ls).length ≤ 256 := by
    by_contra hlong
    rw [tryCompileInstructions_overflow (by omega)] at hix
    cases hix
  rw [tryCompileInstructions_ok (allKeys_nodup hext) hlen
    (covers_keySet fun k => (mem_allKeys hext).mpr)] at hix
  cases hix
  exact ⟨ls, map, hext, hheader, rfl, hlen, rfl, rfl, rfl⟩

/-! ### Both compilers on the same keys -/

lemma covers_static : ∀ ix ∈ ixs, Covers (compile ixs payer).staticAccountKeys ix :=
  covers_keySet fun _ hk => mem_staticAccountKeys.mpr (.inr (present_compile.mpr hk))

lemma tryCompile_nil : tryCompile payer ixs [] blockhash = (do
    let (header, static) ← (compile ixs payer).tryIntoMessageComponents
    let instructions ← tryCompileInstructions static ixs
    return ⟨header, static, blockhash, instructions, []⟩) := by
  unfold tryCompile
  change (CompiledKeys.tryIntoMessageComponents (compile ixs payer) >>= _) = _
  simp [loadedKeys]

/-- Without tables, the v0 compiler lays out all keys and accepts up to 256 of them. -/
lemma tryCompile_nil_ok_iff : tryCompile payer ixs [] blockhash = .ok m ↔
    ∃ header, (compile ixs payer).tryIntoMessageComponents =
        .ok (header, (compile ixs payer).staticAccountKeys) ∧
      (compile ixs payer).staticAccountKeys.length ≤ 256 ∧
      m = ⟨header, (compile ixs payer).staticAccountKeys, blockhash,
        ixs.map (indexed (compile ixs payer).staticAccountKeys), []⟩ := by
  rw [tryCompile_nil]
  refine ⟨fun h => ?_, fun h => ?_⟩
  · obtain ⟨⟨header, static⟩, hparts, h⟩ := bind_eq_ok.mp h
    obtain ⟨instructions, hix, h⟩ := bind_eq_ok.mp h
    obtain ⟨-, -, rfl⟩ := components_ok hparts
    have hlen : (compile ixs payer).staticAccountKeys.length ≤ 256 := by
      by_contra hlong
      rw [tryCompileInstructions_overflow (by omega)] at hix
      cases hix
    rw [tryCompileInstructions_ok staticAccountKeys_nodup hlen covers_static] at hix
    cases hix
    cases h
    exact ⟨header, hparts, hlen, rfl⟩
  · obtain ⟨header, hparts, hlen, rfl⟩ := h
    rw [hparts]
    change (tryCompileInstructions _ ixs >>= _) = _
    rw [tryCompileInstructions_ok staticAccountKeys_nodup hlen covers_static]
    rfl

/-- The legacy compiler lays out all keys, and returns whenever the header counts fit. -/
lemma newMessage_ok_iff {l : Message} : newMessage ixs payer = .ok l ↔
    ∃ header, (compile ixs payer).tryIntoMessageComponents =
        .ok (header, (compile ixs payer).staticAccountKeys) ∧
      l = ⟨header, (compile ixs payer).staticAccountKeys, .default,
        ixs.map (indexed (compile ixs payer).staticAccountKeys)⟩ := by
  unfold newMessage
  refine ⟨fun h => ?_, fun h => ?_⟩
  · obtain ⟨⟨header, static⟩, hparts, h⟩ := bind_eq_ok.mp h
    have hparts : (compile ixs payer).tryIntoMessageComponents = .ok (header, static) := by
      rw [expect_eq_ok] at hparts
      rcases hc : (compile ixs payer).tryIntoMessageComponents with e | c
      · simp [hc, Except.toOption] at hparts
      · rw [hc] at hparts
        rw [Option.some.inj hparts]
    obtain ⟨-, -, rfl⟩ := components_ok hparts
    change (ixs.mapM (compileInstruction _) >>= _) = _ at h
    rw [compileInstructions_ok covers_static] at h
    cases h
    exact ⟨header, hparts, rfl⟩
  · obtain ⟨header, hparts, rfl⟩ := h
    rw [hparts]
    change (ixs.mapM (compileInstruction _) >>= _) = _
    rw [compileInstructions_ok covers_static]
    rfl

lemma components_ok_iff_fits : (∃ header, (compile ixs payer).tryIntoMessageComponents =
    .ok (header, (compile ixs payer).staticAccountKeys)) ↔
      (signerSet ixs payer).card ≤ 255 ∧ (readonlyUnsignedSet ixs payer).card ≤ 255 := by
  rw [← compile_headerFits]
  refine ⟨fun h => ?_, ?_⟩
  · obtain ⟨header, h⟩ := h
    exact (components_ok h).1
  · exact components_of_fits

end SvmWasiCore.Compilation

import SvmWasiCore.KeyClasses
import SvmWasiCore.Lib.Collect

/-!
Moving keys into lookup tables.

One table takes the keys it lists out of the map, those that are neither signers nor programs nor
the nonce account, and leaves one lookup that reads the same keys back. The steps over several
tables compose: no key is taken twice, and a key stays exactly when no table could take it.
-/

namespace SvmWasiCore.TableLookups

open Lib.ByteCodec Lib.Collect Lib.EntryMap MessageFormat MessageCompiler

/-- The indexes of the lookup, read out of the table, are the loaded addresses. -/
structure Reads (table : AddressLookupTableAccount) (lookup : MessageAddressTableLookup)
    (loaded : LoadedAddresses) : Prop where
  accountKey : lookup.accountKey = table.key
  writable : lookup.writableIndexes.map (fun i => table.addresses[i.toNat]?) =
    loaded.writable.map some
  readonly : lookup.readonlyIndexes.map (fun i => table.addresses[i.toNat]?) =
    loaded.readonly.map some

/-- Each lookup reads its loaded addresses out of a table of the list, in the order of the list. -/
inductive Loads : List AddressLookupTableAccount →
    List (MessageAddressTableLookup × LoadedAddresses) → Prop
  | nil : Loads [] []
  | skip {t ts ls} : Loads ts ls → Loads (t :: ts) ls
  | read {t ts l ls} : Reads t l.1 l.2 → Loads ts ls → Loads (t :: ts) (l :: ls)

lemma Loads.append {ts ts' : List AddressLookupTableAccount}
    {ls ls' : List (MessageAddressTableLookup × LoadedAddresses)} (h : Loads ts ls)
    (h' : Loads ts' ls') : Loads (ts ++ ts') (ls ++ ls') := by
  induction h with
  | nil => exact h'
  | skip _ ih => exact .skip ih
  | read hr _ ih => exact .read hr ih

/-- A lookup comes from a table of the list. -/
lemma Loads.exists_table {ts : List AddressLookupTableAccount}
    {ls : List (MessageAddressTableLookup × LoadedAddresses)} (h : Loads ts ls) {l}
    (hl : l ∈ ls) : ∃ t ∈ ts, Reads t l.1 l.2 := by
  induction h with
  | nil => cases hl
  | skip _ ih =>
    obtain ⟨t, ht, hr⟩ := ih hl
    exact ⟨t, List.mem_cons_of_mem _ ht, hr⟩
  | @read t ts l' ls hr _ ih =>
    rcases List.mem_cons.mp hl with rfl | hl
    · exact ⟨t, List.mem_cons_self, hr⟩
    · obtain ⟨t', ht', hr'⟩ := ih hl
      exact ⟨t', List.mem_cons_of_mem _ ht', hr'⟩

/-- What a validator loads for a lookup, when the tables on chain have the given addresses. -/
def loadFrom (addresses : Pubkey → List Pubkey) (lookup : MessageAddressTableLookup) :
    Option LoadedAddresses := do
  let writable ← lookup.writableIndexes.mapM fun i => (addresses lookup.accountKey)[i.toNat]?
  let readonly ← lookup.readonlyIndexes.mapM fun i => (addresses lookup.accountKey)[i.toNat]?
  return ⟨writable, readonly⟩

lemma Reads.loadFrom_eq {t : AddressLookupTableAccount} {lookup : MessageAddressTableLookup}
    {loaded : LoadedAddresses} (h : Reads t lookup loaded) {addresses : Pubkey → List Pubkey}
    (ht : addresses t.key = t.addresses) : loadFrom addresses lookup = some loaded := by
  have hw := mapM_of_map h.writable
  have hr := mapM_of_map h.readonly
  rw [← ht, ← h.accountKey] at hw hr
  rw [loadFrom, hw, hr]
  rfl

variable {k : Pubkey} {ls ls' : List (MessageAddressTableLookup × LoadedAddresses)}

/-! ### All loaded keys -/

def writableOf (ls : List (MessageAddressTableLookup × LoadedAddresses)) : List Pubkey :=
  ls.flatMap (·.2.writable)

def readonlyOf (ls : List (MessageAddressTableLookup × LoadedAddresses)) : List Pubkey :=
  ls.flatMap (·.2.readonly)

/-- All keys the lookups load, the writable ones first. -/
def keysOf (ls : List (MessageAddressTableLookup × LoadedAddresses)) : List Pubkey :=
  writableOf ls ++ readonlyOf ls

lemma loadedKeys_map : loadedKeys (ls.map (·.2)) = keysOf ls := by
  simp [loadedKeys, keysOf, writableOf, readonlyOf, List.flatMap_map]

lemma keysOf_append_perm : (keysOf (ls ++ ls')).Perm (keysOf ls ++ keysOf ls') := by
  simp only [keysOf, writableOf, readonlyOf, List.flatMap_append, List.append_assoc]
  refine List.Perm.append_left _ ?_
  rw [← List.append_assoc, ← List.append_assoc]
  exact List.Perm.append_right _ List.perm_append_comm

lemma mem_keysOf_append : k ∈ keysOf (ls ++ ls') ↔ k ∈ keysOf ls ∨ k ∈ keysOf ls' := by
  rw [keysOf_append_perm.mem_iff, List.mem_append]

/-! ### One table -/

lemma searchTable_ok {addresses ks : List Pubkey} {is : List UInt8} {ds : List Pubkey}
    (h : searchTable addresses ks = .ok (is, ds)) : ds = ks.filter (· ∈ addresses) ∧
      is.map (fun i => addresses[i.toNat]?) = ds.map some := by
  induction ks generalizing is ds with
  | nil =>
    cases h
    exact ⟨rfl, rfl⟩
  | cons key ks ih =>
    rw [searchTable] at h
    rcases hpos : position addresses key with _ | i
    · have hmem := position_eq_none_iff.mp hpos
      simp only [hpos] at h
      rw [List.filter_cons_of_neg (by simpa using hmem)]
      exact ih h
    · obtain ⟨hmem, hi⟩ := position_eq_some_iff.mp hpos
      simp only [hpos] at h
      split_ifs at h with h255
      obtain ⟨⟨is', ds'⟩, hrest, h⟩ := bind_eq_ok.mp h
      cases h
      obtain ⟨hds, his⟩ := ih hrest
      rw [List.filter_cons_of_pos (by simpa using hmem), ← hds, List.map_cons, his, List.map_cons]
      refine ⟨rfl, ?_⟩
      have hnat : (UInt8.ofNat i).toNat = i := by
        rw [UInt8.toNat_ofNat']
        omega
      rw [hnat, ← hi, List.getElem?_idxOf hmem]

variable {map map' map'' : KeyMetaMap}

/-- What one search takes out of the map. -/
lemma tryDrain_ok {addresses : List Pubkey} {f : CompiledKeyMeta → Bool} {is : List UInt8}
    {ds : List Pubkey}
    (h : tryDrainKeysFoundInLookupTable map addresses f = .ok ((is, ds), map')) :
    ds.Nodup ∧ (∀ k, k ∈ ds ↔ Holds (fun m => f m) map k ∧ k ∈ addresses) ∧
      is.map (fun i => addresses[i.toNat]?) = ds.map some ∧ map' = eraseAll map ds := by
  obtain ⟨⟨is', ds'⟩, hs, h⟩ := bind_eq_ok.mp h
  cases h
  obtain ⟨rfl, his⟩ := searchTable_ok hs
  refine ⟨(keysWhere_nodup f map).filter _, fun k => ?_, his, rfl⟩
  simp [mem_keysWhere]

/-- The keys that tables may take as writable, and as read-only. -/
def Writable (map : KeyMetaMap) (k : Pubkey) : Prop := Holds (fun m => writableFilter m) map k
def Readonly (map : KeyMetaMap) (k : Pubkey) : Prop := Holds (fun m => readonlyFilter m) map k

lemma writable_iff : Writable map k ↔ ¬Holds (fun m => m.isSigner) map k ∧
    ¬Holds (fun m => m.isInvoked) map k ∧ ¬Holds (fun m => m.isNonce) map k ∧
      Holds (fun m => m.isWritable) map k := by
  have hpresent : Holds (fun m => m.isWritable) map k → _ := Holds.present
  unfold Writable writableFilter
  rw [holds_band, holds_band, holds_band, holds_bnot, holds_bnot, holds_bnot]
  tauto

lemma readonly_iff : Readonly map k ↔ Holds (fun _ => True) map k ∧
    ¬Holds (fun m => m.isSigner) map k ∧ ¬Holds (fun m => m.isInvoked) map k ∧
      ¬Holds (fun m => m.isNonce) map k ∧ ¬Holds (fun m => m.isWritable) map k := by
  unfold Readonly readonlyFilter
  rw [holds_band, holds_band, holds_band, holds_bnot, holds_bnot, holds_bnot, holds_bnot]
  tauto

/-- What the passage over `tables` takes out of `map`, and what it leaves behind. -/
structure Extracted (map : KeyMetaMap) (tables : List AddressLookupTableAccount)
    (ls : List (MessageAddressTableLookup × LoadedAddresses)) (map' : KeyMetaMap) : Prop where
  loads : Loads tables ls
  rest : ∀ p k, Holds p map' k ↔ k ∉ keysOf ls ∧ Holds p map k
  nodup : (keysOf ls).Nodup
  writable : ∀ k, k ∈ writableOf ls ↔ Writable map k ∧ ∃ t ∈ tables, k ∈ t.addresses
  readonly : ∀ k, k ∈ readonlyOf ls ↔ Readonly map k ∧ ∃ t ∈ tables, k ∈ t.addresses
  nonempty : ∀ l ∈ ls, keysOf [l] ≠ []

variable {tables tables' : List AddressLookupTableAccount}

lemma Extracted.nil (map : KeyMetaMap) : Extracted map [] [] map :=
  ⟨.nil, by simp [keysOf, writableOf, readonlyOf], by simp [keysOf, writableOf, readonlyOf],
    by simp [writableOf], by simp [readonlyOf], by simp⟩

/-- A writable key that is loaded at all is loaded as writable. -/
lemma Extracted.writable_of_mem (h : Extracted map tables ls map') (hk : Writable map k)
    (hmem : k ∈ keysOf ls) : k ∈ writableOf ls := by
  rcases List.mem_append.mp hmem with hw | hr
  · exact hw
  · have := readonly_iff.mp ((h.readonly k).mp hr).1
    have := writable_iff.mp hk
    tauto

lemma Extracted.readonly_of_mem (h : Extracted map tables ls map') (hk : Readonly map k)
    (hmem : k ∈ keysOf ls) : k ∈ readonlyOf ls := by
  rcases List.mem_append.mp hmem with hw | hr
  · have := writable_iff.mp ((h.writable k).mp hw).1
    have := readonly_iff.mp hk
    tauto
  · exact hr

/-- A first passage takes the keys of its tables that pass a filter, and a second one those of its
own tables that still do. -/
lemma mem_append_taken {taken taken' keys : List Pubkey} {passes passes' : Prop}
    (h : k ∈ taken ↔ passes ∧ ∃ t ∈ tables, k ∈ t.addresses)
    (h' : k ∈ taken' ↔ passes' ∧ ∃ t ∈ tables', k ∈ t.addresses)
    (hstays : passes' ↔ k ∉ keys ∧ passes) (hmem : passes → k ∈ keys → k ∈ taken) :
    k ∈ taken ++ taken' ↔ passes ∧ ∃ t ∈ tables ++ tables', k ∈ t.addresses := by
  rw [List.mem_append, h', hstays]
  simp only [List.mem_append, or_and_right, exists_or]
  refine ⟨fun hk => ?_, fun hk => ?_⟩
  · rcases hk with hk | ⟨⟨-, hp⟩, ht⟩
    · obtain ⟨hp, ht⟩ := h.mp hk
      exact ⟨hp, .inl ht⟩
    · exact ⟨hp, .inr ht⟩
  · obtain ⟨hp, ht | ht⟩ := hk
    · exact .inl (h.mpr ⟨hp, ht⟩)
    · by_cases hkeys : k ∈ keys
      · exact .inl (hmem hp hkeys)
      · exact .inr ⟨⟨hkeys, hp⟩, ht⟩

/-- One passage after another. -/
lemma Extracted.append (h : Extracted map tables ls map') (h' : Extracted map' tables' ls' map'') :
    Extracted map (tables ++ tables') (ls ++ ls') map'' where
  loads := h.loads.append h'.loads
  rest p k := by
    rw [h'.rest, h.rest, mem_keysOf_append, not_or]
    tauto
  nodup := by
    rw [keysOf_append_perm.nodup_iff]
    refine h.nodup.append h'.nodup fun k hk hk' => ?_
    -- what the second passage takes was still in the map
    have hrest : Holds (fun _ => True) map' k := by
      rcases List.mem_append.mp hk' with hw | hr
      · exact ((h'.writable k).mp hw).1.present
      · exact ((h'.readonly k).mp hr).1.present
    exact ((h.rest _ k).mp hrest).1 hk
  writable k := by
    have hsplit : writableOf (ls ++ ls') = writableOf ls ++ writableOf ls' := List.flatMap_append
    rw [hsplit]
    exact mem_append_taken (h.writable k) (h'.writable k) (h.rest _ k) h.writable_of_mem
  readonly k := by
    have hsplit : readonlyOf (ls ++ ls') = readonlyOf ls ++ readonlyOf ls' := List.flatMap_append
    rw [hsplit]
    exact mem_append_taken (h.readonly k) (h'.readonly k) (h.rest _ k) h.readonly_of_mem
  nonempty l hl := by
    rcases List.mem_append.mp hl with hl | hl
    · exact h.nonempty l hl
    · exact h'.nonempty l hl

/-- One table. -/
lemma extracted_of_tryExtract {t : AddressLookupTableAccount}
    {lookup : Option (MessageAddressTableLookup × LoadedAddresses)}
    (h : tryExtractTableLookup map t = .ok (lookup, map')) :
    Extracted map [t] lookup.toList map' := by
  obtain ⟨⟨⟨wis, ws⟩, map1⟩, hw, h⟩ := bind_eq_ok.mp h
  obtain ⟨⟨⟨ris, rs⟩, map2⟩, hr, h⟩ := bind_eq_ok.mp h
  obtain ⟨hwn, hwm, hwr, rfl⟩ := tryDrain_ok hw
  obtain ⟨hrn, hrm, hrr, rfl⟩ := tryDrain_ok hr
  -- the keys taken first do not pass the second filter, so the first removal does not matter
  have hrm' (k : Pubkey) : k ∈ rs ↔ Readonly map k ∧ k ∈ t.addresses := by
    rw [hrm, holds_eraseAll, hwm]
    change (¬(Writable map k ∧ _) ∧ Readonly map k) ∧ _ ↔ _
    rw [writable_iff, readonly_iff]
    tauto
  have hdisj : ws.Disjoint rs := fun k hk hk' => by
    have h1 := writable_iff.mp ((hwm k).mp hk).1
    have h2 := readonly_iff.mp ((hrm' k).mp hk').1
    tauto
  have hrest (p : CompiledKeyMeta → Prop) (k : Pubkey) :
      Holds p (eraseAll (eraseAll map ws) rs) k ↔ k ∉ ws ++ rs ∧ Holds p map k := by
    rw [holds_eraseAll, holds_eraseAll, List.mem_append]
    tauto
  change (if wis = [] ∧ ris = [] then _ else _ : Except CompileError _) = _ at h
  split_ifs at h with hempty
  · cases h
    obtain ⟨rfl, rfl⟩ := hempty
    obtain rfl : ws = [] := by simpa using hwr.symm
    obtain rfl : rs = [] := by simpa using hrr.symm
    refine ⟨.skip .nil, hrest, by simp [keysOf, writableOf, readonlyOf], fun k => ?_, fun k => ?_,
      by simp⟩
    · simpa [writableOf, Writable] using hwm k
    · simpa [readonlyOf] using hrm' k
  · cases h
    refine ⟨.read ⟨rfl, hwr, hrr⟩ .nil, ?_, ?_, fun k => ?_, fun k => ?_, ?_⟩
    · simpa [keysOf, writableOf, readonlyOf] using hrest
    · simpa [keysOf, writableOf, readonlyOf] using hwn.append hrn hdisj
    · simpa [writableOf, Writable] using hwm k
    · simpa [readonlyOf] using hrm' k
    · intro l hl hnil
      obtain rfl := List.mem_singleton.mp hl
      simp only [keysOf, writableOf, readonlyOf, List.flatMap_cons, List.flatMap_nil,
        List.append_nil, List.append_eq_nil_iff] at hnil
      obtain ⟨rfl, rfl⟩ := hnil
      exact hempty ⟨by simpa using hwr, by simpa using hrr⟩

/-- **All tables.** -/
theorem extracted_of_extractTableLookups
    (h : extractTableLookups map tables = .ok (ls, map')) : Extracted map tables ls map' := by
  induction tables generalizing map ls map' with
  | nil =>
    cases h
    exact .nil map
  | cons t ts ih =>
    rw [extractTableLookups] at h
    obtain ⟨⟨lookup, map1⟩, h1, h⟩ := bind_eq_ok.mp h
    obtain ⟨⟨ls2, map2⟩, h2, h⟩ := bind_eq_ok.mp h
    cases h
    exact (extracted_of_tryExtract h1).append (ih h2)

/-- Every lookup loads something. -/
lemma Extracted.length_le (h : Extracted map tables ls map') : ls.length ≤ (keysOf ls).length := by
  have hne := h.nonempty
  clear h
  induction ls with
  | nil => simp
  | cons l ls ih =>
    have h1 := List.length_pos_iff.mpr (hne l List.mem_cons_self)
    have h2 := ih fun l hl => hne l (List.mem_cons_of_mem _ hl)
    have hperm : (keysOf ([l] ++ ls)).Perm (keysOf [l] ++ keysOf ls) := keysOf_append_perm
    have hlen := hperm.length_eq
    rw [List.singleton_append, List.length_append] at hlen
    rw [List.length_cons]
    omega

end SvmWasiCore.TableLookups

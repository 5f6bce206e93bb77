import SvmWasiCore.MessageCompiler

/-!
What the key map of a compilation holds, and what the message header says of it.

A key is a signer, writable, a program or the nonce account in the map just when some instruction
or the payer's role makes it so. The layout lists every key once, payer first, and the three counts
of the header mark off its four classes.
-/

namespace SvmWasiCore.KeyClasses

open Lib.EntryMap MessageFormat MessageCompiler

/-! ### What the instructions say -/

variable (ixs : List Instruction) (payer : Pubkey)

def MarkedSigner (k : Pubkey) : Prop :=
  ∃ ix ∈ ixs, ∃ a ∈ ix.accounts, a.pubkey = k ∧ a.isSigner

def MarkedWritable (k : Pubkey) : Prop :=
  ∃ ix ∈ ixs, ∃ a ∈ ix.accounts, a.pubkey = k ∧ a.isWritable

/-- Some instruction calls the program `k`. -/
def Invoked (k : Pubkey) : Prop := ∃ ix ∈ ixs, ix.programId = k

instance : DecidablePred (MarkedSigner ixs) :=
  fun _ => inferInstanceAs (Decidable (∃ ix ∈ ixs, ∃ a ∈ ix.accounts, _))

instance : DecidablePred (MarkedWritable ixs) :=
  fun _ => inferInstanceAs (Decidable (∃ ix ∈ ixs, ∃ a ∈ ix.accounts, _))

instance : DecidablePred (Invoked ixs) := fun _ => inferInstanceAs (Decidable (∃ ix ∈ ixs, _))

/-- The keys a message needs: the payer's and every one an instruction names. -/
def keySet : Finset Pubkey := insert payer (ixs.flatMap Instruction.keys).toFinset

/-- The keys that have to sign. -/
def signerSet : Finset Pubkey := (keySet ixs payer).filter fun k => k = payer ∨ MarkedSigner ixs k

/-- The keys that only are read and do not sign. -/
def readonlyUnsignedSet : Finset Pubkey :=
  (keySet ixs payer).filter fun k => k ≠ payer ∧ ¬MarkedSigner ixs k ∧ ¬MarkedWritable ixs k

variable {ixs} {payer} {k : Pubkey}

lemma mem_keySet : k ∈ keySet ixs payer ↔
    k = payer ∨ ∃ ix ∈ ixs, ix.programId = k ∨ ∃ a ∈ ix.accounts, a.pubkey = k := by
  simp [keySet, Instruction.keys, eq_comm (a := k)]

lemma payer_mem_keySet : payer ∈ keySet ixs payer := mem_keySet.mpr (.inl rfl)

/-- No more keys than the instructions name, and the payer's. -/
lemma card_keySet_le :
    (keySet ixs payer).card ≤ (ixs.flatMap Instruction.keys).length + 1 :=
  le_trans (Finset.card_insert_le _ _) (Nat.succ_le_succ (List.toFinset_card_le _))

lemma MarkedSigner.mem_keySet (h : MarkedSigner ixs k) : k ∈ keySet ixs payer := by
  obtain ⟨ix, hix, a, ha, hk, -⟩ := h
  exact KeyClasses.mem_keySet.mpr (.inr ⟨ix, hix, .inr ⟨a, ha, hk⟩⟩)

/-- The account advanced first is one of the keys. -/
lemma getNoncePubkey_mem_keySet (h : getNoncePubkey ixs = some k) : k ∈ keySet ixs payer := by
  obtain ⟨ix, hix, h⟩ := Option.bind_eq_some_iff.mp h
  split_ifs at h
  obtain ⟨a, ha, h⟩ := Option.bind_eq_some_iff.mp h
  obtain rfl := Option.some.inj h
  exact mem_keySet.mpr (.inr ⟨ix, List.mem_of_head? hix, .inr ⟨a, List.mem_of_head? ha, rfl⟩⟩)

/-! ### What the map holds -/

/-- A property of key metas that account metas, invocations, the nonce advance and the payer's role
may raise. -/
structure Flag (p : CompiledKeyMeta → Prop) (byMeta : AccountMeta → Prop)
    (byProgram byNonce byPayer : Prop) : Prop where
  accountMeta : ∀ a : AccountMeta, Raises p
    (fun m => { m with isSigner := m.isSigner || a.isSigner,
                       isWritable := m.isWritable || a.isWritable }) (byMeta a)
  program : Raises p (fun m => { m with isInvoked := true }) byProgram
  nonce : Raises p (fun m => { m with isNonce := true }) byNonce
  payer : Raises p (fun m => { m with isSigner := true, isWritable := true }) byPayer

lemma Flag.present : Flag (fun _ => True) (fun _ => True) True True True :=
  ⟨fun _ => ⟨by simp, by simp⟩, ⟨by simp, by simp⟩, ⟨by simp, by simp⟩, ⟨by simp, by simp⟩⟩

lemma Flag.signer : Flag (fun m => m.isSigner) (fun a => a.isSigner) False False True :=
  ⟨fun _ => ⟨by simp, by simp [default]⟩, ⟨by simp, by simp [default]⟩,
    ⟨by simp, by simp [default]⟩, ⟨by simp, by simp⟩⟩

lemma Flag.writable : Flag (fun m => m.isWritable) (fun a => a.isWritable) False False True :=
  ⟨fun _ => ⟨by simp, by simp [default]⟩, ⟨by simp, by simp [default]⟩,
    ⟨by simp, by simp [default]⟩, ⟨by simp, by simp⟩⟩

lemma Flag.invoked : Flag (fun m => m.isInvoked) (fun _ => False) True False False :=
  ⟨fun _ => ⟨by simp, by simp [default]⟩, ⟨by simp, by simp⟩, ⟨by simp, by simp [default]⟩,
    ⟨by simp, by simp [default]⟩⟩

lemma Flag.nonceAccount : Flag (fun m => m.isNonce) (fun _ => False) False True False :=
  ⟨fun _ => ⟨by simp, by simp [default]⟩, ⟨by simp, by simp [default]⟩, ⟨by simp, by simp⟩,
    ⟨by simp, by simp [default]⟩⟩

/-- What one instruction raises. -/
lemma holds_addInstruction {p : CompiledKeyMeta → Prop} {byMeta : AccountMeta → Prop}
    {byProgram byNonce byPayer : Prop} (h : Flag p byMeta byProgram byNonce byPayer)
    (map : KeyMetaMap) (ix : Instruction) (k : Pubkey) :
    Holds p (addInstruction map ix) k ↔ Holds p map k ∨
      (ix.programId = k ∧ byProgram ∨ ∃ a ∈ ix.accounts, a.pubkey = k ∧ byMeta a) := by
  have hmeta (m : KeyMetaMap) (a : AccountMeta) (k : Pubkey) :
      Holds p (addAccountMeta m a) k ↔ Holds p m k ∨ a.pubkey = k ∧ byMeta a :=
    holds_entry (h.accountMeta a) m a.pubkey k
  unfold addInstruction
  rw [holds_foldl hmeta, holds_entry h.program, or_assoc]

lemma holds_addNonce {p : CompiledKeyMeta → Prop} {byMeta : AccountMeta → Prop}
    {byProgram byNonce byPayer : Prop} (h : Flag p byMeta byProgram byNonce byPayer)
    (map : KeyMetaMap) (nonce : Option Pubkey) (k : Pubkey) :
    Holds p (addNonce map nonce) k ↔ Holds p map k ∨ nonce = some k ∧ byNonce := by
  cases nonce with
  | none => simp [addNonce]
  | some noncePubkey =>
    unfold addNonce
    rw [holds_entry h.nonce, Option.some.injEq]

/-- What a whole compilation raises. -/
lemma holds_compile {p : CompiledKeyMeta → Prop} {byMeta : AccountMeta → Prop}
    {byProgram byNonce byPayer : Prop} (h : Flag p byMeta byProgram byNonce byPayer) :
    Holds p (compile ixs payer).keyMetaMap k ↔ k = payer ∧ byPayer ∨
      getNoncePubkey ixs = some k ∧ byNonce ∨
      ∃ ix ∈ ixs, ix.programId = k ∧ byProgram ∨ ∃ a ∈ ix.accounts, a.pubkey = k ∧ byMeta a := by
  have hloop := holds_foldl (holds_addInstruction h) ixs ∅ k
  change Holds p (addPayer _ payer) k ↔ _
  unfold addPayer
  rw [holds_entry h.payer, holds_addNonce h, hloop, eq_comm (a := payer)]
  simp only [not_holds_empty, false_or]
  rw [or_comm, or_comm (b := getNoncePubkey ixs = some k ∧ byNonce)]

lemma present_compile :
    Holds (fun _ => True) (compile ixs payer).keyMetaMap k ↔ k ∈ keySet ixs payer := by
  have hnonce : getNoncePubkey ixs = some k → k ∈ keySet ixs payer := getNoncePubkey_mem_keySet
  rw [holds_compile Flag.present, mem_keySet]
  rw [mem_keySet] at hnonce
  simp only [and_true]
  rw [or_left_comm, or_iff_right_of_imp hnonce]

lemma signer_compile : Holds (fun m => m.isSigner) (compile ixs payer).keyMetaMap k ↔
    k = payer ∨ MarkedSigner ixs k := by
  rw [holds_compile Flag.signer]
  simp [MarkedSigner]

lemma writable_compile : Holds (fun m => m.isWritable) (compile ixs payer).keyMetaMap k ↔
    k = payer ∨ MarkedWritable ixs k := by
  rw [holds_compile Flag.writable]
  simp [MarkedWritable]

lemma invoked_compile : Holds (fun m => m.isInvoked) (compile ixs payer).keyMetaMap k ↔
    Invoked ixs k := by
  rw [holds_compile Flag.invoked]
  simp [Invoked]

lemma nonce_compile : Holds (fun m => m.isNonce) (compile ixs payer).keyMetaMap k ↔
    getNoncePubkey ixs = some k := by
  rw [holds_compile Flag.nonceAccount]
  simp

/-! ### The layout -/

variable {keys : CompiledKeys}

/-- A class of the layout, apart from the payer. -/
lemma mem_class {f : CompiledKeyMeta → Bool} : k ∈ keysWhere f keys.others ↔
    k ≠ keys.payer ∧ Holds (fun m => f m) keys.keyMetaMap k := by
  rw [mem_keysWhere, CompiledKeys.others, holds_erase]

lemma mem_writableSignerKeys : k ∈ keys.writableSignerKeys ↔ k = keys.payer ∨
    Holds (fun m => m.isSigner) keys.keyMetaMap k ∧
      Holds (fun m => m.isWritable) keys.keyMetaMap k := by
  rw [CompiledKeys.writableSignerKeys, List.mem_cons, mem_class, holds_band]
  tauto

lemma mem_readonlySignerKeys : k ∈ keys.readonlySignerKeys ↔ k ≠ keys.payer ∧
    Holds (fun m => m.isSigner) keys.keyMetaMap k ∧
      ¬Holds (fun m => m.isWritable) keys.keyMetaMap k := by
  have hpresent : Holds (fun m => m.isSigner) keys.keyMetaMap k → _ := Holds.present
  rw [CompiledKeys.readonlySignerKeys, mem_class, holds_band, holds_bnot]
  tauto

lemma mem_writableNonSignerKeys : k ∈ keys.writableNonSignerKeys ↔ k ≠ keys.payer ∧
    ¬Holds (fun m => m.isSigner) keys.keyMetaMap k ∧
      Holds (fun m => m.isWritable) keys.keyMetaMap k := by
  have hpresent : Holds (fun m => m.isWritable) keys.keyMetaMap k → _ := Holds.present
  rw [CompiledKeys.writableNonSignerKeys, mem_class, holds_band, holds_bnot]
  tauto

lemma mem_readonlyNonSignerKeys : k ∈ keys.readonlyNonSignerKeys ↔ k ≠ keys.payer ∧
    Holds (fun _ => True) keys.keyMetaMap k ∧ ¬Holds (fun m => m.isSigner) keys.keyMetaMap k ∧
      ¬Holds (fun m => m.isWritable) keys.keyMetaMap k := by
  rw [CompiledKeys.readonlyNonSignerKeys, mem_class, holds_band, holds_bnot, holds_bnot]
  tauto

lemma mem_signers : k ∈ keys.writableSignerKeys ++ keys.readonlySignerKeys ↔
    k = keys.payer ∨ Holds (fun m => m.isSigner) keys.keyMetaMap k := by
  rw [List.mem_append, mem_writableSignerKeys, mem_readonlySignerKeys]
  tauto

lemma mem_staticAccountKeys : k ∈ keys.staticAccountKeys ↔
    k = keys.payer ∨ Holds (fun _ => True) keys.keyMetaMap k := by
  have hs : Holds (fun m => m.isSigner) keys.keyMetaMap k → _ := Holds.present
  have hw : Holds (fun m => m.isWritable) keys.keyMetaMap k → _ := Holds.present
  rw [CompiledKeys.staticAccountKeys, List.mem_append, List.mem_append, mem_signers,
    mem_writableNonSignerKeys, mem_readonlyNonSignerKeys]
  tauto

lemma writableSignerKeys_nodup : keys.writableSignerKeys.Nodup := by
  refine List.nodup_cons.mpr ⟨?_, keysWhere_nodup _ _⟩
  rw [mem_class]
  exact fun h => h.1 rfl

/-- Every key stands in one class only. -/
lemma staticAccountKeys_nodup : keys.staticAccountKeys.Nodup := by
  unfold CompiledKeys.staticAccountKeys
  refine List.Nodup.append (List.Nodup.append (List.Nodup.append writableSignerKeys_nodup
    (keysWhere_nodup _ _) ?_) (keysWhere_nodup _ _) ?_) (keysWhere_nodup _ _) ?_
  · intro a h1 h2
    have h1 := mem_writableSignerKeys.mp h1
    have h2 := mem_readonlySignerKeys.mp h2
    tauto
  · intro a h1 h2
    have h1 := mem_signers.mp h1
    have h2 := mem_writableNonSignerKeys.mp h2
    tauto
  · intro a h1 h2
    have h2 := mem_readonlyNonSignerKeys.mp h2
    rw [List.mem_append, mem_signers, mem_writableNonSignerKeys] at h1
    tauto

/-! ### The header -/

lemma tryIntoU8_eq_ok_iff {n : ℕ} {u : UInt8} :
    tryIntoU8 n = .ok u ↔ n ≤ 255 ∧ u.toNat = n := by
  unfold tryIntoU8
  split_ifs with h
  · refine ⟨fun hu => ?_, fun h => ?_⟩
    · obtain rfl := Except.ok.inj hu
      rw [UInt8.toNat_ofNat']
      omega
    · obtain ⟨-, rfl⟩ := h
      rw [UInt8.ofNat_toNat]
  · simp [h]

/-- The counts of the header fit in a byte. -/
structure HeaderFits (keys : CompiledKeys) : Prop where
  signers : (keys.writableSignerKeys ++ keys.readonlySignerKeys).length ≤ 255
  readonlyUnsigned : keys.readonlyNonSignerKeys.length ≤ 255

/-- The counts of the header, of a layout. -/
structure HeaderOf (keys : CompiledKeys) (header : MessageHeader) : Prop where
  required : header.numRequiredSignatures.toNat =
    (keys.writableSignerKeys ++ keys.readonlySignerKeys).length
  readonlySigned : header.numReadonlySignedAccounts.toNat = keys.readonlySignerKeys.length
  readonlyUnsigned : header.numReadonlyUnsignedAccounts.toNat =
    keys.readonlyNonSignerKeys.length

lemma components_ok {header : MessageHeader} {static : List Pubkey}
    (h : keys.tryIntoMessageComponents = .ok (header, static)) :
    HeaderFits keys ∧ HeaderOf keys header ∧ static = keys.staticAccountKeys := by
  unfold CompiledKeys.tryIntoMessageComponents at h
  obtain ⟨n1, h1, h⟩ := Lib.ByteCodec.bind_eq_ok.mp h
  obtain ⟨n2, h2, h⟩ := Lib.ByteCodec.bind_eq_ok.mp h
  obtain ⟨n3, h3, h⟩ := Lib.ByteCodec.bind_eq_ok.mp h
  rw [tryIntoU8_eq_ok_iff] at h1 h2 h3
  simp only [pure, Except.pure, Except.ok.injEq, Prod.mk.injEq] at h
  obtain ⟨rfl, rfl⟩ := h
  rw [← List.length_append] at h1
  exact ⟨⟨h1.1, h3.1⟩, ⟨h1.2, h2.2, h3.2⟩, rfl⟩

lemma components_of_fits (h : HeaderFits keys) :
    ∃ header, keys.tryIntoMessageComponents = .ok (header, keys.staticAccountKeys) := by
  obtain ⟨h1, h3⟩ := h
  rw [List.length_append] at h1
  refine ⟨⟨.ofNat (keys.writableSignerKeys.length + keys.readonlySignerKeys.length),
    .ofNat keys.readonlySignerKeys.length, .ofNat keys.readonlyNonSignerKeys.length⟩, ?_⟩
  have h2 : keys.readonlySignerKeys.length ≤ 255 := by omega
  simp only [CompiledKeys.tryIntoMessageComponents, tryIntoU8, if_pos h1, if_pos h2, if_pos h3]
  rfl

/-- The keys a header makes sign. -/
def signerKeys (header : MessageHeader) (keys : List Pubkey) : List Pubkey :=
  keys.take header.numRequiredSignatures.toNat

/-- The keys a header makes writable: the first signers and the first of the others. -/
def writableKeys (header : MessageHeader) (keys : List Pubkey) : List Pubkey :=
  keys.take (header.numRequiredSignatures.toNat - header.numReadonlySignedAccounts.toNat) ++
    (keys.drop header.numRequiredSignatures.toNat).take
      (keys.length - header.numRequiredSignatures.toNat -
        header.numReadonlyUnsignedAccounts.toNat)

variable {header : MessageHeader}

lemma signerKeys_static (h : HeaderOf keys header) : signerKeys header keys.staticAccountKeys =
    keys.writableSignerKeys ++ keys.readonlySignerKeys := by
  rw [signerKeys, h.required, CompiledKeys.staticAccountKeys, List.append_assoc, List.take_left]

lemma writableKeys_static (h : HeaderOf keys header) :
    writableKeys header keys.staticAccountKeys =
      keys.writableSignerKeys ++ keys.writableNonSignerKeys := by
  obtain ⟨h1, h2, h3⟩ := h
  have hw : (keys.writableSignerKeys ++ keys.readonlySignerKeys).length -
      keys.readonlySignerKeys.length = keys.writableSignerKeys.length := by
    rw [List.length_append]
    omega
  have hn : keys.staticAccountKeys.length -
      (keys.writableSignerKeys ++ keys.readonlySignerKeys).length -
      keys.readonlyNonSignerKeys.length = keys.writableNonSignerKeys.length := by
    simp only [CompiledKeys.staticAccountKeys, List.length_append]
    omega
  rw [writableKeys, h1, h2, h3, hw, hn]
  congr 1
  · rw [CompiledKeys.staticAccountKeys, List.append_assoc, List.append_assoc, List.take_left]
  · rw [CompiledKeys.staticAccountKeys, List.append_assoc, List.drop_left, List.take_left]

lemma HeaderOf.required_le (h : HeaderOf keys header) :
    header.numRequiredSignatures.toNat ≤ keys.staticAccountKeys.length := by
  rw [h.required, CompiledKeys.staticAccountKeys, List.append_assoc]
  exact (List.sublist_append_left _ _).length_le

lemma mem_signerKeys_static (h : HeaderOf keys header) :
    k ∈ signerKeys header keys.staticAccountKeys ↔
      k = keys.payer ∨ Holds (fun m => m.isSigner) keys.keyMetaMap k := by
  rw [signerKeys_static h, mem_signers]

lemma mem_writableKeys_static (h : HeaderOf keys header) :
    k ∈ writableKeys header keys.staticAccountKeys ↔
      k = keys.payer ∨ Holds (fun m => m.isWritable) keys.keyMetaMap k := by
  rw [writableKeys_static h, List.mem_append, mem_writableSignerKeys, mem_writableNonSignerKeys]
  tauto

/-! ### Counting -/

lemma length_eq_card {l : List Pubkey} {s : Finset Pubkey} (hl : l.Nodup)
    (h : ∀ k, k ∈ l ↔ k ∈ s) : l.length = s.card := by
  have hs : l.toFinset = s := by
    ext k
    rw [List.mem_toFinset, h]
  rw [← hs, List.toFinset_card_of_nodup hl]

lemma compile_static_length :
    (compile ixs payer).staticAccountKeys.length = (keySet ixs payer).card := by
  refine length_eq_card staticAccountKeys_nodup fun k => ?_
  rw [mem_staticAccountKeys, present_compile]
  refine ⟨fun h => ?_, ?_⟩
  · rcases h with rfl | h
    · exact payer_mem_keySet
    · exact h
  · exact .inr

/-- The header counts of a compilation, counted on the instructions. -/
lemma compile_headerFits : HeaderFits (compile ixs payer) ↔
    (signerSet ixs payer).card ≤ 255 ∧ (readonlyUnsignedSet ixs payer).card ≤ 255 := by
  have hs : ((compile ixs payer).writableSignerKeys ++
      (compile ixs payer).readonlySignerKeys).length = (signerSet ixs payer).card := by
    refine length_eq_card ?_ fun k => ?_
    · exact (staticAccountKeys_nodup.of_append_left).of_append_left
    · rw [mem_signers, signer_compile, signerSet, Finset.mem_filter]
      change k = payer ∨ k = payer ∨ _ ↔ _
      rw [or_self_left]
      refine ⟨fun h => ⟨?_, h⟩, fun h => h.2⟩
      rcases h with rfl | h
      · exact payer_mem_keySet
      · exact h.mem_keySet
  have hr : (compile ixs payer).readonlyNonSignerKeys.length =
      (readonlyUnsignedSet ixs payer).card := by
    refine length_eq_card (keysWhere_nodup _ _) fun k => ?_
    rw [mem_readonlyNonSignerKeys, present_compile, signer_compile, writable_compile,
      readonlyUnsignedSet, Finset.mem_filter]
    change k ≠ payer ∧ _ ↔ _
    tauto
  refine ⟨fun h => ?_, fun h => ?_⟩
  · obtain ⟨h1, h2⟩ := h
    exact ⟨hs ▸ h1, hr ▸ h2⟩
  · obtain ⟨h1, h2⟩ := h
    exact ⟨hs ▸ h1, hr ▸ h2⟩

end SvmWasiCore.KeyClasses

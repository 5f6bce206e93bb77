import SvmWasiCore.MintExtensions
import SvmWasiCore.AccountKinds
import SvmWasiCore.Fields

/-!
The layouts of mints and token accounts, byte for byte.

An absent option keeps its place, and the parsers skip the bytes that stand there. Behind the base
state of an extended mint come padding, the account-type byte and the records; a finder returns the
value of the first record of its type. So whatever is accepted begins with the packing of what was
read from it.
-/

namespace SvmWasiCore.TokenLayout

open Lib.ByteCodec Lib.LittleEndian Lib.FixedWidth Lib.Tlv TokenState MintExtensions AccountKinds
open Fields

/-! ### Options -/

/-- A `COption` as it is laid out: a tag and a body, which is `skipped` where there is none. -/
def rawOption {α : Type} (skipped : α) (o : Option α) : UInt32 × α :=
  (if o.isSome then 1 else 0, o.getD skipped)

/-- `encode_coption_pubkey`, with any bytes in place of an absent key. -/
def packCoptionKey (skipped : Pubkey) (key : Option Pubkey) : Bytes :=
  u32Bytes (rawOption skipped key).1 ++ (rawOption skipped key).2.bytes.toList

def packCoptionU64 (skipped : UInt64) (amount : Option UInt64) : Bytes :=
  u32Bytes (rawOption skipped amount).1 ++ u64Bytes (rawOption skipped amount).2

lemma exists_rawOption_iff {α : Type} {tag : UInt32} {body : α} {o : Option α} :
    (∃ skipped, (tag, body) = rawOption skipped o) ↔
      tag = 0 ∧ o = none ∨ tag = 1 ∧ o = some body := by
  refine ⟨fun h => ?_, fun h => ?_⟩
  · obtain ⟨skipped, h⟩ := h
    obtain ⟨rfl, rfl⟩ := Prod.mk.inj h
    cases o with
    | none => exact .inl ⟨rfl, rfl⟩
    | some value => exact .inr ⟨rfl, rfl⟩
  · obtain ⟨rfl, rfl⟩ | ⟨rfl, rfl⟩ := h
    · exact ⟨body, rfl⟩
    · exact ⟨body, rfl⟩

lemma unpackCoptionKey_eq_ok_iff {w : Bytes} {i : ℕ} {key : Option Pubkey} :
    unpackCoptionKey w i = .ok key ↔
      ∃ skipped, (u32At w i, pubkeyAt w (i + 4)) = rawOption skipped key := by
  rw [exists_rawOption_iff]
  unfold unpackCoptionKey
  split
  · next h => simp [h, eq_comm]
  · next h => simp [h, eq_comm]
  · next h0 h1 =>
    refine iff_of_false (by simp) ?_
    rintro (⟨h, -⟩ | ⟨h, -⟩)
    · exact h0 h
    · exact h1 h

lemma unpackCoptionU64_eq_ok_iff {w : Bytes} {i : ℕ} {amount : Option UInt64} :
    unpackCoptionU64 w i = .ok amount ↔
      ∃ skipped, (u32At w i, u64At w (i + 4)) = rawOption skipped amount := by
  rw [exists_rawOption_iff]
  unfold unpackCoptionU64
  split
  · next h => simp [h, eq_comm]
  · next h => simp [h, eq_comm]
  · next h0 h1 =>
    refine iff_of_false (by simp) ?_
    rintro (⟨h, -⟩ | ⟨h, -⟩)
    · exact h0 h
    · exact h1 h

def coptionKeyField : Codec Unit (UInt32 × Pubkey) := (u32Field ()).seq (keyField ())
def coptionU64Field : Codec Unit (UInt32 × UInt64) := (u32Field ()).seq (u64Field ())

lemma coptionKeyField_enc (skipped : Pubkey) (key : Option Pubkey) :
    coptionKeyField.enc (rawOption skipped key) = some (packCoptionKey skipped key) := by
  rw [coptionKeyField, Codec.seq_enc, u32Field_enc, keyField_enc]
  rfl

lemma coptionU64Field_enc (skipped : UInt64) (amount : Option UInt64) :
    coptionU64Field.enc (rawOption skipped amount) = some (packCoptionU64 skipped amount) := by
  rw [coptionU64Field, Codec.seq_enc, u32Field_enc, u64Field_enc]
  rfl

lemma reads_coptionKeyField :
    Reads coptionKeyField 36 fun w => (u32At w 0, ⟨array 32 (w.drop 4) 0⟩) :=
  reads_seq (reads_u32Field ()) (reads_keyField ())

lemma reads_coptionU64Field :
    Reads coptionU64Field 12 fun w => (u32At w 0, u64At (w.drop 4) 0) :=
  reads_seq (reads_u32Field ()) (reads_u64Field ())

/-! ### Mints -/

/-- The bytes of a mint that its parser skips when the option over them is absent. -/
structure MintSkipped where
  mintAuthority : Pubkey
  freezeAuthority : Pubkey

def flagByte (flag : Bool) : UInt8 := if flag then 1 else 0

/-- What stands in the fields of a mint. -/
def rawMint (skipped : MintSkipped) (m : Mint) :
    (UInt32 × Pubkey) × UInt64 × UInt8 × UInt8 × UInt32 × Pubkey :=
  (rawOption skipped.mintAuthority m.mintAuthority, m.supply, m.decimals,
    flagByte m.isInitialized, rawOption skipped.freezeAuthority m.freezeAuthority)

/-- `hand_assembled_plain_mint`, for every mint and whatever is skipped. -/
def packMint (skipped : MintSkipped) (m : Mint) : Bytes :=
  packCoptionKey skipped.mintAuthority m.mintAuthority ++ (u64Bytes m.supply ++
    ([m.decimals] ++ ([flagByte m.isInitialized] ++
      packCoptionKey skipped.freezeAuthority m.freezeAuthority)))

def mintLayout : Codec Unit ((UInt32 × Pubkey) × UInt64 × UInt8 × UInt8 × UInt32 × Pubkey) :=
  coptionKeyField.seq ((u64Field ()).seq ((Codec.byte ()).seq ((Codec.byte ()).seq
    coptionKeyField)))

def mintFields (w : Bytes) : (UInt32 × Pubkey) × UInt64 × UInt8 × UInt8 × UInt32 × Pubkey :=
  ((u32At w 0, pubkeyAt w 4), u64At w 36, w.getD 44 0, w.getD 45 0, u32At w 46, pubkeyAt w 50)

lemma reads_mintLayout : Reads mintLayout Mint.LEN mintFields := by
  have h := reads_seq reads_coptionKeyField (reads_seq (reads_u64Field ()) (reads_seq
    (reads_byte ()) (reads_seq (reads_byte ()) reads_coptionKeyField)))
  refine fun w x rest => (h w x rest).trans ?_
  simp only [mintFields, Mint.LEN, pubkeyAt, u64At, u32At, array_drop, getD_drop, List.drop_drop,
    Nat.reduceAdd, Nat.add_zero]

lemma mintLayout_enc (skipped : MintSkipped) (m : Mint) :
    mintLayout.enc (rawMint skipped m) = some (packMint skipped m) := by
  rw [mintLayout, rawMint]
  simp only [Codec.seq_enc, coptionKeyField_enc, u64Field_enc, Codec.byte, Option.map_some,
    Option.bind_some]
  rfl

lemma length_packMint (skipped : MintSkipped) (m : Mint) :
    (packMint skipped m).length = Mint.LEN :=
  (reads_mintLayout.of_enc (mintLayout_enc skipped m)).1

/-- The parser reads every field from its place. -/
lemma mint_unpackFromSlice_eq_ok_iff {src : Bytes} {m : Mint} :
    Mint.unpackFromSlice src = .ok m ↔ ∃ skipped, mintFields src = rawMint skipped m := by
  refine ⟨fun h => ?_, fun h => ?_⟩
  · obtain ⟨mintAuthority, hmint, h⟩ := bind_eq_ok.mp h
    have hrest : ∃ isInitialized freezeAuthority, src.getD 45 0 = flagByte isInitialized ∧
        unpackCoptionKey src 46 = .ok freezeAuthority ∧
          m = ⟨mintAuthority, u64At src 36, src.getD 44 0, isInitialized, freezeAuthority⟩ := by
      split at h
      · next h0 =>
        obtain ⟨isInitialized, hinit, h⟩ := bind_eq_ok.mp h
        obtain ⟨freezeAuthority, hfreeze, h⟩ := bind_eq_ok.mp h
        obtain rfl := Except.ok.inj hinit
        exact ⟨false, freezeAuthority, h0, hfreeze, (Except.ok.inj h).symm⟩
      · next h1 =>
        obtain ⟨isInitialized, hinit, h⟩ := bind_eq_ok.mp h
        obtain ⟨freezeAuthority, hfreeze, h⟩ := bind_eq_ok.mp h
        obtain rfl := Except.ok.inj hinit
        exact ⟨true, freezeAuthority, h1, hfreeze, (Except.ok.inj h).symm⟩
      · cases h
    obtain ⟨isInitialized, freezeAuthority, hflag, hfreeze, rfl⟩ := hrest
    obtain ⟨skippedMint, hmint⟩ := unpackCoptionKey_eq_ok_iff.mp hmint
    obtain ⟨skippedFreeze, hfreeze⟩ := unpackCoptionKey_eq_ok_iff.mp hfreeze
    refine ⟨⟨skippedMint, skippedFreeze⟩, ?_⟩
    rw [mintFields, rawMint, hmint, hfreeze, hflag]
  · obtain ⟨skipped, h⟩ := h
    obtain ⟨mintAuthority, supply, decimals, isInitialized, freezeAuthority⟩ := m
    obtain ⟨hmint, h⟩ := Prod.mk.inj h
    obtain ⟨rfl, h⟩ := Prod.mk.inj h
    obtain ⟨rfl, h⟩ := Prod.mk.inj h
    obtain ⟨hflag, hfreeze⟩ := Prod.mk.inj h
    have hmint := unpackCoptionKey_eq_ok_iff.mpr ⟨_, hmint⟩
    have hfreeze := unpackCoptionKey_eq_ok_iff.mpr ⟨_, hfreeze⟩
    unfold Mint.unpackFromSlice
    rw [hmint, hflag, hfreeze]
    cases isInitialized <;> rfl

/-- The base state of a mint, alone or in front of anything else. -/
lemma mint_unpack_take_eq_ok_iff {data : Bytes} {m : Mint} :
    Mint.unpack (data.take Mint.LEN) = .ok m ↔
      m.isInitialized = true ∧ ∃ skipped rest, data = packMint skipped m ++ rest := by
  simp only [mint_unpack_eq_ok_iff, take_length_eq_iff, mint_unpackFromSlice_eq_ok_iff,
    ← reads_mintLayout.take_get_eq_iff (mintLayout_enc _ m)]
  tauto

lemma unpackMint_eq_ok_iff {data : Bytes} {m : Mint} : unpackMint data = .ok m ↔
    m.isInitialized = true ∧ ∃ skipped rest, data = packMint skipped m ++ rest := by
  rw [unpackMint, mapError_eq_ok_iff, base_eq_take, mint_unpack_take_eq_ok_iff]

/-! ### Token accounts -/

structure TokenAccountSkipped where
  delegate : Pubkey
  isNative : UInt64
  closeAuthority : Pubkey

def stateByte : AccountState → UInt8
  | .uninitialized => 0
  | .initialized => 1
  | .frozen => 2

lemma tryFromPrimitive_eq_ok_iff {b : UInt8} {state : AccountState} :
    AccountState.tryFromPrimitive b = .ok state ↔ b = stateByte state := by
  refine ⟨fun h => ?_, ?_⟩
  · unfold AccountState.tryFromPrimitive at h
    split at h
    · obtain rfl := Except.ok.inj h
      rfl
    · obtain rfl := Except.ok.inj h
      rfl
    · obtain rfl := Except.ok.inj h
      rfl
    · cases h
  · rintro rfl
    cases state <;> rfl

/-- What stands in the fields of a token account. -/
def rawTokenAccount (skipped : TokenAccountSkipped) (a : TokenAccount) :
    Pubkey × Pubkey × UInt64 × (UInt32 × Pubkey) × UInt8 × (UInt32 × UInt64) × UInt64 ×
      UInt32 × Pubkey :=
  (a.mint, a.owner, a.amount, rawOption skipped.delegate a.delegate, stateByte a.state,
    rawOption skipped.isNative a.isNative, a.delegatedAmount,
      rawOption skipped.closeAuthority a.closeAuthority)

def packTokenAccount (skipped : TokenAccountSkipped) (a : TokenAccount) : Bytes :=
  a.mint.bytes.toList ++ (a.owner.bytes.toList ++ (u64Bytes a.amount ++
    (packCoptionKey skipped.delegate a.delegate ++ ([stateByte a.state] ++
      (packCoptionU64 skipped.isNative a.isNative ++ (u64Bytes a.delegatedAmount ++
        packCoptionKey skipped.closeAuthority a.closeAuthority))))))

def tokenAccountLayout : Codec Unit (Pubkey × Pubkey × UInt64 × (UInt32 × Pubkey) × UInt8 ×
    (UInt32 × UInt64) × UInt64 × UInt32 × Pubkey) :=
  (keyField ()).seq ((keyField ()).seq ((u64Field ()).seq (coptionKeyField.seq
    ((Codec.byte ()).seq (coptionU64Field.seq ((u64Field ()).seq coptionKeyField))))))

def tokenAccountFields (w : Bytes) : Pubkey × Pubkey × UInt64 × (UInt32 × Pubkey) × UInt8 ×
    (UInt32 × UInt64) × UInt64 × UInt32 × Pubkey :=
  (pubkeyAt w 0, pubkeyAt w 32, u64At w 64, (u32At w 72, pubkeyAt w 76), w.getD 108 0,
    (u32At w 109, u64At w 113), u64At w 121, u32At w 129, pubkeyAt w 133)

lemma reads_tokenAccountLayout :
    Reads tokenAccountLayout TokenAccount.LEN tokenAccountFields := by
  have h := reads_seq (reads_keyField ()) (reads_seq (reads_keyField ()) (reads_seq
    (reads_u64Field ()) (reads_seq reads_coptionKeyField (reads_seq (reads_byte ()) (reads_seq
      reads_coptionU64Field (reads_seq (reads_u64Field ()) reads_coptionKeyField))))))
  refine fun w x rest => (h w x rest).trans ?_
  simp only [tokenAccountFields, TokenAccount.LEN, pubkeyAt, u64At, u32At, array_drop, getD_drop,
    List.drop_drop, Nat.reduceAdd, Nat.add_zero]

lemma tokenAccountLayout_enc (skipped : TokenAccountSkipped) (a : TokenAccount) :
    tokenAccountLayout.enc (rawTokenAccount skipped a) = some (packTokenAccount skipped a) := by
  rw [tokenAccountLayout, rawTokenAccount]
  simp only [Codec.seq_enc, coptionKeyField_enc, coptionU64Field_enc, keyField_enc, u64Field_enc,
    Codec.byte, Option.map_some, Option.bind_some]
  rfl

lemma tokenAccount_unpackFromSlice_eq_ok_iff {src : Bytes} {a : TokenAccount} :
    TokenAccount.unpackFromSlice src = .ok a ↔
      ∃ skipped, tokenAccountFields src = rawTokenAccount skipped a := by
  refine ⟨fun h => ?_, fun h => ?_⟩
  · obtain ⟨delegate, hdelegate, h⟩ := bind_eq_ok.mp h
    obtain ⟨state, hstate, h⟩ := bind_eq_ok.mp h
    obtain ⟨isNative, hnative, h⟩ := bind_eq_ok.mp h
    obtain ⟨closeAuthority, hclose, h⟩ := bind_eq_ok.mp h
    obtain rfl := Except.ok.inj h
    obtain ⟨skippedDelegate, hdelegate⟩ := unpackCoptionKey_eq_ok_iff.mp hdelegate
    obtain ⟨skippedNative, hnative⟩ := unpackCoptionU64_eq_ok_iff.mp hnative
    obtain ⟨skippedClose, hclose⟩ := unpackCoptionKey_eq_ok_iff.mp hclose
    refine ⟨⟨skippedDelegate, skippedNative, skippedClose⟩, ?_⟩
    rw [tokenAccountFields, rawTokenAccount, hdelegate, hnative, hclose,
      tryFromPrimitive_eq_ok_iff.mp hstate]
  · obtain ⟨skipped, h⟩ := h
    obtain ⟨mint, owner, amount, delegate, state, isNative, delegatedAmount, closeAuthority⟩ := a
    obtain ⟨rfl, h⟩ := Prod.mk.inj h
    obtain ⟨rfl, h⟩ := Prod.mk.inj h
    obtain ⟨rfl, h⟩ := Prod.mk.inj h
    obtain ⟨hdelegate, h⟩ := Prod.mk.inj h
    obtain ⟨hstate, h⟩ := Prod.mk.inj h
    obtain ⟨hnative, h⟩ := Prod.mk.inj h
    obtain ⟨rfl, hclose⟩ := Prod.mk.inj h
    have hdelegate := unpackCoptionKey_eq_ok_iff.mpr ⟨_, hdelegate⟩
    have hnative := unpackCoptionU64_eq_ok_iff.mpr ⟨_, hnative⟩
    have hclose := unpackCoptionKey_eq_ok_iff.mpr ⟨_, hclose⟩
    unfold TokenAccount.unpackFromSlice
    rw [hdelegate, tryFromPrimitive_eq_ok_iff.mpr hstate, hnative, hclose]
    rfl

lemma unpackTokenAccount_laid_out {data : Bytes} {a : TokenAccount} :
    unpackTokenAccount data = .ok a ↔ a.state ≠ .uninitialized ∧
      ∃ skipped rest, data = packTokenAccount skipped a ++ rest := by
  simp only [unpackTokenAccount_eq_ok_iff, tokenAccount_unpackFromSlice_eq_ok_iff,
    ← reads_tokenAccountLayout.take_get_eq_iff (tokenAccountLayout_enc _ a)]
  tauto

/-! ### Extended mints -/

/-- Behind the base state: zeros up to the length of a token account, the account type of a mint,
then the records. -/
def packArea (tlvData : Bytes) : Bytes :=
  List.replicate (BASE_ACCOUNT_LENGTH - Mint.LEN) 0 ++ 1 :: tlvData

def packExtended (skipped : MintSkipped) (m : Mint) (tlvData : Bytes) : Bytes :=
  packMint skipped m ++ packArea tlvData

lemma tlvDataOf_eq_ok_iff {rest tlvData : Bytes} :
    tlvDataOf rest = .ok tlvData ↔ rest = [] ∧ tlvData = [] ∨ rest = packArea tlvData := by
  unfold tlvDataOf packArea
  generalize hn : BASE_ACCOUNT_LENGTH - Mint.LEN = n
  refine ⟨fun h => ?_, fun h => ?_⟩
  · dsimp only at h
    split_ifs at h with hnil hlen hpadding htype
    · exact .inl ⟨hnil, (Except.ok.inj h).symm⟩
    · obtain rfl := Except.ok.inj h
      refine .inr ?_
      have hn : n < rest.length := by omega
      have htype : rest[n] = 1 := by
        rw [not_not, List.getD_eq_getElem?_getD, List.getElem?_eq_getElem hn] at htype
        exact htype
      calc rest = rest.take n ++ rest.drop n := (List.take_append_drop n rest).symm
        _ = List.replicate n 0 ++ 1 :: rest.drop (n + 1) := by
          rw [not_not.mp hpadding, List.drop_eq_getElem_cons hn, htype]
  · obtain ⟨rfl, rfl⟩ | rfl := h
    · rfl
    · have hpadding : (List.replicate n (0 : UInt8) ++ 1 :: tlvData).take n = List.replicate n 0 :=
        List.take_left' List.length_replicate
      have htype : (List.replicate n (0 : UInt8) ++ 1 :: tlvData).getD n 0 = 1 := by
        simp
      have hdrop : (List.replicate n (0 : UInt8) ++ 1 :: tlvData).drop (n + 1) = tlvData := by
        rw [List.drop_append]
        simp
      dsimp only
      rw [if_neg (by simp), if_neg (by simp), if_neg (not_not.mpr hpadding),
        if_neg (not_not.mpr htype), hdrop]

/-- The inputs taken for a mint with extensions: base states alone, and extended mints. -/
lemma state_unpack_eq_ok_iff {data tlvData : Bytes} {m : Mint} :
    StateWithExtensions.unpack data = .ok ⟨m, tlvData⟩ ↔
      data.length ≠ Multisig.LEN ∧ m.isInitialized = true ∧ ∃ skipped,
        data = packMint skipped m ∧ tlvData = [] ∨ data = packExtended skipped m tlvData := by
  unfold StateWithExtensions.unpack
  refine ⟨fun h => ?_, fun h => ?_⟩
  · split_ifs at h with hsize
    · cases h
    · obtain ⟨base, hbase, h⟩ := bind_eq_ok.mp h
      obtain ⟨area, harea, h⟩ := bind_eq_ok.mp h
      obtain ⟨rfl, rfl⟩ := StateWithExtensions.mk.inj (Except.ok.inj h)
      obtain ⟨hinit, skipped, rest, rfl⟩ := mint_unpack_take_eq_ok_iff.mp hbase
      rw [List.drop_left' (length_packMint skipped base)] at harea
      refine ⟨fun hlen => hsize (.inl hlen), hinit, skipped, ?_⟩
      obtain ⟨rfl, rfl⟩ | rfl := tlvDataOf_eq_ok_iff.mp harea
      · exact .inl ⟨List.append_nil _, rfl⟩
      · exact .inr rfl
  · obtain ⟨hsize, hinit, skipped, h⟩ := h
    have hlaid : ∃ rest, data = packMint skipped m ++ rest ∧ tlvDataOf rest = .ok tlvData := by
      obtain ⟨rfl, hnil⟩ | rfl := h
      · exact ⟨[], (List.append_nil _).symm, tlvDataOf_eq_ok_iff.mpr (.inl ⟨rfl, hnil⟩)⟩
      · exact ⟨_, rfl, tlvDataOf_eq_ok_iff.mpr (.inr rfl)⟩
    obtain ⟨rest, rfl, harea⟩ := hlaid
    have hlen := length_packMint skipped m
    have hbase := mint_unpack_take_eq_ok_iff.mpr ⟨hinit, skipped, rest, rfl⟩
    have hbig : ¬((packMint skipped m ++ rest).length = Multisig.LEN ∨
        (packMint skipped m ++ rest).length < Mint.LEN) := by
      rw [List.length_append] at hsize ⊢
      omega
    rw [if_neg hbig, hbase, List.drop_left' hlen, harea]
    rfl

/-! ### Extension values -/

/-- The key that an `OptionalNonZeroPubkey` reads as absent. -/
def zeroKey : Pubkey := ⟨.replicate 32 0⟩

def packOptionalKey (key : Option Pubkey) : Bytes := (key.getD zeroKey).bytes.toList

def packTransferFee (fee : TransferFee) : Bytes :=
  u64Bytes fee.epoch ++ (u64Bytes fee.maximumFee ++ u16Bytes fee.transferFeeBasisPoints)

def packTransferFeeConfig (config : TransferFeeConfig) : Bytes :=
  packOptionalKey config.transferFeeConfigAuthority ++
    (packOptionalKey config.withdrawWithheldAuthority ++ (u64Bytes config.withheldAmount ++
      (packTransferFee config.olderTransferFee ++ packTransferFee config.newerTransferFee)))

def packTransferHook (hook : TransferHookConfig) : Bytes :=
  packOptionalKey hook.authority ++ packOptionalKey hook.programId

/-- The configurations with no zero key where they have one. -/
structure FeeKeysNonZero (config : TransferFeeConfig) : Prop where
  transferFeeConfigAuthority : config.transferFeeConfigAuthority ≠ some zeroKey
  withdrawWithheldAuthority : config.withdrawWithheldAuthority ≠ some zeroKey

structure HookKeysNonZero (hook : TransferHookConfig) : Prop where
  authority : hook.authority ≠ some zeroKey
  programId : hook.programId ≠ some zeroKey

lemma optionalPubkeyAt_eq_iff {raw : Bytes} {i : ℕ} {key : Option Pubkey} :
    optionalPubkeyAt raw i = key ↔ key ≠ some zeroKey ∧ pubkeyAt raw i = key.getD zeroKey := by
  unfold optionalPubkeyAt
  change (if pubkeyAt raw i = zeroKey then none else some (pubkeyAt raw i)) = key ↔ _
  split_ifs with h
  · rw [h]
    cases key with
    | none => simp
    | some k => simp [eq_comm]
  · cases key with
    | none => simpa using h
    | some k =>
      simp only [Option.some.injEq, Option.getD_some, iff_and_self]
      rintro rfl
      simpa using h

/-- A fee, as the codec of its layout has it. -/
def rawFee (fee : TransferFee) : UInt64 × UInt64 × UInt16 :=
  (fee.epoch, fee.maximumFee, fee.transferFeeBasisPoints)

def feeLayout : Codec Unit (UInt64 × UInt64 × UInt16) :=
  (u64Field ()).seq ((u64Field ()).seq (u16Field ()))

lemma feeLayout_enc (fee : TransferFee) :
    feeLayout.enc (rawFee fee) = some (packTransferFee fee) := by
  rw [feeLayout, rawFee]
  simp only [Codec.seq_enc, u64Field_enc, u16Field_enc, Option.map_some, Option.bind_some]
  rfl

lemma reads_feeLayout : Reads feeLayout 18 fun w => rawFee (transferFeeAt w 0) := by
  have h := reads_seq (reads_u64Field ()) (reads_seq (reads_u64Field ()) (reads_u16Field ()))
  refine fun w x rest => (h w x rest).trans ?_
  simp only [rawFee, transferFeeAt, u64At, u16At, array_drop, List.drop_drop, Nat.reduceAdd,
    Nat.zero_add, Nat.add_zero]

def feeConfigLayout : Codec Unit (Pubkey × Pubkey × UInt64 × (UInt64 × UInt64 × UInt16) ×
    UInt64 × UInt64 × UInt16) :=
  (keyField ()).seq ((keyField ()).seq ((u64Field ()).seq (feeLayout.seq feeLayout)))

lemma feeConfigLayout_enc (config : TransferFeeConfig) :
    feeConfigLayout.enc (config.transferFeeConfigAuthority.getD zeroKey,
        config.withdrawWithheldAuthority.getD zeroKey, config.withheldAmount,
        rawFee config.olderTransferFee, rawFee config.newerTransferFee) =
      some (packTransferFeeConfig config) := by
  rw [feeConfigLayout]
  simp only [Codec.seq_enc, keyField_enc, u64Field_enc, feeLayout_enc, Option.map_some,
    Option.bind_some]
  rfl

lemma reads_feeConfigLayout : Reads feeConfigLayout transferFeeConfig.size fun w =>
    (pubkeyAt w 0, pubkeyAt w 32, u64At w 64, rawFee (transferFeeAt w 72),
      rawFee (transferFeeAt w 90)) := by
  have h := reads_seq (reads_keyField ()) (reads_seq (reads_keyField ()) (reads_seq
    (reads_u64Field ()) (reads_seq reads_feeLayout reads_feeLayout)))
  refine fun w x rest => (h w x rest).trans ?_
  simp only [transferFeeConfig, rawFee, transferFeeAt, pubkeyAt, u64At, u16At, array_drop,
    List.drop_drop, Nat.reduceAdd, Nat.zero_add, Nat.add_zero]

def hookLayout : Codec Unit (Pubkey × Pubkey) := (keyField ()).seq (keyField ())

lemma hookLayout_enc (hook : TransferHookConfig) :
    hookLayout.enc (hook.authority.getD zeroKey, hook.programId.getD zeroKey) =
      some (packTransferHook hook) := by
  rw [hookLayout]
  simp only [Codec.seq_enc, keyField_enc, Option.map_some, Option.bind_some]
  rfl

lemma reads_hookLayout :
    Reads hookLayout transferHook.size fun w => (pubkeyAt w 0, pubkeyAt w 32) := by
  have h := reads_seq (reads_keyField ()) (reads_keyField ())
  refine fun w x rest => (h w x rest).trans ?_
  simp only [transferHook, pubkeyAt, array_drop, Nat.reduceAdd, Nat.add_zero]

/-- Values of the extension's size are decoded to what they are packed from. -/
structure Decodes {α : Type} (v : Extension) (decode : Bytes → Option α) (valid : α → Prop)
    (pack : α → Bytes) : Prop where
  length_pack : ∀ a, (pack a).length = v.size
  decode_eq_some_iff : ∀ {raw a}, raw.length = v.size →
    (decode raw = some a ↔ valid a ∧ raw = pack a)

lemma decodes_transferFeeConfig :
    Decodes transferFeeConfig transferFeeConfigOf FeeKeysNonZero packTransferFeeConfig where
  length_pack config := (reads_feeConfigLayout.of_enc (feeConfigLayout_enc config)).1
  decode_eq_some_iff {raw config} hlen := by
    rw [← reads_feeConfigLayout.get_eq_iff (feeConfigLayout_enc config) hlen]
    obtain ⟨feeAuthority, withdrawAuthority, amount, ⟨e, m, b⟩, ⟨e', m', b'⟩⟩ := config
    simp only [transferFeeConfigOf, Option.some.injEq, TransferFeeConfig.mk.injEq,
      optionalPubkeyAt_eq_iff, Prod.mk.injEq, rawFee, transferFeeAt, TransferFee.mk.injEq]
    refine ⟨fun h => ?_, fun h => ?_⟩
    · obtain ⟨⟨hfee, hfeeKey⟩, ⟨hwithdraw, hwithdrawKey⟩, h⟩ := h
      exact ⟨⟨hfee, hwithdraw⟩, hfeeKey, hwithdrawKey, h⟩
    · obtain ⟨⟨hfee, hwithdraw⟩, hfeeKey, hwithdrawKey, h⟩ := h
      exact ⟨⟨hfee, hfeeKey⟩, ⟨hwithdraw, hwithdrawKey⟩, h⟩

lemma decodes_permanentDelegate : Decodes permanentDelegate delegateOf (· ≠ zeroKey)
    fun k => k.bytes.toList where
  length_pack k := k.bytes.toList_length
  decode_eq_some_iff {raw k} hlen := by
    have hget := (reads_keyField ()).get_eq_iff (keyField_enc () k) hlen
    rw [← hget, delegateOf, optionalPubkeyAt_eq_iff, Ne, Option.some.injEq]
    rfl

lemma decodes_transferHook :
    Decodes transferHook transferHookOf HookKeysNonZero packTransferHook where
  length_pack hook := (reads_hookLayout.of_enc (hookLayout_enc hook)).1
  decode_eq_some_iff {raw hook} hlen := by
    rw [← reads_hookLayout.get_eq_iff (hookLayout_enc hook) hlen]
    obtain ⟨authority, programId⟩ := hook
    simp only [transferHookOf, Option.some.injEq, TransferHookConfig.mk.injEq,
      optionalPubkeyAt_eq_iff, Prod.mk.injEq]
    refine ⟨fun h => ?_, fun h => ?_⟩
    · obtain ⟨⟨hauthority, hkey⟩, hprogram, hkey'⟩ := h
      exact ⟨⟨hauthority, hprogram⟩, hkey, hkey'⟩
    · obtain ⟨⟨hauthority, hprogram⟩, hkey, hkey'⟩ := h
      exact ⟨⟨hauthority, hkey⟩, hprogram, hkey'⟩

/-! ### The finders -/

variable {v : Extension} {α : Type} {decode : Bytes → Option α}

/-- An extended mint whose first record of the type has the value, behind initialized records. -/
def Carries (v : Extension) (value data : Bytes) : Prop :=
  data.length ≠ Multisig.LEN ∧ ∃ (m : Mint) (skipped : MintSkipped) (records : List Record)
    (r : Record) (tail : Bytes), m.isInitialized = true ∧
      (∀ r ∈ records, r.type ≠ 0 ∧ r.type ≠ v.type) ∧ r.type = v.type ∧ r.value = value ∧
        data = packExtended skipped m (records.flatMap Record.write ++ (r.write ++ tail))

/-- The value of the first record of the type is returned. -/
lemma getExtension_of_written {records : List Record} {r : Record}
    (hothers : ∀ r ∈ records, r.type ≠ 0 ∧ r.type ≠ v.type) (hr : r.type = v.type)
    (hsize : r.value.length = v.size) {m : Mint} {tail : Bytes} :
    StateWithExtensions.getExtension ⟨m, records.flatMap Record.write ++ (r.write ++ tail)⟩ v =
      .ok r.value := by
  have hwalk : walk v.type (records.flatMap Record.write ++ (r.write ++ tail)) =
      ⟨records.map Record.type, .record v.size (r.value ++ tail)⟩ := by
    rw [Record.walk_others hothers, Record.walk_wanted (hr ▸ v.initialized) hr, List.append_nil,
      hsize]
  rw [getExtension_eq_ok_iff, hwalk]
  refine ⟨r.value ++ tail, rfl, ?_, (List.take_left' hsize).symm⟩
  rw [List.length_append]
  omega

/-- A record is returned only from such a place. -/
lemma exists_of_getExtension {state : StateWithExtensions} {raw : Bytes}
    (h : state.getExtension v = .ok raw) :
    raw.length = v.size ∧ ∃ (records : List Record) (r : Record) (tail : Bytes),
      (∀ r ∈ records, r.type ≠ 0 ∧ r.type ≠ v.type) ∧ r.type = v.type ∧ r.value = raw ∧
        state.tlvData = records.flatMap Record.write ++ (r.write ++ tail) := by
  obtain ⟨rest, hstop, hle, rfl⟩ := (getExtension_eq_ok_iff state raw).mp h
  obtain ⟨records, r, tail, hw, -, hothers, hr, hsize, rfl⟩ :=
    Record.exists_of_walk_stop hstop hle
  refine ⟨List.length_take_of_le hle, records, r, tail, hothers, hr, ?_, hw⟩
  rw [List.take_left' hsize.symm]

lemma findExtension_eq_some_iff {valid : α → Prop} {pack : α → Bytes}
    (hd : Decodes v decode valid pack) {data : Bytes} {a : α} :
    findExtension v decode data = .ok (some a) ↔ valid a ∧ Carries v (pack a) data := by
  refine ⟨fun h => ?_, fun h => ?_⟩
  · unfold findExtension at h
    rcases hs : StateWithExtensions.unpack data with e | ⟨m, tlvData⟩
    · rw [hs] at h
      cases h
    · rw [hs] at h
      dsimp only at h
      rcases hg : StateWithExtensions.getExtension ⟨m, tlvData⟩ v with e | raw
      · rw [hg] at h
        cases h
      · rw [hg] at h
        obtain ⟨hlen, records, r, tail, hothers, hr, hvalue, harea⟩ := exists_of_getExtension hg
        obtain ⟨hvalid, hraw⟩ := (hd.decode_eq_some_iff hlen).mp (Except.ok.inj h)
        obtain ⟨hsize, hinit, skipped, hdata⟩ := state_unpack_eq_ok_iff.mp hs
        refine ⟨hvalid, hsize, m, skipped, records, r, tail, hinit, hothers, hr, hvalue ▸ hraw, ?_⟩
        obtain ⟨-, hnil⟩ | hdata := hdata
        · -- an area with a record in it is not empty
          have hlength := congrArg List.length (hnil.symm.trans harea)
          simp only [List.length_nil, List.length_append, Record.length_write] at hlength
          omega
        · rw [hdata, ← harea]
  · obtain ⟨hvalid, hsize, m, skipped, records, r, tail, hinit, hothers, hr, hvalue, hdata⟩ := h
    have hlen : r.value.length = v.size := by rw [hvalue, hd.length_pack]
    have hs := state_unpack_eq_ok_iff.mpr ⟨hsize, hinit, skipped, .inr hdata⟩
    rw [findExtension_of_ok hs (getExtension_of_written hothers hr hlen),
      (hd.decode_eq_some_iff hlen).mpr ⟨hvalid, hvalue⟩]

/-- **What is accepted is laid out as written.** An input is read as a mint or a token account
exactly if it begins with the packing of what was read, and a finder finds a value exactly on the
extended mints whose first record of the type is that value's packing. -/
theorem read_iff_laid_out (data : Bytes) :
    (∀ m, unpackMint data = .ok m ↔
      m.isInitialized = true ∧ ∃ skipped rest, data = packMint skipped m ++ rest) ∧
    (∀ a, unpackTokenAccount data = .ok a ↔
      a.state ≠ .uninitialized ∧ ∃ skipped rest, data = packTokenAccount skipped a ++ rest) ∧
    (∀ config, findTransferFeeConfig data = .ok (some config) ↔ FeeKeysNonZero config ∧
      Carries transferFeeConfig (packTransferFeeConfig config) data) ∧
    (∀ delegate, findPermanentDelegate data = .ok (some delegate) ↔ delegate ≠ zeroKey ∧
      Carries permanentDelegate delegate.bytes.toList data) ∧
    ∀ hook, findTransferHook data = .ok (some hook) ↔ HookKeysNonZero hook ∧
      Carries transferHook (packTransferHook hook) data := by
  refine ⟨fun m => unpackMint_eq_ok_iff, fun a => unpackTokenAccount_laid_out, fun config => ?_,
    fun delegate => ?_, fun hook => ?_⟩
  · exact findExtension_eq_some_iff decodes_transferFeeConfig
  · exact findExtension_eq_some_iff decodes_permanentDelegate
  · exact findExtension_eq_some_iff decodes_transferHook

end SvmWasiCore.TokenLayout

import SvmWasiCore.SubscriptionState
import SvmWasiCore.Fields

/-!
The packed layouts of the subscriptions program, byte for byte.

A parser reads sixteen ranges off its input; laid end to end they are the layout the program
documents, so an accepted input is the packing of what was read. Of a recurring delegation two
bytes are not read, its version and its bump.
-/

namespace SvmWasiCore.SubscriptionLayout

open Lib.ByteCodec Lib.LittleEndian Lib.FixedWidth TokenState SubscriptionState Fields

/-! ### The documented order -/

def packAuthority (a : SubscriptionAuthority) : Bytes :=
  [DISCRIMINATOR_SUBSCRIPTION_AUTHORITY] ++ (a.user.bytes.toList ++ (a.tokenMint.bytes.toList ++
    (a.payer.bytes.toList ++ ([a.bump] ++ i64Bytes a.initId))))

/-- What stands behind the version and the bump. -/
def packFields (d : RecurringDelegation) : Bytes :=
  d.delegator.bytes.toList ++ (d.delegatee.bytes.toList ++ (d.payer.bytes.toList ++
    (i64Bytes d.initId ++ (d.subscriptionAuthority.bytes.toList ++ (d.mint.bytes.toList ++
      (i64Bytes d.currentPeriodStartTs ++ (u64Bytes d.periodLengthS ++ (i64Bytes d.expiryTs ++
        (u64Bytes d.amountPerPeriod ++ u64Bytes d.amountPulledInPeriod)))))))))

def packDelegation (version bump : UInt8) (d : RecurringDelegation) : Bytes :=
  [DISCRIMINATOR_RECURRING_DELEGATION, version, bump] ++ packFields d

/-! ### The layouts as codecs -/

def byteField : Codec Unit UInt8 := .byte ()

def authorityEquiv : Pubkey × Pubkey × Pubkey × UInt8 × Int64 ≃ SubscriptionAuthority where
  toFun := fun (user, tokenMint, payer, bump, initId) => ⟨user, tokenMint, payer, bump, initId⟩
  invFun a := (a.user, a.tokenMint, a.payer, a.bump, a.initId)
  left_inv _ := rfl
  right_inv _ := rfl

def authorityCodec : Codec Unit SubscriptionAuthority :=
  ((keyField ()).seq ((keyField ()).seq ((keyField ()).seq (byteField.seq (i64Field ()))))).iso
    authorityEquiv

def delegationEquiv : Pubkey × Pubkey × Pubkey × Int64 × Pubkey × Pubkey × Int64 × UInt64 ×
    Int64 × UInt64 × UInt64 ≃ RecurringDelegation where
  toFun := fun (delegator, delegatee, payer, initId, subscriptionAuthority, mint,
      currentPeriodStartTs, periodLengthS, expiryTs, amountPerPeriod, amountPulledInPeriod) =>
    ⟨delegator, delegatee, payer, initId, subscriptionAuthority, mint, currentPeriodStartTs,
      periodLengthS, expiryTs, amountPerPeriod, amountPulledInPeriod⟩
  invFun d := (d.delegator, d.delegatee, d.payer, d.initId, d.subscriptionAuthority, d.mint,
    d.currentPeriodStartTs, d.periodLengthS, d.expiryTs, d.amountPerPeriod, d.amountPulledInPeriod)
  left_inv _ := rfl
  right_inv _ := rfl

def delegationCodec : Codec Unit RecurringDelegation :=
  ((keyField ()).seq ((keyField ()).seq ((keyField ()).seq ((i64Field ()).seq ((keyField ()).seq
    ((keyField ()).seq ((i64Field ()).seq ((u64Field ()).seq ((i64Field ()).seq
      ((u64Field ()).seq (u64Field ()))))))))))).iso delegationEquiv

/-- Behind the discriminator. -/
def authorityLayout : Codec Unit (UInt8 × SubscriptionAuthority) := byteField.seq authorityCodec

/-- Behind the discriminator, the version and the bump. -/
def delegationLayout : Codec Unit (UInt8 × UInt8 × UInt8 × RecurringDelegation) :=
  byteField.seq (byteField.seq (byteField.seq delegationCodec))

lemma authorityLayout_enc (a : SubscriptionAuthority) :
    authorityLayout.enc (0, a) = some (packAuthority a) := by
  have henc : authorityCodec.enc a = some (a.user.bytes.toList ++ (a.tokenMint.bytes.toList ++
      (a.payer.bytes.toList ++ ([a.bump] ++ i64Bytes a.initId)))) := by
    change ((keyField ()).seq _).enc (_, _, _, _, _) = _
    simp [Codec.seq_enc, byteField, Codec.byte, i64Bytes]
  rw [authorityLayout, Codec.seq_enc, henc]
  rfl

lemma delegationLayout_enc (version bump : UInt8) (d : RecurringDelegation) :
    delegationLayout.enc (3, version, bump, d) = some (packDelegation version bump d) := by
  have henc : delegationCodec.enc d = some (packFields d) := by
    change ((keyField ()).seq _).enc (_, _, _, _, _, _, _, _, _, _, _) = _
    simp [Codec.seq_enc, packFields, i64Bytes, u64Bytes]
  rw [delegationLayout, Codec.seq_enc, Codec.seq_enc, Codec.seq_enc, henc]
  rfl

/-- The ranges that are read tile the layout. -/
lemma reads_authorityLayout : Reads authorityLayout 106 fun w => (w.getD 0 0,
    ⟨pubkeyAt w 1, pubkeyAt w 33, pubkeyAt w 65, w.getD 97 0, i64At w 98⟩) := by
  have h := reads_seq (reads_byte ()) (reads_iso (reads_seq (reads_keyField ()) (reads_seq
    (reads_keyField ()) (reads_seq (reads_keyField ()) (reads_seq (reads_byte ())
      (reads_i64Field ()))))) authorityEquiv)
  refine fun w a rest => (h w a rest).trans ?_
  simp only [pubkeyAt, i64At, u64At, array_drop, getD_drop, List.drop_drop, Function.comp_def,
    authorityEquiv, Equiv.coe_fn_mk, Nat.reduceAdd]

lemma reads_delegationLayout : Reads delegationLayout 211 fun w =>
    (w.getD 0 0, w.getD 1 0, w.getD 2 0,
      ⟨pubkeyAt w 3, pubkeyAt w 35, pubkeyAt w 67, i64At w 99, pubkeyAt w 107, pubkeyAt w 139,
        i64At w 171, u64At w 179, i64At w 187, u64At w 195, u64At w 203⟩) := by
  have h := reads_seq (reads_byte ()) (reads_seq (reads_byte ()) (reads_seq (reads_byte ())
    (reads_iso (reads_seq (reads_keyField ()) (reads_seq (reads_keyField ()) (reads_seq
      (reads_keyField ()) (reads_seq (reads_i64Field ()) (reads_seq (reads_keyField ()) (reads_seq
        (reads_keyField ()) (reads_seq (reads_i64Field ()) (reads_seq (reads_u64Field ())
          (reads_seq (reads_i64Field ()) (reads_seq (reads_u64Field ())
            (reads_u64Field ()))))))))))) delegationEquiv)))
  refine fun w d rest => (h w d rest).trans ?_
  simp only [pubkeyAt, i64At, u64At, array_drop, getD_drop, List.drop_drop, Function.comp_def,
    delegationEquiv, Equiv.coe_fn_mk, Nat.reduceAdd]

/-! ### The parsers -/

lemma checkKind_eq_ok_iff {data : Bytes} {expectedLen : ℕ} {discriminator : UInt8}
    {kind : String} : checkKind data expectedLen discriminator kind = .ok () ↔
      data.length = expectedLen ∧ data.getD 0 0 = discriminator := by
  unfold checkKind
  split_ifs with hlen hdiscriminator
  · exact iff_of_false (by simp) fun h => hlen h.1
  · exact iff_of_false (by simp) fun h => hdiscriminator h.2
  · exact iff_of_true rfl ⟨not_not.mp hlen, not_not.mp hdiscriminator⟩

/-- What both parsers do: check the kind, then read a layout, of which they keep the part `keep`.
What is accepted is the encoding of what was read. -/
lemma unpack_eq_ok_iff {α β : Type} {layout : Codec Unit (UInt8 × α)} {expectedLen : ℕ}
    {fields : Bytes → α} (hreads : Reads layout expectedLen fun w => (w.getD 0 0, fields w))
    (keep : α → β) {data : Bytes} {discriminator : UInt8} {kind : String} {b : β} :
    (checkKind data expectedLen discriminator kind >>= fun _ => pure (keep (fields data))) = .ok b ↔
      ∃ a, layout.enc (discriminator, a) = some data ∧ keep a = b := by
  refine ⟨fun h => ?_, fun h => ?_⟩
  · obtain ⟨⟨⟩, hcheck, hkeep⟩ := bind_eq_ok.mp h
    obtain ⟨rfl, hdiscriminator⟩ := checkKind_eq_ok_iff.mp hcheck
    have henc := hreads.enc_get le_rfl
    rw [hdiscriminator, List.take_length] at henc
    exact ⟨_, henc, Except.ok.inj hkeep⟩
  · obtain ⟨a, henc, rfl⟩ := h
    obtain ⟨hlen, hget⟩ := hreads.of_enc henc
    obtain ⟨hdiscriminator, hfields⟩ := Prod.mk.inj (hget [])
    rw [List.append_nil] at hdiscriminator hfields
    have hcheck : checkKind data expectedLen discriminator kind = .ok () :=
      checkKind_eq_ok_iff.mpr ⟨hlen, hdiscriminator⟩
    exact bind_eq_ok.mpr ⟨(), hcheck, congrArg (Except.ok ∘ keep) hfields⟩

lemma unpackAuthority_eq_ok_iff {data : Bytes} {a : SubscriptionAuthority} :
    SubscriptionAuthority.unpack data = .ok a ↔ data = packAuthority a := by
  refine (unpack_eq_ok_iff reads_authorityLayout fun a => a).trans ⟨fun h => ?_, fun h => ?_⟩
  · obtain ⟨a, henc, rfl⟩ := h
    exact Option.some.inj (henc.symm.trans (authorityLayout_enc a))
  · exact ⟨a, h ▸ authorityLayout_enc a, rfl⟩

lemma unpackDelegation_eq_ok_iff {data : Bytes} {d : RecurringDelegation} :
    RecurringDelegation.unpack data = .ok d ↔
      ∃ version bump, data = packDelegation version bump d := by
  refine (unpack_eq_ok_iff reads_delegationLayout fun (_, _, d) => d).trans
    ⟨fun h => ?_, fun h => ?_⟩
  · obtain ⟨⟨version, bump, d⟩, henc, rfl⟩ := h
    exact ⟨version, bump, Option.some.inj (henc.symm.trans (delegationLayout_enc version bump d))⟩
  · obtain ⟨version, bump, rfl⟩ := h
    exact ⟨(version, bump, d), delegationLayout_enc version bump d, rfl⟩

lemma unpack_packAuthority (a : SubscriptionAuthority) :
    SubscriptionAuthority.unpack (packAuthority a) = .ok a :=
  unpackAuthority_eq_ok_iff.mpr rfl

lemma unpack_packDelegation (version bump : UInt8) (d : RecurringDelegation) :
    RecurringDelegation.unpack (packDelegation version bump d) = .ok d :=
  unpackDelegation_eq_ok_iff.mpr ⟨version, bump, rfl⟩

/-- A parser that checks the length and the first byte reads whatever passes both. -/
lemma accepted_iff {data : Bytes} {discriminator : UInt8} {expectedLen : ℕ} (kind : String)
    (hpos : 0 < expectedLen) : checkKind data expectedLen discriminator kind = .ok () ↔
      data.length = expectedLen ∧ data[0]? = some discriminator := by
  rw [checkKind_eq_ok_iff]
  refine and_congr_right fun hlen => ?_
  have h0 : 0 < data.length := by omega
  rw [List.getD_eq_getElem?_getD, List.getElem?_eq_getElem h0, Option.getD_some,
    Option.some.injEq]

lemma exists_ok_iff {α : Type} {check : Except SubscriptionStateError Unit} {a : α} :
    (∃ b, (check >>= fun _ => pure a) = .ok b) ↔ check = .ok () := by
  refine ⟨fun h => ?_, fun h => ⟨a, bind_eq_ok.mpr ⟨(), h, rfl⟩⟩⟩
  obtain ⟨b, h⟩ := h
  obtain ⟨⟨⟩, hcheck, -⟩ := bind_eq_ok.mp h
  exact hcheck

lemma unpackAuthority_isOk {data : Bytes} :
    (∃ a, SubscriptionAuthority.unpack data = .ok a) ↔
      data.length = 106 ∧ data[0]? = some 0 := by
  rw [← accepted_iff "SubscriptionAuthority" (by norm_num)]
  exact exists_ok_iff

lemma unpackDelegation_isOk {data : Bytes} :
    (∃ d, RecurringDelegation.unpack data = .ok d) ↔
      data.length = 211 ∧ data[0]? = some 3 := by
  rw [← accepted_iff "RecurringDelegation" (by norm_num)]
  exact exists_ok_iff

/-- Only the version and the bump of a recurring delegation go unread. -/
lemma unpackDelegation_eq_iff {x y : Bytes} {d d' : RecurringDelegation}
    (hx : RecurringDelegation.unpack x = .ok d) (hy : RecurringDelegation.unpack y = .ok d') :
    d = d' ↔ ∀ i, i ≠ 1 → i ≠ 2 → x[i]? = y[i]? := by
  obtain ⟨version, bump, rfl⟩ := unpackDelegation_eq_ok_iff.mp hx
  obtain ⟨version', bump', rfl⟩ := unpackDelegation_eq_ok_iff.mp hy
  refine ⟨fun h i h1 h2 => ?_, fun h => ?_⟩
  · subst h
    match i with
    | 0 => rfl
    | 1 => exact absurd rfl h1
    | 2 => exact absurd rfl h2
    | _ + 3 => rfl
  · have hfields : packFields d = packFields d' :=
      List.ext_getElem? fun i => h (i + 3) (by omega) (by omega)
    have hpack : packDelegation 0 0 d = packDelegation 0 0 d' := by
      rw [packDelegation, hfields, packDelegation]
    have hread := unpack_packDelegation 0 0 d
    rw [hpack, unpack_packDelegation] at hread
    exact (Except.ok.inj hread).symm

/-- The decoders of the subscriptions program lose nothing but a version and a bump, and mix
nothing. -/
theorem packed_layouts_exact :
    (∀ data, (∃ a, SubscriptionAuthority.unpack data = .ok a) ↔
      data.length = 106 ∧ data[0]? = some 0) ∧
    (∀ data, (∃ d, RecurringDelegation.unpack data = .ok d) ↔
      data.length = 211 ∧ data[0]? = some 3) ∧
    (∀ x y a, SubscriptionAuthority.unpack x = .ok a → SubscriptionAuthority.unpack y = .ok a →
      x = y) ∧
    (∀ x y d d', RecurringDelegation.unpack x = .ok d → RecurringDelegation.unpack y = .ok d' →
      (d = d' ↔ ∀ i, i ≠ 1 → i ≠ 2 → x[i]? = y[i]?)) ∧
    (∀ a, SubscriptionAuthority.unpack (packAuthority a) = .ok a) ∧
    (∀ version bump d,
      RecurringDelegation.unpack (packDelegation version bump d) = .ok d) := by
  refine ⟨fun _ => unpackAuthority_isOk, fun _ => unpackDelegation_isOk, fun x y a hx hy => ?_,
    fun _ _ _ _ => unpackDelegation_eq_iff, unpack_packAuthority, unpack_packDelegation⟩
  rw [unpackAuthority_eq_ok_iff.mp hx, unpackAuthority_eq_ok_iff.mp hy]

end SvmWasiCore.SubscriptionLayout

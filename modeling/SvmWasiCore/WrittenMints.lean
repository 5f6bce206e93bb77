import SvmWasiCore.TokenLayout

/-!
Mints as the token programs write them, and what the parsers read back.

A mint has extensions of its own beside the three the finders look for, in any order, and may have
an area that is longer than its records. Nothing of that disturbs what is read.
-/

namespace SvmWasiCore.WrittenMints

open Lib.ByteCodec Lib.LittleEndian Lib.FixedWidth Lib.Tlv TokenState MintExtensions Fields
open TokenLayout

variable {v : Extension} {α : Type} {decode : Bytes → Option α}

/-- A mint that holds nothing but its base state. -/
structure PlainMint where
  base : Mint
  initialized : base.isInitialized = true
  skipped : MintSkipped

def PlainMint.pack (pm : PlainMint) : Bytes := packMint pm.skipped pm.base

/-- An extension as a mint has it; the delegate is absent once it has been revoked. -/
inductive MintExtension
  | transferFeeConfig (config : TransferFeeConfig) (nonZero : FeeKeysNonZero config)
  | permanentDelegate (delegate : Option Pubkey) (nonZero : delegate ≠ some zeroKey)
  | transferHook (hook : TransferHookConfig) (nonZero : HookKeysNonZero hook)
  | other (r : Record) (initialized : r.type ≠ 0) (ne : r.type ∉ [(1 : UInt16), 12, 14])

namespace MintExtension

def transferFeeConfig? : MintExtension → Option TransferFeeConfig
  | transferFeeConfig config _ => some config
  | _ => none

def permanentDelegate? : MintExtension → Option (Option Pubkey)
  | permanentDelegate delegate _ => some delegate
  | _ => none

def transferHook? : MintExtension → Option TransferHookConfig
  | transferHook hook _ => some hook
  | _ => none

/-- A record of the extension's type and size. -/
def recordOf (v : Extension) (value : Bytes) (hlen : value.length = v.size)
    (hsize : v.size < 2 ^ 16) : Record := ⟨v.type, value, hlen ▸ hsize⟩

def record : MintExtension → Record
  | transferFeeConfig config _ =>
    recordOf TokenState.transferFeeConfig (packTransferFeeConfig config)
      (decodes_transferFeeConfig.length_pack config) (by decide)
  | permanentDelegate delegate _ =>
    recordOf TokenState.permanentDelegate (packOptionalKey delegate)
      (List.Vector.toList_length _) (by decide)
  | transferHook hook _ =>
    recordOf TokenState.transferHook (packTransferHook hook)
      (decodes_transferHook.length_pack hook) (by decide)
  | other r _ _ => r

lemma record_type_ne_zero (e : MintExtension) : e.record.type ≠ 0 := by
  cases e with
  | transferFeeConfig => exact TokenState.transferFeeConfig.initialized
  | permanentDelegate => exact TokenState.permanentDelegate.initialized
  | transferHook => exact TokenState.transferHook.initialized
  | other r initialized => exact initialized

/-- A finder's extension: `select` picks the value out of those of its type, which is what the
finder decodes from their records. -/
structure Selects (v : Extension) (decode : Bytes → Option α)
    (select : MintExtension → Option (Option α)) : Prop where
  wanted : ∀ e a, select e = some a →
    e.record.type = v.type ∧ e.record.value.length = v.size ∧ decode e.record.value = a
  others : ∀ e, select e = none → e.record.type ≠ v.type

lemma selects_transferFeeConfig :
    Selects TokenState.transferFeeConfig transferFeeConfigOf
      fun e => e.transferFeeConfig?.map some where
  wanted e a h := by
    cases e with
    | transferFeeConfig config nonZero =>
      obtain rfl := Option.some.inj h
      have hlen := decodes_transferFeeConfig.length_pack config
      exact ⟨rfl, hlen, (decodes_transferFeeConfig.decode_eq_some_iff hlen).mpr ⟨nonZero, rfl⟩⟩
    | permanentDelegate => cases h
    | transferHook => cases h
    | other => cases h
  others e h := by
    cases e with
    | transferFeeConfig => cases h
    | permanentDelegate => exact (by decide : (12 : UInt16) ≠ 1)
    | transferHook => exact (by decide : (14 : UInt16) ≠ 1)
    | other r initialized ne =>
      rintro (h : r.type = 1)
      simp [h] at ne

lemma selects_permanentDelegate :
    Selects TokenState.permanentDelegate delegateOf permanentDelegate? where
  wanted e a h := by
    cases e with
    | transferFeeConfig => cases h
    | permanentDelegate delegate nonZero =>
      obtain rfl := Option.some.inj h
      have hlen : (packOptionalKey delegate).length = 32 := List.Vector.toList_length _
      have hkey := (reads_keyField ()).get_eq_iff (keyField_enc () (delegate.getD zeroKey)) hlen
      exact ⟨rfl, hlen, optionalPubkeyAt_eq_iff.mpr ⟨nonZero, hkey.mpr rfl⟩⟩
    | transferHook => cases h
    | other => cases h
  others e h := by
    cases e with
    | transferFeeConfig => exact (by decide : (1 : UInt16) ≠ 12)
    | permanentDelegate => cases h
    | transferHook => exact (by decide : (14 : UInt16) ≠ 12)
    | other r initialized ne =>
      rintro (h : r.type = 12)
      simp [h] at ne

lemma selects_transferHook :
    Selects TokenState.transferHook transferHookOf fun e => e.transferHook?.map some where
  wanted e a h := by
    cases e with
    | transferFeeConfig => cases h
    | permanentDelegate => cases h
    | transferHook hook nonZero =>
      obtain rfl := Option.some.inj h
      have hlen := decodes_transferHook.length_pack hook
      exact ⟨rfl, hlen, (decodes_transferHook.decode_eq_some_iff hlen).mpr ⟨nonZero, rfl⟩⟩
    | other => cases h
  others e h := by
    cases e with
    | transferFeeConfig => exact (by decide : (1 : UInt16) ≠ 14)
    | permanentDelegate => exact (by decide : (12 : UInt16) ≠ 14)
    | transferHook => cases h
    | other r initialized ne =>
      rintro (h : r.type = 14)
      simp [h] at ne

end MintExtension

/-- The rest of a record area that nothing has been written to. -/
def Unused (w : Bytes) : Prop := w = [] ∨ 2 ≤ w.length ∧ u16At w 0 = 0

instance (w : Bytes) : Decidable (Unused w) := inferInstanceAs (Decidable (_ ∨ _))

structure ExtendedMint extends PlainMint where
  extensions : List MintExtension
  rest : Bytes
  unused : Unused rest

namespace ExtendedMint

def tlvData (em : ExtendedMint) : Bytes :=
  em.extensions.flatMap (fun e => e.record.write) ++ em.rest

def pack (em : ExtendedMint) : Bytes := packExtended em.skipped em.base em.tlvData

/-- What a finder makes of the extension looked for: a mint as long as a multisig is refused. -/
def answer (em : ExtendedMint) (found : Option α) : Except TokenStateError (Option α) :=
  if em.pack.length = Multisig.LEN then .error (.program .invalidAccountData) else .ok found

end ExtendedMint

lemma findExtension_absent {data tlvData : Bytes} {m : Mint}
    (hs : StateWithExtensions.unpack data = .ok ⟨m, tlvData⟩)
    (h : ∀ len rest, (walk v.type tlvData).stop ≠ .record len rest) :
    findExtension v decode data = .ok none := by
  refine findExtension_of_not_ok hs fun raw hraw => ?_
  obtain ⟨rest, hstop, -⟩ := (getExtension_eq_ok_iff _ raw).mp hraw
  exact h _ _ hstop

lemma findExtension_plain (pm : PlainMint) :
    findExtension v decode pm.pack = .ok none := by
  have hsize : pm.pack.length ≠ Multisig.LEN := by
    rw [PlainMint.pack, length_packMint]
    decide
  have hs := state_unpack_eq_ok_iff.mpr ⟨hsize, pm.initialized, pm.skipped, .inl ⟨rfl, rfl⟩⟩
  exact findExtension_absent hs (by simp)

lemma walk_unused {w : Bytes} (h : Unused w) (ty : UInt16) (len : ℕ) (rest : Bytes) :
    (walk ty w).stop ≠ .record len rest := by
  obtain rfl | ⟨hlen, h0⟩ := h
  · simp
  · simp [walk_uninitialized hlen h0]

/-- A finder's result on a written mint: the value of the first extension of its kind. -/
lemma findExtension_pack {select : MintExtension → Option (Option α)}
    (hselect : MintExtension.Selects v decode select) (em : ExtendedMint) :
    findExtension v decode em.pack = em.answer (em.extensions.findSome? select).join := by
  unfold ExtendedMint.answer
  split_ifs with hsize
  · unfold findExtension StateWithExtensions.unpack
    rw [if_pos (.inl hsize)]
    rfl
  · have hs := state_unpack_eq_ok_iff.mpr ⟨hsize, em.initialized, em.skipped, .inr rfl⟩
    rcases hfound : em.extensions.findSome? select with _ | a
    · -- no extension of the kind: the walk passes all of them
      have hnone := List.findSome?_eq_none_iff.mp hfound
      have harea : em.tlvData =
          (em.extensions.map MintExtension.record).flatMap Record.write ++ em.rest := by
        rw [ExtendedMint.tlvData, List.flatMap_map]
      have hothers : ∀ r ∈ em.extensions.map MintExtension.record,
          r.type ≠ 0 ∧ r.type ≠ v.type := by
        intro r hr
        obtain ⟨e, he, rfl⟩ := List.mem_map.mp hr
        exact ⟨e.record_type_ne_zero, hselect.others e (hnone e he)⟩
      refine findExtension_absent hs fun len rest => ?_
      rw [harea, Record.walk_others hothers]
      exact walk_unused em.unused _ len rest
    · -- the first one of the kind stands behind others
      obtain ⟨before, e, after, hsplit, he, hnone⟩ := List.findSome?_eq_some_iff.mp hfound
      obtain ⟨htype, hlen, hdecode⟩ := hselect.wanted e a he
      have harea : em.tlvData = (before.map MintExtension.record).flatMap Record.write ++
          (e.record.write ++ (after.flatMap (fun e => e.record.write) ++ em.rest)) := by
        rw [ExtendedMint.tlvData, hsplit, List.flatMap_append, List.flatMap_cons,
          List.flatMap_map, List.append_assoc, List.append_assoc]
      have hothers : ∀ r ∈ before.map MintExtension.record, r.type ≠ 0 ∧ r.type ≠ v.type := by
        intro r hr
        obtain ⟨e', he', rfl⟩ := List.mem_map.mp hr
        exact ⟨e'.record_type_ne_zero, hselect.others e' (hnone e' he')⟩
      rw [harea] at hs
      rw [findExtension_of_ok hs (getExtension_of_written hothers htype hlen), hdecode]
      rfl

lemma join_findSome?_map {β : Type} (l : List β) (f : β → Option α) :
    (l.findSome? fun b => (f b).map some).join = l.findSome? f := by
  have hmap : (l.findSome? f).map some = l.findSome? fun b => (f b).map some :=
    List.map_findSome?
  rw [← hmap]
  cases l.findSome? f <;> rfl

/-- **What is written is read back.** A mint's base state comes back whatever stands behind it, and
each finder returns the value of the first extension of its kind, whatever extensions stand around
it; where there is none it finds none. Only a mint as long as a multisig is refused. -/
theorem written_mint_read_back :
    (∀ pm : PlainMint, unpackMint pm.pack = .ok pm.base ∧
      findTransferFeeConfig pm.pack = .ok none ∧
        findPermanentDelegate pm.pack = .ok none ∧
          findTransferHook pm.pack = .ok none) ∧
    ∀ em : ExtendedMint, unpackMint em.pack = .ok em.base ∧
      findTransferFeeConfig em.pack =
        em.answer (em.extensions.findSome? (·.transferFeeConfig?)) ∧
      findPermanentDelegate em.pack =
        em.answer (em.extensions.findSome? (·.permanentDelegate?)).join ∧
      findTransferHook em.pack =
        em.answer (em.extensions.findSome? (·.transferHook?)) := by
  refine ⟨fun pm => ⟨?_, ?_, ?_, ?_⟩, fun em => ⟨?_, ?_, ?_, ?_⟩⟩
  · exact unpackMint_eq_ok_iff.mpr ⟨pm.initialized, pm.skipped, [], (List.append_nil _).symm⟩
  · exact findExtension_plain pm
  · exact findExtension_plain pm
  · exact findExtension_plain pm
  · exact unpackMint_eq_ok_iff.mpr ⟨em.initialized, em.skipped, _, rfl⟩
  · rw [← join_findSome?_map]
    exact findExtension_pack MintExtension.selects_transferFeeConfig em
  · exact findExtension_pack MintExtension.selects_permanentDelegate em
  · rw [← join_findSome?_map]
    exact findExtension_pack MintExtension.selects_transferHook em

end SvmWasiCore.WrittenMints

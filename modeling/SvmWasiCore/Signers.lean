import SvmWasiCore.SigningRun
import SvmWasiCore.Stealth
import SvmWasiCore.WireLimits

/-!
Who signs a compiled message: the payer and the keys an instruction marks, whatever the format.
-/

namespace SvmWasiCore.Signers

open MessageFormat MessageCompiler KeyClasses TableLookups Compilation DurableNonce WireLimits
open Dalek Sign Stealth SigningRun Lib.LittleEndian

variable {payer : Pubkey} {ixs : List Instruction} {k : Pubkey}

/-! ### Legacy messages -/

section
variable {l : Message}

lemma mem_signerKeys_of_newMessage (h : newMessage ixs payer = .ok l) :
    k ∈ signerKeys l.header l.accountKeys ↔ k = payer ∨ MarkedSigner ixs k := by
  obtain ⟨header, hparts, rfl⟩ := newMessage_ok_iff.mp h
  obtain ⟨-, hheader, -⟩ := components_ok hparts
  rw [mem_signerKeys_static hheader, signer_compile]
  exact or_self_left

/-- The header asks for no more signers than there are keys, and they are distinct. -/
lemma signers_of_newMessage (h : newMessage ixs payer = .ok l) :
    l.header.numRequiredSignatures.toNat ≤ l.accountKeys.length ∧
      (signerKeys l.header l.accountKeys).Nodup := by
  obtain ⟨header, hparts, rfl⟩ := newMessage_ok_iff.mp h
  obtain ⟨-, hheader, -⟩ := components_ok hparts
  exact ⟨hheader.required_le, staticAccountKeys_nodup.sublist (List.take_sublist _ _)⟩

end

/-! ### v0 messages -/

section
variable {tables : List AddressLookupTableAccount} {blockhash : Hash} {map : KeyMetaMap}
  {m : MessageV0} {ls : List (MessageAddressTableLookup × LoadedAddresses)}

lemma signable_of_built (h : Built payer ixs tables blockhash ls map m) (hw : Writes ixs) :
    Signable m where
  short := (short_iff_of_built h).mpr hw
  keys := by
    rw [h.accountKeys]
    exact h.header.required_le
  distinct := by
    rw [required, h.accountKeys]
    exact staticAccountKeys_nodup.sublist (List.take_sublist _ _)

lemma mem_required_of_built (h : Built payer ixs tables blockhash ls map m) :
    k ∈ required m ↔ k = payer ∨ MarkedSigner ixs k := by
  have hloaded : MarkedSigner ixs k → k ∉ keysOf ls := fun hk hl =>
    (not_signer_of_loaded h.extracted hl).2.1 hk
  change k ∈ signerKeys m.header m.accountKeys ↔ _
  rw [h.accountKeys, mem_signerKeys_static h.header, h.extracted.rest, signer_compile]
  change k = payer ∨ _ ↔ _
  tauto

/-- The authority signs the nonce advance, and no other key does. -/
lemma markedSigner_durable {nonceAccount nonceAuthority : Pubkey} :
    MarkedSigner (durable nonceAccount nonceAuthority ixs) k ↔
      k = nonceAuthority ∨ MarkedSigner ixs k := by
  simp [MarkedSigner, durable, System.advanceNonceAccount, AccountMeta.new, AccountMeta.newReadonly,
    eq_comm (a := k)]

end

/-! ### Sample keypairs -/

lemma mulBase_multiples (x : Scalar) : multiples.mulBase x = x := by
  change x.val • (1 : Scalar) = x
  rw [nsmul_one, ZMod.natCast_zmod_val]

lemma toPubkey_multiples {n : ℕ} (h : n < L) :
    toPubkey multiples (multiples.mulBase n) = sampleKey n := by
  rw [mulBase_multiples]
  change (⟨toLe 32 (n : Scalar).val⟩ : Pubkey) = ⟨toLe 32 n⟩
  rw [ZMod.val_natCast_of_lt h]

lemma one_lt_L : 1 < L := by norm_num [L]

/-- The keypair of a test account. -/
def keypairOf (n : ℕ) (h : n < L) : Keypair multiples where
  signingKey := toLe 32 n
  pubkey := sampleKey n
  pubkey_eq := by
    have hseed : ofLe (toLe 32 n).toList = n := ofLe_toLe_of_lt (lt_trans h L_lt)
    rw [← toPubkey_multiples h]
    change multiples.compress (multiples.mulBase n) =
      multiples.compress (multiples.mulBase (ofLe (toLe 32 n).toList : ℕ))
    rw [hseed]

end SvmWasiCore.Signers

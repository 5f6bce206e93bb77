import SvmWasiCore.WireFormat

/-!
What filling one signature slot does to the array, whatever the transaction around it.

A key signs at its first position among the required keys; every other slot is left alone, so a
slot that verifies stays as it is.
-/

namespace SvmWasiCore.Slots

open Lib.ByteCodec Dalek Sign Envelope WireFormat

variable {P : Type} [AddCommGroup P] {E : Ed25519 P}

variable (E) in
/-- The key is required, and its slot holds a signature over these bytes. -/
def SlotVerifies (keys : List Pubkey) (sigs : List Signature) (mb : Bytes) (pk : Pubkey) : Prop :=
  ∃ (i : ℕ) (sig : Signature), keys[i]? = some pk ∧ sigs[i]? = some sig ∧ Verifies E pk mb sig

/-- Only the slot of the key is new. -/
structure Filled (keys : List Pubkey) (sigs sigs' : List Signature) (pk : Pubkey)
    (sig : Signature) : Prop where
  mem : pk ∈ keys
  lt : keys.idxOf pk < sigs.length
  eq : sigs' = sigs.set (keys.idxOf pk) sig

variable {keys : List Pubkey} {sigs sigs' : List Signature} {n : UInt8} {pk pk' : Pubkey}
  {sig : Signature} {mb : Bytes}

/-- When the required keys are distinct, it is the slot at the position of the key. -/
lemma SlotVerifies.signature {i : ℕ} (h : SlotVerifies E keys sigs mb pk) (hdistinct : keys.Nodup)
    (hi : keys[i]? = some pk) : ∃ sig, sigs[i]? = some sig ∧ Verifies E pk mb sig := by
  obtain ⟨j, sig, hj, hsig, hv⟩ := h
  obtain ⟨hlt, -⟩ := List.getElem?_eq_some_iff.mp hj
  obtain rfl := (List.getElem?_inj hlt hdistinct).mp (hj.trans hi.symm)
  exact ⟨sig, hsig, hv⟩

/-- A required key with a slot has it filled. -/
lemma fillSlot_eq (sig : Signature) (hn : n.toNat ≤ keys.length) (hpk : pk ∈ keys.take n.toNat)
    (hlt : (keys.take n.toNat).idxOf pk < sigs.length) : fillSlot sigs keys n pk sig =
      .ok (.ok (), sigs.set ((keys.take n.toNat).idxOf pk) sig) := by
  rw [fillSlot_required sig hn hpk, setAt, if_pos hlt]
  rfl

lemma filled_of_fillSlot (h : fillSlot sigs keys n pk sig = .ok (.ok (), sigs')) :
    Filled (keys.take n.toNat) sigs sigs' pk sig := by
  have hreturns := (returns_fillSlot_iff _ _ _ pk sig).mp ⟨_, h⟩
  by_cases hpk : pk ∈ keys.take n.toNat
  · rw [fillSlot_eq sig hreturns.1 hpk (hreturns.2 hpk)] at h
    cases h
    exact ⟨hpk, hreturns.2 hpk, rfl⟩
  · rw [fillSlot_notRequired sig hreturns.1 hpk] at h
    cases h

/-- A required key is not refused. -/
lemma fillSlot_accepts {r : Except SignTransactionError Unit}
    (h : fillSlot sigs keys n pk sig = .ok (r, sigs')) (hpk : pk ∈ keys.take n.toNat) :
    r = .ok () := by
  have hreturns := (returns_fillSlot_iff _ _ _ pk sig).mp ⟨_, h⟩
  rw [fillSlot_eq sig hreturns.1 hpk (hreturns.2 hpk)] at h
  cases h
  rfl

namespace Filled

lemma length (h : Filled keys sigs sigs' pk sig) : sigs'.length = sigs.length := by
  rw [h.eq, List.length_set]

lemma getElem?_idxOf (h : Filled keys sigs sigs' pk sig) : keys[keys.idxOf pk]? = some pk := by
  rw [List.getElem?_eq_getElem (List.idxOf_lt_length_iff.mpr h.mem), List.getElem_idxOf]

lemma slot (h : Filled keys sigs sigs' pk sig) (hv : Verifies E pk mb sig) :
    SlotVerifies E keys sigs' mb pk := by
  refine ⟨keys.idxOf pk, sig, h.getElem?_idxOf, ?_, hv⟩
  rw [h.eq, List.getElem?_set_self h.lt]

/-- A slot that verifies still does after another is filled with a signature that verifies. -/
lemma keeps (h : Filled keys sigs sigs' pk sig) (hv : Verifies E pk mb sig)
    (hslot : SlotVerifies E keys sigs mb pk') : SlotVerifies E keys sigs' mb pk' := by
  obtain ⟨i, sig', hi, hsig, hv'⟩ := hslot
  by_cases heq : keys.idxOf pk = i
  · have hpk := h.slot hv
    rw [← heq, h.getElem?_idxOf] at hi
    cases hi
    exact hpk
  · refine ⟨i, sig', hi, ?_, hv'⟩
    rw [h.eq, List.getElem?_set_ne heq, hsig]

/-- Every slot but that of the key is as it was. -/
lemma frame (h : Filled keys sigs sigs' pk sig) {i : ℕ} (hi : keys[i]? ≠ some pk) :
    sigs'[i]? = sigs[i]? := by
  have hne : keys.idxOf pk ≠ i := by
    rintro rfl
    exact hi h.getElem?_idxOf
  rw [h.eq, List.getElem?_set_ne hne]

end Filled

end SvmWasiCore.Slots

import SvmWasiCore.Stealth

/-!
Keys of low order.

A key may decompress to one of the eight points that `8` kills. The shared point is then a
multiple of it that depends on the scalar modulo `8` only, and the guard refuses it when it is the
identity, not when it is another of the eight.
-/

namespace SvmWasiCore.LowOrder

open Lib.ByteCodec Lib.LittleEndian Lib.ScalarMul Dalek Stealth

variable {P : Type} [AddCommGroup P] [DecidableEq P] {E : Ed25519 P}
variable {key spendPub : Pubkey} {p q : P} {x s : Scalar}

lemma hashSharedSecret_identity (hp : p = 0) :
    hashSharedSecret E p = .error .degenerateSharedSecret := if_pos hp

lemma hashSharedSecret_other (hp : p ≠ 0) :
    hashSharedSecret E p = .ok (E.hashToScalar (E.compress p).toList) := if_neg hp

/-- What the three calls return on a key `key`, the scalar `x` and other arguments. -/
structure AllRefuse (E : Ed25519 P) (key spendPub : Pubkey) (x s : Scalar) : Prop where
  derive : deriveOneTimeAddress E key spendPub x = .error .degenerateSharedSecret
  recompute : recomputeOneTimeAddress E x key spendPub = .error .degenerateSharedSecret
  recover : recoverOneTimePrivkey E x key s = .error .degenerateSharedSecret

structure AllAccept (E : Ed25519 P) (key spendPub : Pubkey) (x s : Scalar) : Prop where
  derive : ∃ address, deriveOneTimeAddress E key spendPub x = .ok address
  recompute : ∃ address, recomputeOneTimeAddress E x key spendPub = .ok address
  recover : ∃ scalar, recoverOneTimePrivkey E x key s = .ok scalar

lemma allRefuse (hkey : E.decompress key.bytes = some p)
    (hspend : E.decompress spendPub.bytes = some q) (h : mul x p = 0) :
    AllRefuse E key spendPub x s := by
  have hshared := hashSharedSecret_identity (E := E) h
  refine ⟨?_, ?_, ?_⟩
  · rw [derive_of_decompress hkey hspend, hshared]
    rfl
  · rw [recompute_of_decompress hkey hspend, hshared]
    rfl
  · rw [recover_of_decompress hkey, hshared]
    rfl

lemma allAccept (hkey : E.decompress key.bytes = some p)
    (hspend : E.decompress spendPub.bytes = some q) (h : mul x p ≠ 0) :
    AllAccept E key spendPub x s := by
  have hshared := hashSharedSecret_other (E := E) h
  refine ⟨?_, ?_, ?_⟩
  · rw [derive_of_decompress hkey hspend, hshared]
    exact ⟨_, rfl⟩
  · rw [recompute_of_decompress hkey hspend, hshared]
    exact ⟨_, rfl⟩
  · rw [recover_of_decompress hkey, hshared]
    exact ⟨_, rfl⟩

/-- The key is a point and its multiple by `x` is not the identity. -/
def SharesPoint (E : Ed25519 P) (key : Pubkey) (x : Scalar) : Prop :=
  ∃ p, E.decompress key.bytes = some p ∧ mul x p ≠ 0

lemma sharesPoint_of_derive {address : Pubkey}
    (h : deriveOneTimeAddress E key spendPub x = .ok address) : SharesPoint E key x := by
  obtain ⟨p, hp, h⟩ := bind_eq_ok.mp h
  obtain ⟨q, -, h⟩ := bind_eq_ok.mp h
  obtain ⟨c, hc, -⟩ := bind_eq_ok.mp h
  exact ⟨p, decompress_eq_ok_iff.mp hp, hashSharedSecret_ok_ne hc⟩

lemma sharesPoint_of_recompute {address : Pubkey}
    (h : recomputeOneTimeAddress E x key spendPub = .ok address) : SharesPoint E key x := by
  obtain ⟨p, hp, h⟩ := bind_eq_ok.mp h
  obtain ⟨q, -, h⟩ := bind_eq_ok.mp h
  obtain ⟨c, hc, -⟩ := bind_eq_ok.mp h
  exact ⟨p, decompress_eq_ok_iff.mp hp, hashSharedSecret_ok_ne hc⟩

lemma sharesPoint_of_recover {scalar : Scalar}
    (h : recoverOneTimePrivkey E x key s = .ok scalar) : SharesPoint E key x := by
  obtain ⟨p, hp, h⟩ := bind_eq_ok.mp h
  obtain ⟨c, hc, -⟩ := bind_eq_ok.mp h
  exact ⟨p, decompress_eq_ok_iff.mp hp, hashSharedSecret_ok_ne hc⟩

/-- **Which low-order keys are refused**: those that the scalar, modulo `8`, takes to the identity.
With any other of them the calls go through. Whatever the key, the shared point of a call that goes
through is not the identity. -/
theorem low_order_refused_iff (E : Ed25519 P) :
    (∀ (key spendPub : Pubkey) (p q : P) (x s : Scalar), E.decompress key.bytes = some p →
      E.decompress spendPub.bytes = some q → 8 • p = 0 →
        ((x.val % 8) • p = 0 → AllRefuse E key spendPub x s) ∧
        ((x.val % 8) • p ≠ 0 → AllAccept E key spendPub x s)) ∧
    (∀ key spendPub x address, deriveOneTimeAddress E key spendPub x = .ok address →
      SharesPoint E key x) ∧
    (∀ key spendPub x address, recomputeOneTimeAddress E x key spendPub = .ok address →
      SharesPoint E key x) ∧
    ∀ key x s scalar, recoverOneTimePrivkey E x key s = .ok scalar → SharesPoint E key x := by
  refine ⟨fun key spendPub p q x s hkey hspend hp => ⟨fun h => ?_, fun h => ?_⟩, ?_, ?_, ?_⟩
  · exact allRefuse hkey hspend ((mul_eq_zero_iff_of_killed hp x).mpr h)
  · exact allAccept hkey hspend (mt (mul_eq_zero_iff_of_killed hp x).mp h)
  · intro key spendPub x address h
    exact sharesPoint_of_derive h
  · intro key spendPub x address h
    exact sharesPoint_of_recompute h
  · intro key x s scalar h
    exact sharesPoint_of_recover h

/-! ### The full group -/

/-- The group of all curve points, of order `8 * L`: a point is its torsion and its multiplier. -/
def fullGroup : Ed25519 (ZMod 8 × Scalar) where
  basepoint := (0, 1)
  order_basepoint := by simp
  compress p := toLe 32 (p.1.val + 8 * p.2.val)
  decompress b :=
    if ofLe b.toList < 8 * L then some (((ofLe b.toList % 8 : ℕ) : ZMod 8),
      ((ofLe b.toList / 8 : ℕ) : Scalar)) else none
  decompress_compress p := by
    have ht := ZMod.val_lt p.1
    have hx := ZMod.val_lt p.2
    have hlt : p.1.val + 8 * p.2.val < 8 * L := by omega
    have hbytes : 8 * L < 256 ^ 32 := by norm_num [L]
    have hmod : (p.1.val + 8 * p.2.val) % 8 = p.1.val := by omega
    have hdiv : (p.1.val + 8 * p.2.val) / 8 = p.2.val := by omega
    rw [ofLe_toLe_of_lt (hlt.trans hbytes), if_pos hlt, hmod, hdiv, ZMod.natCast_zmod_val,
      ZMod.natCast_zmod_val]
  hashToScalar w := ofLe w
  expand seed := (ofLe seed.toList, seed)

/-- A point of order `8`. -/
def torsionPoint : ZMod 8 × Scalar := (1, 0)

/-- With a key of order `8` and the scalar one, all three calls go through. -/
theorem torsion_accepted :
    8 • torsionPoint = 0 ∧ fullGroup.decompress (toPubkey fullGroup torsionPoint).bytes =
        some torsionPoint ∧
      AllAccept fullGroup (toPubkey fullGroup torsionPoint) (toPubkey fullGroup (0, 1)) 1 1 := by
  have hkey : fullGroup.decompress (toPubkey fullGroup torsionPoint).bytes = some torsionPoint :=
    fullGroup.decompress_compress torsionPoint
  have hone : mul (1 : Scalar) torsionPoint ≠ 0 := by
    have hval : (1 : Scalar).val = 1 := ZMod.val_one'' (by norm_num [L])
    rw [mul, hval, one_nsmul]
    intro h
    exact absurd (congrArg Prod.fst h) (by decide)
  exact ⟨by decide, hkey, allAccept hkey (fullGroup.decompress_compress _) hone⟩

end SvmWasiCore.LowOrder

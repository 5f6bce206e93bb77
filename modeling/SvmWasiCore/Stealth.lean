import SvmWasiCore.Dalek

/-!
One-time addresses: the sender derives one, the scanner recomputes it, and the signer recovers
its private scalar and signs with it.

All three start from the same shared point, reached from different secrets, and hash it to one
scalar `c`. The address is `c · G + S` and its key `c + s`.
-/

namespace SvmWasiCore.Stealth

open Lib.ByteCodec Lib.ScalarMul Dalek

inductive StealthError
  | invalidPoint (kind : String)
  | degenerateSharedSecret
  | invalidScalarHex (msg : String)
  deriving DecidableEq

inductive StealthSignError
  | invalidPoint
  deriving DecidableEq

variable {P : Type} [AddCommGroup P] (E : Ed25519 P)

def decompress (pubkey : Pubkey) (kind : String) : Except StealthError P :=
  match E.decompress pubkey.bytes with
  | some p => .ok p
  | none => .error (.invalidPoint kind)

def toPubkey (point : P) : Pubkey := ⟨E.compress point⟩

section
variable [DecidableEq P]

/-- The `c` of `T = c · G + S`. The identity point is refused. -/
def hashSharedSecret (shared : P) : Except StealthError Scalar :=
  if shared = 0 then .error .degenerateSharedSecret
  else .ok (E.hashToScalar (E.compress shared).toList)

/-- Sender side. -/
def deriveOneTimeAddress (scanPub spendPub : Pubkey) (ephemeralScalar : Scalar) :
    Except StealthError Pubkey := do
  let scanPoint ← decompress E scanPub "scan_pub"
  let spendPoint ← decompress E spendPub "spend_pub"
  let shared := mul ephemeralScalar scanPoint
  let c ← hashSharedSecret E shared
  let oneTime := E.mulBase c + spendPoint
  return toPubkey E oneTime

/-- Scanner side. -/
def recomputeOneTimeAddress (scanPriv : Scalar) (ephemeralPub spendPub : Pubkey) :
    Except StealthError Pubkey := do
  let ephemeralPoint ← decompress E ephemeralPub "ephemeral_pub"
  let spendPoint ← decompress E spendPub "spend_pub"
  let shared := mul scanPriv ephemeralPoint
  let c ← hashSharedSecret E shared
  let oneTime := E.mulBase c + spendPoint
  return toPubkey E oneTime

/-- Signer side: the private scalar of the address. -/
def recoverOneTimePrivkey (scanPriv : Scalar) (ephemeralPub : Pubkey) (spendPriv : Scalar) :
    Except StealthError Scalar := do
  let ephemeralPoint ← decompress E ephemeralPub "ephemeral_pub"
  let shared := mul scanPriv ephemeralPoint
  let c ← hashSharedSecret E shared
  return c + spendPriv

end

/-- Signs with a raw scalar. `hashPrefix` is what the random generator filled in. -/
def signWithRecoveredKey (hashPrefix : List.Vector UInt8 32) (scalar : Scalar)
    (message : Bytes) : Except StealthSignError Signature :=
  let point := E.mulBase scalar
  match VerifyingKey.fromBytes E (E.compress point) with
  | none => .error .invalidPoint
  | some verifyingKey => .ok (rawSign E scalar hashPrefix message verifyingKey)

/-! ### The three parties on honestly encoded keys -/

variable {E} in
lemma decompress_eq_ok_iff {pubkey : Pubkey} {kind : String} {p : P} :
    decompress E pubkey kind = .ok p ↔ E.decompress pubkey.bytes = some p := by
  unfold decompress
  cases E.decompress pubkey.bytes <;> simp

@[simp] lemma fromBytes_compress (p : P) :
    VerifyingKey.fromBytes E (E.compress p) = some ⟨E.compress p, p⟩ := by
  simp [VerifyingKey.fromBytes, E.decompress_compress]

/-- Signing never fails, and the signature is one for the public point of the scalar. -/
lemma signWithRecoveredKey_equation (hashPrefix : List.Vector UInt8 32) (t : Scalar)
    (message : Bytes) :
    ∃ sig, signWithRecoveredKey E hashPrefix t message = .ok sig ∧
      VerificationEquation E ⟨E.compress (E.mulBase t), E.mulBase t⟩ message sig := by
  refine ⟨_, ?_, rawSign_equation E t hashPrefix message _ rfl⟩
  simp [signWithRecoveredKey]

/-- The point both sides share. -/
def sharedPoint (v r : Scalar) : P := mul r (E.mulBase v)

lemma sharedPoint_comm (v r : Scalar) : mul v (E.mulBase r) = sharedPoint E v r :=
  mul_point_comm v r E.basepoint

variable [DecidableEq P]

section
variable {E} {scanPub ephemeralPub spendPub : Pubkey} {p q : P}

lemma hashSharedSecret_ok_ne {c : Scalar} (h : hashSharedSecret E p = .ok c) : p ≠ 0 := by
  rintro rfl
  rw [hashSharedSecret, if_pos rfl] at h
  cases h

/-- On valid keys only the shared point can be refused. -/
lemma derive_of_decompress (hscan : E.decompress scanPub.bytes = some p)
    (hspend : E.decompress spendPub.bytes = some q) (x : Scalar) :
    deriveOneTimeAddress E scanPub spendPub x =
      (hashSharedSecret E (mul x p)).map fun c => toPubkey E (E.mulBase c + q) := by
  rw [deriveOneTimeAddress, decompress_eq_ok_iff.mpr hscan, decompress_eq_ok_iff.mpr hspend]
  change (hashSharedSecret E (mul x p) >>= _) = _
  cases hashSharedSecret E (mul x p) <;> rfl

lemma recompute_of_decompress (hephemeral : E.decompress ephemeralPub.bytes = some p)
    (hspend : E.decompress spendPub.bytes = some q) (x : Scalar) :
    recomputeOneTimeAddress E x ephemeralPub spendPub =
      (hashSharedSecret E (mul x p)).map fun c => toPubkey E (E.mulBase c + q) := by
  rw [recomputeOneTimeAddress, decompress_eq_ok_iff.mpr hephemeral,
    decompress_eq_ok_iff.mpr hspend]
  change (hashSharedSecret E (mul x p) >>= _) = _
  cases hashSharedSecret E (mul x p) <;> rfl

lemma recover_of_decompress (hephemeral : E.decompress ephemeralPub.bytes = some p)
    (x s : Scalar) :
    recoverOneTimePrivkey E x ephemeralPub s =
      (hashSharedSecret E (mul x p)).map fun c => c + s := by
  rw [recoverOneTimePrivkey, decompress_eq_ok_iff.mpr hephemeral]
  change (hashSharedSecret E (mul x p) >>= _) = _
  cases hashSharedSecret E (mul x p) <;> rfl

end

lemma derive_eq (v s r : Scalar) :
    deriveOneTimeAddress E (toPubkey E (E.mulBase v)) (toPubkey E (E.mulBase s)) r =
      (hashSharedSecret E (sharedPoint E v r)).map fun c => toPubkey E (E.mulBase (c + s)) := by
  simp only [mulBase_add]
  exact derive_of_decompress (E.decompress_compress _) (E.decompress_compress _) r

lemma recompute_eq (v s r : Scalar) :
    recomputeOneTimeAddress E v (toPubkey E (E.mulBase r)) (toPubkey E (E.mulBase s)) =
      (hashSharedSecret E (sharedPoint E v r)).map fun c => toPubkey E (E.mulBase (c + s)) := by
  simp only [mulBase_add, ← sharedPoint_comm]
  exact recompute_of_decompress (E.decompress_compress _) (E.decompress_compress _) v

lemma recover_eq (v s r : Scalar) :
    recoverOneTimePrivkey E v (toPubkey E (E.mulBase r)) s =
      (hashSharedSecret E (sharedPoint E v r)).map fun c => c + s := by
  rw [← sharedPoint_comm]
  exact recover_of_decompress (E.decompress_compress _) v s

/-- **The parties agree.** Sender and scanner get the same result, the signer succeeds when
they do, and then holds the key of the address and signs for it. -/
theorem parties_agree (v s r : Scalar) :
    let V := toPubkey E (E.mulBase v)
    let S := toPubkey E (E.mulBase s)
    let R := toPubkey E (E.mulBase r)
    deriveOneTimeAddress E V S r = recomputeOneTimeAddress E v R S ∧
    ((∃ t, recoverOneTimePrivkey E v R s = .ok t) ↔ ∃ T, deriveOneTimeAddress E V S r = .ok T) ∧
    ∀ T t, deriveOneTimeAddress E V S r = .ok T → recoverOneTimePrivkey E v R s = .ok t →
      toPubkey E (E.mulBase t) = T ∧
      ∀ hashPrefix message, ∃ sig key,
        signWithRecoveredKey E hashPrefix t message = .ok sig ∧
        VerifyingKey.fromBytes E T.bytes = some key ∧
        VerificationEquation E key message sig ∧ verify E key message sig := by
  intro V S R
  rw [derive_eq, recompute_eq, recover_eq]
  refine ⟨rfl, ?_, ?_⟩
  · cases hashSharedSecret E (sharedPoint E v r) <;> simp [Except.map]
  · intro T t hT ht
    cases hc : hashSharedSecret E (sharedPoint E v r) with
    | error e => simp [hc, Except.map] at hT
    | ok c =>
      simp only [hc, Except.map, Except.ok.injEq] at hT ht
      subst hT ht
      refine ⟨rfl, fun hashPrefix message => ?_⟩
      obtain ⟨sig, hsig, heq⟩ := signWithRecoveredKey_equation E hashPrefix (c + s) message
      exact ⟨sig, _, hsig, fromBytes_compress E _, heq, (verify_iff E _ _ _).mpr heq⟩

end SvmWasiCore.Stealth

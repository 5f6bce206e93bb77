import SvmWasiCore.Basic
import SvmWasiCore.Lib.LittleEndian
import SvmWasiCore.Lib.ScalarMul
import Mathlib.Tactic.Abel

/-!
What the crate takes from `curve25519_dalek`, `sha2` and `ed25519_dalek`.

The group of curve points, point compression and the hash are parameters. Of the group the
proofs use that the base point is killed by `L`, of compression that `decompress` undoes it,
and of the hash nothing. Signing and verification are built on top of these three.
-/

namespace SvmWasiCore.Dalek

open Lib.ByteCodec Lib.LittleEndian Lib.ScalarMul

/-! ### Scalars -/

/-- The prime order of the base point. -/
def L : ℕ := 2 ^ 252 + 27742317777372353535851937790883648493

instance : NeZero L := ⟨by norm_num [L]⟩

lemma L_lt : L < 256 ^ 32 := by norm_num [L]

abbrev Scalar := ZMod L

def Scalar.toBytes (x : Scalar) : List.Vector UInt8 32 := toLe 32 x.val

/-- Only the integers below `L` are accepted. -/
def Scalar.fromCanonicalBytes (b : List.Vector UInt8 32) : Option Scalar :=
  if ofLe b.toList < L then some (ofLe b.toList : Scalar) else none

lemma fromCanonicalBytes_toBytes (x : Scalar) :
    Scalar.fromCanonicalBytes x.toBytes = some x := by
  have hx := ZMod.val_lt x
  have h : ofLe x.toBytes.toList = x.val := ofLe_toLe_of_lt (lt_trans hx L_lt)
  rw [Scalar.fromCanonicalBytes, h, if_pos hx, ZMod.natCast_zmod_val]

/-! ### The parameters -/

structure Ed25519 (P : Type) [AddCommGroup P] where
  /-- `ED25519_BASEPOINT_POINT`. -/
  basepoint : P
  order_basepoint : L • basepoint = 0
  compress : P → List.Vector UInt8 32
  decompress : List.Vector UInt8 32 → Option P
  decompress_compress : ∀ p, decompress (compress p) = some p
  /-- SHA-512 of the bytes, reduced modulo `L`. -/
  hashToScalar : Bytes → Scalar
  /-- `ExpandedSecretKey::from` of a seed: the scalar and the nonce prefix. -/
  expand : List.Vector UInt8 32 → Scalar × List.Vector UInt8 32

/-- The multiples of the base point, each written as its multiplier. -/
def multiples : Ed25519 Scalar where
  basepoint := 1
  order_basepoint := by simp
  compress := Scalar.toBytes
  decompress := Scalar.fromCanonicalBytes
  decompress_compress := fromCanonicalBytes_toBytes
  hashToScalar w := ofLe w
  expand seed := (ofLe seed.toList, seed)

variable {P : Type} [AddCommGroup P] (E : Ed25519 P)

/-- `x · G`. -/
def Ed25519.mulBase (x : Scalar) : P := mul x E.basepoint

lemma mulBase_add (x y : Scalar) : E.mulBase (x + y) = E.mulBase x + E.mulBase y :=
  mul_residue_add E.order_basepoint x y

lemma mulBase_mul (x y : Scalar) : E.mulBase (x * y) = mul x (E.mulBase y) :=
  mul_residue_mul E.order_basepoint x y

/-! ### Keys and signatures -/

structure VerifyingKey (P : Type) where
  compressed : List.Vector UInt8 32
  point : P

def VerifyingKey.fromBytes (bytes : List.Vector UInt8 32) : Option (VerifyingKey P) :=
  (E.decompress bytes).map fun p => ⟨bytes, p⟩

/-- The first half of a signature, the compressed nonce point. -/
def rPart (sig : Signature) : List.Vector UInt8 32 := sig.bytes.take 32

/-- The second half, a scalar. -/
def sPart (sig : Signature) : List.Vector UInt8 32 := sig.bytes.drop 32

def fromParts (r s : List.Vector UInt8 32) : Signature := ⟨⟨r.toList ++ s.toList, by simp⟩⟩

@[simp] lemma rPart_fromParts (r s : List.Vector UInt8 32) : rPart (fromParts r s) = r := by
  apply List.Vector.eq
  obtain ⟨r, hr⟩ := r
  obtain ⟨s, hs⟩ := s
  change List.take 32 (r ++ s) = r
  rw [← hr, List.take_left]

@[simp] lemma sPart_fromParts (r s : List.Vector UInt8 32) : sPart (fromParts r s) = s := by
  apply List.Vector.eq
  obtain ⟨r, hr⟩ := r
  obtain ⟨s, hs⟩ := s
  change List.drop 32 (r ++ s) = s
  rw [← hr, List.drop_left]

/-- The challenge `k` of a signature. -/
def challenge (r key : List.Vector UInt8 32) (message : Bytes) : Scalar :=
  E.hashToScalar (r.toList ++ key.toList ++ message)

/-- `hazmat::raw_sign`. -/
def rawSign (scalar : Scalar) (hashPrefix : List.Vector UInt8 32) (message : Bytes)
    (key : VerifyingKey P) : Signature :=
  let r := E.hashToScalar (hashPrefix.toList ++ message)
  let R := E.compress (E.mulBase r)
  let k := challenge E R key.compressed message
  let s : Scalar := k * scalar + r
  fromParts R s.toBytes

/-- `VerifyingKey::verify`: recompute the nonce point and compare its encoding. -/
def verify (key : VerifyingKey P) (message : Bytes) (sig : Signature) : Bool :=
  match Scalar.fromCanonicalBytes (sPart sig) with
  | none => false
  | some s =>
    let k := challenge E (rPart sig) key.compressed message
    E.compress (mul k (-key.point) + E.mulBase s) = rPart sig

/-- The Ed25519 verification equation `s · G = R + k · A`. -/
def VerificationEquation (key : VerifyingKey P) (message : Bytes) (sig : Signature) : Prop :=
  ∃ (R : P) (s : Scalar), E.compress R = rPart sig ∧
    Scalar.fromCanonicalBytes (sPart sig) = some s ∧
    E.mulBase s = R + mul (challenge E (rPart sig) key.compressed message) key.point

/-- The verifier accepts exactly the signatures that satisfy the equation. -/
lemma verify_iff (key : VerifyingKey P) (message : Bytes) (sig : Signature) :
    verify E key message sig ↔ VerificationEquation E key message sig := by
  unfold verify VerificationEquation
  refine ⟨fun h => ?_, fun h => ?_⟩
  · cases hs : Scalar.fromCanonicalBytes (sPart sig) with
    | none => simp [hs] at h
    | some s =>
      simp only [hs, decide_eq_true_eq] at h
      refine ⟨_, s, h, rfl, ?_⟩
      rw [mul_point_neg]
      abel
  · obtain ⟨R, s, hR, hs, he⟩ := h
    simp only [hs, he, decide_eq_true_eq, ← hR]
    rw [mul_point_neg]
    congr 1
    abel

/-- A signature made with the scalar of a key satisfies the equation for that key. -/
lemma rawSign_equation (scalar : Scalar) (hashPrefix : List.Vector UInt8 32) (message : Bytes)
    (key : VerifyingKey P) (hkey : key.point = E.mulBase scalar) :
    VerificationEquation E key message (rawSign E scalar hashPrefix message key) := by
  obtain ⟨r, hr⟩ : ∃ r, r = E.hashToScalar (hashPrefix.toList ++ message) := ⟨_, rfl⟩
  obtain ⟨k, hk⟩ : ∃ k, k = challenge E (E.compress (E.mulBase r)) key.compressed message :=
    ⟨_, rfl⟩
  have hsig : rawSign E scalar hashPrefix message key =
      fromParts (E.compress (E.mulBase r)) (Scalar.toBytes (k * scalar + r)) := by
    rw [hk, hr]
    rfl
  rw [hsig]
  refine ⟨E.mulBase r, k * scalar + r, (rPart_fromParts _ _).symm, ?_, ?_⟩
  · rw [sPart_fromParts, fromCanonicalBytes_toBytes]
  · rw [rPart_fromParts, ← hk]
    calc E.mulBase (k * scalar + r) = E.mulBase (k * scalar) + E.mulBase r := mulBase_add E _ _
      _ = mul k (E.mulBase scalar) + E.mulBase r := by rw [mulBase_mul]
      _ = E.mulBase r + mul k key.point := by rw [hkey, add_comm]

end SvmWasiCore.Dalek

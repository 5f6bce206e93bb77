import SvmWasiCore.Dalek

/-!
Loaded signing keys.

A `Keypair` is only made by `fromBytes`, which derives the public key from the seed and
compares it with the stored one; so the public key of a keypair is the derived one.
-/

namespace SvmWasiCore.Sign

open Lib.ByteCodec Dalek

def keypairBytes : ℕ := 64

inductive SignError
  | invalidLength (len : ℕ)
  | publicKeyMismatch
  deriving DecidableEq

variable {P : Type} [AddCommGroup P] (E : Ed25519 P)

/-- The verifying key of a seed. -/
def verifyingKey (seed : List.Vector UInt8 32) : VerifyingKey P :=
  let point := E.mulBase (E.expand seed).1
  ⟨E.compress point, point⟩

structure Keypair where
  signingKey : List.Vector UInt8 32
  pubkey : Pubkey
  pubkey_eq : pubkey.bytes = (verifyingKey E signingKey).compressed

namespace Keypair

/-- Loads `seed(32) || public_key(32)`. -/
def fromBytes (bytes : Bytes) : Except SignError (Keypair E) :=
  if h : bytes.length ≠ keypairBytes then .error (.invalidLength bytes.length)
  else
    let seed : List.Vector UInt8 32 :=
      ⟨bytes.take 32, by rw [List.length_take, not_not.mp h]; rfl⟩
    let derived := verifyingKey E seed
    if derived.compressed.toList ≠ bytes.drop 32 then .error .publicKeyMismatch
    else .ok ⟨seed, ⟨derived.compressed⟩, rfl⟩

variable {E}

def signMessage (keypair : Keypair E) (message : Bytes) : Signature :=
  let expanded := E.expand keypair.signingKey
  rawSign E expanded.1 expanded.2 message (verifyingKey E keypair.signingKey)

end Keypair

/-- A signature that verifies for a pubkey over a message. -/
def Verifies (pubkey : Pubkey) (message : Bytes) (sig : Signature) : Prop :=
  ∃ key, VerifyingKey.fromBytes E pubkey.bytes = some key ∧ verify E key message sig

variable {E}

/-- What a keypair signs verifies for its pubkey. -/
lemma verifies_signMessage (keypair : Keypair E) (message : Bytes) :
    Verifies E keypair.pubkey message (keypair.signMessage message) := by
  refine ⟨verifyingKey E keypair.signingKey, ?_, ?_⟩
  · rw [keypair.pubkey_eq]
    simp [VerifyingKey.fromBytes, verifyingKey, E.decompress_compress]
  · exact (verify_iff E _ _ _).mpr (rawSign_equation E _ _ _ _ rfl)

end SvmWasiCore.Sign

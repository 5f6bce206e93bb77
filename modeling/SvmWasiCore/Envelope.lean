import SvmWasiCore.MessageFormat
import SvmWasiCore.Sign
import SvmWasiCore.Lib.Base64

/-!
The outer transaction envelope: a signature array in front of a message.

A versioned transaction is written as its counted signature array, the version byte and the
message; it is parsed back from those bytes and filled in slot by slot. The signature count,
the required-signature count of the header and the number of account keys are three separate
numbers of the input.
-/

namespace SvmWasiCore.Envelope

open Lib Lib.ByteCodec ShortVec MessageFormat Dalek Sign

inductive SignTransactionError
  | notARequiredSigner
  deriving DecidableEq

/-- The cause of a refused encoding stands for the text the source keeps of it. -/
inductive ParseVersionedTransactionError
  | base64
  | truncated
  | signatures (e : DecodeError)
  | notVersioned
  | message (e : DecodeError)
  deriving DecidableEq

/-! ### Signature slots -/

/-- Finds `pubkey` among the first `numRequiredSignatures` account keys and fills that slot. -/
def fillSlot (signatures : List Signature) (accountKeys : List Pubkey)
    (numRequiredSignatures : UInt8) (pubkey : Pubkey) (signature : Signature) :
    Exec (Except SignTransactionError Unit × List Signature) := do
  let required ← sliceTo accountKeys numRequiredSignatures.toNat
  match position required pubkey with
  | none => return (.error .notARequiredSigner, signatures)
  | some index =>
    let signatures ← setAt signatures index signature
    return (.ok (), signatures)

variable {P : Type} [AddCommGroup P] {E : Ed25519 P}

def signInto (signatures : List Signature) (accountKeys : List Pubkey)
    (numRequiredSignatures : UInt8) (messageBytes : Bytes) (keypair : Keypair E) :
    Exec (Except SignTransactionError Unit × List Signature) :=
  fillSlot signatures accountKeys numRequiredSignatures keypair.pubkey
    (keypair.signMessage messageBytes)

/-- The counted signature array. -/
def signatureArray : Codec DecodeError (List Signature) := shortVec signatureCodec

def serializeWithSignatures (signatures : List Signature) (messageBytes : Bytes) :
    Exec Bytes := do
  let buf ← expect (signatureArray.enc signatures) "signature array always serializes"
  return buf ++ messageBytes

/-! ### Legacy transactions -/

structure Transaction where
  signatures : List Signature
  message : Message
  deriving DecidableEq

namespace Transaction

def newUnsigned (message : Message) : Transaction where
  signatures := List.replicate message.header.numRequiredSignatures.toNat .default
  message := message

def serialize (tx : Transaction) : Exec Bytes := do
  let messageBytes ← expect (messageCodec.enc tx.message) "message always serializes"
  serializeWithSignatures tx.signatures messageBytes

def toBase64 (tx : Transaction) : Exec String := do
  return Base64.encode (← tx.serialize)

def trySign (tx : Transaction) (keypair : Keypair E) :
    Exec (Except SignTransactionError Unit × Transaction) := do
  let messageBytes ← expect (messageCodec.enc tx.message) "message always serializes"
  let (result, signatures) ← signInto tx.signatures tx.message.accountKeys
    tx.message.header.numRequiredSignatures messageBytes keypair
  return (result, { tx with signatures })

end Transaction

/-! ### Versioned transactions -/

structure VersionedTransaction where
  signatures : List Signature
  message : MessageV0
  deriving DecidableEq

namespace VersionedTransaction

def newUnsigned (message : MessageV0) : VersionedTransaction where
  signatures := List.replicate message.header.numRequiredSignatures.toNat .default
  message := message

def messageBytes (tx : VersionedTransaction) : Exec Bytes := do
  let bytes ← expect (messageV0Codec.enc tx.message) "message always serializes"
  return messageVersionPrefix :: bytes

def serialize (tx : VersionedTransaction) : Exec Bytes := do
  serializeWithSignatures tx.signatures (← tx.messageBytes)

def toBase64 (tx : VersionedTransaction) : Exec String := do
  return Base64.encode (← tx.serialize)

def recentBlockhash (tx : VersionedTransaction) : Hash := tx.message.recentBlockhash

/-- The cursor stops in front of the bytes the signature array leaves unread. -/
def tryFromBytes (bytes : Bytes) :
    Except ParseVersionedTransactionError VersionedTransaction :=
  match signatureArray.dec bytes with
  | .error e => .error (.signatures e)
  | .ok (_, []) => .error .truncated
  | .ok (signatures, versionByte :: messageBytes) =>
    if versionByte ≠ messageVersionPrefix then .error .notVersioned
    else
      match messageV0Codec.dec messageBytes with
      | .error e => .error (.message e)
      -- `bincode::deserialize` does not look at the bytes after the message
      | .ok (message, _) => .ok { signatures, message }

def tryFromBase64 (encoded : String) :
    Except ParseVersionedTransactionError VersionedTransaction :=
  match Base64.decode encoded with
  | none => .error .base64
  | some bytes => tryFromBytes bytes

def trySign (tx : VersionedTransaction) (keypair : Keypair E) :
    Exec (Except SignTransactionError Unit × VersionedTransaction) := do
  let messageBytes ← tx.messageBytes
  let (result, signatures) ← signInto tx.signatures tx.message.accountKeys
    tx.message.header.numRequiredSignatures messageBytes keypair
  return (result, { tx with signatures })

def insertSignature (tx : VersionedTransaction) (pubkey : Pubkey) (signature : Signature) :
    Exec (Except SignTransactionError Unit × VersionedTransaction) := do
  let (result, signatures) ← fillSlot tx.signatures tx.message.accountKeys
    tx.message.header.numRequiredSignatures pubkey signature
  return (result, { tx with signatures })

def messageBytesToSign (tx : VersionedTransaction) : Exec Bytes := tx.messageBytes

end VersionedTransaction

end SvmWasiCore.Envelope

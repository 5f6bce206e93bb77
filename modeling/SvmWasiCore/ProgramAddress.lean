import SvmWasiCore.Fields

/-!
Program-derived addresses.

Such an address is the hash of its seeds, a bump, its program and a marker, and it must be no
point of the curve: the search counts the bump down until it is none.
-/

namespace SvmWasiCore.ProgramAddress

open Lib.ByteCodec Fields

def MAX_SEEDS : ℕ := 16
def MAX_SEED_LEN : ℕ := 32
def PDA_MARKER : Bytes := byteString "ProgramDerivedAddress"

inductive AddressError
  | maxSeedLengthExceeded
  | invalidSeeds
  deriving DecidableEq

def hashInput (seeds : List Bytes) (programId : Pubkey) : Bytes :=
  seeds.flatten ++ (programId.bytes.toList ++ PDA_MARKER)

/-- What the callers of the search rely on: the address it finds was hashed from the seeds and
the bump it reports. -/
structure AddressSearch where
  sha256 : Bytes → List.Vector UInt8 32
  tryFindProgramAddress : List Bytes → Pubkey → Option (Pubkey × UInt8)
  hashed : ∀ {seeds programId address bump},
    tryFindProgramAddress seeds programId = some (address, bump) →
      address.bytes = sha256 (hashInput (seeds ++ [[bump]]) programId)

/-! ### The search of `solana-address` -/

section

variable (sha256 : Bytes → List.Vector UInt8 32) (isCurvePoint : List.Vector UInt8 32 → Bool)
  (seeds : List Bytes) (programId : Pubkey)

def createProgramAddress : Except AddressError Pubkey :=
  if MAX_SEEDS < seeds.length ∨ seeds.any (fun seed => MAX_SEED_LEN < seed.length) then
    .error .maxSeedLengthExceeded
  else if isCurvePoint (sha256 (hashInput seeds programId)) then .error .invalidSeeds
  else .ok ⟨sha256 (hashInput seeds programId)⟩

/-- From the bump `n` down to `1`. -/
def searchFrom : ℕ → Option (Pubkey × UInt8)
  | 0 => none
  | n + 1 =>
    match createProgramAddress sha256 isCurvePoint (seeds ++ [[.ofNat (n + 1)]]) programId with
    | .ok address => some (address, .ofNat (n + 1))
    | .error .invalidSeeds => searchFrom n
    | .error .maxSeedLengthExceeded => none

end

variable {sha256 : Bytes → List.Vector UInt8 32} {isCurvePoint : List.Vector UInt8 32 → Bool}
  {seeds : List Bytes} {programId : Pubkey}

lemma createProgramAddress_eq_ok {address : Pubkey}
    (h : createProgramAddress sha256 isCurvePoint seeds programId = .ok address) :
    address.bytes = sha256 (hashInput seeds programId) := by
  unfold createProgramAddress at h
  split_ifs at h
  obtain rfl := Except.ok.inj h
  rfl

lemma searchFrom_hashed {address : Pubkey} {bump : UInt8} {n : ℕ}
    (h : searchFrom sha256 isCurvePoint seeds programId n = some (address, bump)) :
    address.bytes = sha256 (hashInput (seeds ++ [[bump]]) programId) := by
  induction n with
  | zero => cases h
  | succ n ih =>
    rw [searchFrom] at h
    split at h
    · next hcreate =>
      cases h
      exact createProgramAddress_eq_ok hcreate
    · exact ih h
    · cases h

/-- What the search finds is no point of the curve. -/
lemma searchFrom_offCurve {address : Pubkey} {bump : UInt8} {n : ℕ}
    (h : searchFrom sha256 isCurvePoint seeds programId n = some (address, bump)) :
    isCurvePoint address.bytes = false := by
  induction n with
  | zero => cases h
  | succ n ih =>
    rw [searchFrom] at h
    split at h
    · next hcreate =>
      cases h
      unfold createProgramAddress at hcreate
      split_ifs at hcreate with hlong hcurve
      cases hcreate
      exact eq_false_of_ne_true hcurve
    · exact ih h
    · cases h

def AddressSearch.solana (sha256 : Bytes → List.Vector UInt8 32)
    (isCurvePoint : List.Vector UInt8 32 → Bool) : AddressSearch where
  sha256 := sha256
  tryFindProgramAddress seeds programId := searchFrom sha256 isCurvePoint seeds programId 255
  hashed := searchFrom_hashed

end SvmWasiCore.ProgramAddress

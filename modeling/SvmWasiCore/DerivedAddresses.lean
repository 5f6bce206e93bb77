import SvmWasiCore.BuilderCalls
import SvmWasiCore.Sign
import SvmWasiCore.Stealth

/-!
All addresses the builders derive.

They are named by their seeds, and nobody signs for them.
-/

namespace SvmWasiCore.DerivedAddresses

open Lib.ByteCodec Fields ProgramAddress SubscriptionCalls Dalek Sign Stealth

inductive Derived
  | subscriptions (p : Pda)
  | associatedToken (wallet mint tokenProgramId : Pubkey)
  deriving DecidableEq

namespace Derived

def programId : Derived → Pubkey
  | subscriptions _ => Subscriptions.id
  | associatedToken .. => AssociatedTokenAccount.id

def seeds : Derived → List Bytes
  | subscriptions p => p.seeds
  | associatedToken wallet mint tokenProgramId =>
    [wallet.bytes.toList, tokenProgramId.bytes.toList, mint.bytes.toList]

def address (search : AddressSearch) : Derived → Option Pubkey
  | subscriptions p => (p.find search).map (·.1)
  | associatedToken wallet mint tokenProgramId =>
    AssociatedTokenAccount.getAssociatedTokenAddress search wallet mint tokenProgramId

/-- What the address was hashed from, when one was found. -/
def input (search : AddressSearch) (d : Derived) : Option Bytes :=
  (search.tryFindProgramAddress d.seeds d.programId).map fun (_, bump) =>
    hashInput (d.seeds ++ [[bump]]) d.programId

lemma address_eq (search : AddressSearch) (d : Derived) :
    d.address search = (search.tryFindProgramAddress d.seeds d.programId).map (·.1) := by
  cases d with
  | subscriptions p =>
    rw [address, Pda.find_eq]
    rfl
  | associatedToken wallet mint tokenProgramId => exact (Option.map_eq_bind ..).symm

lemma address_eq_some {search : AddressSearch} {d : Derived} {key : Pubkey}
    (h : d.address search = some key) :
    ∃ bump, search.tryFindProgramAddress d.seeds d.programId = some (key, bump) := by
  rw [address_eq, Option.map_eq_some_iff] at h
  obtain ⟨⟨found, bump⟩, hfound, rfl⟩ := h
  exact ⟨bump, hfound⟩

/-- Every family has seeds of a length of its own. -/
lemma seeds_injective {d d' : Derived} (h : d.seeds.flatten = d'.seeds.flatten) : d = d' := by
  have hlen := congrArg List.length h
  cases d with
  | subscriptions p =>
    cases d' with
    | subscriptions p' => rw [Pda.seeds_injective h]
    | associatedToken =>
      rw [seeds, Pda.length_seeds] at hlen
      cases p <;> simp [seeds] at hlen
  | associatedToken =>
    cases d' with
    | subscriptions p' =>
      rw [seeds, seeds, Pda.length_seeds] at hlen
      cases p' <;> simp at hlen
    | associatedToken =>
      simp only [seeds, List.flatten_cons, List.flatten_nil, List.append_nil,
        keyBytes_append_inj, keyBytes_inj] at h
      rw [h.1, h.2.1, h.2.2]

lemma hashInput_injective {d d' : Derived} {bump bump' : UInt8}
    (h : hashInput (d.seeds ++ [[bump]]) d.programId =
      hashInput (d'.seeds ++ [[bump']]) d'.programId) : d = d' := by
  simp only [hashInput, List.flatten_append, List.flatten_singleton, List.append_assoc] at h
  exact seeds_injective (List.append_inj' h (by simp)).1

end Derived

variable {P : Type} [AddCommGroup P]

/-- The search, with the curve check of the group. -/
def curveSearch (sha256 : Bytes → List.Vector UInt8 32) (E : Ed25519 P) : AddressSearch :=
  .solana sha256 fun b => (E.decompress b).isSome

section
variable {E : Ed25519 P} {key : Pubkey}

lemma ne_of_decompress_eq_none (h : E.decompress key.bytes = none) (p : P) :
    toPubkey E p ≠ key := by
  rintro rfl
  cases h.symm.trans (E.decompress_compress p)

variable [DecidableEq P]

/-- Sender and scanner end on a point of the curve, whatever they start from. -/
lemma exists_of_deriveOneTimeAddress {scanPub spendPub : Pubkey} {r : Scalar}
    (h : deriveOneTimeAddress E scanPub spendPub r = .ok key) : ∃ p, toPubkey E p = key := by
  obtain ⟨scanPoint, -, h⟩ := bind_eq_ok.mp h
  obtain ⟨spendPoint, -, h⟩ := bind_eq_ok.mp h
  obtain ⟨c, -, h⟩ := bind_eq_ok.mp h
  exact ⟨_, Except.ok.inj h⟩

lemma exists_of_recomputeOneTimeAddress {ephemeralPub spendPub : Pubkey} {v : Scalar}
    (h : recomputeOneTimeAddress E v ephemeralPub spendPub = .ok key) :
    ∃ p, toPubkey E p = key := by
  obtain ⟨ephemeralPoint, -, h⟩ := bind_eq_ok.mp h
  obtain ⟨spendPoint, -, h⟩ := bind_eq_ok.mp h
  obtain ⟨c, -, h⟩ := bind_eq_ok.mp h
  exact ⟨_, Except.ok.inj h⟩

/-- Nobody has the key: no signature verifies for it, and it is neither a keypair's pubkey nor the
encoding of a point, so neither side of a stealth payment ever comes to it. -/
structure Keyless (E : Ed25519 P) (key : Pubkey) : Prop where
  unsigned : ∀ mb sig, ¬Verifies E key mb sig
  keypair : ∀ kp : Keypair E, kp.pubkey ≠ key
  point : ∀ p : P, toPubkey E p ≠ key
  derived : ∀ scanPub spendPub r, deriveOneTimeAddress E scanPub spendPub r ≠ .ok key
  recomputed : ∀ v ephemeralPub spendPub,
    recomputeOneTimeAddress E v ephemeralPub spendPub ≠ .ok key

lemma keyless_of_decompress_eq_none (h : E.decompress key.bytes = none) : Keyless E key where
  unsigned mb sig hverifies := by
    obtain ⟨verifyingKey, hkey, -⟩ := hverifies
    rw [VerifyingKey.fromBytes, h] at hkey
    cases hkey
  keypair kp hkp := by
    rw [← hkp, kp.pubkey_eq] at h
    cases h.symm.trans (E.decompress_compress _)
  point := ne_of_decompress_eq_none h
  derived scanPub spendPub r hr := by
    obtain ⟨p, hp⟩ := exists_of_deriveOneTimeAddress hr
    exact ne_of_decompress_eq_none h p hp
  recomputed v ephemeralPub spendPub hv := by
    obtain ⟨p, hp⟩ := exists_of_recomputeOneTimeAddress hv
    exact ne_of_decompress_eq_none h p hp

end

/-- **Derived addresses.** Without a hash collision an address names its family and every seed,
across both programs. No signature of any kind verifies for it, and it is no one-time address. -/
theorem derived_addresses [DecidableEq P] (sha256 : Bytes → List.Vector UInt8 32)
    (E : Ed25519 P) :
    (∀ d d' : Derived, Set.InjOn sha256
        {w | w ∈ d.input (curveSearch sha256 E) ∨ w ∈ d'.input (curveSearch sha256 E)} →
      ∀ key, d.address (curveSearch sha256 E) = some key →
        d'.address (curveSearch sha256 E) = some key → d = d') ∧
    ∀ (d : Derived) (key : Pubkey), d.address (curveSearch sha256 E) = some key →
      Keyless E key := by
  refine ⟨fun d d' hinputs key h h' => ?_, fun d key h => ?_⟩
  · obtain ⟨bump, hfind⟩ := Derived.address_eq_some h
    obtain ⟨bump', hfind'⟩ := Derived.address_eq_some h'
    have hhash := ((curveSearch sha256 E).hashed hfind).symm.trans
      ((curveSearch sha256 E).hashed hfind')
    refine Derived.hashInput_injective (hinputs (.inl ?_) (.inr ?_) hhash)
    · simp [Derived.input, hfind]
    · simp [Derived.input, hfind']
  · obtain ⟨bump, hfind⟩ := Derived.address_eq_some h
    have hcurve : (E.decompress key.bytes).isSome = false := searchFrom_offCurve hfind
    exact keyless_of_decompress_eq_none (by simpa using hcurve)

def sampleSha256 (w : Bytes) : List.Vector UInt8 32 :=
  (sampleHashes.lookup w).getD (.replicate 32 0)

lemma ne_samplePoint (x : Scalar) : multiples.compress x ≠ samplePoint := by
  intro h
  have hnone : multiples.decompress samplePoint = none := by decide +kernel
  cases hnone.symm.trans (h ▸ multiples.decompress_compress x)

/-- The multiples, and `samplePoint` as one more encoding of the base point. -/
def sampleCurve : Ed25519 Scalar where
  basepoint := multiples.basepoint
  order_basepoint := multiples.order_basepoint
  compress := multiples.compress
  decompress b := if b = samplePoint then some 1 else multiples.decompress b
  decompress_compress x := by rw [if_neg (ne_samplePoint x), multiples.decompress_compress]
  hashToScalar := multiples.hashToScalar
  expand := multiples.expand

/-- The authority of one user over a mint. -/
def sampleDerived (n : ℕ) : Derived :=
  .subscriptions (.subscriptionAuthority (sampleKey 1) (sampleKey n))

/-- The second address is found behind `samplePoint`. -/
theorem derived_addresses_sample :
    (sampleDerived 4).address (curveSearch sampleSha256 sampleCurve) = some sampleAuthority ∧
    (sampleDerived 5).address (curveSearch sampleSha256 sampleCurve) = some otherAuthority ∧
      sampleAuthority ≠ otherAuthority ∧ Keyless sampleCurve otherAuthority := by
  have h : (sampleDerived 4).address (curveSearch sampleSha256 sampleCurve) =
        some sampleAuthority ∧
      (sampleDerived 5).address (curveSearch sampleSha256 sampleCurve) = some otherAuthority := by
    decide +kernel
  obtain ⟨hnamed, hkeyless⟩ := derived_addresses sampleSha256 sampleCurve
  have hinputs : ∀ n ∈ [4, 5],
      ∀ w ∈ (sampleDerived n).input (curveSearch sampleSha256 sampleCurve), ∀ n' ∈ [4, 5],
        ∀ w' ∈ (sampleDerived n').input (curveSearch sampleSha256 sampleCurve),
          sampleSha256 w = sampleSha256 w' → w = w' := by decide +kernel
  refine ⟨h.1, h.2, fun heq => ?_, hkeyless _ _ h.2⟩
  have hderived : sampleDerived 4 = sampleDerived 5 := by
    refine hnamed _ _ (fun w hw w' hw' => ?_) sampleAuthority h.1 (heq ▸ h.2)
    rcases hw with hw | hw <;> rcases hw' with hw' | hw'
    all_goals exact hinputs _ (by decide) w hw _ (by decide) w' hw'
  exact absurd hderived (by decide +kernel)

end SvmWasiCore.DerivedAddresses

import SvmWasiCore.WireFormat
import Mathlib.Data.List.Nodup

/-!
Several parties signing one transaction.

A run is any sequence of signings by a keypair, insertions of a ready signature, and hops that
serialize the transaction and parse it back. Its state is determined by the message and by
the signature each required key was last given; every step keeps it in that form.
-/

namespace SvmWasiCore.SigningRun

open Lib.ByteCodec MessageFormat Dalek Sign Envelope WireFormat

variable {P : Type} [AddCommGroup P] {E : Ed25519 P}

inductive Step (E : Ed25519 P)
  | trySign (keypair : Keypair E)
  | insertSignature (pubkey : Pubkey) (signature : Signature)
  | hop

/-- What a step reports. -/
inductive StepResult
  | signed (r : Except SignTransactionError Unit)
  | parsed (r : Except ParseVersionedTransactionError Unit)

def step (tx : VersionedTransaction) : Step E → Exec (StepResult × VersionedTransaction)
  | .trySign keypair => do
    let (r, tx) ← tx.trySign keypair
    return (.signed r, tx)
  | .insertSignature pubkey signature => do
    let (r, tx) ← tx.insertSignature pubkey signature
    return (.signed r, tx)
  | .hop => do
    let w ← tx.serialize
    match VersionedTransaction.tryFromBytes w with
    | .ok tx => return (.parsed (.ok ()), tx)
    | .error e => return (.parsed (.error e), tx)

def run (tx : VersionedTransaction) : List (Step E) → Exec VersionedTransaction
  | [] => .ok tx
  | st :: steps => do
    let (_, tx) ← step tx st
    run tx steps

/-! ### What a run was given -/

/-- The key a step is for. -/
def Step.signer? : Step E → Option Pubkey
  | .trySign keypair => some keypair.pubkey
  | .insertSignature pubkey _ => some pubkey
  | .hop => none

/-- The signature a step supplies over the bytes `mb`. -/
def Step.signature? (mb : Bytes) : Step E → Option Signature
  | .trySign keypair => some (keypair.signMessage mb)
  | .insertSignature _ signature => some signature
  | .hop => none

/-- The steps for a key. -/
def stepsFor (pk : Pubkey) (steps : List (Step E)) : List (Step E) :=
  steps.filter fun st => st.signer? = some pk

/-- The last signature supplied for a key. -/
def lastSupplied (mb : Bytes) (pk : Pubkey) (steps : List (Step E)) : Option Signature :=
  ((stepsFor pk steps).filterMap (Step.signature? mb)).getLast?

/-- The last step for the key is a signing by its keypair. -/
def SignedLast (pk : Pubkey) (steps : List (Step E)) : Prop :=
  ∃ before keypair after, steps = before ++ .trySign keypair :: after ∧ keypair.pubkey = pk ∧
    ∀ st ∈ after, st.signer? ≠ some pk

/-! ### The form every state of a run has -/

def required (m : MessageV0) : List Pubkey :=
  m.accountKeys.take m.header.numRequiredSignatures.toNat

/-- A message whose required signers are there and distinct. -/
structure Signable (m : MessageV0) : Prop where
  short : m.Short
  keys : m.header.numRequiredSignatures.toNat ≤ m.accountKeys.length
  distinct : (required m).Nodup

/-- The transaction on `m` in which each required key has its slot filled from `f`. -/
def filled (m : MessageV0) (f : Pubkey → Signature) : VersionedTransaction where
  signatures := (required m).map f
  message := m

def supply (mb : Bytes) (f : Pubkey → Signature) : Step E → Pubkey → Signature
  | .trySign keypair => Function.update f keypair.pubkey (keypair.signMessage mb)
  | .insertSignature pubkey signature => Function.update f pubkey signature
  | .hop => f

section
variable {m : MessageV0} {mb : Bytes}

lemma required_length (hm : Signable m) :
    (required m).length = m.header.numRequiredSignatures.toNat := by
  have := hm.keys
  unfold required
  rw [List.length_take]
  omega

lemma newUnsigned_eq (hm : Signable m) :
    VersionedTransaction.newUnsigned m = filled m fun _ => .default := by
  rw [VersionedTransaction.newUnsigned, filled, List.map_const', required_length hm]

lemma filled_short (hm : Signable m) (f : Pubkey → Signature) : Short (filled m f) where
  signatures := by
    have h := m.header.numRequiredSignatures.toNat_lt
    rw [filled, List.length_map, required_length hm]
    omega
  message := hm.short

/-- Filling a slot updates the key's entry; for any other key it is refused. -/
lemma fillSlot_filled (hm : Signable m) (f : Pubkey → Signature) (pk : Pubkey) (s : Signature) :
    fillSlot (filled m f).signatures m.accountKeys m.header.numRequiredSignatures pk s =
      .ok (if pk ∈ required m then .ok () else .error .notARequiredSigner,
        (filled m (Function.update f pk s)).signatures) := by
  simp only [filled, hm.distinct.map_update]
  by_cases hpk : pk ∈ required m
  · have hlt : (required m).idxOf pk < ((required m).map f).length := by
      rw [List.length_map]
      exact List.idxOf_lt_length_iff.mpr hpk
    rw [fillSlot_required s hm.keys hpk, setAt]
    change Except.map _ (if (required m).idxOf pk < _ then _ else _) = _
    rw [if_pos hlt, if_pos hpk, if_pos hpk]
    rfl
  · rw [fillSlot_notRequired s hm.keys hpk, if_neg hpk, if_neg hpk]

/-- What a step reports on a transaction whose signers are known. -/
def stepResult (m : MessageV0) (st : Step E) : StepResult :=
  match st.signer? with
  | none => .parsed (.ok ())
  | some pk => .signed (if pk ∈ required m then .ok () else .error .notARequiredSigner)

/-- **One step.** It returns, and leaves the form with at most one slot changed. -/
lemma step_filled (hm : Signable m) (f : Pubkey → Signature)
    (hmb : (filled m f).messageBytes = .ok mb) (st : Step E) :
    step (filled m f) st = .ok (stepResult m st, filled m (supply mb f st)) := by
  cases st with
  | trySign kp =>
    have h := fillSlot_filled hm f kp.pubkey (kp.signMessage mb)
    have ht : (filled m f).trySign kp =
        .ok (if kp.pubkey ∈ required m then .ok () else .error .notARequiredSigner,
          filled m (Function.update f kp.pubkey (kp.signMessage mb))) := by
      rw [VersionedTransaction.trySign, hmb]
      change (fillSlot (filled m f).signatures m.accountKeys m.header.numRequiredSignatures
        kp.pubkey (kp.signMessage mb) >>= _) = _
      rw [h]
      rfl
    rw [step, ht]
    rfl
  | insertSignature pk s =>
    have h := fillSlot_filled hm f pk s
    have ht : (filled m f).insertSignature pk s =
        .ok (if pk ∈ required m then .ok () else .error .notARequiredSigner,
          filled m (Function.update f pk s)) := by
      unfold VersionedTransaction.insertSignature
      change (fillSlot (filled m f).signatures m.accountKeys m.header.numRequiredSignatures
        pk s >>= _) = _
      rw [h]
      rfl
    rw [step, ht]
    rfl
  | hop =>
    obtain ⟨w, hw⟩ := (returns_serialize_iff _).mpr (filled_short hm f)
    rw [step, hw]
    change (match VersionedTransaction.tryFromBytes w with
      | .ok tx => _
      | .error e => _) = _
    rw [tryFromBytes_serialize hw]
    rfl

/-- **A whole run**, by induction on its steps. -/
lemma run_filled (hm : Signable m) (steps : List (Step E)) (f : Pubkey → Signature)
    (hmb : (filled m f).messageBytes = .ok mb) :
    run (filled m f) steps = .ok (filled m (steps.foldl (supply mb) f)) := by
  induction steps generalizing f with
  | nil => rfl
  | cons st steps ih =>
    rw [run, step_filled hm f hmb]
    exact ih _ hmb

end

/-! ### The last signature wins -/

lemma stepsFor_append (pk : Pubkey) (xs ys : List (Step E)) :
    stepsFor pk (xs ++ ys) = stepsFor pk xs ++ stepsFor pk ys := List.filter_append ..

lemma lastSupplied_append (mb : Bytes) (pk : Pubkey) (xs ys : List (Step E)) :
    lastSupplied mb pk (xs ++ ys) = (lastSupplied mb pk ys).or (lastSupplied mb pk xs) := by
  rw [lastSupplied, stepsFor_append, List.filterMap_append, List.getLast?_append]
  rfl

lemma lastSupplied_eq_none {mb : Bytes} {pk : Pubkey} {steps : List (Step E)}
    (h : ∀ st ∈ steps, st.signer? ≠ some pk) : lastSupplied mb pk steps = none := by
  have h0 : stepsFor pk steps = [] := by
    rw [stepsFor, List.filter_eq_nil_iff]
    simpa using h
  rw [lastSupplied, h0]
  rfl

/-- One step supplies its signature to its own key. -/
lemma supply_eq (mb : Bytes) (f : Pubkey → Signature) (st : Step E) (pk : Pubkey) :
    supply mb f st pk = (lastSupplied mb pk [st]).getD (f pk) := by
  cases st with
  | trySign kp =>
    by_cases h : kp.pubkey = pk
    · subst h
      simp [supply, lastSupplied, stepsFor, Step.signer?, Step.signature?]
    · simp [supply, lastSupplied, stepsFor, Step.signer?, h, Ne.symm h]
  | insertSignature k s =>
    by_cases h : k = pk
    · subst h
      simp [supply, lastSupplied, stepsFor, Step.signer?, Step.signature?]
    · simp [supply, lastSupplied, stepsFor, Step.signer?, h, Ne.symm h]
  | hop => simp [supply, lastSupplied, stepsFor, Step.signer?]

lemma foldl_supply (mb : Bytes) (f : Pubkey → Signature) (steps : List (Step E)) (pk : Pubkey) :
    steps.foldl (supply mb) f pk = (lastSupplied mb pk steps).getD (f pk) := by
  induction steps using List.reverseRecOn with
  | nil => rfl
  | append_singleton steps st ih =>
    rw [List.foldl_append, List.foldl_cons, List.foldl_nil, supply_eq, ih, lastSupplied_append]
    cases lastSupplied mb pk [st] <;> rfl

lemma lastSupplied_of_signedLast (mb : Bytes) {pk : Pubkey} {steps : List (Step E)}
    (h : SignedLast pk steps) :
    ∃ kp : Keypair E, kp.pubkey = pk ∧ lastSupplied mb pk steps = some (kp.signMessage mb) := by
  obtain ⟨before, kp, after, rfl, hk, hafter⟩ := h
  refine ⟨kp, hk, ?_⟩
  have h1 : lastSupplied mb pk [Step.trySign kp] = some (kp.signMessage mb) := by
    simp [lastSupplied, stepsFor, Step.signer?, Step.signature?, hk]
  rw [lastSupplied_append, show Step.trySign kp :: after = [Step.trySign kp] ++ after from rfl,
    lastSupplied_append, lastSupplied_eq_none hafter, h1]
  rfl

/-! ### What holds of every run -/

/-- The state after the steps. -/
def after (m : MessageV0) (mb : Bytes) (steps : List (Step E)) : VersionedTransaction :=
  filled m fun pk => (lastSupplied mb pk steps).getD .default

section
variable {m : MessageV0} {mb : Bytes}

lemma run_newUnsigned (hm : Signable m)
    (hmb : (VersionedTransaction.newUnsigned m).messageBytes = .ok mb) (steps : List (Step E)) :
    run (VersionedTransaction.newUnsigned m) steps = .ok (after m mb steps) := by
  rw [newUnsigned_eq hm] at hmb ⊢
  rw [run_filled hm steps _ hmb]
  congr 2
  funext pk
  exact foldl_supply mb _ steps pk

lemma after_slot (steps : List (Step E)) {i : ℕ} {pk : Pubkey} (hi : (required m)[i]? = some pk) :
    (after m mb steps).signatures[i]? = some ((lastSupplied mb pk steps).getD .default) := by
  rw [after, filled, List.getElem?_map, hi]
  rfl

/-- The state only depends on the steps for the required keys. -/
lemma after_congr {steps steps' : List (Step E)}
    (h : ∀ pk ∈ required m, stepsFor pk steps' = stepsFor pk steps) :
    after m mb steps' = after m mb steps := by
  unfold after filled
  congr 1
  refine List.map_congr_left fun pk hpk => ?_
  rw [lastSupplied, h pk hpk]
  rfl

/-- A step for a key that is not required updates an entry no slot is filled from. -/
lemma filled_supply_outsider {st : Step E} {pk : Pubkey} (f : Pubkey → Signature)
    (hst : st.signer? = some pk) (hpk : pk ∉ required m) :
    filled m (supply mb f st) = filled m f := by
  unfold filled
  congr 1
  refine List.map_congr_left fun k hk => ?_
  have hne : st.signer? ≠ some k := by
    rw [hst]
    rintro ⟨⟩
    exact hpk hk
  rw [supply_eq, lastSupplied_eq_none (by simpa using hne)]
  rfl

lemma step_outsider (hm : Signable m) (hmb : (VersionedTransaction.newUnsigned m).messageBytes =
    .ok mb) (steps : List (Step E)) {st : Step E} {pk : Pubkey} (hst : st.signer? = some pk)
    (hpk : pk ∉ required m) :
    step (after m mb steps) st =
      .ok (.signed (.error .notARequiredSigner), after m mb steps) := by
  have hstep := step_filled hm (fun pk => (lastSupplied mb pk steps).getD .default) hmb st
  rw [after, hstep, stepResult, hst, filled_supply_outsider _ hst hpk]
  simp [hpk]

lemma after_wire (hm : Signable m)
    (hmb : (VersionedTransaction.newUnsigned m).messageBytes = .ok mb) (steps : List (Step E)) :
    ∃ q, signatureArray.enc (after m mb steps).signatures = some q ∧
      (after m mb steps).serialize = .ok (q ++ mb) := by
  obtain ⟨w, hw⟩ := (returns_serialize_iff (after m mb steps)).mpr (filled_short hm _)
  obtain ⟨q, mb', hq, hmb', rfl⟩ := serialize_ok_iff.mp hw
  obtain rfl : mb' = mb := Except.ok.inj (hmb'.symm.trans hmb)
  exact ⟨q, hq, hw⟩

lemma after_verifies {steps : List (Step E)} {i : ℕ} {pk : Pubkey} {sig : Signature}
    (hs : SignedLast pk steps) (hi : (required m)[i]? = some pk)
    (hsig : (after m mb steps).signatures[i]? = some sig) : Verifies E pk mb sig := by
  obtain ⟨kp, rfl, hkp⟩ := lastSupplied_of_signedLast mb hs
  rw [after_slot steps hi, hkp, Option.getD_some, Option.some.injEq] at hsig
  rw [← hsig]
  exact verifies_signMessage kp mb

end

/-- The transaction `tx` a run of `steps` on `m` has reached, `mb` being the bytes to sign. -/
structure Reached (m : MessageV0) (mb : Bytes) (steps : List (Step E))
    (tx : VersionedTransaction) : Prop where
  message : tx.message = m
  bytes : tx.messageBytesToSign = .ok mb
  length : tx.signatures.length = m.header.numRequiredSignatures.toNat
  /-- A key that is not required is refused, and nothing changes. -/
  outsider : ∀ (st : Step E) (pk : Pubkey), st.signer? = some pk → pk ∉ required m →
    step tx st = .ok (.signed (.error .notARequiredSigner), tx)
  /-- A slot holds the last signature supplied for its key. -/
  slot : ∀ (i : ℕ) (pk : Pubkey), (required m)[i]? = some pk →
    tx.signatures[i]? = some ((lastSupplied mb pk steps).getD .default)
  /-- Steps in another order, each signer's in the same, lead to the same bytes. -/
  reorder : ∀ steps' : List (Step E),
    (∀ pk ∈ required m, stepsFor pk steps' = stepsFor pk steps) →
    ∃ tx', run (VersionedTransaction.newUnsigned m) steps' = .ok tx' ∧
      tx'.serialize = tx.serialize
  /-- The wire is the signature array and then exactly the bytes to sign. -/
  wire : ∃ q, signatureArray.enc tx.signatures = some q ∧ tx.serialize = .ok (q ++ mb)
  /-- Once every required signer has signed last, every slot verifies over that suffix. -/
  verified : (∀ pk ∈ required m, SignedLast pk steps) → ∀ (i : ℕ) (pk : Pubkey) (sig : Signature),
    (required m)[i]? = some pk → tx.signatures[i]? = some sig → Verifies E pk mb sig

/-- **Multi-party signing.** Every run of an unsigned transaction returns, in whatever order its
steps come, with the message untouched and every slot holding the last signature given for it. -/
theorem run_reached {m : MessageV0} (hm : Signable m) (steps : List (Step E)) :
    ∃ mb tx, (VersionedTransaction.newUnsigned m).messageBytesToSign = .ok mb ∧
      run (VersionedTransaction.newUnsigned m) steps = .ok tx ∧ Reached m mb steps tx := by
  obtain ⟨mb, hmb⟩ := (returns_messageBytes_iff (VersionedTransaction.newUnsigned m)).mpr hm.short
  refine ⟨mb, after m mb steps, hmb, run_newUnsigned hm hmb steps, ?_⟩
  exact
    { message := rfl
      bytes := hmb
      length := by rw [after, filled, List.length_map, required_length hm]
      outsider := fun st pk hst hpk => step_outsider hm hmb steps hst hpk
      slot := fun i pk hi => after_slot steps hi
      reorder := fun steps' h =>
        ⟨_, run_newUnsigned hm hmb steps', congrArg _ (after_congr h)⟩
      wire := after_wire hm hmb steps
      verified := fun hs i pk sig hi hsig =>
        after_verifies (hs pk (List.mem_of_getElem? hi)) hi hsig }

/-- Two required signers, one of them the keypair of the zero seed. -/
def twoSigners : MessageV0 :=
  ⟨⟨2, 0, 0⟩, [⟨.replicate 32 0⟩, ⟨.replicate 32 5⟩], .default, [⟨1, [0], [4]⟩], []⟩

lemma twoSigners_signable : Signable twoSigners where
  short := ⟨by decide, by decide, by simp [twoSigners, CompiledInstruction.Short], by decide,
    by simp [twoSigners]⟩
  keys := by decide
  distinct := by decide

/-- The zero key signs twice, with a hop and the other key's insertion between. -/
def twoSignersSteps : List (Step multiples) :=
  [.trySign zeroKeypair, .hop, .insertSignature ⟨.replicate 32 5⟩ ⟨.replicate 64 1⟩,
    .trySign zeroKeypair]

theorem run_reached_twoSigners :
    ∃ mb tx, (VersionedTransaction.newUnsigned twoSigners).messageBytesToSign = .ok mb ∧
      run (VersionedTransaction.newUnsigned twoSigners) twoSignersSteps = .ok tx ∧
      Reached twoSigners mb twoSignersSteps tx :=
  run_reached twoSigners_signable twoSignersSteps

end SvmWasiCore.SigningRun

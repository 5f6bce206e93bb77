import SvmWasiCore.BuilderCalls
import SvmWasiCore.Signers
import SvmWasiCore.Slots

/-!
What a signature over a durable-nonce message commits to, and whose signatures it takes.

The signed bytes are those of one message, a message says one list of instructions, and the
instructions name the calls. The signers are the parties to the calls, who may sign in any order.
-/

namespace SvmWasiCore.Proposals

open Lib.ByteCodec Lib.Collect ProgramAddress MessageFormat MessageCompiler KeyClasses TableLookups
open Compilation DurableNonce WireFormat WireLimits Envelope BuilderCalls Dalek Stealth Slots
open SigningRun (SignedLast lastSupplied required required_length run run_newUnsigned stepsFor)

/-- What a caller puts to the signers. -/
structure Proposal where
  payer : Pubkey
  nonceAccount : Pubkey
  nonceAuthority : Pubkey
  nonceBlockhash : Hash
  calls : List Call
  deriving DecidableEq

namespace Proposal

/-- From the calls to a v0 message. -/
def v0Message (search : AddressSearch) (tables : List AddressLookupTableAccount) (p : Proposal) :
    Option MessageV0 := do
  let ixs ← buildAll search p.calls
  (compileV0WithDurableNonce p.payer p.nonceAccount p.nonceAuthority p.nonceBlockhash ixs
    tables).toOption

/-- From the calls to the bytes of a v0 message to sign. -/
def v0Bytes (search : AddressSearch) (tables : List AddressLookupTableAccount) (p : Proposal) :
    Option Bytes := do
  let m ← p.v0Message search tables
  (VersionedTransaction.newUnsigned m).messageBytesToSign.toOption

/-- From the calls to the bytes of a legacy message to sign. -/
def legacyBytes (search : AddressSearch) (p : Proposal) : Option Bytes := do
  let ixs ← buildAll search p.calls
  let l ← (compileLegacyWithDurableNonce p.payer p.nonceAccount p.nonceAuthority p.nonceBlockhash
    ixs).toOption
  messageCodec.enc l

/-- Every key has an index of its own in a byte. -/
def FewKeys (search : AddressSearch) (p : Proposal) : Prop :=
  ∀ ixs ∈ buildAll search p.calls,
    (keySet (durable p.nonceAccount p.nonceAuthority ixs) p.payer).card ≤ 256

/-- The keys the proposal speaks for. -/
def parties (p : Proposal) : List Pubkey :=
  p.payer :: p.nonceAuthority :: p.calls.flatMap fun c => c.steps.flatMap Step.signers

end Proposal

/-! ### What a message says -/

/-- Payer, blockhash and instructions, as a validator reads them. -/
structure Content where
  payer : Option Pubkey
  recentBlockhash : Hash
  instructions : Option (List Instruction.Bare)

/-- Read with the tables as they are on chain. -/
def contentV0 (addresses : Pubkey → List Pubkey) (m : MessageV0) : Content where
  payer := m.accountKeys[0]?
  recentBlockhash := m.recentBlockhash
  instructions := do
    let loaded ← m.addressTableLookups.mapM (loadFrom addresses)
    m.instructions.mapM (resolve (m.accountKeys ++ loadedKeys loaded))

def contentLegacy (l : Message) : Content where
  payer := l.accountKeys[0]?
  recentBlockhash := l.recentBlockhash
  instructions := l.instructions.mapM (resolve l.accountKeys)

/-- What the proposal means to say. -/
def meant (p : Proposal) (ixs : List Instruction) : Content where
  payer := some p.payer
  recentBlockhash := p.nonceBlockhash
  instructions := some ((durable p.nonceAccount p.nonceAuthority ixs).map Instruction.bare)

variable {search : AddressSearch} {p p' : Proposal} {ixs ixs' : List Instruction}

lemma v0Message_eq_some {tables : List AddressLookupTableAccount} {m : MessageV0}
    (h : p.v0Message search tables = some m) : ∃ ixs, buildAll search p.calls = some ixs ∧
      compileV0WithDurableNonce p.payer p.nonceAccount p.nonceAuthority p.nonceBlockhash ixs
        tables = .ok m := by
  obtain ⟨ixs, hixs, h⟩ := Option.bind_eq_some_iff.mp h
  exact ⟨ixs, hixs, toOption_eq_some_iff.mp h⟩

lemma contentV0_of_compile {tables : List AddressLookupTableAccount} {m : MessageV0}
    {addresses : Pubkey → List Pubkey} (haddresses : ∀ t ∈ tables, addresses t.key = t.addresses)
    (h : compileV0WithDurableNonce p.payer p.nonceAccount p.nonceAuthority p.nonceBlockhash ixs
      tables = .ok m) : contentV0 addresses m = meant p ixs := by
  obtain ⟨ls, map, hb⟩ := built_of_tryCompile (v0_ok_iff.mp h)
  have hpreserves := preserves_of_built hb
  have hloads := loads_addresses hb.extracted.loads haddresses
  rw [← hb.addressTableLookups] at hloads
  have hinstructions := hpreserves.instructions
  rw [List.append_assoc] at hinstructions
  rw [contentV0, meant, hpreserves.payer_first, hpreserves.recentBlockhash, hloads]
  simp only [Option.bind_eq_bind, Option.bind_some, loadedKeys_map]
  rw [← hinstructions]
  rfl

lemma contentLegacy_of_compile {l : Message} (hkeys : l.accountKeys.length ≤ 256)
    (h : compileLegacyWithDurableNonce p.payer p.nonceAccount p.nonceAuthority p.nonceBlockhash ixs
      = .ok l) : contentLegacy l = meant p ixs := by
  obtain ⟨header, -, rfl⟩ := legacy_ok_iff.mp h
  have hresolve := mapM_some fun ix hix => resolve_indexed hkeys (covers_static ix hix)
  simp only [contentLegacy, meant, hresolve]
  rfl

/-- What is said names the proposal. -/
lemma eq_of_meant (hinputs : Set.InjOn search.sha256
      {w | w ∈ hashedInputs search p.calls ++ hashedInputs search p'.calls})
    (h : buildAll search p.calls = some ixs) (h' : buildAll search p'.calls = some ixs')
    (hmeant : meant p ixs = meant p' ixs') : p = p' := by
  obtain ⟨payer, nonceAccount, nonceAuthority, nonceBlockhash, calls⟩ := p
  obtain ⟨payer', nonceAccount', nonceAuthority', nonceBlockhash', calls'⟩ := p'
  simp only [meant, durable, List.map_cons, Content.mk.injEq, Option.some.injEq,
    List.cons.injEq] at hmeant
  obtain ⟨rfl, rfl, hadvance, hbare⟩ := hmeant
  have hnonce : SystemCall.advanceNonceAccount nonceAccount nonceAuthority =
      .advanceNonceAccount nonceAccount' nonceAuthority' := SystemCall.bare_injective hadvance
  cases hnonce
  obtain rfl := calls_eq_of_bare_eq hinputs h h' hbare
  rfl

/-! ### The signed bytes -/

lemma v0Bytes_eq_some {tables : List AddressLookupTableAccount} {w : Bytes}
    {addresses : Pubkey → List Pubkey} (haddresses : ∀ t ∈ tables, addresses t.key = t.addresses)
    (h : p.v0Bytes search tables = some w) : ∃ ixs m, buildAll search p.calls = some ixs ∧
      contentV0 addresses m = meant p ixs ∧
      (VersionedTransaction.newUnsigned m).messageBytes = .ok w := by
  obtain ⟨m, hm, h⟩ := Option.bind_eq_some_iff.mp h
  obtain ⟨ixs, hixs, hcompile⟩ := v0Message_eq_some hm
  exact ⟨ixs, m, hixs, contentV0_of_compile haddresses hcompile, toOption_eq_some_iff.mp h⟩

lemma legacyBytes_eq_some {w : Bytes} (h : p.legacyBytes search = some w) : ∃ ixs l,
    buildAll search p.calls = some ixs ∧
      (keySet (durable p.nonceAccount p.nonceAuthority ixs) p.payer).card = l.accountKeys.length ∧
      (l.accountKeys.length ≤ 256 → contentLegacy l = meant p ixs) ∧
      messageCodec.enc l = some w := by
  obtain ⟨ixs, hixs, h⟩ := Option.bind_eq_some_iff.mp h
  obtain ⟨l, hl, h⟩ := Option.bind_eq_some_iff.mp h
  rw [toOption_eq_some_iff] at hl
  refine ⟨ixs, l, hixs, ?_, fun hkeys => contentLegacy_of_compile hkeys hl, h⟩
  obtain ⟨header, -, rfl⟩ := legacy_ok_iff.mp hl
  exact compile_static_length.symm

/-- **The signed bytes commit to the proposal.** Without a hash collision among the derived
addresses, two proposals with the same bytes to sign have the same payer, the same nonce and the
same calls; v0 messages against tables that agree with the chain, legacy messages as long as their
indexes fit a byte. -/
theorem bytes_name_proposal (search : AddressSearch) (p p' : Proposal)
    (hinputs : Set.InjOn search.sha256
      {w | w ∈ hashedInputs search p.calls ++ hashedInputs search p'.calls}) :
    (∀ (addresses : Pubkey → List Pubkey) (tables tables' : List AddressLookupTableAccount)
        (w : Bytes), (∀ t ∈ tables ++ tables', addresses t.key = t.addresses) →
      p.v0Bytes search tables = some w → p'.v0Bytes search tables' = some w → p = p') ∧
    (∀ w : Bytes, p.FewKeys search →
      p.legacyBytes search = some w → p'.legacyBytes search = some w → p = p') := by
  refine ⟨fun addresses tables tables' w haddresses h h' => ?_, fun w hfew h h' => ?_⟩
  · obtain ⟨haddresses, haddresses'⟩ := List.forall_mem_append.mp haddresses
    obtain ⟨ixs, m, hixs, hmeant, hw⟩ := v0Bytes_eq_some haddresses h
    obtain ⟨ixs', m', hixs', hmeant', hw'⟩ := v0Bytes_eq_some haddresses' h'
    obtain ⟨mb, hmb, rfl⟩ := messageBytes_ok_iff.mp hw
    obtain ⟨mb', hmb', heq⟩ := messageBytes_ok_iff.mp hw'
    obtain rfl := List.tail_eq_of_cons_eq heq
    obtain rfl : m = m' := messageV0Codec.enc_inj hmb hmb'
    exact eq_of_meant hinputs hixs hixs' (hmeant.symm.trans hmeant')
  · obtain ⟨ixs, l, hixs, hcard, hmeant, hw⟩ := legacyBytes_eq_some h
    obtain ⟨ixs', l', hixs', -, hmeant', hw'⟩ := legacyBytes_eq_some h'
    obtain rfl : l = l' := messageCodec.enc_inj hw hw'
    have hkeys : l.accountKeys.length ≤ 256 := hcard ▸ hfew ixs hixs
    exact eq_of_meant hinputs hixs hixs' ((hmeant hkeys).symm.trans (hmeant' hkeys))

/-- A grant over a mint, between a memo and the payment of its delegatee. -/
def sampleProposal (tokenMint : Pubkey) : Proposal where
  payer := sampleKey 1
  nonceAccount := sampleKey 3
  nonceAuthority := sampleKey 1
  nonceBlockhash := .default
  calls := [.one (.memo "rent" [sampleKey 1]) rfl,
    .one (.subscriptions (SubscriptionCalls.sampleGrant tokenMint)) rfl,
    .one (.system (.transfer (sampleKey 1) (sampleKey 2) 1000)) rfl]

lemma few_sample : (sampleProposal (sampleKey 4)).FewKeys SubscriptionCalls.sampleSearch := by
  intro ixs hixs
  refine le_trans card_keySet_le ?_
  have hkeys : ∀ ixs ∈ buildAll SubscriptionCalls.sampleSearch (sampleProposal (sampleKey 4)).calls,
      ((durable (sampleKey 3) (sampleKey 1) ixs).flatMap Instruction.keys).length < 256 := by
    decide +kernel
  exact hkeys ixs hixs

theorem proposals_told_apart :
    (((sampleProposal (sampleKey 4)).v0Bytes SubscriptionCalls.sampleSearch [sampleTable]).isSome ∧
      (sampleProposal (sampleKey 4)).v0Bytes SubscriptionCalls.sampleSearch [sampleTable] ≠
        (sampleProposal (sampleKey 5)).v0Bytes SubscriptionCalls.sampleSearch []) ∧
    ((sampleProposal (sampleKey 4)).legacyBytes SubscriptionCalls.sampleSearch).isSome ∧
      (sampleProposal (sampleKey 4)).legacyBytes SubscriptionCalls.sampleSearch ≠
        (sampleProposal (sampleKey 5)).legacyBytes SubscriptionCalls.sampleSearch := by
  have hinputs : Set.InjOn SubscriptionCalls.sampleSearch.sha256
      {w | w ∈ hashedInputs SubscriptionCalls.sampleSearch (sampleProposal (sampleKey 4)).calls ++
        hashedInputs SubscriptionCalls.sampleSearch (sampleProposal (sampleKey 5)).calls} := by
    have hall : ∀ w ∈ hashedInputs SubscriptionCalls.sampleSearch
          (sampleProposal (sampleKey 4)).calls ++ hashedInputs SubscriptionCalls.sampleSearch
          (sampleProposal (sampleKey 5)).calls,
        ∀ w' ∈ hashedInputs SubscriptionCalls.sampleSearch
          (sampleProposal (sampleKey 4)).calls ++ hashedInputs SubscriptionCalls.sampleSearch
          (sampleProposal (sampleKey 5)).calls,
        SubscriptionCalls.sampleSearch.sha256 w = SubscriptionCalls.sampleSearch.sha256 w' →
          w = w' := by decide +kernel
    exact fun w hw w' hw' => hall w hw w' hw'
  have hne : sampleProposal (sampleKey 4) ≠ sampleProposal (sampleKey 5) := by decide +kernel
  obtain ⟨hv0, hlegacy⟩ := bytes_name_proposal _ _ _ hinputs
  have hv0some : ((sampleProposal (sampleKey 4)).v0Bytes SubscriptionCalls.sampleSearch
      [sampleTable]).isSome := by decide +kernel
  have hlegacysome : ((sampleProposal (sampleKey 4)).legacyBytes
      SubscriptionCalls.sampleSearch).isSome := by decide +kernel
  refine ⟨⟨hv0some, fun h => ?_⟩, hlegacysome, fun h => ?_⟩
  · obtain ⟨w, hw⟩ := Option.isSome_iff_exists.mp hv0some
    exact hne (hv0 (fun _ => sampleTable.addresses) _ _ w (by simp) hw (h ▸ hw))
  · obtain ⟨w, hw⟩ := Option.isSome_iff_exists.mp hlegacysome
    exact hne (hlegacy w few_sample hw (h ▸ hw))

/-! ### The signatures -/

section
variable {P : Type} [AddCommGroup P] {E : Ed25519 P} {tables : List AddressLookupTableAccount}
  {m : MessageV0} {w : Bytes}

lemma mem_required_iff {k : Pubkey} (h : p.v0Message search tables = some m) :
    k ∈ required m ↔ k ∈ p.parties := by
  obtain ⟨ixs, hixs, hcompile⟩ := v0Message_eq_some h
  obtain ⟨ls, map, hb⟩ := built_of_tryCompile (v0_ok_iff.mp hcompile)
  have hmarked : MarkedSigner ixs k ↔ _ := marked_iff_of_buildAll hixs k
  rw [Signers.mem_required_of_built hb, Signers.markedSigner_durable, hmarked]
  simp [Proposal.parties]

lemma signable_of_v0Message (h : p.v0Message search tables = some m)
    (hw : Returns (VersionedTransaction.newUnsigned m).messageBytesToSign) :
    SigningRun.Signable m := by
  obtain ⟨ixs, -, hcompile⟩ := v0Message_eq_some h
  obtain ⟨ls, map, hb⟩ := built_of_tryCompile (v0_ok_iff.mp hcompile)
  exact Signers.signable_of_built hb ((v0_returns_iff hcompile).2.2.mp hw)

/-- The transaction `tx` on the proposal after `steps`, `w` being its bytes to sign. -/
structure Collected (p : Proposal) (m : MessageV0) (w : Bytes) (steps : List (SigningRun.Step E))
    (tx : VersionedTransaction) : Prop where
  message : tx.message = m
  bytes : tx.messageBytesToSign = .ok w
  /-- One slot a party, and none for anyone else. -/
  parties : ∀ k, k ∈ required m ↔ k ∈ p.parties
  distinct : (required m).Nodup
  slots : tx.signatures.length = (required m).length
  signed : ∀ k ∈ p.parties, SignedLast k steps →
    SlotVerifies E (required m) tx.signatures w k
  unsigned : ∀ k ∈ p.parties, (∀ st ∈ steps, st.signer? ≠ some k) →
    ∃ i : ℕ, (required m)[i]? = some k ∧ tx.signatures[i]? = some Signature.default
  /-- What others do, and who comes first, makes no difference. -/
  order : ∀ steps' : List (SigningRun.Step E),
    (∀ k ∈ p.parties, stepsFor k steps' = stepsFor k steps) →
    run (VersionedTransaction.newUnsigned m) steps' = .ok tx
  wire : ∃ q, signatureArray.enc tx.signatures = some q ∧ tx.serialize = .ok (q ++ w)

/-- **From the calls to the signatures.** The transaction of a proposal asks for the signatures of
its parties and of nobody else, and collects them in any order, over the bytes that name it. -/
theorem proposal_signed {P : Type} [AddCommGroup P] (E : Ed25519 P) (search : AddressSearch)
    (tables : List AddressLookupTableAccount) (p : Proposal) (w : Bytes)
    (h : p.v0Bytes search tables = some w) (steps : List (SigningRun.Step E)) :
    ∃ m tx, p.v0Message search tables = some m ∧
      run (VersionedTransaction.newUnsigned m) steps = .ok tx ∧ Collected p m w steps tx := by
  obtain ⟨m, hm, hw⟩ := Option.bind_eq_some_iff.mp h
  rw [toOption_eq_some_iff] at hw
  have hsignable := signable_of_v0Message hm ⟨w, hw⟩
  have hparty {k : Pubkey} (hk : k ∈ p.parties) : ∃ i : ℕ, (required m)[i]? = some k :=
    List.mem_iff_getElem?.mp ((mem_required_iff hm).mpr hk)
  refine ⟨m, SigningRun.after m w steps, hm, run_newUnsigned hsignable hw steps, ?_⟩
  exact
    { message := rfl
      bytes := hw
      parties := fun k => mem_required_iff hm
      distinct := hsignable.distinct
      slots := List.length_map _
      signed := fun k hk hlast => by
        obtain ⟨i, hi⟩ := hparty hk
        have hslot : (SigningRun.after m w steps).signatures[i]? = some _ :=
          SigningRun.after_slot steps hi
        exact ⟨i, _, hi, hslot, SigningRun.after_verifies hlast hi hslot⟩
      unsigned := fun k hk hnone => by
        obtain ⟨i, hi⟩ := hparty hk
        refine ⟨i, hi, ?_⟩
        rw [SigningRun.after_slot steps hi, SigningRun.lastSupplied_eq_none hnone]
        rfl
      order := fun steps' hsteps => by
        rw [run_newUnsigned hsignable hw steps',
          SigningRun.after_congr fun k hk => hsteps k ((mem_required_iff hm).mp hk)]
      wire := SigningRun.after_wire hsignable hw steps }

end

/-- The only party signs, after a hop and an outsider. -/
def sampleSteps : List (SigningRun.Step multiples) :=
  [.hop, .insertSignature (sampleKey 3) .default, .trySign (Signers.keypairOf 1 Signers.one_lt_L)]

theorem proposal_signed_sample : ∃ w m tx, (sampleProposal (sampleKey 4)).v0Message
      SubscriptionCalls.sampleSearch [sampleTable] = some m ∧
    run (VersionedTransaction.newUnsigned m) sampleSteps = .ok tx ∧
    Collected (sampleProposal (sampleKey 4)) m w sampleSteps tx := by
  have hsome : ((sampleProposal (sampleKey 4)).v0Bytes SubscriptionCalls.sampleSearch
      [sampleTable]).isSome := by decide +kernel
  obtain ⟨w, hw⟩ := Option.isSome_iff_exists.mp hsome
  exact ⟨w, proposal_signed multiples _ _ _ w hw sampleSteps⟩

end SvmWasiCore.Proposals

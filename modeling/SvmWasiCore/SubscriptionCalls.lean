import SvmWasiCore.Subscriptions

/-!
Different calls of the subscriptions program build different instructions.

An argument that is in no account and no field of an instruction is still in an address derived
from it. Such an address names its seeds as long as the hash has no collision on the inputs it
was applied to.
-/

namespace SvmWasiCore.SubscriptionCalls

open Lib.ByteCodec Lib.LittleEndian Fields ProgramAddress Subscriptions

/-! ### Addresses -/

inductive Pda
  | subscriptionAuthority (user tokenMint : Pubkey)
  | recurringDelegation (subscriptionAuthority delegator delegatee : Pubkey) (nonce : UInt64)
  | eventAuthority
  deriving DecidableEq

namespace Pda

def seeds : Pda → List Bytes
  | subscriptionAuthority user tokenMint =>
    [byteString "SubscriptionAuthority", user.bytes.toList, tokenMint.bytes.toList]
  | recurringDelegation authority delegator delegatee nonce =>
    [byteString "delegation", authority.bytes.toList, delegator.bytes.toList,
      delegatee.bytes.toList, u64Bytes nonce]
  | eventAuthority => [byteString "event_authority"]

def find (search : AddressSearch) : Pda → Option (Pubkey × UInt8)
  | subscriptionAuthority user tokenMint => subscriptionAuthorityPda search user tokenMint
  | recurringDelegation authority delegator delegatee nonce =>
    recurringDelegationPda search authority delegator delegatee nonce
  | eventAuthority => eventAuthorityPda search

lemma find_eq (search : AddressSearch) (p : Pda) :
    p.find search = search.tryFindProgramAddress p.seeds id := by
  cases p <;> rfl

/-- What the address was hashed from, when one was found. -/
def input (search : AddressSearch) (p : Pda) : Option Bytes :=
  (p.find search).map fun (_, bump) => hashInput (p.seeds ++ [[bump]]) id

/-- The seeds of a family fill a length of their own. -/
lemma length_seeds (p : Pda) : p.seeds.flatten.length =
    match p with
    | subscriptionAuthority .. => 85
    | recurringDelegation .. => 114
    | eventAuthority => 15 := by
  cases p <;> simp [seeds, u64Bytes] <;> decide

lemma seeds_injective {p q : Pda} (h : p.seeds.flatten = q.seeds.flatten) : p = q := by
  have hlen := congrArg List.length h
  rw [length_seeds, length_seeds] at hlen
  cases p <;> cases q <;> simp at hlen
  · simpa [seeds, keyBytes_append_inj, keyBytes_inj] using h
  · simpa [seeds, keyBytes_append_inj, u64Bytes_injective.eq_iff] using h
  · rfl

/-- The bump, the program and the marker end every input. -/
lemma hashInput_injective {p q : Pda} {bump bump' : UInt8}
    (h : hashInput (p.seeds ++ [[bump]]) id = hashInput (q.seeds ++ [[bump']]) id) : p = q := by
  simp only [hashInput, List.flatten_append, List.flatten_singleton, List.append_assoc] at h
  exact seeds_injective (List.append_inj' h rfl).1

/-- Without a collision an address names its family and its seeds. -/
lemma eq_of_find_eq {search : AddressSearch} {inputs : Set Bytes}
    (hinputs : Set.InjOn search.sha256 inputs) {p q : Pda} {address : Pubkey} {bump bump' : UInt8}
    (hp : p.find search = some (address, bump)) (hq : q.find search = some (address, bump'))
    (hpin : ∀ w ∈ p.input search, w ∈ inputs) (hqin : ∀ w ∈ q.input search, w ∈ inputs) :
    p = q := by
  have hpmem := hpin (hashInput (p.seeds ++ [[bump]]) id) (by simp [input, hp])
  have hqmem := hqin (hashInput (q.seeds ++ [[bump']]) id) (by simp [input, hq])
  rw [find_eq] at hp hq
  have hhash := (search.hashed hp).symm.trans (search.hashed hq)
  exact hashInput_injective (hinputs hpmem hqmem hhash)

end Pda

/-! ### Calls -/

inductive Call
  | initializeSubscriptionAuthority (user tokenMint userAta tokenProgram : Pubkey)
  | createRecurringDelegation (delegator delegatee tokenMint : Pubkey)
      (nonce amountPerPeriod periodLengthS : UInt64)
      (startTs expiryTs expectedSubscriptionAuthorityInitId : Int64)
  | transferRecurring (delegationAccount delegator delegatee tokenMint delegatorAta receiverAta
      tokenProgram : Pubkey) (amount : UInt64)
  deriving DecidableEq

namespace Call

def build (search : AddressSearch) : Call → Option Instruction
  | initializeSubscriptionAuthority user tokenMint userAta tokenProgram =>
    Subscriptions.initializeSubscriptionAuthority search user tokenMint userAta tokenProgram
  | createRecurringDelegation delegator delegatee tokenMint nonce amountPerPeriod periodLengthS
      startTs expiryTs expectedSubscriptionAuthorityInitId =>
    Subscriptions.createRecurringDelegation search delegator delegatee tokenMint nonce
      amountPerPeriod periodLengthS startTs expiryTs expectedSubscriptionAuthorityInitId
  | transferRecurring delegationAccount delegator delegatee tokenMint delegatorAta receiverAta
      tokenProgram amount =>
    Subscriptions.transferRecurring search delegationAccount delegator delegatee tokenMint
      delegatorAta receiverAta tokenProgram amount

/-- The subscription authority every call derives. -/
def authority : Call → Pda
  | initializeSubscriptionAuthority user tokenMint _ _ => .subscriptionAuthority user tokenMint
  | createRecurringDelegation delegator _ tokenMint .. => .subscriptionAuthority delegator tokenMint
  | transferRecurring _ delegator _ tokenMint .. => .subscriptionAuthority delegator tokenMint

def discriminator : Call → UInt8
  | initializeSubscriptionAuthority .. => INIT_SUBSCRIPTION_AUTHORITY_DISCRIMINATOR
  | createRecurringDelegation .. => CREATE_RECURRING_DELEGATION_DISCRIMINATOR
  | transferRecurring .. => TRANSFER_RECURRING_DISCRIMINATOR

variable {search : AddressSearch} {ix : Instruction}

/-! What a call builds, with the addresses it derived. -/

lemma build_initialize {user tokenMint userAta tokenProgram : Pubkey}
    (h : (initializeSubscriptionAuthority user tokenMint userAta tokenProgram).build search =
      some ix) :
    ∃ subscriptionAuthority bump,
      subscriptionAuthorityPda search user tokenMint = some (subscriptionAuthority, bump) ∧
      ix.accounts = [.new user true, .new subscriptionAuthority false, .newReadonly tokenMint false,
        .new userAta false, .newReadonly System.id false, .newReadonly tokenProgram false] ∧
      ix.data = [INIT_SUBSCRIPTION_AUTHORITY_DISCRIMINATOR] := by
  obtain ⟨⟨subscriptionAuthority, bump⟩, hfind, h⟩ := Option.bind_eq_some_iff.mp h
  obtain rfl := Option.some.inj h
  exact ⟨subscriptionAuthority, bump, hfind, rfl, rfl⟩

lemma build_create {delegator delegatee tokenMint : Pubkey}
    {nonce amountPerPeriod periodLengthS : UInt64} {startTs expiryTs initId : Int64}
    (h : (createRecurringDelegation delegator delegatee tokenMint nonce amountPerPeriod
      periodLengthS startTs expiryTs initId).build search = some ix) :
    ∃ subscriptionAuthority bump delegationAccount,
      subscriptionAuthorityPda search delegator tokenMint = some (subscriptionAuthority, bump) ∧
      ix.accounts = [.new delegator true, .newReadonly subscriptionAuthority false,
        .new delegationAccount false, .newReadonly delegatee false,
        .newReadonly System.id false] ∧
      ix.data = CREATE_RECURRING_DELEGATION_DISCRIMINATOR :: (u64Bytes nonce ++
        (u64Bytes amountPerPeriod ++ (u64Bytes periodLengthS ++ (i64Bytes startTs ++
          (i64Bytes expiryTs ++ i64Bytes initId))))) := by
  obtain ⟨⟨subscriptionAuthority, bump⟩, hfind, h⟩ := Option.bind_eq_some_iff.mp h
  obtain ⟨⟨delegationAccount, bump'⟩, -, h⟩ := Option.bind_eq_some_iff.mp h
  obtain rfl := Option.some.inj h
  exact ⟨subscriptionAuthority, bump, delegationAccount, hfind, rfl, rfl⟩

lemma build_transfer {delegationAccount delegator delegatee tokenMint delegatorAta receiverAta
      tokenProgram : Pubkey} {amount : UInt64}
    (h : (transferRecurring delegationAccount delegator delegatee tokenMint delegatorAta
      receiverAta tokenProgram amount).build search = some ix) :
    ∃ subscriptionAuthority eventAuthority,
      ix.accounts = [.new delegationAccount false, .newReadonly subscriptionAuthority false,
        .new delegatorAta false, .new receiverAta false, .newReadonly tokenMint false,
        .newReadonly tokenProgram false, .newReadonly delegatee true,
        .newReadonly eventAuthority false, .newReadonly id false] ∧
      ix.data = TRANSFER_RECURRING_DISCRIMINATOR :: (u64Bytes amount ++
        (delegator.bytes.toList ++ tokenMint.bytes.toList)) := by
  obtain ⟨⟨subscriptionAuthority, bump⟩, -, h⟩ := Option.bind_eq_some_iff.mp h
  obtain ⟨⟨eventAuthority, bump'⟩, -, h⟩ := Option.bind_eq_some_iff.mp h
  obtain rfl := Option.some.inj h
  exact ⟨subscriptionAuthority, eventAuthority, rfl, rfl⟩

/-- The first byte of the data says which builder was called. -/
lemma head_data {c : Call} (h : c.build search = some ix) :
    ix.data.head? = some c.discriminator := by
  cases c with
  | initializeSubscriptionAuthority =>
    obtain ⟨_, _, -, -, hdata⟩ := build_initialize h
    rw [hdata]
    rfl
  | createRecurringDelegation =>
    obtain ⟨_, _, _, -, -, hdata⟩ := build_create h
    rw [hdata]
    rfl
  | transferRecurring =>
    obtain ⟨_, _, -, hdata⟩ := build_transfer h
    rw [hdata]
    rfl

/-- A call is told from its instruction and the seeds of its subscription authority. -/
lemma eq_of_build_eq {c c' : Call} (h : c.build search = some ix) (h' : c'.build search = some ix)
    (hauthority : ∀ {address bump bump'}, c.authority.find search = some (address, bump) →
      c'.authority.find search = some (address, bump') → c.authority = c'.authority) :
    c = c' := by
  have hhead := (head_data h).symm.trans (head_data h')
  cases c <;> cases c' <;> try exact absurd hhead (by simp only [discriminator]; decide)
  case initializeSubscriptionAuthority.initializeSubscriptionAuthority =>
    obtain ⟨_, _, -, haccounts, -⟩ := build_initialize h
    obtain ⟨_, _, -, haccounts', -⟩ := build_initialize h'
    rw [haccounts] at haccounts'
    simp only [AccountMeta.new, AccountMeta.newReadonly, List.cons.injEq,
      AccountMeta.mk.injEq] at haccounts'
    simp only [haccounts']
  case createRecurringDelegation.createRecurringDelegation =>
    obtain ⟨sa, bump, _, hfind, haccounts, hdata⟩ := build_create h
    obtain ⟨sa', bump', _, hfind', haccounts', hdata'⟩ := build_create h'
    rw [haccounts] at haccounts'
    rw [hdata] at hdata'
    simp only [AccountMeta.new, AccountMeta.newReadonly, List.cons.injEq,
      AccountMeta.mk.injEq] at haccounts'
    simp only [List.cons.injEq, u64Bytes_append_inj, i64Bytes_append_inj,
      i64Bytes_injective.eq_iff] at hdata'
    obtain rfl : sa = sa' := haccounts'.2.1.1
    have hmint := hauthority hfind hfind'
    simp only [authority, Pda.subscriptionAuthority.injEq] at hmint
    simp only [haccounts', hdata', hmint]
  case transferRecurring.transferRecurring =>
    obtain ⟨_, _, haccounts, hdata⟩ := build_transfer h
    obtain ⟨_, _, haccounts', hdata'⟩ := build_transfer h'
    rw [haccounts] at haccounts'
    rw [hdata] at hdata'
    simp only [AccountMeta.new, AccountMeta.newReadonly, List.cons.injEq,
      AccountMeta.mk.injEq] at haccounts'
    simp only [List.cons.injEq, u64Bytes_append_inj, keyBytes_append_inj] at hdata'
    simp only [haccounts', hdata']

end Call

/-- **Calls and addresses are told apart.** On inputs without a collision, equal instructions come
from equal calls and equal addresses from equal seeds of one family. -/
theorem calls_told_apart (search : AddressSearch) (inputs : Set Bytes)
    (hinputs : Set.InjOn search.sha256 inputs) :
    (∀ c c' : Call, (∀ w ∈ c.authority.input search, w ∈ inputs) →
      (∀ w ∈ c'.authority.input search, w ∈ inputs) →
      ∀ ix, c.build search = some ix → c'.build search = some ix → c = c') ∧
    (∀ p q : Pda, (∀ w ∈ p.input search, w ∈ inputs) → (∀ w ∈ q.input search, w ∈ inputs) →
      ∀ address bump bump', p.find search = some (address, bump) →
        q.find search = some (address, bump') → p = q) := by
  refine ⟨fun c c' hc hc' ix h h' => ?_, fun p q hp hq address bump bump' h h' => ?_⟩
  · exact Call.eq_of_build_eq h h' fun hfind hfind' =>
      Pda.eq_of_find_eq hinputs hfind hfind' hc hc'
  · exact Pda.eq_of_find_eq hinputs h h' hp hq

/-! Two grants over different mints, with SHA-256 as far as their addresses need it. -/

def sampleInput (p : Pda) (bump : UInt8) : Bytes := hashInput (p.seeds ++ [[bump]]) id

/-- The authorities of the first key over the mints 4 and 5. -/
def sampleAuthority : Pubkey :=
  ⟨⟨[39, 147, 63, 190, 180, 11, 45, 199, 110, 92, 64, 7, 31, 47, 165, 113,
    75, 84, 79, 45, 215, 196, 4, 81, 219, 112, 80, 127, 42, 225, 160, 238], rfl⟩⟩

def otherAuthority : Pubkey :=
  ⟨⟨[116, 40, 254, 33, 221, 186, 234, 158, 61, 160, 192, 182, 215, 178, 59, 15,
    156, 213, 221, 166, 105, 27, 67, 163, 107, 49, 157, 70, 211, 241, 173, 96], rfl⟩⟩

/-- A point of the curve, which the search for the second authority meets first. -/
def samplePoint : List.Vector UInt8 32 :=
  ⟨[105, 43, 206, 235, 129, 242, 85, 50, 141, 40, 178, 111, 22, 210, 96, 34,
    219, 220, 92, 220, 194, 156, 128, 138, 251, 21, 208, 190, 3, 172, 74, 31], rfl⟩

def sampleHashes : List (Bytes × List.Vector UInt8 32) :=
  [(sampleInput (.subscriptionAuthority (sampleKey 1) (sampleKey 4)) 255, sampleAuthority.bytes),
    (sampleInput (.recurringDelegation sampleAuthority (sampleKey 1) (sampleKey 2) 1) 255,
      ⟨[65, 18, 28, 219, 114, 215, 186, 221, 19, 187, 13, 253, 95, 7, 77, 210,
        100, 104, 119, 97, 181, 236, 196, 9, 120, 142, 196, 131, 116, 173, 164, 44], rfl⟩),
    (sampleInput (.subscriptionAuthority (sampleKey 1) (sampleKey 5)) 255, samplePoint),
    (sampleInput (.subscriptionAuthority (sampleKey 1) (sampleKey 5)) 254, otherAuthority.bytes),
    (sampleInput (.recurringDelegation otherAuthority (sampleKey 1) (sampleKey 2) 1) 255,
      ⟨[66, 236, 237, 4, 164, 156, 74, 54, 75, 152, 100, 173, 135, 255, 179, 5,
        23, 193, 183, 153, 96, 60, 63, 11, 118, 27, 194, 190, 247, 31, 190, 130], rfl⟩)]

def sampleSearch : AddressSearch :=
  .solana (fun w => (sampleHashes.lookup w).getD (.replicate 32 0)) (· == samplePoint)

def sampleGrant (tokenMint : Pubkey) : Call :=
  .createRecurringDelegation (sampleKey 1) (sampleKey 2) tokenMint 1 500 86400 0 (-1) (-2)

theorem mints_told_apart : ((sampleGrant (sampleKey 4)).build sampleSearch).isSome ∧
    ((sampleGrant (sampleKey 5)).build sampleSearch).isSome ∧
    (sampleGrant (sampleKey 4)).build sampleSearch ≠
      (sampleGrant (sampleKey 5)).build sampleSearch := by
  have hinputs : Set.InjOn sampleSearch.sha256 {w | w ∈ sampleHashes.map Prod.fst} := by
    have hall : ∀ w ∈ sampleHashes.map Prod.fst, ∀ w' ∈ sampleHashes.map Prod.fst,
        sampleSearch.sha256 w = sampleSearch.sha256 w' → w = w' := by decide +kernel
    exact fun w hw w' hw' => hall w hw w' hw'
  have hin : ∀ n ∈ [4, 5], ∀ w ∈ (sampleGrant (sampleKey n)).authority.input sampleSearch,
      w ∈ sampleHashes.map Prod.fst := by decide +kernel
  have hsome : ((sampleGrant (sampleKey 4)).build sampleSearch).isSome ∧
      ((sampleGrant (sampleKey 5)).build sampleSearch).isSome := by decide +kernel
  refine ⟨hsome.1, hsome.2, fun h => ?_⟩
  obtain ⟨ix, hix⟩ := Option.isSome_iff_exists.mp hsome.1
  have heq := (calls_told_apart sampleSearch _ hinputs).1 _ _ (hin 4 (by decide))
    (hin 5 (by decide)) ix hix (h ▸ hix)
  exact absurd heq (by decide +kernel)

end SvmWasiCore.SubscriptionCalls

import SvmWasiCore.Builders
import SvmWasiCore.SubscriptionCalls

/-!
The calls of all builders.

An instruction still names its call when its flags are gone: the program tells the builders of one
module from the others, the first bytes of the data tell the builder, and the accounts and the
fields give the arguments back, except for those that are only in an address.
-/

namespace SvmWasiCore.BuilderCalls

open Lib.ByteCodec Fields ProgramAddress

/-! ### The system program -/

inductive SystemCall
  | createAccount (fromPubkey toPubkey : Pubkey) (lamports space : UInt64) (owner : Pubkey)
  | transfer (fromPubkey toPubkey : Pubkey) (lamports : UInt64)
  | advanceNonceAccount (noncePubkey authorizedPubkey : Pubkey)
  | withdrawNonceAccount (noncePubkey authorizedPubkey toPubkey : Pubkey) (lamports : UInt64)
  | initializeNonceAccount (noncePubkey authority : Pubkey)
  | authorizeNonceAccount (noncePubkey authorizedPubkey newAuthority : Pubkey)
  deriving DecidableEq

namespace SystemCall

def build : SystemCall → Instruction
  | createAccount fromPubkey toPubkey lamports space owner =>
    System.createAccount fromPubkey toPubkey lamports space owner
  | transfer fromPubkey toPubkey lamports => System.transfer fromPubkey toPubkey lamports
  | advanceNonceAccount noncePubkey authorizedPubkey =>
    System.advanceNonceAccount noncePubkey authorizedPubkey
  | withdrawNonceAccount noncePubkey authorizedPubkey toPubkey lamports =>
    System.withdrawNonceAccount noncePubkey authorizedPubkey toPubkey lamports
  | initializeNonceAccount noncePubkey authority =>
    System.initializeNonceAccount noncePubkey authority
  | authorizeNonceAccount noncePubkey authorizedPubkey newAuthority =>
    System.authorizeNonceAccount noncePubkey authorizedPubkey newAuthority

def tag : SystemCall → UInt8
  | createAccount .. => 0
  | transfer .. => 2
  | advanceNonceAccount .. => 4
  | withdrawNonceAccount .. => 5
  | initializeNonceAccount .. => 6
  | authorizeNonceAccount .. => 7

lemma programId_build (c : SystemCall) : c.build.programId = System.id := by
  cases c <;> rfl

lemma head_data (c : SystemCall) : c.build.data.head? = some c.tag := by
  cases c <;> rfl

lemma bare_injective : Function.Injective fun c : SystemCall => c.build.bare := by
  intro c c' h
  have hhead : c.tag = c'.tag := by
    have hdata := congrArg (fun ix : Instruction.Bare => ix.data.head?) h
    exact Option.some.inj ((head_data c).symm.trans (hdata.trans (head_data c')))
  cases c <;> cases c' <;> try exact absurd hhead (by simp only [tag]; decide)
  all_goals simp only [build, Instruction.bare, Instruction.Bare.mk.injEq] at h
  case createAccount.createAccount =>
    simpa [System.createAccount, AccountMeta.new, u64Bytes_append_inj, keyBytes_inj, and_assoc]
      using h
  case transfer.transfer =>
    simpa [System.transfer, AccountMeta.new, u64Bytes_injective.eq_iff, and_assoc] using h
  case advanceNonceAccount.advanceNonceAccount =>
    simpa [System.advanceNonceAccount, AccountMeta.new, AccountMeta.newReadonly] using h
  case withdrawNonceAccount.withdrawNonceAccount nonce auth dest lamports nonce' auth' dest'
      lamports' =>
    obtain ⟨⟨rfl, rfl, rfl⟩, rfl⟩ : (nonce = nonce' ∧ dest = dest' ∧ auth = auth') ∧
        lamports = lamports' := by
      simpa [System.withdrawNonceAccount, AccountMeta.new, AccountMeta.newReadonly,
        u64Bytes_injective.eq_iff] using h
    rfl
  case initializeNonceAccount.initializeNonceAccount =>
    simpa [System.initializeNonceAccount, AccountMeta.new, AccountMeta.newReadonly, keyBytes_inj]
      using h
  case authorizeNonceAccount.authorizeNonceAccount =>
    simpa [System.authorizeNonceAccount, AccountMeta.new, AccountMeta.newReadonly, keyBytes_inj,
      and_assoc] using h

end SystemCall

/-! ### The token programs -/

inductive TokenCall
  | transfer (source destination owner : Pubkey) (amount : UInt64) (tokenProgramId : Pubkey)
  | transferChecked (source mint destination owner : Pubkey) (amount : UInt64) (decimals : UInt8)
      (tokenProgramId : Pubkey)
  deriving DecidableEq

namespace TokenCall

def build : TokenCall → Exec Instruction
  | transfer source destination owner amount tokenProgramId =>
    Token.transfer source destination owner amount tokenProgramId
  | transferChecked source mint destination owner amount decimals tokenProgramId =>
    Token.transferChecked source mint destination owner amount decimals tokenProgramId

/-- Either token program gets its instruction, any other is refused. -/
lemma dispatch_eq_ok_iff {programId : Pubkey} {accounts : List AccountMeta} {data : Bytes}
    {ix : Instruction} : Token.dispatch programId accounts data = .ok ix ↔
      (programId = Token.tokenProgramId ∨ programId = Token.token2022ProgramId) ∧
      ix = ⟨programId, accounts, data⟩ := by
  have hne : Token.tokenProgramId ≠ Token.token2022ProgramId := by decide
  rw [Token.dispatch]
  split_ifs with h
  · subst h
    rw [expect_eq_ok, Token.ofCrate, if_pos rfl, Option.some.injEq, eq_comm]
    exact (and_iff_right (.inr rfl)).symm
  · rw [expect_eq_ok, Token.ofCrate, Option.ite_none_right_eq_some, Option.some.injEq,
      eq_comm (a := ix)]
    exact and_congr_left fun _ => (or_iff_left h).symm

variable {c c' : TokenCall} {ix ix' : Instruction}

lemma programId_build (h : c.build = .ok ix) :
    ix.programId = Token.tokenProgramId ∨ ix.programId = Token.token2022ProgramId := by
  cases c with
  | transfer =>
    obtain ⟨hid, rfl⟩ := dispatch_eq_ok_iff.mp h
    exact hid
  | transferChecked =>
    obtain ⟨hid, rfl⟩ := dispatch_eq_ok_iff.mp h
    exact hid

lemma eq_of_bare_eq (h : c.build = .ok ix) (h' : c'.build = .ok ix') (hbare : ix.bare = ix'.bare) :
    c = c' := by
  cases c with
  | transfer source destination owner amount programId =>
    obtain ⟨-, rfl⟩ := dispatch_eq_ok_iff.mp h
    cases c' with
    | transfer source' destination' owner' amount' programId' =>
      obtain ⟨-, rfl⟩ := dispatch_eq_ok_iff.mp h'
      obtain ⟨rfl, ⟨rfl, rfl, rfl⟩, rfl⟩ : programId = programId' ∧
          (source = source' ∧ destination = destination' ∧ owner = owner') ∧
          amount = amount' := by
        simpa [Instruction.bare, AccountMeta.new, AccountMeta.newReadonly,
          u64Bytes_injective.eq_iff] using hbare
      rfl
    | transferChecked =>
      obtain ⟨-, rfl⟩ := dispatch_eq_ok_iff.mp h'
      simp [Instruction.bare] at hbare
  | transferChecked source mint destination owner amount decimals programId =>
    obtain ⟨-, rfl⟩ := dispatch_eq_ok_iff.mp h
    cases c' with
    | transfer =>
      obtain ⟨-, rfl⟩ := dispatch_eq_ok_iff.mp h'
      simp [Instruction.bare] at hbare
    | transferChecked source' mint' destination' owner' amount' decimals' programId' =>
      obtain ⟨-, rfl⟩ := dispatch_eq_ok_iff.mp h'
      obtain ⟨rfl, ⟨rfl, rfl, rfl, rfl⟩, rfl, rfl⟩ : programId = programId' ∧
          (source = source' ∧ mint = mint' ∧ destination = destination' ∧ owner = owner') ∧
          amount = amount' ∧ decimals = decimals' := by
        simpa [Instruction.bare, AccountMeta.new, AccountMeta.newReadonly,
          u64Bytes_injective.eq_iff] using hbare
      rfl

end TokenCall

/-! ### Memos -/

lemma utf8_injective : Function.Injective fun s : String =>
    s.toList.flatMap String.utf8EncodeChar := by
  intro s s' h
  have hbytes : s.toList.utf8Encode = s'.toList.utf8Encode := by
    rw [List.utf8Encode, List.utf8Encode]
    exact congrArg List.toByteArray h
  rw [String.utf8Encode_toList, String.utf8Encode_toList] at hbytes
  exact String.toByteArray_inj.mp hbytes

lemma memo_bare {memo memo' : String} {signers signers' : List Pubkey}
    (h : (Memo.buildMemo memo signers).bare = (Memo.buildMemo memo' signers').bare) :
    memo = memo' ∧ signers = signers' := by
  simp only [Memo.buildMemo, Instruction.bare, List.map_map, Instruction.Bare.mk.injEq] at h
  obtain ⟨-, haccounts, hdata⟩ := h
  refine ⟨utf8_injective hdata, ?_⟩
  simpa [Function.comp_def, AccountMeta.newReadonly] using haccounts

/-! ### Associated token accounts -/

inductive AtaCall
  | create (fundingAccount wallet mint tokenProgramId : Pubkey)
  | createIdempotent (fundingAccount wallet mint tokenProgramId : Pubkey)
  deriving DecidableEq

namespace AtaCall

def build (search : AddressSearch) : AtaCall → Option Instruction
  | create fundingAccount wallet mint tokenProgramId =>
    AssociatedTokenAccount.createAssociatedTokenAccount search fundingAccount wallet mint
      tokenProgramId
  | createIdempotent fundingAccount wallet mint tokenProgramId =>
    AssociatedTokenAccount.createAssociatedTokenAccountIdempotent search fundingAccount wallet mint
      tokenProgramId

variable {search : AddressSearch} {c c' : AtaCall} {ix ix' : Instruction}

/-- Next to the derived account all arguments are accounts themselves. -/
lemma build_eq_some {fundingAccount wallet mint tokenProgramId : Pubkey} {tag : UInt8}
    (h : AssociatedTokenAccount.build search fundingAccount wallet mint tokenProgramId tag =
      some ix) :
    ∃ associatedAccount, ix.bare = ⟨AssociatedTokenAccount.id,
      [fundingAccount, associatedAccount, wallet, mint, System.id, tokenProgramId], [tag]⟩ := by
  obtain ⟨associatedAccount, -, h⟩ := Option.bind_eq_some_iff.mp h
  obtain rfl := Option.some.inj h
  exact ⟨associatedAccount, rfl⟩

lemma bare_build (h : c.build search = some ix) :
    ∃ associatedAccount, ix.bare = match c with
      | create fundingAccount wallet mint tokenProgramId =>
        ⟨AssociatedTokenAccount.id,
          [fundingAccount, associatedAccount, wallet, mint, System.id, tokenProgramId],
          [AssociatedTokenAccount.CREATE]⟩
      | createIdempotent fundingAccount wallet mint tokenProgramId =>
        ⟨AssociatedTokenAccount.id,
          [fundingAccount, associatedAccount, wallet, mint, System.id, tokenProgramId],
          [AssociatedTokenAccount.CREATE_IDEMPOTENT]⟩ := by
  cases c with
  | create => exact build_eq_some h
  | createIdempotent => exact build_eq_some h

lemma programId_build (h : c.build search = some ix) :
    ix.programId = AssociatedTokenAccount.id := by
  obtain ⟨associatedAccount, hbare⟩ := bare_build h
  cases c <;> exact congrArg Instruction.Bare.programId hbare

lemma eq_of_bare_eq (h : c.build search = some ix) (h' : c'.build search = some ix')
    (hbare : ix.bare = ix'.bare) : c = c' := by
  obtain ⟨_, heq⟩ := bare_build h
  obtain ⟨_, heq'⟩ := bare_build h'
  rw [heq, heq'] at hbare
  cases c <;> cases c' <;> simp_all [AssociatedTokenAccount.CREATE,
    AssociatedTokenAccount.CREATE_IDEMPOTENT]

end AtaCall

/-! ### Subscriptions -/

/-- Who signs and who is written, account by account. -/
def accountFlags (ix : Instruction) : List (Bool × Bool) :=
  ix.accounts.map fun a => (a.isSigner, a.isWritable)

lemma eq_of_bare_of_flags {ix ix' : Instruction} (hbare : ix.bare = ix'.bare)
    (hflags : accountFlags ix = accountFlags ix') : ix = ix' := by
  obtain ⟨programId, accounts, data⟩ := ix
  obtain ⟨programId', accounts', data'⟩ := ix'
  simp only [Instruction.bare, Instruction.Bare.mk.injEq] at hbare
  obtain ⟨rfl, haccounts, rfl⟩ := hbare
  have hinj : Function.Injective fun a : AccountMeta => (a.pubkey, a.isSigner, a.isWritable) := by
    rintro ⟨⟩ ⟨⟩ h
    cases h
    rfl
  have hzip := congrArg₂ List.zip haccounts hflags
  simp only [accountFlags, List.zip_map'] at hzip
  rw [List.map_injective_iff.mpr hinj hzip]

section
open SubscriptionCalls

variable {search : AddressSearch} {c c' : SubscriptionCalls.Call} {ix ix' : Instruction}

def subscriptionFlags (discriminator : UInt8) : List (Bool × Bool) :=
  if discriminator = Subscriptions.INIT_SUBSCRIPTION_AUTHORITY_DISCRIMINATOR then
    [(true, true), (false, true), (false, false), (false, true), (false, false), (false, false)]
  else if discriminator = Subscriptions.CREATE_RECURRING_DELEGATION_DISCRIMINATOR then
    [(true, true), (false, false), (false, true), (false, false), (false, false)]
  else
    [(false, true), (false, false), (false, true), (false, true), (false, false), (false, false),
      (true, false), (false, false), (false, false)]

lemma flags_build (h : c.build search = some ix) :
    accountFlags ix = subscriptionFlags c.discriminator := by
  cases c with
  | initializeSubscriptionAuthority =>
    obtain ⟨_, _, -, haccounts, -⟩ := Call.build_initialize h
    rw [accountFlags, haccounts]
    rfl
  | createRecurringDelegation =>
    obtain ⟨_, _, _, -, haccounts, -⟩ := Call.build_create h
    rw [accountFlags, haccounts]
    rfl
  | transferRecurring =>
    obtain ⟨_, _, haccounts, -⟩ := Call.build_transfer h
    rw [accountFlags, haccounts]
    rfl

lemma programId_of_subscriptions (h : c.build search = some ix) :
    ix.programId = Subscriptions.id := by
  cases c with
  | initializeSubscriptionAuthority =>
    obtain ⟨_, -, h⟩ := Option.bind_eq_some_iff.mp h
    rw [← Option.some.inj h]
  | createRecurringDelegation =>
    obtain ⟨_, -, h⟩ := Option.bind_eq_some_iff.mp h
    obtain ⟨_, -, h⟩ := Option.bind_eq_some_iff.mp h
    rw [← Option.some.inj h]
  | transferRecurring =>
    obtain ⟨_, -, h⟩ := Option.bind_eq_some_iff.mp h
    obtain ⟨_, -, h⟩ := Option.bind_eq_some_iff.mp h
    rw [← Option.some.inj h]

/-- The discriminator says what the flags are. -/
lemma subscriptions_eq_of_bare_eq (h : c.build search = some ix) (h' : c'.build search = some ix')
    (hbare : ix.bare = ix'.bare) : ix = ix' := by
  have hhead : ix.data.head? = ix'.data.head? :=
    congrArg (fun ix : Instruction.Bare => ix.data.head?) hbare
  rw [Call.head_data h, Call.head_data h', Option.some.injEq] at hhead
  exact eq_of_bare_of_flags hbare (by rw [flags_build h, flags_build h', hhead])

end

/-! ### Steps -/

/-- A call that builds one instruction. -/
inductive Step
  | system (c : SystemCall)
  | memo (memo : String) (signers : List Pubkey)
  | token (c : TokenCall)
  | ata (c : AtaCall)
  | subscriptions (c : SubscriptionCalls.Call)
  deriving DecidableEq

namespace Step

def build (search : AddressSearch) : Step → Option Instruction
  | system c => some c.build
  | memo text signers => some (Memo.buildMemo text signers)
  | token c => c.build.toOption
  | ata c => c.build search
  | subscriptions c => c.build search

/-- What the address was hashed from that alone names an argument. -/
def input (search : AddressSearch) : Step → Option Bytes
  | subscriptions c => c.authority.input search
  | _ => none

/-- The five modules, each with the programs it builds for. -/
inductive Builder
  | system
  | memo
  | token
  | ata
  | subscriptions
  deriving DecidableEq

def builder : Step → Builder
  | system _ => .system
  | memo .. => .memo
  | token _ => .token
  | ata _ => .ata
  | subscriptions _ => .subscriptions

def builderOf (programId : Pubkey) : Builder :=
  if programId = System.id then .system
  else if programId = Memo.id then .memo
  else if programId = Token.tokenProgramId ∨ programId = Token.token2022ProgramId then .token
  else if programId = AssociatedTokenAccount.id then .ata
  else .subscriptions

variable {search : AddressSearch} {s s' : Step} {ix ix' : Instruction}

/-- No two modules build for one program. -/
lemma builderOf_build (h : s.build search = some ix) :
    builderOf ix.programId = s.builder := by
  cases s with
  | system c =>
    obtain rfl := Option.some.inj h
    rw [SystemCall.programId_build]
    rfl
  | memo text signers =>
    obtain rfl := Option.some.inj h
    exact (by decide : builderOf Memo.id = .memo)
  | token c =>
    have hid := TokenCall.programId_build (toOption_eq_some_iff.mp h)
    rcases hid with hid | hid
    · rw [hid]
      exact (by decide : builderOf Token.tokenProgramId = .token)
    · rw [hid]
      exact (by decide : builderOf Token.token2022ProgramId = .token)
  | ata c =>
    rw [AtaCall.programId_build h]
    exact (by decide : builderOf AssociatedTokenAccount.id = .ata)
  | subscriptions c =>
    rw [programId_of_subscriptions h]
    exact (by decide : builderOf Subscriptions.id = .subscriptions)

/-- **An instruction without its flags names its call.** -/
lemma eq_of_bare_eq {inputs : Set Bytes} (hinputs : Set.InjOn search.sha256 inputs)
    (h : s.build search = some ix) (h' : s'.build search = some ix') (hbare : ix.bare = ix'.bare)
    (hin : ∀ w ∈ s.input search, w ∈ inputs) (hin' : ∀ w ∈ s'.input search, w ∈ inputs) :
    s = s' := by
  have hbuilder : s.builder = s'.builder := by
    have hid : ix.programId = ix'.programId := congrArg Instruction.Bare.programId hbare
    rw [← builderOf_build h, ← builderOf_build h', hid]
  cases s <;> cases s' <;> try exact absurd hbuilder (by simp only [builder]; decide)
  case system.system c c' =>
    obtain rfl := Option.some.inj h
    obtain rfl := Option.some.inj h'
    rw [SystemCall.bare_injective hbare]
  case memo.memo text signers text' signers' =>
    obtain rfl := Option.some.inj h
    obtain rfl := Option.some.inj h'
    obtain ⟨rfl, rfl⟩ := memo_bare hbare
    rfl
  case token.token c c' =>
    rw [TokenCall.eq_of_bare_eq (toOption_eq_some_iff.mp h)
      (toOption_eq_some_iff.mp h') hbare]
  case ata.ata c c' =>
    rw [AtaCall.eq_of_bare_eq h h' hbare]
  case subscriptions.subscriptions c c' =>
    obtain rfl := subscriptions_eq_of_bare_eq h h' hbare
    rw [SubscriptionCalls.Call.eq_of_build_eq h h' fun hfind hfind' =>
      SubscriptionCalls.Pda.eq_of_find_eq hinputs hfind hfind' hin hin']

end Step

/-! ### Calls -/

/-- A new nonce account is only initialized where it is created. -/
def Step.exported : Step → Bool
  | .system (.initializeNonceAccount ..) => false
  | _ => true

/-- A call of a builder: one step, or the two of a new nonce account. -/
inductive Call
  | one (s : Step) (exported : s.exported)
  | createNonceAccount (fromPubkey noncePubkey authority : Pubkey) (lamports : UInt64)
  deriving DecidableEq

namespace Call

def build (search : AddressSearch) : Call → Option (List Instruction)
  | one s _ => do return [← s.build search]
  | createNonceAccount fromPubkey noncePubkey authority lamports =>
    some (System.createNonceAccount fromPubkey noncePubkey authority lamports)

def steps : Call → List Step
  | one s _ => [s]
  | createNonceAccount fromPubkey noncePubkey authority lamports =>
    [.system (.createAccount fromPubkey noncePubkey lamports System.NONCE_STATE_SIZE System.id),
      .system (.initializeNonceAccount noncePubkey authority)]

end Call

def buildAll (search : AddressSearch) : List Call → Option (List Instruction)
  | [] => some []
  | c :: calls => do return (← c.build search) ++ (← buildAll search calls)

/-- What was hashed for the addresses that alone name an argument. -/
def hashedInputs (search : AddressSearch) (calls : List Call) : List Bytes :=
  (calls.flatMap Call.steps).filterMap (·.input search)

variable {search : AddressSearch} {calls calls' : List Call} {ixs ixs' : List Instruction}

/-- No call begins with the second step of another. -/
lemma exported_of_head {s : Step} (h : (calls.flatMap Call.steps).head? = some s) :
    s.exported := by
  cases calls with
  | nil => cases h
  | cons c calls =>
    cases c with
    | one s' hs' =>
      obtain rfl := Option.some.inj h
      exact hs'
    | createNonceAccount =>
      obtain rfl := Option.some.inj h
      rfl

/-- The calls are read back off their steps. -/
lemma flatMap_steps_injective : Function.Injective fun calls : List Call =>
    calls.flatMap Call.steps := by
  intro calls calls' h
  induction calls generalizing calls' with
  | nil =>
    cases calls' with
    | nil => rfl
    | cons c' calls' => cases c' <;> cases h
  | cons c calls ih =>
    cases calls' with
    | nil => cases c <;> cases h
    | cons c' calls' =>
      cases c <;> cases c' <;>
        simp only [List.flatMap_cons, Call.steps, List.cons_append, List.nil_append,
          List.cons.injEq] at h
      case one.one s hs s' hs' =>
        obtain ⟨rfl, h⟩ := h
        rw [ih h]
      case one.createNonceAccount =>
        exact absurd (exported_of_head (congrArg List.head? h.2)) (by simp [Step.exported])
      case createNonceAccount.one =>
        exact absurd (exported_of_head (congrArg List.head? h.2.symm)) (by simp [Step.exported])
      case createNonceAccount.createNonceAccount =>
        obtain ⟨hcreate, hinitialize, h⟩ := h
        cases hcreate
        cases hinitialize
        rw [ih h]

/-- The steps are built one by one. -/
lemma steps_of_buildAll (h : buildAll search calls = some ixs) :
    List.Forall₂ (fun s ix => s.build search = some ix) (calls.flatMap Call.steps) ixs := by
  induction calls generalizing ixs with
  | nil =>
    cases h
    exact .nil
  | cons c calls ih =>
    obtain ⟨first, hfirst, h⟩ := Option.bind_eq_some_iff.mp h
    obtain ⟨rest, hrest, h⟩ := Option.bind_eq_some_iff.mp h
    cases h
    refine List.rel_append ?_ (ih hrest)
    cases c with
    | one s hs =>
      obtain ⟨ix, hix, hfirst⟩ := Option.bind_eq_some_iff.mp hfirst
      cases hfirst
      exact .cons hix .nil
    | createNonceAccount =>
      cases hfirst
      exact .cons rfl (.cons rfl .nil)

/-! ### What names a call -/

/-- The step builds an instruction that reads so, and hashed nothing but these inputs. -/
def Says (search : AddressSearch) (inputs : Set Bytes) (s : Step) (b : Instruction.Bare) : Prop :=
  ∃ ix, s.build search = some ix ∧ ix.bare = b ∧ ∀ w ∈ s.input search, w ∈ inputs

lemma says_leftUnique {inputs : Set Bytes} (hinputs : Set.InjOn search.sha256 inputs) :
    Relator.LeftUnique (Says search inputs) := by
  rintro s s' b ⟨ix, h, hb, hin⟩ ⟨ix', h', hb', hin'⟩
  exact Step.eq_of_bare_eq hinputs h h' (hb.trans hb'.symm) hin hin'

lemma says_of_buildAll {inputs : Set Bytes} (h : buildAll search calls = some ixs)
    (hin : ∀ w ∈ hashedInputs search calls, w ∈ inputs) :
    List.Forall₂ (Says search inputs) (calls.flatMap Call.steps) (ixs.map Instruction.bare) := by
  have hsteps : ∀ s ∈ calls.flatMap Call.steps, ∀ w ∈ s.input search, w ∈ inputs :=
    fun s hs w hw => hin w (List.mem_filterMap.mpr ⟨s, hs, hw⟩)
  rw [List.forall₂_map_right_iff]
  refine ((List.forall₂_and_left _ _).mpr ⟨hsteps, steps_of_buildAll h⟩).imp fun s ix hs => ?_
  exact ⟨ix, hs.2, rfl, hs.1⟩

/-- **Instructions without their flags name the calls.** -/
lemma calls_eq_of_bare_eq (hinputs : Set.InjOn search.sha256
      {w | w ∈ hashedInputs search calls ++ hashedInputs search calls'})
    (h : buildAll search calls = some ixs) (h' : buildAll search calls' = some ixs')
    (hbare : ixs.map Instruction.bare = ixs'.map Instruction.bare) : calls = calls' := by
  have hsays := says_of_buildAll h fun w hw =>
    (List.mem_append_left _ hw : w ∈ hashedInputs search calls ++ hashedInputs search calls')
  have hsays' := says_of_buildAll h' fun w hw =>
    (List.mem_append_right _ hw : w ∈ hashedInputs search calls ++ hashedInputs search calls')
  rw [hbare] at hsays
  exact flatMap_steps_injective ((says_leftUnique hinputs).forall₂ hsays hsays')

/-! ### Who signs -/

/-- The arguments a step marks as signers. -/
def Step.signers : Step → List Pubkey
  | .system (.createAccount fromPubkey toPubkey ..) => [fromPubkey, toPubkey]
  | .system (.transfer fromPubkey ..) => [fromPubkey]
  | .system (.advanceNonceAccount _ authorizedPubkey) => [authorizedPubkey]
  | .system (.withdrawNonceAccount _ authorizedPubkey ..) => [authorizedPubkey]
  | .system (.initializeNonceAccount ..) => []
  | .system (.authorizeNonceAccount _ authorizedPubkey _) => [authorizedPubkey]
  | .memo _ signers => signers
  | .token (.transfer _ _ owner ..) => [owner]
  | .token (.transferChecked _ _ _ owner ..) => [owner]
  | .ata (.create fundingAccount ..) => [fundingAccount]
  | .ata (.createIdempotent fundingAccount ..) => [fundingAccount]
  | .subscriptions (.initializeSubscriptionAuthority user ..) => [user]
  | .subscriptions (.createRecurringDelegation delegator ..) => [delegator]
  | .subscriptions (.transferRecurring _ _ delegatee ..) => [delegatee]

/-- No account is marked a signer but those, least of all a derived one. -/
lemma Step.signers_build {s : Step} {ix : Instruction} (h : s.build search = some ix) :
    (ix.accounts.filter (·.isSigner)).map (·.pubkey) = s.signers := by
  cases s with
  | system c =>
    obtain rfl := Option.some.inj h
    cases c <;> rfl
  | memo text signers =>
    obtain rfl := Option.some.inj h
    simp [Memo.buildMemo, AccountMeta.newReadonly, Step.signers, List.filter_map,
      Function.comp_def]
  | token c =>
    cases c
    all_goals
      obtain ⟨-, rfl⟩ := TokenCall.dispatch_eq_ok_iff.mp (toOption_eq_some_iff.mp h)
      rfl
  | ata c =>
    cases c
    all_goals
      obtain ⟨_, -, h⟩ := Option.bind_eq_some_iff.mp h
      cases h
      rfl
  | subscriptions c =>
    cases c with
    | initializeSubscriptionAuthority =>
      obtain ⟨_, _, -, haccounts, -⟩ := SubscriptionCalls.Call.build_initialize h
      rw [haccounts]
      rfl
    | createRecurringDelegation =>
      obtain ⟨_, _, _, -, haccounts, -⟩ := SubscriptionCalls.Call.build_create h
      rw [haccounts]
      rfl
    | transferRecurring =>
      obtain ⟨_, _, haccounts, -⟩ := SubscriptionCalls.Call.build_transfer h
      rw [haccounts]
      rfl

/-- The instructions mark the signers of their calls. -/
lemma marked_iff_of_buildAll (h : buildAll search calls = some ixs) (k : Pubkey) :
    (∃ ix ∈ ixs, ∃ a ∈ ix.accounts, a.pubkey = k ∧ a.isSigner) ↔
      ∃ c ∈ calls, ∃ s ∈ c.steps, k ∈ s.signers := by
  have hsteps : (∃ ix ∈ ixs, ∃ a ∈ ix.accounts, a.pubkey = k ∧ a.isSigner) ↔
      ∃ s ∈ calls.flatMap Call.steps, k ∈ s.signers := by
    have hbuild := steps_of_buildAll h
    clear h
    generalize calls.flatMap Call.steps = steps at hbuild
    induction hbuild with
    | nil => simp
    | @cons s ix steps ixs hs _ ih =>
      rw [List.exists_mem_cons_iff, List.exists_mem_cons_iff, ← Step.signers_build hs]
      simp only [List.mem_map, List.mem_filter]
      refine or_congr (exists_congr fun a => ?_) ih
      tauto
  rw [hsteps]
  simp only [List.mem_flatMap]
  tauto

end SvmWasiCore.BuilderCalls

import SvmWasiCore.Compilation
import SvmWasiCore.NonceSetup
import SvmWasiCore.Signers
import SvmWasiCore.Slots

/-!
What every run of the nonce setup does.

The two new instructions are few and short, so nothing between them and the bytes can fail: a run
stops where its inputs or the network do, and nowhere else.
-/

namespace SvmWasiCore.NonceSetupRuns

open Rpc RpcAccounts RpcMethods Dalek Sign ShortVec MessageFormat MessageCompiler KeyClasses
open Compilation WireLimits Envelope WireFormat Signers Slots HostPrograms NonceSetup Lib.ByteCodec
open Lib.Collect Lib.Interaction

/-! ### Legacy messages -/

section
variable {payer : Pubkey} {ixs : List Instruction} {l : Message}

lemma resolve_of_newMessage (h : newMessage ixs payer = .ok l)
    (hlen : l.accountKeys.length ≤ 256) :
    l.instructions.mapM (resolve l.accountKeys) = some (ixs.map Instruction.bare) := by
  obtain ⟨header, hparts, rfl⟩ := newMessage_ok_iff.mp h
  exact mapM_some fun ix hix => resolve_indexed hlen (covers_static ix hix)

lemma short_of_newMessage (h : newMessage ixs payer = .ok l) (hlen : l.accountKeys.length ≤ 256)
    (hw : Writes ixs) : l.Short := by
  obtain ⟨header, hparts, rfl⟩ := newMessage_ok_iff.mp h
  obtain ⟨h1, h2⟩ := (writes_iff _).mpr hw
  exact ⟨le_trans hlen (by norm_num), h1, h2⟩

/-- With few keys, a message is built. -/
lemma returns_newMessage (h : (ixs.flatMap Instruction.keys).length < 255) :
    ∃ l, newMessage ixs payer = .ok l ∧ l.accountKeys.length ≤ 256 := by
  have hcard : (keySet ixs payer).card ≤ 255 :=
    le_trans card_keySet_le (Nat.succ_le_of_lt h)
  have hsigners : (signerSet ixs payer).card ≤ 255 :=
    le_trans (Finset.card_le_card (Finset.filter_subset _ _)) hcard
  have hreadonly : (readonlyUnsignedSet ixs payer).card ≤ 255 :=
    le_trans (Finset.card_le_card (Finset.filter_subset _ _)) hcard
  obtain ⟨header, hparts⟩ := components_ok_iff_fits.mpr ⟨hsigners, hreadonly⟩
  refine ⟨_, newMessage_ok_iff.mpr ⟨header, hparts, rfl⟩, ?_⟩
  change (compile ixs payer).staticAccountKeys.length ≤ 256
  rw [compile_static_length]
  omega

end

/-! ### Signing -/

variable {P : Type} [AddCommGroup P] {E : Ed25519 P}

section
variable {mb : Bytes} {kp : Keypair E}

/-- The keys that have to sign a legacy transaction. -/
abbrev required (tx : Transaction) : List Pubkey :=
  signerKeys tx.message.header tx.message.accountKeys

/-- A required key signs when there are slots for all of them. -/
lemma trySign_required (tx : Transaction) (hmb : messageCodec.enc tx.message = some mb)
    (hkeys : tx.message.header.numRequiredSignatures.toNat ≤ tx.message.accountKeys.length)
    (hslots : tx.signatures.length = (required tx).length) (hkp : kp.pubkey ∈ required tx) :
    ∃ sigs, tx.trySign kp = .ok (.ok (), { tx with signatures := sigs }) ∧
      Filled (required tx) tx.signatures sigs kp.pubkey (kp.signMessage mb) := by
  have hlt : (required tx).idxOf kp.pubkey < tx.signatures.length := by
    rw [hslots]
    exact List.idxOf_lt_length_iff.mpr hkp
  have hfill := fillSlot_eq (kp.signMessage mb) hkeys hkp hlt
  refine ⟨_, ?_, filled_of_fillSlot hfill⟩
  rw [Transaction.trySign, hmb]
  change (fillSlot _ _ _ _ _ >>= _) = _
  rw [hfill]
  rfl

/-- Of two required keys that sign in turn, both slots verify in the end. -/
lemma trySign_both {kp' : Keypair E} (tx : Transaction)
    (hmb : messageCodec.enc tx.message = some mb)
    (hkeys : tx.message.header.numRequiredSignatures.toNat ≤ tx.message.accountKeys.length)
    (hslots : tx.signatures.length = (required tx).length) (hkp : kp.pubkey ∈ required tx)
    (hkp' : kp'.pubkey ∈ required tx) :
    ∃ sigs sigs', tx.trySign kp = .ok (.ok (), { tx with signatures := sigs }) ∧
      ({ tx with signatures := sigs } : Transaction).trySign kp' =
        .ok (.ok (), { tx with signatures := sigs' }) ∧
      sigs'.length = (required tx).length ∧ SlotVerifies E (required tx) sigs' mb kp.pubkey ∧
      SlotVerifies E (required tx) sigs' mb kp'.pubkey := by
  obtain ⟨sigs, hsign, hfilled⟩ := trySign_required tx hmb hkeys hslots hkp
  obtain ⟨sigs', hsign', hfilled'⟩ :=
    trySign_required { tx with signatures := sigs } hmb hkeys (hfilled.length.trans hslots) hkp'
  have hverifies := verifies_signMessage kp' mb
  refine ⟨sigs, sigs', hsign, hsign', hfilled'.length.trans (hfilled.length.trans hslots), ?_, ?_⟩
  · exact hfilled'.keeps hverifies (hfilled.slot (verifies_signMessage kp mb))
  · exact hfilled'.slot hverifies

end

/-- The transaction on these instructions that both keys have signed. -/
structure Created (payer nonceKeypair : Keypair E) (ixs : List Instruction) (blockhash : Hash)
    (tx : Transaction) (mb : Bytes) : Prop where
  bytes : messageCodec.enc tx.message = some mb
  recentBlockhash : tx.message.recentBlockhash = blockhash
  instructions : tx.message.instructions.mapM (resolve tx.message.accountKeys) =
    some (ixs.map Instruction.bare)
  signers : ∀ pk, pk ∈ required tx ↔ pk = payer.pubkey ∨ pk = nonceKeypair.pubkey
  slots : tx.signatures.length = (required tx).length
  verified : ∀ (i : ℕ) (pk : Pubkey), (required tx)[i]? = some pk →
    ∃ sig, tx.signatures[i]? = some sig ∧ Verifies E pk mb sig

variable {payer nonceKeypair : Keypair E} {lamports : UInt64} {blockhash : Hash}

/-- A message of few keys and short instructions is signed by its payer and another signer, when
nobody else has to. -/
lemma signed_eq_of_few {ixs : List Instruction}
    (hfew : (ixs.flatMap Instruction.keys).length < 255) (hwrites : Writes ixs)
    (hsigners : ∀ pk, pk = payer.pubkey ∨ MarkedSigner ixs pk ↔
      pk = payer.pubkey ∨ pk = nonceKeypair.pubkey) :
    ∃ tx mb text, signed payer nonceKeypair ixs blockhash = pure tx ∧
      Created payer nonceKeypair ixs blockhash tx mb ∧ tx.toBase64 = .ok text := by
  obtain ⟨l, hl, hlen⟩ : ∃ l, newMessage ixs payer.pubkey = .ok l ∧ l.accountKeys.length ≤ 256 :=
    returns_newMessage hfew
  obtain ⟨hkeys, hdistinct⟩ := signers_of_newMessage hl
  have hmem (pk : Pubkey) : pk ∈ signerKeys l.header l.accountKeys ↔ _ :=
    (mem_signerKeys_of_newMessage hl).trans (hsigners pk)
  obtain ⟨m, hm⟩ : ∃ m : Message, m = { l with recentBlockhash := blockhash } := ⟨_, rfl⟩
  have hshort : m.Short := by
    have h := short_of_newMessage hl hlen hwrites
    rw [hm]
    exact ⟨h.accountKeys, h.instructions, h.instruction⟩
  obtain ⟨mb, hmb⟩ := Option.isSome_iff_exists.mp ((messageCodec_fits m).mpr hshort)
  have hheader : m.header = l.header := by rw [hm]
  have haccountKeys : m.accountKeys = l.accountKeys := by rw [hm]
  rw [← hheader, ← haccountKeys] at hkeys hdistinct hmem
  have hslots : (Transaction.newUnsigned m).signatures.length =
      (required (Transaction.newUnsigned m)).length := by
    rw [Transaction.newUnsigned, List.length_replicate]
    exact (List.length_take_of_le hkeys).symm
  obtain ⟨sigs₁, sigs, hsign₁, hsign, hlength, hpayer, hnonce⟩ :=
    trySign_both (Transaction.newUnsigned m) hmb hkeys hslots ((hmem payer.pubkey).mpr (.inl rfl))
      ((hmem nonceKeypair.pubkey).mpr (.inr rfl))
  have hlong : sigs.length ≤ 65535 := by
    have hrequired : (required (Transaction.newUnsigned m)).length ≤ _ := List.length_take_le _ _
    have hbyte := (Transaction.newUnsigned m).message.header.numRequiredSignatures.toNat_lt
    omega
  obtain ⟨w, hw⟩ := (returns_serialize_legacy_iff
    { Transaction.newUnsigned m with signatures := sigs }).mpr ⟨hshort, hlong⟩
  refine ⟨{ Transaction.newUnsigned m with signatures := sigs }, mb, Lib.Base64.encode w, ?_, ?_,
    ?_⟩
  · rw [signed, hl]
    simp only [orPanic, pure_bind, ← hm, hsign₁, orExit, hsign]
  · exact
      { bytes := hmb
        recentBlockhash := by
          rw [hm]
          rfl
        instructions := by
          have hresolve := resolve_of_newMessage hl hlen
          rw [hm]
          exact hresolve
        signers := hmem
        slots := hlength
        verified := fun i pk hi => by
          have hslot : SlotVerifies E (required (Transaction.newUnsigned m)) sigs mb pk := by
            rcases (hmem pk).mp (List.mem_of_getElem? hi) with rfl | rfl
            · exact hpayer
            · exact hnonce
          exact hslot.signature hdistinct hi }
  · rw [Transaction.toBase64, hw]
    rfl

/-- **Signing the new account's transaction cannot fail.** -/
lemma signed_eq (payer nonceKeypair : Keypair E) (lamports : UInt64) (blockhash : Hash) :
    ∃ tx mb text, signed payer nonceKeypair (System.createNonceAccount payer.pubkey
        nonceKeypair.pubkey payer.pubkey lamports) blockhash = pure tx ∧
      Created payer nonceKeypair (System.createNonceAccount payer.pubkey nonceKeypair.pubkey
        payer.pubkey lamports) blockhash tx mb ∧ tx.toBase64 = .ok text := by
  refine signed_eq_of_few (by norm_num : 7 < 255) ?_ fun pk => ?_
  · simp [Writes, System.createNonceAccount, System.createAccount, System.initializeNonceAccount,
      Instruction.Short, Fields.u64Bytes]
  · simp [MarkedSigner, System.createNonceAccount, System.createAccount,
      System.initializeNonceAccount, AccountMeta.new, AccountMeta.newReadonly, eq_comm (a := pk)]

/-! ### Runs -/

variable {texts : HostTexts} {args : Args} {tr : Trace}

def rentRequest (args : Args) (r : Except RpcError Json.Value) : Exchange :=
  ⟨args.rpcUrl, (Method.getMinimumBalanceForRentExemption System.NONCE_STATE_SIZE).request 1, r⟩

def blockhashRequest (args : Args) (r : Except RpcError Json.Value) : Exchange :=
  ⟨args.rpcUrl, Method.getLatestBlockhash.request 2, r⟩

def submission (args : Args) (text : String) (r : Except RpcError Json.Value) : Exchange :=
  ⟨args.rpcUrl, (Method.sendTransaction text).request 3, r⟩

variable (texts) in
/-- What the three methods make of a response. -/
def rent (r : Except RpcError Json.Value) : Except RpcError UInt64 :=
  (Method.getMinimumBalanceForRentExemption System.NONCE_STATE_SIZE).answer texts.toTextForms r

variable (texts) in
def blockhashInfo (r : Except RpcError Json.Value) : Except RpcError BlockhashInfo :=
  Method.getLatestBlockhash.answer texts.toTextForms r

variable (texts) in
def submitted (text : String) (r : Except RpcError Json.Value) : Except RpcError String :=
  (Method.sendTransaction text).answer texts.toTextForms r

variable (texts) in
/-- How the requests of a run can go. -/
inductive CreateEnds (args : Args) (payer nonceKeypair : Keypair E) :
    List Exchange → ExitCode → Prop
  | noRent (r : Except RpcError Json.Value) (e : RpcError) (h : rent texts r = .error e) :
      CreateEnds args payer nonceKeypair [rentRequest args r] .failure
  | noBlockhash (r r' : Except RpcError Json.Value) (lamports : UInt64) (e : RpcError)
      (h : rent texts r = .ok lamports) (h' : blockhashInfo texts r' = .error e) :
      CreateEnds args payer nonceKeypair [rentRequest args r, blockhashRequest args r'] .failure
  | sent (r r' r'' : Except RpcError Json.Value) (lamports : UInt64) (info : BlockhashInfo)
      (tx : Transaction) (mb : Bytes) (text : String) (code : ExitCode)
      (h : rent texts r = .ok lamports) (h' : blockhashInfo texts r' = .ok info)
      (hcreated : Created payer nonceKeypair (System.createNonceAccount payer.pubkey
        nonceKeypair.pubkey payer.pubkey lamports) info.blockhash tx mb)
      (htext : tx.toBase64 = .ok text)
      (hcode : code = .success ↔ ∃ signature, submitted texts text r'' = .ok signature) :
      CreateEnds args payer nonceKeypair
        [rentRequest args r, blockhashRequest args r', submission args text r''] code

variable {o : Except Stop ExitCode}

/-- What is reported sends nothing. -/
lemma report_ends {sent : Except RpcError String}
    (h : Ends (report args payer nonceKeypair sent) tr o) : Quiet tr [] ∧
      ∃ code, Leaves tr o code ∧ (code = .success ↔ ∃ signature, sent = .ok signature) := by
  cases sent with
  | ok signature =>
    obtain ⟨hquiet, hleaves⟩ := (prints_printAll _ _).leaves h
    exact ⟨hquiet, .success, hleaves, by simp⟩
  | error e =>
    obtain ⟨hquiet, hleaves⟩ := (prints_line _ _).leaves h
    exact ⟨hquiet, .failure, hleaves, by simp⟩

lemma create_ends (h : Ends (create texts args payer nonceKeypair) tr o) :
    ∃ code, Leaves tr o code ∧ CreateEnds texts args payer nonceKeypair (exchanges tr) code := by
  obtain ⟨r, tr₁, htr, h⟩ := ends_call_bind_iff.mp h
  have hsub₁ : tr₁ ⊆ tr := htr ▸ List.subset_cons_self _ _
  rw [htr, exchanges_send_cons, ← htr]
  rcases ends_orExit_bind h with ⟨lamports, hrent, h⟩ | ⟨e, hrent, hquiet, hleaves⟩
  · obtain ⟨r', tr₂, htr₁, h⟩ := ends_call_bind_iff.mp h
    have hsub₂ : tr₂ ⊆ tr := fun ev hev => hsub₁ (htr₁ ▸ List.mem_cons_of_mem _ hev)
    rw [htr₁, exchanges_send_cons]
    rcases ends_orExit_bind h with ⟨info, hinfo, h⟩ | ⟨e, hinfo, hquiet, hleaves⟩
    · obtain ⟨tx, mb, text, hsigned, hcreated, htext⟩ :=
        signed_eq payer nonceKeypair lamports info.blockhash
      rw [hsigned, pure_bind, htext, orPanic, pure_bind] at h
      obtain ⟨r'', tr₃, htr₂, h⟩ := ends_call_bind_iff.mp h
      have hsub₃ : tr₃ ⊆ tr := fun ev hev => hsub₂ (htr₂ ▸ List.mem_cons_of_mem _ hev)
      obtain ⟨hquiet, code, hleaves, hcode⟩ := report_ends h
      rw [htr₂, exchanges_send_cons, hquiet.seen.1]
      exact ⟨code, hleaves.mono hsub₃, .sent r r' r'' lamports info tx mb text code hrent hinfo
        hcreated htext hcode⟩
    · rw [hquiet.seen.1]
      exact ⟨.failure, hleaves.mono hsub₂, .noBlockhash r r' lamports e hrent hinfo⟩
  · rw [hquiet.seen.1]
    exact ⟨.failure, hleaves.mono hsub₁, .noRent r e hrent⟩

/-! ### Whole runs -/

lemma only_openPayer : Only Effect.Local (openPayer texts E) := by
  refine only_stdCall_bind fun argv => ?_
  refine only_orExit_bind fun args => ?_
  refine Script.only_bind (only_loadKeypairFile _ _ _) fun r => ?_
  refine only_orExit_bind fun payer => ?_
  exact Script.only_pure _

variable (texts) in
/-- The arguments were given in this run, and the file they name holds the payer. -/
structure Opened (tr : Trace) (args : Args) (payer : Keypair E) : Prop where
  arguments : ∃ argv, ⟨.std .args, .ok argv⟩ ∈ tr ∧ parseArgs argv = .ok args
  loaded : LoadedFrom texts E tr args.payerKeypairPath payer

lemma Opened.mono {tr tr' : Trace} (h : Opened texts tr args payer) (hsub : tr ⊆ tr') :
    Opened texts tr' args payer := by
  obtain ⟨argv, hargv, hargs⟩ := h.arguments
  exact ⟨⟨argv, hsub hargv, hargs⟩, h.loaded.mono hsub⟩

lemma openPayer_ok (h : Ends (openPayer texts E) tr (.ok (args, payer))) :
    Opened texts tr args payer := by
  obtain ⟨argv, tr₁, htr, h⟩ := ends_stdCall_bind_ok_iff.mp h
  obtain ⟨args', hargs, h⟩ := ends_orExit_bind_ok_iff.mp h
  rcases Script.ends_bind_iff.mp h with ⟨e, -, h⟩ | ⟨tr₂, r, tr₃, hload, h, htr₁⟩
  · cases h
  obtain ⟨payer', hpayer, h⟩ := ends_orExit_bind_ok_iff.mp h
  cases (Script.ends_pure_iff.mp h).2
  rw [hpayer] at hload
  rw [htr, htr₁]
  exact ⟨⟨argv, List.mem_cons_self, hargs⟩, (loadKeypairFile_ok _ _ hload).mono
    (List.subset_cons_of_subset _ (List.subset_append_left _ _))⟩

section
variable {answered : Event Effect Effect.Answer → Prop} {reason : Stop → Prop}

variable (texts E answered) in
/-- Whenever they are asked for, the arguments parse and the file they name holds a keypair. -/
def Provided : Prop :=
  ∃ args payer, (∀ argv, answered ⟨.std .args, .ok argv⟩ → parseArgs argv = .ok args) ∧
    FileHolds texts E answered args.payerKeypairPath payer

lemma stops_openPayer (hstd : StdStops answered reason)
    (h : reason (.exit .failure) ∨ Provided E texts answered) :
    Stops answered reason (openPayer texts E) := by
  refine stops_stdCall_bind hstd fun argv hargv => ?_
  have hparse := h.imp_right fun ⟨args, _, hargs, _⟩ => Exists.intro args (hargs argv hargv)
  refine stops_orExit_bind hstd hparse fun args hargs => ?_
  have hfile : reason (.exit .failure) ∨
      ∃ payer, FileHolds texts E answered args.payerKeypairPath payer := by
    refine h.imp_right fun ⟨args', payer, hargs', hfile⟩ => ⟨payer, ?_⟩
    obtain rfl := Except.ok.inj (hargs.symm.trans (hargs' argv hargv))
    exact hfile
  refine Script.stops_bind (stops_loadKeypairFile _ _ _) fun tr r hload hanswered => ?_
  have hloaded := hfile.imp_right fun ⟨payer, hfile⟩ =>
    Exists.intro payer (hfile.loaded _ _ hload hanswered)
  exact stops_orExit_bind hstd hloaded fun _ _ => Script.stops_pure _

end

/-- The key is the drawn one: its bytes always load. -/
lemma generateKeypair_eq : generateKeypair E =
    (random 32 >>= fun seed => pure ⟨seed, ⟨(verifyingKey E seed).compressed⟩, rfl⟩) := by
  rw [generateKeypair]
  refine bind_congr fun seed => ?_
  have h := fromBytes_keypair (E := E) ⟨seed, ⟨(verifyingKey E seed).compressed⟩, rfl⟩
  change orPanic (expect (Keypair.fromBytes E
    (seed.toList ++ (verifyingKey E seed).compressed.toList)).toOption _) = _
  rw [h]
  rfl

variable (E texts) in
/-- What a run comes to. -/
inductive Outcome (tr : Trace) (o : Except Stop ExitCode) : Prop
  /-- Without arguments or a payer, or refused a call, the program sends nothing. -/
  | stopped (hexchanges : exchanges tr = [])
      (hstop : o = .error (.exit .failure) ∧ ¬Provided E texts (· ∈ tr) ∨ StdPanics tr o)
  /-- The payer and a key drawn in this run create the account, as far as the network goes along. -/
  | requested (args : Args) (payer nonceKeypair : Keypair E) (code : ExitCode)
      (hopened : Opened texts tr args payer)
      (hfresh : ⟨.std (.random 32), .ok nonceKeypair.signingKey⟩ ∈ tr)
      (hleaves : Leaves tr o code)
      (hrequests : CreateEnds texts args payer nonceKeypair (exchanges tr) code)

/-- **Every run of the nonce setup.** It never panics of its own accord. With its arguments and the
payer's file it reaches the network, and once the rent and a blockhash are answered it submits one
transaction, which both keys have signed and which names the payer as the authority; only a call
that the machine refuses keeps it from that, or from its exit code. -/
theorem setup_outcome (h : Ends (main texts E) tr o) : Outcome E texts tr o := by
  rcases Script.ends_bind_iff.mp h with ⟨e, h, ho⟩ | ⟨tr₁, ⟨args, payer⟩, tr₂, h₁, h₂, htr⟩
  · have hwhy : Stops (· ∈ tr)
        (fun e => e = .exit .failure ∨ StdPanics tr (.error e : Except Stop ExitCode))
        (openPayer texts E) :=
      stops_openPayer (fun c text hev => .inr ⟨c, text, rfl, hev⟩) (.inl (.inl rfl))
    have hnever (hprovided : Provided E texts (· ∈ tr)) :
        Stops (· ∈ tr) (· ≠ .exit .failure) (openPayer texts E) :=
      stops_openPayer (fun _ _ _ => nofun) (.inr hprovided)
    refine .stopped (exchanges_of_local (h.only only_openPayer)) ?_
    rw [ho]
    refine (hwhy h fun _ hev => hev).imp_left fun he => ⟨congrArg _ he, fun hprovided => ?_⟩
    exact hnever hprovided h (fun _ hev => hev) he
  · have hquiet₁ : Quiet tr tr₂ := ⟨tr₁, htr, h₁.only only_openPayer⟩
    change Ends (generateKeypair E >>= create texts args payer) tr₂ o at h₂
    rw [generateKeypair_eq, bind_assoc] at h₂
    rcases ends_stdCall_bind_iff.mp h₂ with ⟨seed, tr₃, htr₂, h₂⟩ | ⟨text, htr₂, ho⟩
    · rw [pure_bind] at h₂
      obtain ⟨code, hleaves, hends⟩ := create_ends h₂
      have hopened : Opened texts tr args payer :=
        (openPayer_ok h₁).mono (htr ▸ List.subset_append_left _ _)
      have hsub : tr₃ ⊆ tr := fun ev hev =>
        hquiet₁.subset (htr₂ ▸ List.mem_cons_of_mem _ hev)
      have hexchanges : exchanges tr = exchanges tr₃ := by
        rw [hquiet₁.seen.1, htr₂]
        rfl
      rw [← hexchanges] at hends
      exact .requested args payer _ code hopened (hquiet₁.subset (htr₂ ▸ List.mem_cons_self))
        (hleaves.mono hsub) hends
    · refine .stopped ?_ (.inr ⟨_, text, ho, hquiet₁.subset (htr₂ ▸ List.mem_cons_self)⟩)
      rw [hquiet₁.seen.1, htr₂]
      rfl

/-- The run of a machine without a network. -/
def sampleSetup := (main HostTexts.sample multiples).run.runIn
  (table (sampleAnswer
    ["--rpc-url", "http://localhost:8899", "--payer-keypair", "payer.json"])) ()

theorem setup_outcome_sample :
    Outcome multiples HostTexts.sample sampleSetup.2.1 sampleSetup.1 := by
  rw [sampleSetup]
  exact setup_outcome (runs_runIn _ _ _)

end SvmWasiCore.NonceSetupRuns

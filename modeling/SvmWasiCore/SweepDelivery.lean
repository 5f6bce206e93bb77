import SvmWasiCore.MetaAddress
import SvmWasiCore.Signers
import SvmWasiCore.SweepRuns

/-!
A payment and its sweep, from the setup of the meta-address to what is submitted.

The setup shows a meta-address, a sender pays a one-time address of it, and a transaction that
spends it is compiled against a durable nonce. The signer is then run on that transaction, with
what the setup had shown.
-/

namespace SvmWasiCore.SweepDelivery

open Rpc MessageFormat MessageCompiler KeyClasses TableLookups Compilation DurableNonce WireLimits
open Dalek Sign Stealth Envelope WireFormat SigningRun HostPrograms MetaAddress SweepSigner
open Signers SweepRuns Lib.ByteCodec Lib.Interaction Lib.LittleEndian Lib.ScalarMul

/-! ### A sweep -/

variable {P : Type} [AddCommGroup P] [DecidableEq P]

/-- A one-time address of a meta-address, and a transaction compiled against a durable nonce that
this address and the nonce authority have to sign, and nobody else. -/
structure Sweep (E : Ed25519 P) (scanPub spendPub : Pubkey) where
  ephemeral : Scalar
  oneTime : Pubkey
  derived : deriveOneTimeAddress E scanPub spendPub ephemeral = .ok oneTime
  authority : Keypair E
  payer : Pubkey
  nonceAccount : Pubkey
  nonceBlockhash : Hash
  instructions : List Instruction
  tables : List AddressLookupTableAccount
  message : MessageV0
  compiled : compileV0WithDurableNonce payer nonceAccount authority.pubkey nonceBlockhash
    instructions tables = .ok message
  writes : Writes (durable nonceAccount authority.pubkey instructions)
  oneTime_signs : oneTime = payer ∨ MarkedSigner instructions oneTime
  only_signers : ∀ pk, pk = payer ∨ MarkedSigner instructions pk →
    pk = oneTime ∨ pk = authority.pubkey

variable {E : Ed25519 P} {scanPub spendPub : Pubkey}

namespace Sweep

variable (w : Sweep E scanPub spendPub)

lemma signable : Signable w.message := by
  obtain ⟨ls, map, h⟩ := built_of_tryCompile (v0_ok_iff.mp w.compiled)
  exact signable_of_built h w.writes

lemma mem_required {pk : Pubkey} :
    pk ∈ required w.message ↔ pk = w.oneTime ∨ pk = w.authority.pubkey := by
  obtain ⟨ls, map, h⟩ := built_of_tryCompile (v0_ok_iff.mp w.compiled)
  have hsigners : pk ∈ required w.message ↔
      pk = w.payer ∨ pk = w.authority.pubkey ∨ MarkedSigner w.instructions pk := by
    rw [mem_required_of_built h, markedSigner_durable]
  rw [hsigners]
  refine ⟨fun h => ?_, fun h => ?_⟩
  · rcases h with h | h | h
    · exact w.only_signers pk (.inl h)
    · exact .inr h
    · exact w.only_signers pk (.inr h)
  · rcases h with rfl | h
    · rcases w.oneTime_signs with h | h
      · exact .inl h
      · exact .inr (.inr h)
    · exact .inr (.inl h)

lemma slotsCover : SlotsCover (VersionedTransaction.newUnsigned w.message) := by
  have hdistinct : (required (VersionedTransaction.newUnsigned w.message).message).Nodup :=
    w.signable.distinct
  refine (slotsCover_iff_of_nodup hdistinct).mpr ⟨w.signable.keys, ?_⟩
  rw [VersionedTransaction.newUnsigned, List.length_replicate]

end Sweep

/-- Who has the private scalars recovers the key of a derived address. -/
lemma recovered_of_derived {v s r : Scalar} {oneTime : Pubkey}
    (h : deriveOneTimeAddress E (toPubkey E (E.mulBase v)) (toPubkey E (E.mulBase s)) r =
      .ok oneTime) : ∃ t, recoverOneTimePrivkey E v (toPubkey E (E.mulBase r)) s = .ok t ∧
        toPubkey E (E.mulBase t) = oneTime := by
  rw [derive_eq] at h
  rw [recover_eq]
  cases hc : hashSharedSecret E (sharedPoint E v r) with
  | error e =>
    rw [hc] at h
    cases h
  | ok c =>
    rw [hc] at h
    exact ⟨c + s, rfl, Except.ok.inj h⟩

/-! ### The run of the signer -/

variable (texts : HostTexts)

/-- The signer is run for this sweep, with what was copied from the setup and the authority's
keypair file. -/
structure Operated (setup tr : Trace) (w : Sweep E scanPub spendPub) (args : Args) : Prop where
  arguments : ∀ argv, ⟨.std .args, .ok argv⟩ ∈ tr → parseArgs texts argv = .ok args
  ephemeral : args.ephemeralPubkey = toPubkey E (E.mulBase w.ephemeral)
  proposal : (VersionedTransaction.newUnsigned w.message).toBase64 = .ok args.transactionBase64
  scan : ∀ r, ⟨.promptPassword "scan_privkey (hex, hidden): ", r⟩ ∈ tr → ∃ text line,
    r = .ok line ∧ Shown setup ("scan_privkey  = " ++ text) ∧ Padded text line
  spend : ∀ r, ⟨.promptPassword "spend_privkey (hex, hidden): ", r⟩ ∈ tr → ∃ text line,
    r = .ok line ∧ Shown setup ("spend_privkey = " ++ text) ∧ Padded text line
  file : FileHolds texts E (· ∈ tr) args.nonceAuthorityKeypairPath w.authority

/-- The run signs the sweep and goes on to the network with it. -/
structure Delivered (w : Sweep E scanPub spendPub) (args : Args) (tr : Trace)
    (o : Except Stop ExitCode) (tx : VersionedTransaction) (mb : Bytes) (text : String)
    (code : ExitCode) : Prop where
  message : tx.message = w.message
  bytes : tx.messageBytes = .ok mb
  slots : tx.signatures.length = (required w.message).length
  verified : ∀ (i : ℕ) (pk : Pubkey), (required w.message)[i]? = some pk →
    ∃ sig, tx.signatures[i]? = some sig ∧ Verifies E pk mb sig
  read_back : VersionedTransaction.tryFromBase64 text = .ok tx
  leaves : Leaves tr o code
  broadcast : BroadcastEnds texts args text (exchanges tr) (linesRead tr) code

variable {texts} {setup tr : Trace} {w : Sweep E scanPub spendPub} {args : Args}

/-- Nothing is missing in a run for the sweep. -/
lemma Operated.prepared {v s : Scalar} (h : Operated texts setup tr w args)
    (hcopied : Copied E texts setup v s) (hscan : scanPub = toPubkey E (E.mulBase v))
    (hspend : spendPub = toPubkey E (E.mulBase s)) : ∃ t, toPubkey E (E.mulBase t) = w.oneTime ∧
      Prepared E texts (· ∈ tr) args (.newUnsigned w.message) v s t w.authority := by
  subst hscan hspend
  obtain ⟨t, ht, honeTime⟩ := recovered_of_derived w.derived
  refine ⟨t, honeTime, ?_⟩
  exact
    { arguments := h.arguments
      scan := fun r hr => by
        obtain ⟨text, line, hline, hshown, hpadded⟩ := h.scan r hr
        exact ⟨line, hline, hcopied.scanPriv text hshown line hpadded⟩
      spend := fun r hr => by
        obtain ⟨text, line, hline, hshown, hpadded⟩ := h.spend r hr
        exact ⟨line, hline, hcopied.spendPriv text hshown line hpadded⟩
      file := h.file
      recovered := by
        rw [h.ephemeral]
        exact ht
      parsed := tryFromBase64_toBase64 h.proposal
      oneTime := honeTime ▸ w.mem_required.mpr (.inl rfl)
      authority := w.mem_required.mpr (.inr rfl) }

/-- **From the setup to the submission.** When the sweep is for an address of the meta-address that
was shown, all that a run of the signer sends to the network is the compiled message with every
required slot verifying, and only a call that the machine refuses keeps it from that. -/
theorem sweep_delivered {o₀ : Except Stop PUnit} {o : Except Stop ExitCode}
    (hsetup : Ends (MetaAddress.main E) setup o₀)
    (hscan : Shown setup ("scan_pubkey   = " ++ toBase58 scanPub))
    (hspend : Shown setup ("spend_pubkey  = " ++ toBase58 spendPub))
    (h : Ends (SweepSigner.main texts E) tr o) (hoperated : Operated texts setup tr w args) :
    (exchanges tr = [] ∧ StdPanics tr o) ∨
      ∃ tx mb text code, Delivered texts w args tr o tx mb text code := by
  obtain ⟨v, s, hcopied, -⟩ := copied_of_main texts hsetup
  obtain ⟨t, honeTime, hprepared⟩ :=
    hoperated.prepared hcopied (hcopied.scanPub _ hscan) (hcopied.spendPub _ hspend)
  rcases Script.ends_bind_iff.mp h with ⟨e, h, ho⟩ | ⟨tr₁, ⟨args', tx⟩, tr₂, h₁, h₂, htr⟩
  · have hcovers : ∀ ev ∈ tr, GivenCovers texts ev := by
      intro ev hev argv args' tx hargv hargs htx
      obtain rfl := Except.ok.inj (hargs.symm.trans (hoperated.arguments argv (hargv ▸ hev)))
      obtain rfl := Except.ok.inj (htx.symm.trans hprepared.parsed)
      exact w.slotsCover
    have hstops : Stops (· ∈ tr) (fun e => StdPanics tr (.error e : Except Stop ExitCode))
        (authorize texts E) :=
      stops_authorize (fun c text hev => ⟨c, text, rfl, hev⟩) (.inr ⟨_, _, _, _, _, _, hprepared⟩)
        (.inr hcovers)
    rw [ho]
    exact .inl ⟨exchanges_of_local (h.only only_authorize), hstops h fun _ hev => hev⟩
  · have hsub : ∀ ev ∈ tr₁, ev ∈ tr := fun ev hev => htr ▸ List.mem_append_left _ hev
    obtain ⟨tx₀, mb, v', s', t', kp, hby⟩ := authorize_ok h₁
    obtain ⟨rfl, rfl, rfl, rfl⟩ := hprepared.agrees hby hsub
    rcases broadcast_of_authorized h₁ h₂ htr with ⟨hquiet, hpanics⟩ |
      ⟨text, code, htext, hleaves, hbroadcast⟩
    · exact .inl ⟨hquiet.seen.1, hpanics⟩
    refine .inr ⟨tx, mb, text, code, hby.message, hby.bytes, ?_, fun i pk hi => ?_, htext, hleaves,
      hbroadcast⟩
    · rw [hby.slots, VersionedTransaction.newUnsigned, List.length_replicate,
        required_length w.signable]
    · have hslot : Slots.SlotVerifies E (required tx.message) tx.signatures mb pk := by
        rcases w.mem_required.mp (List.mem_of_getElem? hi) with rfl | rfl
        · rw [← honeTime]
          exact hby.oneTime
        · exact hby.authority
      rw [show w.message = tx.message from hby.message.symm] at hi
      exact hslot.signature (hby.message ▸ w.signable.distinct) hi

/-! ### One sweep -/

def sampleAuthority : Keypair multiples := keypairOf 5 (by norm_num [L])

lemma derive_sample : deriveOneTimeAddress multiples (sampleKey 1) (sampleKey 1) 1 =
    .ok (sampleKey 2) := by
  have hfact : Fact (1 < L) := ⟨one_lt_L⟩
  have hkey : sampleKey 1 = toPubkey multiples (multiples.mulBase 1) := by
    rw [← toPubkey_multiples one_lt_L, Nat.cast_one]
  have hshared : sharedPoint multiples 1 1 = 1 := by
    change mul 1 (multiples.mulBase 1) = 1
    rw [mulBase_multiples]
    exact mulBase_multiples 1
  have hhash : hashSharedSecret multiples 1 = .ok 1 := by
    rw [hashSharedSecret, if_neg one_ne_zero]
    change Except.ok ((ofLe (toLe 32 (1 : Scalar).val).toList : ℕ) : Scalar) = _
    rw [ZMod.val_one, ofLe_toLe_of_lt (by norm_num), Nat.cast_one]
  have htwo : (1 + 1 : Scalar) = (2 : ℕ) := by norm_num
  rw [hkey, derive_eq, hshared, hhash, ← toPubkey_multiples (by norm_num [L] : 2 < L), ← htwo]
  rfl

/-- The nonce is advanced, and nothing else happens. -/
def sampleMessage : MessageV0 where
  header := ⟨2, 1, 2⟩
  accountKeys := [sampleKey 2, sampleKey 5, sampleKey 3, System.id,
    System.recentBlockhashesSysvarId]
  recentBlockhash := .default
  instructions := [⟨3, [2, 4, 1], [4, 0, 0, 0]⟩]
  addressTableLookups := []

/-- The address and its meta-address have small multiples of the base point. -/
def sampleSweep : Sweep multiples (sampleKey 1) (sampleKey 1) where
  ephemeral := 1
  oneTime := sampleKey 2
  derived := derive_sample
  authority := sampleAuthority
  payer := sampleKey 2
  nonceAccount := sampleKey 3
  nonceBlockhash := .default
  instructions := []
  tables := []
  message := sampleMessage
  compiled := by decide +kernel
  writes := writes_durable.mpr (by decide)
  oneTime_signs := .inl rfl
  only_signers pk hpk := by
    rcases hpk with rfl | ⟨ix, hix, -⟩
    · exact .inl rfl
    · cases hix

lemma returns_proposal : Returns (VersionedTransaction.newUnsigned sampleMessage).toBase64 :=
  (v0_returns_iff sampleSweep.compiled).2.1.mpr sampleSweep.writes

def proposalText : String :=
  match (VersionedTransaction.newUnsigned sampleMessage).toBase64 with
  | .ok text => text
  | .error _ => ""

lemma proposalText_eq :
    (VersionedTransaction.newUnsigned sampleMessage).toBase64 = .ok proposalText := by
  obtain ⟨text, h⟩ := returns_proposal
  rw [proposalText, h]

def sampleArgs : Args :=
  ⟨"http://localhost:8899", sampleKey 1, proposalText, "authority.json"⟩

def sampleArgv : List String :=
  ["--rpc-url", sampleArgs.rpcUrl, "--ephemeral-pubkey", toBase58 sampleArgs.ephemeralPubkey,
    "--transaction-base64", sampleArgs.transactionBase64, "--nonce-authority-keypair",
    sampleArgs.nonceAuthorityKeypairPath]

lemma parseArgs_sample : parseArgs HostTexts.sample sampleArgv = .ok sampleArgs := by
  rw [parseArgs, sampleArgv]
  have hpubkey := RpcMethods.pubkeyFromStr_sample sampleArgs.ephemeralPubkey
  simp [parsePairs, setFlag, present, HostTexts.sample, hpubkey, Except.mapError]
  rfl

def setupRun := (MetaAddress.main multiples).run.runIn (table (sampleAnswer [])) ()

def sweepRun :=
  (SweepSigner.main HostTexts.sample multiples).run.runIn (table (sampleAnswer sampleArgv)) ()

lemma setup_ends : Ends (MetaAddress.main multiples) setupRun.2.1 setupRun.1 :=
  runs_runIn (table (sampleAnswer [])) (MetaAddress.main multiples).run ()

lemma shown_setup {text : String}
    (h : text ∈ sheet ((1 : ℕ), sampleKey 1) ((1 : ℕ), sampleKey 1)) :
    Shown setupRun.2.1 text := by
  have hwide : fromBytesModOrderWide (toLe 64 1) = (1 : ℕ) := by
    rw [fromBytesModOrderWide, ofLe_toLe_of_lt (by norm_num)]
  have hkey := toPubkey_multiples one_lt_L
  rw [← hkey, ← hwide] at h
  let event (text : String) : Event Effect Effect.Answer :=
    ⟨.std (.line .stdout text), .ok ()⟩
  have hprinted := List.mem_map_of_mem (f := event) h
  exact ⟨_, List.mem_cons_of_mem _ (List.mem_cons_of_mem _ hprinted)⟩

lemma sweep_ends : Ends (SweepSigner.main HostTexts.sample multiples) sweepRun.2.1 sweepRun.1 := by
  rw [sweepRun]
  exact runs_runIn _ _ _

lemma answer_sweepRun {ev : Event Effect Effect.Answer} (h : ev ∈ sweepRun.2.1) :
    ev.answer = sampleAnswer sampleArgv ev.effect := by
  rw [sweepRun] at h
  exact answer_of_mem_runIn h

/-- What is typed in at a prompt is the text of `1`. -/
lemma typed_sweepRun {label : String} {r : Except String String}
    (h : ⟨.promptPassword label, r⟩ ∈ sweepRun.2.1) :
    r = .ok (ScalarHex.scalarToHex (1 : ℕ)) := by
  have hval : ((1 : ℕ) : Scalar).val = 1 := ZMod.val_natCast_of_lt one_lt_L
  rw [ScalarHex.scalarToHex, Scalar.toBytes, hval]
  exact answer_sweepRun h

lemma file_sample : FileHolds HostTexts.sample multiples (· ∈ sweepRun.2.1)
    sampleArgs.nonceAuthorityKeypairPath sampleAuthority := by
  intro r h
  have hread : r = .ok sampleKeypairFile := answer_sweepRun h
  have hjson : HostTexts.sample.jsonBytes sampleKeypairFile = .ok sampleKeypair := by
    simp [HostTexts.sample]
  exact ⟨sampleKeypairFile, sampleKeypair, hread, hjson, fromBytes_keypair sampleAuthority⟩

lemma operated_sample :
    Operated HostTexts.sample setupRun.2.1 sweepRun.2.1 sampleSweep sampleArgs where
  arguments argv h := by
    obtain rfl : argv = sampleArgv := Except.ok.inj (answer_sweepRun h)
    exact parseArgs_sample
  ephemeral := by
    have h := toPubkey_multiples one_lt_L
    rw [Nat.cast_one] at h
    exact h.symm
  proposal := proposalText_eq
  scan r h := ⟨_, _, typed_sweepRun h, shown_setup List.mem_cons_self, padded_self _⟩
  spend r h :=
    ⟨_, _, typed_sweepRun h, shown_setup ((mem_sheet _ _ _).2.2.1.mpr rfl), padded_self _⟩
  file := file_sample

theorem sweep_delivered_sample : ∃ tx mb text code, Delivered HostTexts.sample sampleSweep
    sampleArgs sweepRun.2.1 sweepRun.1 tx mb text code := by
  have h := sweep_delivered setup_ends (shown_setup ((mem_sheet _ _ _).2.1.mpr rfl))
    (shown_setup ((mem_sheet _ _ _).2.2.2.mpr rfl)) sweep_ends operated_sample
  exact h.resolve_left fun h => not_stdPanics_sample (fun _ hev => answer_sweepRun hev) h.2

end SvmWasiCore.SweepDelivery

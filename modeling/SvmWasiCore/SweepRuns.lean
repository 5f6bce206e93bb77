import SvmWasiCore.SweepSigner
import SvmWasiCore.SigningRun
import SvmWasiCore.Slots

/-!
What every run of the sweep signer does.
-/

namespace SvmWasiCore.SweepRuns

open Rpc RpcAccounts RpcMethods Dalek Sign Stealth Envelope WireFormat SigningRun HostPrograms
open Slots SweepSigner Lib.ByteCodec Lib.Interaction

variable {P : Type} [AddCommGroup P] {E : Ed25519 P}

/-! ### One signature -/

/-- Only the slot of the key is new, and the message is the same. -/
structure SlotFilled (tx tx' : VersionedTransaction) (pk : Pubkey) (sig : Signature) : Prop
    extends Filled (required tx.message) tx.signatures tx'.signatures pk sig where
  message : tx'.message = tx.message

variable {tx tx' : VersionedTransaction} {pk : Pubkey} {sig : Signature} {mb : Bytes}

lemma filled_of_insertSignature (h : tx.insertSignature pk sig = .ok (.ok (), tx')) :
    SlotFilled tx tx' pk sig := by
  obtain ⟨⟨r, sigs⟩, hfill, hreturn⟩ := bind_eq_ok.mp h
  cases hreturn
  exact ⟨filled_of_fillSlot hfill, rfl⟩

lemma filled_of_trySign {kp : Keypair E} (hmb : tx.messageBytes = .ok mb)
    (h : tx.trySign kp = .ok (.ok (), tx')) :
    SlotFilled tx tx' kp.pubkey (kp.signMessage mb) := by
  obtain ⟨mb', hmb', h⟩ := bind_eq_ok.mp h
  obtain rfl : mb = mb' := Except.ok.inj (hmb.symm.trans hmb')
  obtain ⟨⟨r, sigs⟩, hfill, hreturn⟩ := bind_eq_ok.mp h
  cases hreturn
  exact ⟨filled_of_fillSlot hfill, rfl⟩

lemma short_of_tryFromBase64 {encoded : String}
    (h : VersionedTransaction.tryFromBase64 encoded = .ok tx) : Short tx := by
  unfold VersionedTransaction.tryFromBase64 at h
  split at h
  · cases h
  · exact short_of_tryFromBytes h

/-- The text of a transaction is read back. -/
lemma tryFromBase64_toBase64 {text : String} (h : tx.toBase64 = .ok text) :
    VersionedTransaction.tryFromBase64 text = .ok tx := by
  obtain ⟨w, hw, htext⟩ := bind_eq_ok.mp h
  cases htext
  rw [VersionedTransaction.tryFromBase64, Lib.Base64.decode_encode]
  exact tryFromBytes_serialize hw

lemma SlotFilled.slotsCover (h : SlotFilled tx tx' pk sig) (hcover : SlotsCover tx) :
    SlotsCover tx' := by
  rw [SlotsCover, h.message, h.length]
  exact hcover

lemma returns_insertSignature (h : SlotsCover tx) (pk : Pubkey) (sig : Signature) :
    Returns (tx.insertSignature pk sig) :=
  (returns_insertSignature_iff tx pk sig).mpr
    ((returns_fillSlot_iff _ _ _ pk sig).mpr ⟨h.1, h.2 pk⟩)

lemma returns_trySign (h : SlotsCover tx) (hmb : tx.messageBytes = .ok mb) (kp : Keypair E) :
    Returns (tx.trySign kp) :=
  (returns_trySign_iff hmb kp).mpr
    ((returns_fillSlot_iff _ _ _ _ _).mpr ⟨h.1, h.2 kp.pubkey⟩)

lemma insertSignature_accepts {r : Except SignTransactionError Unit}
    (h : tx.insertSignature pk sig = .ok (r, tx')) (hpk : pk ∈ required tx.message) :
    r = .ok () := by
  obtain ⟨⟨r', sigs⟩, hfill, hreturn⟩ := bind_eq_ok.mp h
  cases hreturn
  exact fillSlot_accepts hfill hpk

lemma trySign_accepts {kp : Keypair E} {r : Except SignTransactionError Unit}
    (h : tx.trySign kp = .ok (r, tx')) (hpk : kp.pubkey ∈ required tx.message) : r = .ok () := by
  obtain ⟨mb, -, h⟩ := bind_eq_ok.mp h
  obtain ⟨⟨r', sigs⟩, hfill, hreturn⟩ := bind_eq_ok.mp h
  cases hreturn
  exact fillSlot_accepts hfill hpk

/-! ### Authorization -/

/-- What is signed with the recovered scalar verifies for its public point. -/
lemma verifies_signWithRecoveredKey {hashPrefix : List.Vector UInt8 32} {t : Scalar}
    (h : signWithRecoveredKey E hashPrefix t mb = .ok sig) :
    Verifies E (toPubkey E (E.mulBase t)) mb sig := by
  obtain ⟨sig', hsig, heq⟩ := signWithRecoveredKey_equation E hashPrefix t mb
  rw [h] at hsig
  cases hsig
  exact ⟨_, fromBytes_compress E _, (verify_iff E _ _ _).mpr heq⟩

variable {texts : HostTexts} {args : Args} {t : Scalar} {tr : Trace}

lemma signOneTime_ok (h : Ends (signOneTime texts E args t) tr (.ok tx')) :
    ∃ tx mb sig, VersionedTransaction.tryFromBase64 args.transactionBase64 = .ok tx ∧
      tx.messageBytes = .ok mb ∧ Verifies E (toPubkey E (E.mulBase t)) mb sig ∧
      SlotFilled tx tx' (toPubkey E (E.mulBase t)) sig := by
  obtain ⟨tx, hparse, h⟩ := ends_orExit_bind_ok_iff.mp h
  obtain ⟨mb, hmb, h⟩ := ends_orPanic_bind_ok_iff.mp h
  obtain ⟨hashPrefix, tr₁, -, h⟩ := ends_stdCall_bind_ok_iff.mp h
  obtain ⟨sig, hsig, h⟩ := ends_orExit_bind_ok_iff.mp h
  obtain ⟨⟨r, tx₁⟩, hinsert, h⟩ := ends_orPanic_bind_ok_iff.mp h
  obtain ⟨⟨⟩, hr, h⟩ := ends_orExit_bind_ok_iff.mp h
  obtain ⟨-, tr₂, -, h⟩ := ends_stdCall_bind_ok_iff.mp h
  cases (Script.ends_pure_iff.mp h).2
  rw [hr] at hinsert
  exact ⟨tx, mb, sig, hparse, hmb, verifies_signWithRecoveredKey hsig,
    filled_of_insertSignature hinsert⟩

lemma signAuthority_ok (h : Ends (signAuthority texts E args tx) tr (.ok tx'))
    (hmb : tx.messageBytes = .ok mb) : ∃ kp : Keypair E,
      LoadedFrom texts E tr args.nonceAuthorityKeypairPath kp ∧
      SlotFilled tx tx' kp.pubkey (kp.signMessage mb) := by
  rcases Script.ends_bind_iff.mp h with ⟨e, -, h⟩ | ⟨tr₁, r, tr₂, hload, h, htr⟩
  · cases h
  obtain ⟨kp, hkp, h⟩ := ends_orExit_bind_ok_iff.mp h
  obtain ⟨⟨r, tx₁⟩, hsign, h⟩ := ends_orPanic_bind_ok_iff.mp h
  obtain ⟨⟨⟩, hr, h⟩ := ends_orExit_bind_ok_iff.mp h
  cases (Script.ends_pure_iff.mp h).2
  rw [hr] at hsign
  rw [hkp] at hload
  obtain ⟨contents, bytes, hread, hbytes⟩ := loadKeypairFile_ok _ _ hload
  rw [htr]
  exact ⟨kp, ⟨contents, bytes, List.mem_append_left _ hread, hbytes⟩, filled_of_trySign hmb hsign⟩

variable (texts) in
/-- The prompt was answered in this run with a text for this scalar. -/
def Typed (tr : Trace) (label : String) (x : Scalar) : Prop :=
  ∃ line, ⟨.promptPassword label, .ok line⟩ ∈ tr ∧
    ScalarHex.scalarFromHex texts.hexError (trim line) = .ok x

lemma Typed.mono {tr tr' : Trace} {label : String} {x : Scalar} (h : Typed texts tr label x)
    (hsub : tr ⊆ tr') : Typed texts tr' label x := by
  obtain ⟨line, hline, hx⟩ := h
  exact ⟨line, hsub hline, hx⟩

variable [DecidableEq P]

variable (E texts) in
/-- What stands behind a signed transaction: the one-time key comes from what was typed, the
authority's from the file that was named, and the message is the given one, signed by both. -/
structure AuthorizedBy (tr : Trace) (args : Args) (tx tx₀ : VersionedTransaction) (mb : Bytes)
    (v s t : Scalar) (kp : Keypair E) : Prop where
  arguments : ∃ argv, ⟨.std .args, .ok argv⟩ ∈ tr ∧ parseArgs texts argv = .ok args
  parsed : VersionedTransaction.tryFromBase64 args.transactionBase64 = .ok tx₀
  message : tx.message = tx₀.message
  slots : tx.signatures.length = tx₀.signatures.length
  bytes : tx.messageBytes = .ok mb
  scan : Typed texts tr "scan_privkey (hex, hidden): " v
  spend : Typed texts tr "spend_privkey (hex, hidden): " s
  recovered : recoverOneTimePrivkey E v args.ephemeralPubkey s = .ok t
  loaded : LoadedFrom texts E tr args.nonceAuthorityKeypairPath kp
  oneTime : SlotVerifies E (required tx.message) tx.signatures mb (toPubkey E (E.mulBase t))
  authority : SlotVerifies E (required tx.message) tx.signatures mb kp.pubkey
  frame : ∀ i : ℕ, (required tx.message)[i]? ≠ some (toPubkey E (E.mulBase t)) →
    (required tx.message)[i]? ≠ some kp.pubkey → tx.signatures[i]? = tx₀.signatures[i]?

variable (E texts) in
def Authorized (tr : Trace) (args : Args) (tx : VersionedTransaction) : Prop :=
  ∃ tx₀ mb v s t kp, AuthorizedBy E texts tr args tx tx₀ mb v s t kp

lemma Authorized.short (h : Authorized E texts tr args tx) : Short tx := by
  obtain ⟨tx₀, mb, v, s, t, kp, h⟩ := h
  have hshort := short_of_tryFromBase64 h.parsed
  exact ⟨h.slots ▸ hshort.signatures, h.message ▸ hshort.message⟩

lemma Authorized.mono {tr tr' : Trace} (h : Authorized E texts tr args tx) (hsub : tr ⊆ tr') :
    Authorized E texts tr' args tx := by
  obtain ⟨tx₀, mb, v, s, t, kp, h⟩ := h
  obtain ⟨argv, hargv, hargs⟩ := h.arguments
  exact ⟨tx₀, mb, v, s, t, kp, { h with
    arguments := ⟨argv, hsub hargv, hargs⟩
    scan := h.scan.mono hsub
    spend := h.spend.mono hsub
    loaded := h.loaded.mono hsub }⟩

lemma recoverKey_ok (h : Ends (recoverKey texts E args) tr (.ok t)) :
    ∃ v s, Typed texts tr "scan_privkey (hex, hidden): " v ∧
      Typed texts tr "spend_privkey (hex, hidden): " s ∧
      recoverOneTimePrivkey E v args.ephemeralPubkey s = .ok t := by
  obtain ⟨r₁, tr₁, htr, h⟩ := Script.ends_ask_bind_iff.mp h
  obtain ⟨line₁, hline₁, h⟩ := ends_orExit_bind_ok_iff.mp h
  obtain ⟨r₂, tr₂, htr₁, h⟩ := Script.ends_ask_bind_iff.mp h
  obtain ⟨line₂, hline₂, h⟩ := ends_orExit_bind_ok_iff.mp h
  obtain ⟨v, hv, h⟩ := ends_orExit_bind_ok_iff.mp h
  obtain ⟨s, hs, h⟩ := ends_orExit_bind_ok_iff.mp h
  have ht := (ends_orExit_ok_iff.mp h).1
  rw [htr, htr₁, hline₁, hline₂]
  exact ⟨v, s, ⟨line₁, List.mem_cons_self, hv⟩,
    ⟨line₂, List.mem_cons_of_mem _ List.mem_cons_self, hs⟩, ht⟩

lemma authorize_ok (h : Ends (authorize texts E) tr (.ok (args, tx))) :
    Authorized E texts tr args tx := by
  obtain ⟨argv, tr₁, htr, h⟩ := ends_stdCall_bind_ok_iff.mp h
  obtain ⟨args', hargs, h⟩ := ends_orExit_bind_ok_iff.mp h
  rcases Script.ends_bind_iff.mp h with ⟨e, -, h⟩ | ⟨tr₂, t, tr₃, ht, h, htr₁⟩
  · cases h
  rcases Script.ends_bind_iff.mp h with ⟨e, -, h⟩ | ⟨tr₄, tx₁, tr₅, hone, h, htr₃⟩
  · cases h
  rcases Script.ends_bind_iff.mp h with ⟨e, -, h⟩ | ⟨tr₆, tx₂, tr₇, hauthority, h, htr₅⟩
  · cases h
  cases (Script.ends_pure_iff.mp h).2
  obtain ⟨v, s, hv, hs, hrecover⟩ := recoverKey_ok ht
  obtain ⟨tx₀, mb, sig, hparse, hmb, hverifies, hfirst⟩ := signOneTime_ok hone
  have hmb₁ : tx₁.messageBytes = .ok mb := by
    rw [VersionedTransaction.messageBytes, hfirst.message]
    exact hmb
  obtain ⟨kp, hkp, hsecond⟩ := signAuthority_ok hauthority hmb₁
  have hkpv := verifies_signMessage kp mb
  have hsub₂ : tr₂ ⊆ tr := by
    rw [htr, htr₁]
    exact List.subset_cons_of_subset _ (List.subset_append_left _ _)
  have hsub₆ : tr₆ ⊆ tr := by
    rw [htr, htr₁, htr₃, htr₅]
    exact List.subset_cons_of_subset _ (List.subset_append_of_subset_right _
      (List.subset_append_of_subset_right _ (List.subset_append_left _ _)))
  have hmessage : tx.message = tx₀.message := hsecond.message.trans hfirst.message
  exact ⟨tx₀, mb, v, s, t, kp,
    { arguments := ⟨argv, htr ▸ List.mem_cons_self, hargs⟩
      parsed := hparse
      message := hmessage
      slots := hsecond.length.trans hfirst.length
      bytes := by
        rw [VersionedTransaction.messageBytes, hmessage]
        exact hmb
      scan := hv.mono hsub₂
      spend := hs.mono hsub₂
      recovered := hrecover
      loaded := hkp.mono hsub₆
      oneTime := by
        rw [hsecond.message]
        refine hsecond.keeps hkpv ?_
        rw [hfirst.message]
        exact hfirst.slot hverifies
      authority := by
        rw [hsecond.message]
        exact hsecond.slot hkpv
      frame := fun i hi hi' => by
        rw [hmessage] at hi
        rw [hsecond.message] at hi'
        rw [hsecond.frame hi', hfirst.frame hi] }⟩

omit [DecidableEq P] in
lemma only_signOneTime : Only Effect.Local (signOneTime texts E args t) := by
  refine only_orExit_bind fun tx => ?_
  refine only_orPanic_bind fun mb => ?_
  refine only_stdCall_bind fun hashPrefix => ?_
  refine only_orExit_bind fun sig => ?_
  refine only_orPanic_bind fun r => ?_
  refine only_orExit_bind fun _ => ?_
  refine only_stdCall_bind fun _ => ?_
  exact Script.only_pure _

omit [DecidableEq P] in
lemma only_signAuthority : Only Effect.Local (signAuthority texts E args tx) := by
  refine Script.only_bind (only_loadKeypairFile _ _ _) fun kp => ?_
  refine only_orExit_bind fun kp => ?_
  refine only_orPanic_bind fun r => ?_
  refine only_orExit_bind fun _ => ?_
  exact Script.only_pure _

lemma only_recoverKey : Only Effect.Local (recoverKey texts E args) := by
  refine only_ask_bind trivial fun r => ?_
  refine only_orExit_bind fun line => ?_
  refine only_ask_bind trivial fun r => ?_
  refine only_orExit_bind fun line => ?_
  refine only_orExit_bind fun v => ?_
  refine only_orExit_bind fun s => ?_
  exact only_orExit

lemma only_authorize : Only Effect.Local (authorize texts E) := by
  refine only_stdCall_bind fun argv => ?_
  refine only_orExit_bind fun args => ?_
  refine Script.only_bind only_recoverKey fun t => ?_
  refine Script.only_bind only_signOneTime fun tx => ?_
  refine Script.only_bind only_signAuthority fun tx => ?_
  exact Script.only_pure _

/-! ### Where authorization stops -/

section
variable {answered : Event Effect Effect.Answer → Prop} {reason : Stop → Prop}

variable (texts answered) in
/-- The prompt, whenever it is answered, is answered with a text for this scalar. -/
def Answers (label : String) (x : Scalar) : Prop :=
  ∀ r, answered ⟨.promptPassword label, r⟩ → ∃ line, r = .ok line ∧
    ScalarHex.scalarFromHex texts.hexError (trim line) = .ok x

lemma Answers.line {label : String} {x : Scalar} {r : Except String String}
    (h : Answers texts answered label x) (hr : answered ⟨.promptPassword label, r⟩) :
    ∃ line, r = .ok line := by
  obtain ⟨line, hline, -⟩ := h r hr
  exact ⟨line, hline⟩

lemma Answers.scalar {label line : String} {x : Scalar} (h : Answers texts answered label x)
    (hline : answered ⟨.promptPassword label, .ok line⟩) :
    ScalarHex.scalarFromHex texts.hexError (trim line) = .ok x := by
  obtain ⟨line', hline', hx⟩ := h _ hline
  rw [Except.ok.inj hline']
  exact hx

lemma stops_recoverKey (hstd : StdStops answered reason) (h : reason (.exit .failure) ∨ ∃ v s t,
      Answers texts answered "scan_privkey (hex, hidden): " v ∧
      Answers texts answered "spend_privkey (hex, hidden): " s ∧
      recoverOneTimePrivkey E v args.ephemeralPubkey s = .ok t) :
    Stops answered reason (recoverKey texts E args) := by
  refine Script.stops_ask_bind fun r₁ hr₁ => ?_
  have hread₁ := h.imp_right fun ⟨_, _, _, hv, _, _⟩ => hv.line hr₁
  refine stops_orExit_bind hstd hread₁ fun line₁ hline₁ => ?_
  subst hline₁
  refine Script.stops_ask_bind fun r₂ hr₂ => ?_
  have hread₂ := h.imp_right fun ⟨_, _, _, _, hs, _⟩ => hs.line hr₂
  refine stops_orExit_bind hstd hread₂ fun line₂ hline₂ => ?_
  subst hline₂
  have hscan := h.imp_right fun ⟨v, _, _, hv, _, _⟩ => Exists.intro v (hv.scalar hr₁)
  refine stops_orExit_bind hstd hscan fun v hv => ?_
  have hspend := h.imp_right fun ⟨_, s, _, _, hs, _⟩ => Exists.intro s (hs.scalar hr₂)
  refine stops_orExit_bind hstd hspend fun s hs => ?_
  have hrecover : reason (.exit .failure) ∨
      ∃ t, recoverOneTimePrivkey E v args.ephemeralPubkey s = .ok t := by
    refine h.imp_right fun ⟨v', s', t, hv', hs', ht⟩ => ⟨t, ?_⟩
    obtain rfl := Except.ok.inj (hv.symm.trans (hv'.scalar hr₁))
    obtain rfl := Except.ok.inj (hs.symm.trans (hs'.scalar hr₂))
    exact ht
  exact stops_orExit hstd hrecover

omit [DecidableEq P] in
lemma stops_signOneTime (hstd : StdStops answered reason)
    (hparse : reason (.exit .failure) ∨
      ∃ tx, VersionedTransaction.tryFromBase64 args.transactionBase64 = .ok tx)
    (hsigner : reason (.exit .failure) ∨
      ∀ tx, VersionedTransaction.tryFromBase64 args.transactionBase64 = .ok tx →
        toPubkey E (E.mulBase t) ∈ required tx.message)
    (hslots : (∀ p, reason (.panic p)) ∨
      ∀ tx, VersionedTransaction.tryFromBase64 args.transactionBase64 = .ok tx → SlotsCover tx) :
    Stops answered reason (signOneTime texts E args t) := by
  refine stops_orExit_bind hstd hparse fun tx htx => ?_
  have hmb : Returns tx.messageBytesToSign :=
    (returns_messageBytes_iff tx).mpr (short_of_tryFromBase64 htx).message
  refine stops_orPanic_bind (.inr hmb) fun mb _ => ?_
  refine stops_stdCall_bind hstd fun hashPrefix _ => ?_
  obtain ⟨sig, hsig, -⟩ := signWithRecoveredKey_equation E hashPrefix t mb
  refine stops_orExit_bind hstd (.inr ⟨sig, hsig⟩) fun sig _ => ?_
  have hreturns := hslots.imp_right fun h =>
    returns_insertSignature (h tx htx) (toPubkey E (E.mulBase t)) sig
  refine stops_orPanic_bind hreturns fun ⟨r, tx'⟩ hr => ?_
  have haccepts : reason (.exit .failure) ∨ ∃ u, r = .ok u :=
    hsigner.imp_right fun h => ⟨(), insertSignature_accepts hr (h tx htx)⟩
  refine stops_orExit_bind hstd haccepts fun _ _ => ?_
  exact stops_stdCall_bind hstd fun _ _ => Script.stops_pure _

omit [DecidableEq P] in
lemma stops_signAuthority (hstd : StdStops answered reason) (hmb : tx.messageBytes = .ok mb)
    (h : reason (.exit .failure) ∨ ∃ kp : Keypair E,
      FileHolds texts E answered args.nonceAuthorityKeypairPath kp ∧
      kp.pubkey ∈ required tx.message)
    (hslots : (∀ p, reason (.panic p)) ∨ SlotsCover tx) :
    Stops answered reason (signAuthority texts E args tx) := by
  refine Script.stops_bind (stops_loadKeypairFile _ _ _) fun tr r hload hanswered => ?_
  replace h : reason (.exit .failure) ∨ ∃ kp : Keypair E, r = .ok kp ∧
      kp.pubkey ∈ required tx.message :=
    h.imp_right fun ⟨kp, hfile, hkp⟩ => ⟨kp, hfile.loaded _ _ hload hanswered, hkp⟩
  have hloaded := h.imp_right fun ⟨kp, hr, _⟩ => Exists.intro kp hr
  refine stops_orExit_bind hstd hloaded fun kp hkp => ?_
  have hreturns := hslots.imp_right fun h => returns_trySign h hmb kp
  refine stops_orPanic_bind hreturns fun ⟨r', tx'⟩ hr => ?_
  have haccepts : reason (.exit .failure) ∨ ∃ u, r' = .ok u := by
    refine h.imp_right fun ⟨kp', hkp', hmem⟩ => ⟨(), trySign_accepts hr ?_⟩
    obtain rfl := Except.ok.inj (hkp.symm.trans hkp')
    exact hmem
  exact stops_orExit_bind hstd haccepts fun _ _ => Script.stops_pure _

variable (E texts answered) in
/-- Nothing is missing of what the program needs: its arguments parse, the transaction among them
has a slot for each required key, both keys can be had and are required. -/
structure Prepared (args : Args) (tx : VersionedTransaction) (v s t : Scalar) (kp : Keypair E) :
    Prop where
  arguments : ∀ argv, answered ⟨.std .args, .ok argv⟩ → parseArgs texts argv = .ok args
  scan : Answers texts answered "scan_privkey (hex, hidden): " v
  spend : Answers texts answered "spend_privkey (hex, hidden): " s
  file : FileHolds texts E answered args.nonceAuthorityKeypairPath kp
  recovered : recoverOneTimePrivkey E v args.ephemeralPubkey s = .ok t
  parsed : VersionedTransaction.tryFromBase64 args.transactionBase64 = .ok tx
  oneTime : toPubkey E (E.mulBase t) ∈ required tx.message
  authority : kp.pubkey ∈ required tx.message

variable (texts) in
/-- If this gives the program a transaction, it has a slot for each required key. -/
def GivenCovers (ev : Event Effect Effect.Answer) : Prop :=
  ∀ argv args tx, ev = ⟨.std .args, .ok argv⟩ → parseArgs texts argv = .ok args →
    VersionedTransaction.tryFromBase64 args.transactionBase64 = .ok tx → SlotsCover tx

lemma Answers.typed_eq {label : String} {x y : Scalar} (h : Answers texts answered label x)
    (htyped : Typed texts tr label y) (hanswered : ∀ ev ∈ tr, answered ev) : y = x := by
  obtain ⟨line, hline, hy⟩ := htyped
  obtain ⟨line', hline', hx⟩ := h _ (hanswered _ hline)
  cases hline'
  exact Except.ok.inj (hy.symm.trans hx)

/-- **Where authorization stops.** It fails only where something is missing, and panics only where
the given transaction lacks a slot or the machine refuses a call. -/
lemma stops_authorize (hstd : StdStops answered reason)
    (h : reason (.exit .failure) ∨ ∃ args tx v s t kp, Prepared E texts answered args tx v s t kp)
    (hslots : (∀ p, reason (.panic p)) ∨ ∀ ev, answered ev → GivenCovers texts ev) :
    Stops answered reason (authorize texts E) := by
  refine stops_stdCall_bind hstd fun argv hargv => ?_
  refine stops_orExit_bind hstd (h.imp_right fun ⟨args, tx, v, s, t, kp, h⟩ =>
    ⟨args, h.arguments argv hargv⟩) fun args hargs => ?_
  replace hslots := hslots.imp_right fun h tx => h _ hargv argv args tx rfl hargs
  replace h : reason (.exit .failure) ∨ ∃ tx v s t kp,
      Prepared E texts answered args tx v s t kp := by
    refine h.imp_right fun ⟨args', tx, v, s, t, kp, h⟩ => ?_
    obtain rfl := Except.ok.inj (hargs.symm.trans (h.arguments argv hargv))
    exact ⟨tx, v, s, t, kp, h⟩
  refine Script.stops_bind (stops_recoverKey hstd (h.imp_right fun ⟨tx, v, s, t, kp, h⟩ =>
    ⟨v, s, t, h.scan, h.spend, h.recovered⟩)) fun tr t ht hanswered => ?_
  obtain ⟨v, s, hv, hs, hrecover⟩ := recoverKey_ok ht
  replace h : reason (.exit .failure) ∨ ∃ tx kp,
      Prepared E texts answered args tx v s t kp := by
    refine h.imp_right fun ⟨tx, v', s', t', kp, h⟩ => ?_
    obtain rfl := h.scan.typed_eq hv hanswered
    obtain rfl := h.spend.typed_eq hs hanswered
    obtain rfl := Except.ok.inj (hrecover.symm.trans h.recovered)
    exact ⟨tx, kp, h⟩
  have hsigner : reason (.exit .failure) ∨
      ∀ tx, VersionedTransaction.tryFromBase64 args.transactionBase64 = .ok tx →
        toPubkey E (E.mulBase t) ∈ required tx.message := by
    refine h.imp_right fun ⟨tx', kp, h⟩ tx htx => ?_
    obtain rfl := Except.ok.inj (htx.symm.trans h.parsed)
    exact h.oneTime
  refine Script.stops_bind (stops_signOneTime hstd (h.imp_right fun ⟨tx, kp, h⟩ => ⟨tx, h.parsed⟩)
    hsigner hslots) fun tr₁ tx₁ hone _ => ?_
  obtain ⟨tx, mb, sig, hparse, hmb, -, hfilled⟩ := signOneTime_ok hone
  rw [VersionedTransaction.messageBytes, ← hfilled.message] at hmb
  refine Script.stops_bind (stops_signAuthority hstd hmb (h.imp_right fun ⟨tx', kp, h⟩ => ?_)
    (hslots.imp_right fun h => hfilled.slotsCover (h tx hparse))) fun _ _ _ _ => Script.stops_pure _
  obtain rfl := Except.ok.inj (hparse.symm.trans h.parsed)
  exact ⟨kp, h.file, hfilled.message ▸ h.authority⟩

/-- What a run has authorized is what was prepared. -/
lemma Prepared.agrees {args' : Args} {tx₀ tx₀' : VersionedTransaction} {v v' s s' t' : Scalar}
    {kp kp' : Keypair E} (h : Prepared E texts answered args tx₀ v s t kp)
    (hby : AuthorizedBy E texts tr args' tx tx₀' mb v' s' t' kp')
    (hanswered : ∀ ev ∈ tr, answered ev) :
    args' = args ∧ tx₀' = tx₀ ∧ t' = t ∧ kp' = kp := by
  obtain ⟨argv, hargv, hargs⟩ := hby.arguments
  obtain rfl := Except.ok.inj (hargs.symm.trans (h.arguments argv (hanswered _ hargv)))
  obtain rfl := h.scan.typed_eq hby.scan hanswered
  obtain rfl := h.spend.typed_eq hby.spend hanswered
  obtain ⟨contents, bytes, hread, hbytes, hkp⟩ := hby.loaded
  obtain ⟨contents', bytes', hread', hbytes', hkp'⟩ := h.file _ (hanswered _ hread)
  obtain rfl := Except.ok.inj hread'
  obtain rfl := Except.ok.inj (hbytes.symm.trans hbytes')
  exact ⟨rfl, Except.ok.inj (hby.parsed.symm.trans h.parsed),
    Except.ok.inj (hby.recovered.symm.trans h.recovered), Except.ok.inj (hkp.symm.trans hkp')⟩

end

/-! ### Broadcast -/

def simulation (args : Args) (text : String) (r : Except RpcError Json.Value) : Exchange :=
  ⟨args.rpcUrl, (Method.simulateTransaction text).request 1, r⟩

def submission (args : Args) (text : String) (r : Except RpcError Json.Value) : Exchange :=
  ⟨args.rpcUrl, (Method.sendTransaction text).request 2, r⟩

variable (texts) in
/-- What the program makes of the response to its simulation. -/
def simulated (text : String) (r : Except RpcError Json.Value) :
    Except RpcError SimulateTransactionResult :=
  (Method.simulateTransaction text).answer texts.toTextForms r

variable (texts) in
/-- What the program makes of the response to its submission. -/
def submitted (text : String) (r : Except RpcError Json.Value) : Except RpcError String :=
  (Method.sendTransaction text).answer texts.toTextForms r

variable (texts) in
/-- How the last part of the program can go, as the network and the operator see it. -/
inductive BroadcastEnds (args : Args) (text : String) :
    List Exchange → List String → ExitCode → Prop
  | unanswered (r : Except RpcError Json.Value) (e : RpcError)
      (h : simulated texts text r = .error e) :
      BroadcastEnds args text [simulation args text r] [] .failure
  | failed (r : Except RpcError Json.Value) (s : SimulateTransactionResult) (err : Json.Value)
      (h : simulated texts text r = .ok s) (herr : s.err = some err) :
      BroadcastEnds args text [simulation args text r] [] .failure
  | unread (r : Except RpcError Json.Value) (s : SimulateTransactionResult)
      (h : simulated texts text r = .ok s) (herr : s.err = none) :
      BroadcastEnds args text [simulation args text r] [] .failure
  | declined (r : Except RpcError Json.Value) (s : SimulateTransactionResult) (line : String)
      (h : simulated texts text r = .ok s) (herr : s.err = none) (hline : trim line ≠ "yes") :
      BroadcastEnds args text [simulation args text r] [line] .success
  | sent (r r' : Except RpcError Json.Value) (s : SimulateTransactionResult)
      (line signature : String) (h : simulated texts text r = .ok s) (herr : s.err = none)
      (hline : trim line = "yes") (h' : submitted texts text r' = .ok signature) :
      BroadcastEnds args text [simulation args text r, submission args text r'] [line] .success
  | refused (r r' : Except RpcError Json.Value) (s : SimulateTransactionResult) (line : String)
      (e : RpcError) (h : simulated texts text r = .ok s) (herr : s.err = none)
      (hline : trim line = "yes") (h' : submitted texts text r' = .error e) :
      BroadcastEnds args text [simulation args text r, submission args text r'] [line] .failure

/-- Announcing a signature prints, and does nothing else. -/
lemma prints_announce (signature : String) : Prints (announce args signature) := by
  refine prints_of_stops ?_ fun answered reason hstd => ?_
  · refine only_stdCall_bind fun _ => ?_
    split_ifs
    · exact only_stdCall
    · exact Script.only_pure _
  · refine stops_stdCall_bind hstd fun _ _ => ?_
    split_ifs
    · exact stops_stdCall hstd
    · exact Script.stops_pure _

variable {text : String} {o : Except Stop ExitCode}

/-- A submission is one exchange, and its answer decides the exit code. -/
lemma submit_ends (htext : tx.toBase64 = .ok text)
    (h : Ends (submit texts args tx ⟨args.rpcUrl, 2⟩) tr o) :
    ∃ r code, exchanges tr = [submission args text r] ∧ linesRead tr = [] ∧ Leaves tr o code ∧
      ((∃ signature, submitted texts text r = .ok signature ∧ code = .success) ∨
        ∃ e, submitted texts text r = .error e ∧ code = .failure) := by
  rw [submit, htext, orPanic, pure_bind] at h
  obtain ⟨r, tr₁, htr, h⟩ := ends_call_bind_iff.mp h
  have hsub : tr₁ ⊆ tr := htr ▸ List.subset_cons_self _ _
  rw [htr, exchanges_send_cons, linesRead_send_cons, ← htr]
  cases hsubmitted : submitted texts text r with
  | ok signature =>
    rw [submitted] at hsubmitted
    simp only [hsubmitted] at h
    obtain ⟨hquiet, hleaves⟩ := (prints_announce signature).leaves h
    rw [hquiet.seen.1, hquiet.seen.2]
    exact ⟨r, .success, rfl, rfl, hleaves.mono hsub, .inl ⟨signature, hsubmitted, rfl⟩⟩
  | error e =>
    rw [submitted] at hsubmitted
    simp only [hsubmitted] at h
    obtain ⟨hquiet, hleaves⟩ := (prints_line _ _).leaves h
    rw [hquiet.seen.1, hquiet.seen.2]
    exact ⟨r, .failure, rfl, rfl, hleaves.mono hsub, .inr ⟨e, hsubmitted, rfl⟩⟩

/-- After a simulation that succeeded, the operator decides. -/
lemma confirm_ends {r : Except RpcError Json.Value} {s : SimulateTransactionResult}
    (htext : tx.toBase64 = .ok text) (hs : simulated texts text r = .ok s) (herr : s.err = none)
    (h : Ends (confirm texts args tx s ⟨args.rpcUrl, 2⟩) tr o) : ∃ code, Leaves tr o code ∧
      BroadcastEnds texts args text (simulation args text r :: exchanges tr) (linesRead tr)
        code := by
  have hunread : BroadcastEnds texts args text [simulation args text r] [] .failure :=
    .unread r s hs herr
  rcases (prints_line _ _).ends_bind h with ⟨tr₁, hquiet, h⟩ | ⟨hquiet, hpanics⟩
  · have hsub := hquiet.subset
    rw [hquiet.seen.1, hquiet.seen.2]
    rcases ends_promptLine_bind h with ⟨hquiet, hpanics⟩ | ⟨line, tr₂, h, hsub₂, hex, hline⟩
    · rw [hquiet.seen.1, hquiet.seen.2]
      exact ⟨.failure, .inr (hpanics.mono hsub), hunread⟩
    replace hsub : tr₂ ⊆ tr := fun ev hev => hsub (hsub₂ hev)
    rw [hex]
    rcases hline with ⟨e, rfl, hread⟩ | ⟨raw, rfl, hread⟩
    · rcases ends_orExit_bind h with ⟨l, hl, -⟩ | ⟨e', -, hquiet, hleaves⟩
      · cases hl
      · rw [hread, hquiet.seen.1, hquiet.seen.2]
        exact ⟨.failure, hleaves.mono hsub, hunread⟩
    · rw [hread]
      obtain ⟨l, hl, h⟩ | ⟨e', he', -⟩ := ends_orExit_bind h
      · obtain rfl := Except.ok.inj hl
        split_ifs at h with hyes
        · obtain ⟨hquiet, hleaves⟩ := (prints_line _ _).leaves h
          rw [hquiet.seen.1, hquiet.seen.2]
          exact ⟨.success, hleaves.mono hsub, .declined r s raw hs herr hyes⟩
        · obtain ⟨r', code, hex, hnone, hleaves, hcode⟩ := submit_ends htext h
          rw [hex, hnone]
          refine ⟨code, hleaves.mono hsub, ?_⟩
          rcases hcode with ⟨signature, hsubmitted, rfl⟩ | ⟨e, hsubmitted, rfl⟩
          · exact .sent r r' s raw signature hs herr (not_not.mp hyes) hsubmitted
          · exact .refused r r' s raw e hs herr (not_not.mp hyes) hsubmitted
      · cases he'
  · rw [hquiet.seen.1, hquiet.seen.2]
    exact ⟨.failure, .inr hpanics, hunread⟩

lemma broadcast_ends (htext : tx.toBase64 = .ok text)
    (h : Ends (broadcast texts args tx) tr o) :
    (Quiet tr [] ∧ StdPanics tr o) ∨ ∃ code, Leaves tr o code ∧
      BroadcastEnds texts args text (exchanges tr) (linesRead tr) code := by
  rw [broadcast, htext] at h
  simp only [orPanic, pure_bind] at h
  rcases (prints_line _ _).ends_bind h with ⟨tr₁, hquiet₁, h⟩ | h
  · rcases (prints_line _ _).ends_bind h with ⟨tr₂, hquiet₂, h⟩ | ⟨hquiet, hpanics⟩
    · refine .inr ?_
      obtain ⟨r, tr₃, htr₂, h⟩ := ends_call_bind_iff.mp h
      have hsub : tr₃ ⊆ tr := fun ev hev =>
        hquiet₁.subset (hquiet₂.subset (htr₂ ▸ List.mem_cons_of_mem _ hev))
      have hexchanges : exchanges tr = simulation args text r :: exchanges tr₃ := by
        rw [hquiet₁.seen.1, hquiet₂.seen.1, htr₂]
        rfl
      have hlines : linesRead tr = linesRead tr₃ := by
        rw [hquiet₁.seen.2, hquiet₂.seen.2, htr₂]
        rfl
      rw [hexchanges, hlines]
      rcases ends_orExit_bind h with ⟨s, hs, h⟩ | ⟨e, he, hquiet, hleaves⟩
      · cases herr : s.err with
        | some err =>
          simp only [herr] at h
          obtain ⟨hquiet, hleaves⟩ := (prints_line _ _).leaves_bind (fun _ h =>
            (prints_printAll _ _).leaves_bind (fun _ h => (prints_line _ _).leaves h) h) h
          rw [hquiet.seen.1, hquiet.seen.2]
          exact ⟨.failure, hleaves.mono hsub, .failed r s err hs herr⟩
        | none =>
          simp only [herr] at h
          obtain ⟨code, hleaves, hends⟩ := confirm_ends htext hs herr h
          exact ⟨code, hleaves.mono hsub, hends⟩
      · rw [hquiet.seen.1, hquiet.seen.2]
        exact ⟨.failure, hleaves.mono hsub, .unanswered r e he⟩
    · exact .inl ⟨hquiet₁.trans hquiet, hpanics.mono hquiet₁.subset⟩
  · exact .inl h

/-! ### Whole runs -/

/-- What was authorized has a text that is read back, and the network sees no more than that. -/
lemma broadcast_of_authorized {tr₁ tr₂ : Trace} (h₁ : Ends (authorize texts E) tr₁ (.ok (args, tx)))
    (h₂ : Ends (broadcast texts args tx) tr₂ o) (htr : tr = tr₁ ++ tr₂) :
    (Quiet tr [] ∧ StdPanics tr o) ∨ ∃ text code,
      VersionedTransaction.tryFromBase64 text = .ok tx ∧ Leaves tr o code ∧
      BroadcastEnds texts args text (exchanges tr) (linesRead tr) code := by
  have hquiet : Quiet tr tr₂ := ⟨tr₁, htr, h₁.only only_authorize⟩
  obtain ⟨text, htext⟩ := (returns_toBase64_iff tx).mpr
    ((returns_serialize_iff tx).mpr (authorize_ok h₁).short)
  rcases broadcast_ends htext h₂ with ⟨hquiet', hpanics⟩ | ⟨code, hleaves, hbroadcast⟩
  · exact .inl ⟨hquiet.trans hquiet', hpanics.mono hquiet.subset⟩
  · refine .inr ⟨text, code, tryFromBase64_toBase64 htext, hleaves.mono hquiet.subset, ?_⟩
    rw [hquiet.seen.1, hquiet.seen.2]
    exact hbroadcast

variable (E texts) in
/-- What a run comes to: it has stopped before anything reached the network, or it has signed, and
what it sends is the signed transaction. -/
inductive Outcome (tr : Trace) (o : Except Stop ExitCode) : Prop
  | stopped (e : Stop) (ho : o = .error e) (hcode : e ≠ .exit .success)
      (hexchanges : exchanges tr = []) (hlines : linesRead tr = [])
      (hpanic : ∀ p, e = .panic p → ∃ argv args tx, ⟨.std .args, .ok argv⟩ ∈ tr ∧
        parseArgs texts argv = .ok args ∧
        VersionedTransaction.tryFromBase64 args.transactionBase64 = .ok tx ∧ ¬SlotsCover tx)
      (hstd : ∀ c text, e = .stdPanic c text → ⟨.std c, .error text⟩ ∈ tr)
  | signed (args : Args) (tx : VersionedTransaction) (text : String) (code : ExitCode)
      (hauthorized : Authorized E texts tr args tx)
      (htext : VersionedTransaction.tryFromBase64 text = .ok tx) (hleaves : Leaves tr o code)
      (hbroadcast : BroadcastEnds texts args text (exchanges tr) (linesRead tr) code)

/-- **Every run of the sweep signer.** Nothing reaches the network that is not the transaction
signed in this run by the typed keys and the file's; it is simulated first and submitted at most
once, when the simulation reports no error and the operator agrees. The run panics for want of a
slot, before anything is sent, or where the machine refuses a call, which may be at any time. -/
theorem run_outcome (h : Ends (main texts E) tr o) : Outcome E texts tr o := by
  rcases Script.ends_bind_iff.mp h with ⟨e, h, ho⟩ | ⟨tr₁, ⟨args, tx⟩, tr₂, h₁, h₂, htr⟩
  · have hlocal := h.only only_authorize
    refine .stopped e ho ?_ (exchanges_of_local hlocal) (linesRead_of_local hlocal)
      (fun p he => ?_) fun c text he => ?_
    · have hstops : Stops (fun _ => True) (· ≠ .exit .success) (authorize texts E) :=
        stops_authorize (fun _ _ _ => nofun) (.inl nofun) (.inl fun _ => nofun)
      exact hstops h fun _ _ => trivial
    · by_contra hcovers
      have hstops : Stops (· ∈ tr) (∀ p, · ≠ .panic p) (authorize texts E) := by
        refine stops_authorize (fun _ _ _ _ => nofun) (.inl fun _ => nofun)
          (.inr fun ev hev argv args tx hargs hparse htx => ?_)
        by_contra hslots
        exact hcovers ⟨argv, args, tx, hargs ▸ hev, hparse, htx, hslots⟩
      exact hstops h (fun _ hev => hev) p he
    · have hstops : Stops (· ∈ tr) (fun e => ∀ c text, e = .stdPanic c text →
          ⟨.std c, .error text⟩ ∈ tr) (authorize texts E) := by
        refine stops_authorize (fun c text hev c' text' he => ?_) (.inl fun _ _ => nofun)
          (.inl fun _ _ _ => nofun)
        cases he
        exact hev
      exact hstops h (fun _ hev => hev) c text he
  · rcases broadcast_of_authorized h₁ h₂ htr with ⟨hquiet, c, text, ho, hev⟩ |
      ⟨text, code, htext, hleaves, hbroadcast⟩
    · refine .stopped _ ho nofun hquiet.seen.1 hquiet.seen.2 (fun _ => nofun)
        fun c' text' he => ?_
      cases he
      exact hev
    · exact .signed args tx text code ((authorize_ok h₁).mono (htr ▸ List.subset_append_left _ _))
        htext hleaves hbroadcast

/-- The run of a machine that gives no arguments. -/
def bareRun := (main HostTexts.sample multiples).run.runIn (table (sampleAnswer [])) ()

theorem run_outcome_bare : Outcome multiples HostTexts.sample bareRun.2.1 bareRun.1 := by
  rw [bareRun]
  exact run_outcome (runs_runIn _ _ _)

end SvmWasiCore.SweepRuns

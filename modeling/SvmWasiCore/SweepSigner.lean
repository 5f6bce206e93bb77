import SvmWasiCore.HostPrograms
import SvmWasiCore.ScalarHex
import SvmWasiCore.JsonText

/-!
The external signer of a sweep: it recovers the one-time key, signs the proposed transaction with
it and with the nonce authority, simulates it, and broadcasts it when the operator agrees.
-/

namespace SvmWasiCore.SweepSigner

open Rpc RpcAccounts RpcMethods Dalek Sign Stealth Envelope HostPrograms Lib.ByteCodec
open Lib.Interaction

/-! ### Arguments -/

structure Args where
  rpcUrl : String
  ephemeralPubkey : Pubkey
  transactionBase64 : String
  nonceAuthorityKeypairPath : String

/-- The flags read so far. -/
structure Flags where
  rpcUrl : Option String
  ephemeralPubkey : Option Pubkey
  transactionBase64 : Option String
  nonceAuthorityKeypairPath : Option String

variable (texts : HostTexts)

def setFlag (flags : Flags) (flag value : String) : Except String Flags :=
  match flag with
  | "--rpc-url" => .ok { flags with rpcUrl := some value }
  | "--ephemeral-pubkey" => do
    let pubkey ← (texts.pubkeyFromStr value).mapError fun e => s!"--ephemeral-pubkey: {e}"
    return { flags with ephemeralPubkey := some pubkey }
  | "--transaction-base64" => .ok { flags with transactionBase64 := some value }
  | "--nonce-authority-keypair" => .ok { flags with nonceAuthorityKeypairPath := some value }
  | other => .error s!"unrecognized flag {other}"

def parseArgs (argv : List String) : Except String Args := do
  let flags ← parsePairs (setFlag texts) ⟨none, none, none, none⟩ argv
  let rpcUrl ← present flags.rpcUrl "missing --rpc-url"
  let ephemeralPubkey ← present flags.ephemeralPubkey "missing --ephemeral-pubkey"
  let transactionBase64 ← present flags.transactionBase64 "missing --transaction-base64"
  let nonceAuthorityKeypairPath ← present flags.nonceAuthorityKeypairPath
    "missing --nonce-authority-keypair"
  return ⟨rpcUrl, ephemeralPubkey, transactionBase64, nonceAuthorityKeypairPath⟩

section
variable {texts : HostTexts} {argv : List String} {args : Args} {flag value : String}

variable (texts) in
/-- A flag the program knows, with a value it can read. -/
def Accepted (flag value : String) : Prop :=
  flag = "--rpc-url" ∨ flag = "--transaction-base64" ∨ flag = "--nonce-authority-keypair" ∨
    flag = "--ephemeral-pubkey" ∧ ∃ k, texts.pubkeyFromStr value = .ok k

lemma setFlag_accepts_iff (f : Flags) :
    (∃ f', setFlag texts f flag value = .ok f') ↔ Accepted texts flag value := by
  unfold setFlag Accepted
  split
  case h_2 =>
    cases texts.pubkeyFromStr value <;> simp [Except.mapError, bind, Except.bind, pure, Except.pure]
  all_goals simp_all

/-- A pair sets the field of its flag and leaves the others. -/
lemma setFlag_ok {f f' : Flags} (h : setFlag texts f flag value = .ok f') :
    (f'.rpcUrl = if flag = "--rpc-url" then some value else f.rpcUrl) ∧
    (f'.ephemeralPubkey = if flag = "--ephemeral-pubkey" then (texts.pubkeyFromStr value).toOption
      else f.ephemeralPubkey) ∧
    (f'.transactionBase64 = if flag = "--transaction-base64" then some value
      else f.transactionBase64) ∧
    (f'.nonceAuthorityKeypairPath = if flag = "--nonce-authority-keypair" then some value
      else f.nonceAuthorityKeypairPath) := by
  unfold setFlag at h
  split at h
  case h_2 =>
    obtain ⟨pubkey, hpubkey, h⟩ := bind_eq_ok.mp h
    cases h
    simp [mapError_eq_ok_iff.mp hpubkey, Except.toOption]
  case h_5 => cases h
  all_goals
    cases h
    simp

lemma present_eq_ok_iff {α : Type} {x : Option α} {msg : String} {a : α} :
    present x msg = .ok a ↔ x = some a := by
  cases x <;> simp [present]

/-- **What arguments mean.** They are accepted when they are flags the program knows, each with a
value, and each of the four flags is there; what counts is its last value. -/
theorem parseArgs_eq_ok_iff : parseArgs texts argv = .ok args ↔
    ∃ pairs, argv = flat pairs ∧ (∀ p ∈ pairs, Accepted texts p.1 p.2) ∧
      lastValue "--rpc-url" pairs = some args.rpcUrl ∧
      (∃ text, lastValue "--ephemeral-pubkey" pairs = some text ∧
        texts.pubkeyFromStr text = .ok args.ephemeralPubkey) ∧
      lastValue "--transaction-base64" pairs = some args.transactionBase64 ∧
      lastValue "--nonce-authority-keypair" pairs = some args.nonceAuthorityKeypairPath := by
  have hfields {pairs : List (String × String)} {flags : Flags}
      (h : pairs.foldlM (fun f p => setFlag texts f p.1 p.2) ⟨none, none, none, none⟩ =
        .ok flags) : flags = ⟨lastValue "--rpc-url" pairs,
          (lastValue "--ephemeral-pubkey" pairs).bind fun s => (texts.pubkeyFromStr s).toOption,
          lastValue "--transaction-base64" pairs,
          lastValue "--nonce-authority-keypair" pairs⟩ := by
    have hurl := foldlM_field _ Flags.rpcUrl some (fun f p f' hset => (setFlag_ok hset).1) rfl h
    have hpubkey := foldlM_field _ Flags.ephemeralPubkey (fun s => (texts.pubkeyFromStr s).toOption)
      (fun f p f' hset => (setFlag_ok hset).2.1) rfl h
    have htx := foldlM_field _ Flags.transactionBase64 some
      (fun f p f' hset => (setFlag_ok hset).2.2.1) rfl h
    have hpath := foldlM_field _ Flags.nonceAuthorityKeypairPath some
      (fun f p f' hset => (setFlag_ok hset).2.2.2) rfl h
    rw [Option.bind_fun_some] at hurl htx hpath
    rw [← hurl, ← hpubkey, ← htx, ← hpath]
  have hpubkey {o : Option String} {k : Pubkey} :
      (o.bind fun s => (texts.pubkeyFromStr s).toOption) = some k ↔
        ∃ text, o = some text ∧ texts.pubkeyFromStr text = .ok k := by
    simp only [Option.bind_eq_some_iff, toOption_eq_some_iff]
  unfold parseArgs
  simp only [bind_eq_ok, parsePairs_eq_ok_iff, present_eq_ok_iff]
  refine ⟨fun h => ?_, fun h => ?_⟩
  · obtain ⟨flags, ⟨pairs, hargv, hpairs⟩, url, hurl, k, hk, tx, htx, path, hpath, h⟩ := h
    cases h
    obtain rfl := hfields hpairs
    exact ⟨pairs, hargv, (foldlM_accepts_iff fun f p => setFlag_accepts_iff f).mp ⟨_, hpairs⟩,
      hurl, hpubkey.mp hk, htx, hpath⟩
  · obtain ⟨pairs, hargv, haccepted, hurl, hk, htx, hpath⟩ := h
    obtain ⟨flags, hflags⟩ := (foldlM_accepts_iff fun f p => setFlag_accepts_iff f).mpr haccepted
    obtain rfl := hfields hflags
    exact ⟨_, ⟨pairs, hargv, hflags⟩, _, hurl, _, hpubkey.mpr hk, _, htx, _, hpath, rfl⟩

end

/-! ### Texts of errors -/

def stealthErrorText : StealthError → String
  | .invalidPoint kind => s!"{kind} is not a valid point on the curve"
  | .degenerateSharedSecret =>
    "shared secret is the identity point — refuse to derive from a degenerate ECDH result"
  | .invalidScalarHex msg => s!"scan private key must be 64 hex characters (32 bytes): {msg}"

def stealthSignErrorText : StealthSignError → String
  | .invalidPoint => "recovered scalar's public point is not a valid verifying key"

def parseErrorText (encoded : String) : ParseVersionedTransactionError → String
  | .base64 => s!"invalid base64: {texts.base64Error encoded}"
  | .truncated => "truncated transaction: nothing follows the signature array"
  | .signatures e => s!"invalid signature array encoding: {texts.decodeError e}"
  | .notVersioned => "not a versioned (v0) message: missing the 0x80 prefix byte"
  | .message e => s!"invalid message encoding: {texts.decodeError e}"

/-! ### The program -/

variable {P : Type} [AddCommGroup P] [DecidableEq P] (E : Ed25519 P)

/-- The prompts, and the one-time key they recover. -/
def recoverKey (args : Args) : Script Scalar := do
  let scanPrivkeyHex ← orExit (← promptPassword "scan_privkey (hex, hidden): ") fun e =>
    [s!"error reading scan_privkey: {e}"]
  let spendPrivkeyHex ← orExit (← promptPassword "spend_privkey (hex, hidden): ") fun e =>
    [s!"error reading spend_privkey: {e}"]
  let scanPriv ← orExit (ScalarHex.scalarFromHex texts.hexError (trim scanPrivkeyHex)) fun e =>
    [s!"invalid scan_privkey: {stealthErrorText e}"]
  let spendPriv ← orExit (ScalarHex.scalarFromHex texts.hexError (trim spendPrivkeyHex)) fun e =>
    [s!"invalid spend_privkey: {stealthErrorText e}"]
  orExit (recoverOneTimePrivkey E scanPriv args.ephemeralPubkey spendPriv) fun e =>
    [s!"could not recover one-time key: {stealthErrorText e}"]

/-- The given transaction, signed with the one-time key. -/
def signOneTime (args : Args) (t : Scalar) : Script VersionedTransaction := do
  let oneTimePubkey := toPubkey E (E.mulBase t)
  let tx ← orExit (VersionedTransaction.tryFromBase64 args.transactionBase64) fun e =>
    [s!"could not parse --transaction-base64: {parseErrorText texts args.transactionBase64 e}"]
  let messageBytes ← orPanic tx.messageBytesToSign
  let hashPrefix ← random 32
  let signature ← orExit (signWithRecoveredKey E hashPrefix t messageBytes) fun e =>
    [s!"signing failed: {stealthSignErrorText e}"]
  let (inserted, tx) ← orPanic (tx.insertSignature oneTimePubkey signature)
  orExit inserted fun e =>
    [s!"recovered key ({toBase58 oneTimePubkey}) is not a required signer of this transaction: " ++
        signTransactionErrorText e,
      "double-check --ephemeral-pubkey matches the invoice this sweep is for, and that " ++
        "scan_privkey/spend_privkey are the pair that produced its meta-address."]
  println s!"Recovered one-time signer: {toBase58 oneTimePubkey}"
  return tx

/-- The transaction signed with the nonce authority as well. -/
def signAuthority (args : Args) (tx : VersionedTransaction) : Script VersionedTransaction := do
  let nonceAuthority ← orExit (← loadKeypairFile texts E args.nonceAuthorityKeypairPath) fun e =>
    [s!"error loading --nonce-authority-keypair: {e}"]
  let (signed, tx) ← orPanic (tx.trySign nonceAuthority)
  orExit signed fun e =>
    [s!"nonce authority ({toBase58 nonceAuthority.pubkey}) is not a required signer of this " ++
        s!"transaction: {signTransactionErrorText e}",
      "double-check --nonce-authority-keypair matches the nonce_authority configured on " ++
        "stealth-sweep-build."]
  return tx

/-- Everything up to the signed transaction. -/
def authorize : Script (Args × VersionedTransaction) := do
  let args ← orExit (parseArgs texts (← args)) fun e =>
    [s!"error: {e}",
      "usage: sign_and_broadcast_sweep --rpc-url <url> --ephemeral-pubkey <base58> " ++
        "--transaction-base64 <base64>"]
  let t ← recoverKey texts E args
  let tx ← signOneTime texts E args t
  let tx ← signAuthority texts E args tx
  return (args, tx)

/-- The explorer only knows the clusters by their names. -/
def announce (args : Args) (signature : String) : Script PUnit := do
  println s!"Broadcast. Transaction signature: {signature}"
  if args.rpcUrl.contains "devnet" then
    println s!"https://explorer.solana.com/tx/{signature}?cluster=devnet"

/-- The broadcast itself. -/
def submit (args : Args) (tx : VersionedTransaction) (rpc : Connection) : Script ExitCode := do
  let (sent, _) ← rpc.call texts.toTextForms (.sendTransaction (← orPanic tx.toBase64))
  match sent with
  | .ok signature =>
    announce args signature
    return .success
  | .error e =>
    eprintln s!"broadcast failed: {rpcErrorText e}"
    return .failure

/-- The operator's word on a simulation that succeeded. -/
def confirm (args : Args) (tx : VersionedTransaction) (sim : SimulateTransactionResult)
    (rpc : Connection) : Script ExitCode := do
  let units := (sim.unitsConsumed.map fun u => s!"{u}").getD "unknown"
  println s!"Simulation succeeded (units consumed: {units})."
  let confirmation ← orExit
    (← promptLine "\nBroadcast this transaction? Type 'yes' to confirm: ") fun e =>
      [s!"error reading confirmation: {e}"]
  if confirmation ≠ "yes" then
    println "Not broadcasting. The signed transaction above can be submitted manually later."
    return .success
  else
    submit texts args tx rpc

/-- Simulation, confirmation and broadcast of the signed transaction. -/
def broadcast (args : Args) (tx : VersionedTransaction) : Script ExitCode := do
  println s!"Signed transaction (base64):\n{← orPanic tx.toBase64}"
  let rpc := Connection.new args.rpcUrl
  println s!"\nSimulating against {args.rpcUrl}..."
  let (sim, rpc) ← rpc.call texts.toTextForms (.simulateTransaction (← orPanic tx.toBase64))
  let sim ← orExit sim fun e => [s!"simulation request failed: {rpcErrorText e}"]
  match sim.err with
  | some err =>
    println s!"Simulation FAILED: {JsonText.toText texts.floatText err}"
    printAll .stdout (sim.logs.map fun log => s!"  {log}")
    println "Not broadcasting a transaction that fails simulation."
    return .failure
  | none => confirm texts args tx sim rpc

def main : Script ExitCode := do
  let (args, tx) ← authorize texts E
  broadcast texts args tx

end SvmWasiCore.SweepSigner

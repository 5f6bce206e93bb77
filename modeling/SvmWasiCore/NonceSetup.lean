import SvmWasiCore.Builders
import SvmWasiCore.HostPrograms
import SvmWasiCore.MessageCompiler

/-!
The setup of a durable nonce: it creates and funds the account, under a key that signs once and
is forgotten, and names the payer as its authority.
-/

namespace SvmWasiCore.NonceSetup

open Rpc RpcMethods Dalek Sign MessageFormat MessageCompiler Envelope HostPrograms Lib.ByteCodec
open Lib.Interaction

/-! ### Arguments -/

structure Args where
  rpcUrl : String
  payerKeypairPath : String

/-- The flags read so far. -/
structure Flags where
  rpcUrl : Option String
  payerKeypairPath : Option String

def setFlag (flags : Flags) (flag value : String) : Except String Flags :=
  match flag with
  | "--rpc-url" => .ok { flags with rpcUrl := some value }
  | "--payer-keypair" => .ok { flags with payerKeypairPath := some value }
  | other => .error s!"unrecognized flag {other}"

def parseArgs (argv : List String) : Except String Args := do
  let flags ← parsePairs setFlag ⟨none, none⟩ argv
  let rpcUrl ← present flags.rpcUrl "missing --rpc-url"
  let payerKeypairPath ← present flags.payerKeypairPath "missing --payer-keypair"
  return ⟨rpcUrl, payerKeypairPath⟩

/-! ### The program -/

variable (texts : HostTexts) {P : Type} [AddCommGroup P] (E : Ed25519 P)

/-- The arguments and the payer they name. -/
def openPayer : Script (Args × Keypair E) := do
  let args ← orExit (parseArgs (← args)) fun e =>
    [s!"error: {e}",
      "usage: create_durable_nonce_account --rpc-url <url> --payer-keypair <path>"]
  let payer ← orExit (← loadKeypairFile texts E args.payerKeypairPath) fun e =>
    [s!"error loading payer keypair: {e}"]
  return (args, payer)

/-- A fresh key: its bytes are drawn, put together and loaded. -/
def generateKeypair : Script (Keypair E) := do
  let nonceSigningKey ← random 32
  let bytes := nonceSigningKey.toList ++ (verifyingKey E nonceSigningKey).compressed.toList
  orPanic (expect (Keypair.fromBytes E bytes).toOption "just-generated key is valid")

variable {E}

/-- The transaction on these instructions, signed by the payer and the nonce account. -/
def signed (payer nonceKeypair : Keypair E) (instructions : List Instruction) (blockhash : Hash) :
    Script Transaction := do
  let message ← orPanic (newMessage instructions payer.pubkey)
  let tx := Transaction.newUnsigned { message with recentBlockhash := blockhash }
  let (result, tx) ← orPanic (tx.trySign payer)
  orExit result fun e => [s!"payer failed to sign: {signTransactionErrorText e}"]
  let (result, tx) ← orPanic (tx.trySign nonceKeypair)
  orExit result fun e => [s!"nonce account failed to sign: {signTransactionErrorText e}"]
  return tx

/-- The exit code the broadcast leads to. -/
def report (args : Args) (payer nonceKeypair : Keypair E) (sent : Except RpcError String) :
    Script ExitCode :=
  match sent with
  | .ok signature => do
    printAll .stdout
      ["Created durable nonce account.",
        s!"nonce_account   = {toBase58 nonceKeypair.pubkey}",
        s!"nonce_authority = {toBase58 payer.pubkey}",
        s!"transaction signature = {signature}",
        "\nPut both values into stealth-sweep-build's config as `nonce_account` and " ++
          s!"`nonce_authority`. Keep {args.payerKeypairPath} — the external signer needs it " ++
          "again for every sweep."]
    return .success
  | .error e => do
    eprintln s!"broadcast failed: {rpcErrorText e}"
    return .failure

/-- The three requests, and what is signed between them. -/
def create (args : Args) (payer nonceKeypair : Keypair E) : Script ExitCode := do
  let rpc := Connection.new args.rpcUrl
  let (lamports, rpc) ← rpc.call texts.toTextForms
    (.getMinimumBalanceForRentExemption System.NONCE_STATE_SIZE)
  let lamports ← orExit lamports fun e =>
    [s!"could not fetch rent-exempt minimum: {rpcErrorText e}"]
  let instructions :=
    System.createNonceAccount payer.pubkey nonceKeypair.pubkey payer.pubkey lamports
  let (info, rpc) ← rpc.call texts.toTextForms .getLatestBlockhash
  let info ← orExit info fun e => [s!"could not fetch a blockhash: {rpcErrorText e}"]
  let tx ← signed payer nonceKeypair instructions info.blockhash
  let (sent, _) ← rpc.call texts.toTextForms (.sendTransaction (← orPanic tx.toBase64))
  report args payer nonceKeypair sent

variable (E)

def main : Script ExitCode := do
  let (args, payer) ← openPayer texts E
  let nonceKeypair ← generateKeypair E
  create texts args payer nonceKeypair

end SvmWasiCore.NonceSetup

import SvmWasiCore.MessageFormat
import SvmWasiCore.Instruction
import SvmWasiCore.Lib.EntryMap

/-!
The message compilers of `solana-message`, and the two durable-nonce entry points over them.

Both formats collect the keys of all instructions in one ordered map and lay the map out in four
classes. The legacy compiler then takes each key's position; the v0 compiler first moves keys
into lookup tables, though never the account of a leading nonce advance, and numbers all keys,
static and looked up, with an overflow check.
-/

namespace SvmWasiCore.MessageCompiler

open Lib.ByteCodec Lib.EntryMap MessageFormat

inductive CompileError
  | accountIndexOverflow
  | addressTableLookupIndexOverflow
  | unknownInstructionKey (key : Pubkey)
  deriving DecidableEq

structure AddressLookupTableAccount where
  key : Pubkey
  addresses : List Pubkey
  deriving DecidableEq

structure LoadedAddresses where
  writable : List Pubkey
  readonly : List Pubkey
  deriving DecidableEq

structure CompiledKeyMeta where
  isSigner : Bool
  isWritable : Bool
  isInvoked : Bool
  isNonce : Bool
  deriving DecidableEq

instance : Inhabited CompiledKeyMeta := ⟨false, false, false, false⟩

abbrev KeyMetaMap := Std.TreeMap Pubkey CompiledKeyMeta

structure CompiledKeys where
  payer : Pubkey
  keyMetaMap : KeyMetaMap

/-! ### Collecting the keys -/

def addAccountMeta (map : KeyMetaMap) (accountMeta : AccountMeta) : KeyMetaMap :=
  entry map accountMeta.pubkey fun m =>
    { m with
      isSigner := m.isSigner || accountMeta.isSigner
      isWritable := m.isWritable || accountMeta.isWritable }

def addInstruction (map : KeyMetaMap) (ix : Instruction) : KeyMetaMap :=
  ix.accounts.foldl addAccountMeta (entry map ix.programId fun m => { m with isInvoked := true })

def addPayer (map : KeyMetaMap) (payer : Pubkey) : KeyMetaMap :=
  entry map payer fun m => { m with isSigner := true, isWritable := true }

/-- The account a leading `AdvanceNonceAccount` advances. -/
def getNoncePubkey (instructions : List Instruction) : Option Pubkey := do
  let ix ← instructions.head?
  if ix.programId = System.id ∧ [4, 0, 0, 0] <+: ix.data then
    return (← ix.accounts.head?).pubkey
  else none

def addNonce (map : KeyMetaMap) : Option Pubkey → KeyMetaMap
  | none => map
  | some noncePubkey => entry map noncePubkey fun m => { m with isNonce := true }

/-- Both entry points name a payer. -/
def compile (instructions : List Instruction) (payer : Pubkey) : CompiledKeys where
  payer := payer
  keyMetaMap :=
    addPayer (addNonce (instructions.foldl addInstruction ∅) (getNoncePubkey instructions)) payer

/-! ### Laying them out -/

def tryIntoU8 (num : ℕ) : Except CompileError UInt8 :=
  if num ≤ 255 then .ok (.ofNat num) else .error .accountIndexOverflow

namespace CompiledKeys

variable (keys : CompiledKeys)

/-- All but the payer, which leads the writable signers. -/
def others : KeyMetaMap := keys.keyMetaMap.erase keys.payer

def writableSignerKeys : List Pubkey :=
  keys.payer :: keysWhere (fun m => m.isSigner && m.isWritable) keys.others

def readonlySignerKeys : List Pubkey :=
  keysWhere (fun m => m.isSigner && !m.isWritable) keys.others

def writableNonSignerKeys : List Pubkey :=
  keysWhere (fun m => !m.isSigner && m.isWritable) keys.others

def readonlyNonSignerKeys : List Pubkey :=
  keysWhere (fun m => !m.isSigner && !m.isWritable) keys.others

def staticAccountKeys : List Pubkey :=
  keys.writableSignerKeys ++ keys.readonlySignerKeys ++ keys.writableNonSignerKeys ++
    keys.readonlyNonSignerKeys

def tryIntoMessageComponents : Except CompileError (MessageHeader × List Pubkey) := do
  let signersLen := keys.writableSignerKeys.length + keys.readonlySignerKeys.length
  let numRequiredSignatures ← tryIntoU8 signersLen
  let numReadonlySignedAccounts ← tryIntoU8 keys.readonlySignerKeys.length
  let numReadonlyUnsignedAccounts ← tryIntoU8 keys.readonlyNonSignerKeys.length
  return (⟨numRequiredSignatures, numReadonlySignedAccounts, numReadonlyUnsignedAccounts⟩,
    keys.staticAccountKeys)

end CompiledKeys

/-! ### Moving keys into lookup tables -/

/-- The search for the given keys in a table: the first index of each key found. -/
def searchTable (addresses : List Pubkey) :
    List Pubkey → Except CompileError (List UInt8 × List Pubkey)
  | [] => .ok ([], [])
  | searchKey :: rest =>
    match position addresses searchKey with
    | none => searchTable addresses rest
    | some keyIndex =>
      if keyIndex ≤ 255 then do
        let (lookupTableIndexes, drainedKeys) ← searchTable addresses rest
        return (.ofNat keyIndex :: lookupTableIndexes, searchKey :: drainedKeys)
      else .error .addressTableLookupIndexOverflow

def tryDrainKeysFoundInLookupTable (map : KeyMetaMap) (addresses : List Pubkey)
    (keyMetaFilter : CompiledKeyMeta → Bool) :
    Except CompileError ((List UInt8 × List Pubkey) × KeyMetaMap) := do
  let (lookupTableIndexes, drainedKeys) ← searchTable addresses (keysWhere keyMetaFilter map)
  return ((lookupTableIndexes, drainedKeys), eraseAll map drainedKeys)

def writableFilter (m : CompiledKeyMeta) : Bool :=
  !m.isSigner && !m.isInvoked && !m.isNonce && m.isWritable

def readonlyFilter (m : CompiledKeyMeta) : Bool :=
  !m.isSigner && !m.isInvoked && !m.isNonce && !m.isWritable

def tryExtractTableLookup (map : KeyMetaMap) (lookupTableAccount : AddressLookupTableAccount) :
    Except CompileError (Option (MessageAddressTableLookup × LoadedAddresses) × KeyMetaMap) := do
  let ((writableIndexes, writable), map) ←
    tryDrainKeysFoundInLookupTable map lookupTableAccount.addresses writableFilter
  let ((readonlyIndexes, readonly), map) ←
    tryDrainKeysFoundInLookupTable map lookupTableAccount.addresses readonlyFilter
  if writableIndexes = [] ∧ readonlyIndexes = [] then return (none, map)
  return (some ({ accountKey := lookupTableAccount.key, writableIndexes, readonlyIndexes },
    { writable, readonly }), map)

/-- The loop over the tables. -/
def extractTableLookups (map : KeyMetaMap) :
    List AddressLookupTableAccount →
      Except CompileError (List (MessageAddressTableLookup × LoadedAddresses) × KeyMetaMap)
  | [] => .ok ([], map)
  | lookupTableAccount :: rest => do
    let (lookup, map) ← tryExtractTableLookup map lookupTableAccount
    let (lookups, map) ← extractTableLookups map rest
    return (lookup.toList ++ lookups, map)

/-! ### Numbering the keys -/

def loadedKeys (loaded : List LoadedAddresses) : List Pubkey :=
  loaded.flatMap (·.writable) ++ loaded.flatMap (·.readonly)

/-- The loop that numbers `keys` from `index` on. -/
def accountIndexMap (map : Std.TreeMap Pubkey UInt8) :
    ℕ → List Pubkey → Except CompileError (Std.TreeMap Pubkey UInt8)
  | _, [] => .ok map
  | index, key :: keys => do
    let i ← tryIntoU8 index
    accountIndexMap (map.insert key i) (index + 1) keys

def getAccountIndex (indexes : Std.TreeMap Pubkey UInt8) (key : Pubkey) :
    Except CompileError UInt8 :=
  match indexes[key]? with
  | some index => .ok index
  | none => .error (.unknownInstructionKey key)

def tryCompileInstruction (indexes : Std.TreeMap Pubkey UInt8) (ix : Instruction) :
    Except CompileError CompiledInstruction := do
  let accounts ← ix.accounts.mapM fun accountMeta => getAccountIndex indexes accountMeta.pubkey
  let programIdIndex ← getAccountIndex indexes ix.programId
  return { programIdIndex, accounts, data := ix.data }

/-- `AccountKeys::try_compile_instructions`, of static and loaded keys. -/
def tryCompileInstructions (accountKeys : List Pubkey) (instructions : List Instruction) :
    Except CompileError (List CompiledInstruction) := do
  let indexes ← accountIndexMap ∅ 0 accountKeys
  instructions.mapM (tryCompileInstruction indexes)

/-- `v0::Message::try_compile`. -/
def tryCompile (payer : Pubkey) (instructions : List Instruction)
    (addressLookupTableAccounts : List AddressLookupTableAccount) (recentBlockhash : Hash) :
    Except CompileError MessageV0 := do
  let compiledKeys := compile instructions payer
  let (lookups, map) ← extractTableLookups compiledKeys.keyMetaMap addressLookupTableAccounts
  let (header, staticKeys) ←
    CompiledKeys.tryIntoMessageComponents { compiledKeys with keyMetaMap := map }
  let accountKeys := staticKeys ++ loadedKeys (lookups.map (·.2))
  let instructions ← tryCompileInstructions accountKeys instructions
  let addressTableLookups := lookups.map (·.1)
  return ⟨header, staticKeys, recentBlockhash, instructions, addressTableLookups⟩

/-! ### Legacy messages -/

/-- `position(..).unwrap() as u8`: the cast keeps the low byte. -/
def positionAsU8 (keys : List Pubkey) (key : Pubkey) : Exec UInt8 :=
  match position keys key with
  | some index => .ok (.ofNat index)
  | none => .error .unwrap

def compileInstruction (keys : List Pubkey) (ix : Instruction) : Exec CompiledInstruction := do
  let accounts ← ix.accounts.mapM fun accountMeta => positionAsU8 keys accountMeta.pubkey
  let programIdIndex ← positionAsU8 keys ix.programId
  return { programIdIndex, accounts, data := ix.data }

/-- `Message::new`. -/
def newMessage (instructions : List Instruction) (payer : Pubkey) : Exec Message := do
  let (header, accountKeys) ←
    expect (compile instructions payer).tryIntoMessageComponents.toOption
      "overflow when compiling message keys"
  let instructions ← instructions.mapM (compileInstruction accountKeys)
  return { header, accountKeys, recentBlockhash := .default, instructions }

/-! ### Durable nonces -/

def compileLegacyWithDurableNonce (payer nonceAccount nonceAuthority : Pubkey)
    (nonceBlockhash : Hash) (instructions : List Instruction) : Exec Message := do
  let all := System.advanceNonceAccount nonceAccount nonceAuthority :: instructions
  let message ← newMessage all payer
  return { message with recentBlockhash := nonceBlockhash }

def compileV0WithDurableNonce (payer nonceAccount nonceAuthority : Pubkey) (nonceBlockhash : Hash)
    (instructions : List Instruction)
    (addressLookupTableAccounts : List AddressLookupTableAccount) :
    Except CompileError MessageV0 :=
  let all := System.advanceNonceAccount nonceAccount nonceAuthority :: instructions
  tryCompile payer all addressLookupTableAccounts nonceBlockhash

end SvmWasiCore.MessageCompiler

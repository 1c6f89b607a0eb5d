-- SUMMARY: Block hashes with their two texts, messages and transactions, and what a simulation returns.
import NoirSidecar.Base.Hex
import NoirSidecar.Solana.Account

/-!
# Transactions

A transaction is only looked at in one place, its recent blockhash; all else is
passed on. A block hash is printed in two ways: `bs58` writes all its bytes, the
`Display` of the hash type abbreviates them.
-/

/-- The hash of a block. -/
structure Hash where
  bytes : Bytes
  length_eq : bytes.length = 32
  deriving DecidableEq, Repr

def Hash.zero : Hash := ⟨List.replicate 32 0, List.length_replicate⟩

/-- A hash of 32 equal bytes. -/
def Hash.ofByte (b : UInt8) : Hash := ⟨List.replicate 32 b, List.length_replicate⟩

/-- `bs58::encode(hash.as_bytes()).into_string()`. -/
def Hash.toBase58 (hash : Hash) : String := Base58.encode hash.bytes

/-- `Display`: the first and the last two bytes. -/
def Hash.display (hash : Hash) : String :=
  "0x" ++ Hex.encode (hash.bytes.take 2) ++ "…" ++ Hex.encode (hash.bytes.drop 30)

example : Hash.zero.display = "0x0000…0000" := by decide

structure Signature where
  bytes : Bytes
  length_eq : bytes.length = 64
  deriving DecidableEq, Repr

def Signature.zero : Signature := ⟨List.replicate 64 0, List.length_replicate⟩

/-! ## Messages -/

structure MessageHeader where
  numRequiredSignatures : UInt8
  numReadonlySignedAccounts : UInt8
  numReadonlyUnsignedAccounts : UInt8
  deriving DecidableEq, Repr

structure CompiledInstruction where
  programIdIndex : UInt8
  accounts : List UInt8
  data : Bytes
  deriving DecidableEq, Repr

structure MessageAddressTableLookup where
  accountKey : Pubkey
  writableIndexes : List UInt8
  readonlyIndexes : List UInt8
  deriving DecidableEq, Repr

/-- A legacy message has no address table lookups. -/
structure Message where
  header : MessageHeader
  accountKeys : List Pubkey
  recentBlockhash : Hash
  instructions : List CompiledInstruction
  deriving DecidableEq, Repr

inductive VersionedMessage where
  | legacy (message : Message)
  | v0 (message : Message) (addressTableLookups : List MessageAddressTableLookup)
  deriving DecidableEq, Repr

namespace VersionedMessage

def recentBlockhash : VersionedMessage → Hash
  | .legacy message => message.recentBlockhash
  | .v0 message _ => message.recentBlockhash

def setRecentBlockhash (recentBlockhash : Hash) : VersionedMessage → VersionedMessage
  | .legacy message => .legacy { message with recentBlockhash := recentBlockhash }
  | .v0 message lookups => .v0 { message with recentBlockhash := recentBlockhash } lookups

@[simp] theorem recentBlockhash_set (message : VersionedMessage) (hash : Hash) :
    (message.setRecentBlockhash hash).recentBlockhash = hash := by
  cases message <;> rfl

end VersionedMessage

structure VersionedTransaction where
  signatures : List Bytes
  message : VersionedMessage
  deriving DecidableEq, Repr

/-! ## Simulations -/

/-- Only passed on. -/
structure TransactionError where
  text : String
  deriving DecidableEq, Repr

structure TransactionReturnData where
  programId : Pubkey
  data : Bytes
  deriving DecidableEq, Repr

structure InnerInstruction where
  instruction : CompiledInstruction
  stackHeight : UInt8
  deriving DecidableEq, Repr

structure TransactionSimulationResult where
  result : Except TransactionError Unit
  logs : List String
  postSimulationAccounts : List (Pubkey × Account)
  unitsConsumed : UInt64
  returnData : Option TransactionReturnData
  innerInstructions : Option (List (List InnerInstruction))

structure LoadedAddresses where
  writable : List Pubkey
  readonly : List Pubkey
  deriving DecidableEq, Repr

structure AccountKeys where
  staticKeys : List Pubkey
  dynamicKeys : Option LoadedAddresses
  deriving DecidableEq, Repr

def AccountKeys.len (keys : AccountKeys) : Nat :=
  keys.staticKeys.length +
    (keys.dynamicKeys.map fun dynamic => dynamic.writable.length + dynamic.readonly.length).getD 0

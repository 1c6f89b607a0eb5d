-- SUMMARY: The RPC methods that read a block: requests and responses, the choice of the block, and the methods as programs.
import NoirSidecar.Client.Chain
import NoirSidecar.Rpc.Accounts

/-!
# Read methods

Each method first asks for the head its commitment names and then puts all its
other questions to that block. A simulation that is to replace the recent blockhash
is the exception: it asks for the best head a second time.

The libraries that decode the texts of transactions are parameters.
-/

/-! ## Requests -/

inductive CommitmentLevel where
  | processed
  | confirmed
  | finalized
  deriving DecidableEq, Repr

structure CommitmentConfig where
  commitment : CommitmentLevel := .finalized
  deriving DecidableEq, Repr

inductive UiTransactionEncoding where
  | binary
  | base64
  | base58
  | json
  | jsonParsed
  deriving DecidableEq, Repr

inductive TransactionBinaryEncoding where
  | base58
  | base64
  deriving DecidableEq, Repr

namespace UiTransactionEncoding

def intoBinaryEncoding : UiTransactionEncoding → Option TransactionBinaryEncoding
  | .binary | .base58 => some .base58
  | .base64 => some .base64
  | _ => none

def display : UiTransactionEncoding → String
  | .binary => "binary"
  | .base64 => "base64"
  | .base58 => "base58"
  | .json => "json"
  | .jsonParsed => "jsonParsed"

end UiTransactionEncoding

namespace Solana

structure RpcContextConfig where
  commitment : Option CommitmentConfig := none
  minContextSlot : Option UInt64 := none
  deriving DecidableEq, Repr

structure RpcAccountInfoConfig where
  encoding : Option UiAccountEncoding := none
  dataSlice : Option UiDataSliceConfig := none
  commitment : Option CommitmentConfig := none
  minContextSlot : Option UInt64 := none
  deriving DecidableEq, Repr

structure RpcSimulateTransactionAccountsConfig where
  encoding : Option UiAccountEncoding
  addresses : List String
  deriving DecidableEq, Repr

structure RpcSimulateTransactionConfig where
  sigVerify : Bool := false
  replaceRecentBlockhash : Bool := false
  commitment : Option CommitmentConfig := none
  encoding : Option UiTransactionEncoding := none
  accounts : Option RpcSimulateTransactionAccountsConfig := none
  minContextSlot : Option UInt64 := none
  innerInstructions : Bool := false
  deriving DecidableEq, Repr

/-! ## Responses -/

structure RpcResponseContext where
  slot : UInt64
  apiVersion : Option String := none
  deriving DecidableEq, Repr

structure RpcResponse (T : Type) where
  context : RpcResponseContext
  value : T
  deriving DecidableEq, Repr

structure RpcBlockhash where
  blockhash : String
  lastValidBlockHeight : UInt64
  deriving DecidableEq, Repr

structure UiTransactionReturnData where
  programId : String
  data : String
  deriving DecidableEq, Repr

structure InnerInstructions where
  index : UInt8
  instructions : List (CompiledInstruction × Option UInt32)
  deriving DecidableEq, Repr

/-- The instructions are held as the texts of their values. -/
structure UiInnerInstructions where
  index : UInt8
  instructions : List String
  deriving DecidableEq, Repr

structure RpcSimulateTransactionResult where
  err : Option TransactionError
  logs : Option (List String)
  accounts : Option (List (Option UiAccount))
  unitsConsumed : Option UInt64
  returnData : Option UiTransactionReturnData
  innerInstructions : Option (List UiInnerInstructions)
  replacementBlockhash : Option RpcBlockhash
  deriving DecidableEq, Repr

/-! ## Keys and blocks -/

def debugParsePubkeyError : ParsePubkeyError → String
  | .wrongSize => "WrongSize"
  | .invalid => "Invalid"

/-- `format!("{:?}", e)` of an error of `verifyPubkey`. -/
def debugInvalidParams (e : ErrorObject) : String :=
  "ErrorObject \x7b code: InvalidParams, message: " ++ Debug.string e.message ++ ", data: None \x7d"

def verifyPubkey (pubkey : String) : Except ErrorObject Pubkey :=
  match Pubkey.fromStr pubkey with
  | .ok pubkey => .ok pubkey
  | .error e => .error (invalidParams ("Invalid param: " ++ debugParsePubkeyError e))

@[simp] theorem verifyPubkey_toString (p : Pubkey) : verifyPubkey p.toString = .ok p := by
  rw [verifyPubkey, Pubkey.fromStr_toString]

/-- The keys of some texts; the first error is wrapped in another. -/
def verifyPubkeys (pubkeys : List String) : Except ErrorObject (List Pubkey) :=
  (pubkeys.mapM verifyPubkey).mapError fun e => invalidParams (debugInvalidParams e)

/-- `Self::hash` -/
def hash (commitment : Option CommitmentConfig) : RpcProg Hash :=
  match (commitment.getD {}).commitment with
  | .processed => callNode Client.latestBlockhash
  | .confirmed | .finalized => callNode Client.finalizedBlockhash

/-- `minContextSlot` is not looked at. -/
def getHashWithConfig (config : RpcContextConfig) : RpcProg Hash := hash config.commitment

/-! ## Accounts -/

variable (lib : Decoder) (orders : IterOrders)

def getAccountInfo (pubkeyStr : String) (config : Option RpcAccountInfoConfig) :
    RpcProg (RpcResponse (Option UiAccount)) := do
  let pubkey ← .ofExcept (verifyPubkey pubkeyStr)
  let config := config.getD {}
  let hash ← getHashWithConfig ⟨config.commitment, config.minContextSlot⟩
  let slot ← callNode (Client.getSlot hash)
  let encoding := config.encoding.getD .binary
  let response ← getEncodedAccount lib pubkey encoding config.dataSlice hash
  return { context := { slot := slot }, value := response }

def maxMultipleAccounts : Nat := 100

def getMultipleAccounts (pubkeyStrs : List String) (config : Option RpcAccountInfoConfig) :
    RpcProg (RpcResponse (List (Option UiAccount))) := do
  if pubkeyStrs.length > maxMultipleAccounts then
    .fail (invalidParams s!"Too many inputs provided; max {maxMultipleAccounts}")
  else
    let pubkeys ← .ofExcept (verifyPubkeys pubkeyStrs)
    let config := config.getD {}
    let hash ← getHashWithConfig ⟨config.commitment, config.minContextSlot⟩
    let slot ← callNode (Client.getSlot hash)
    let encoding := config.encoding.getD .binary
    let response ← getEncodedAccounts lib orders pubkeys encoding config.dataSlice hash none
    return { context := { slot := slot }, value := response }

def getBalance (pubkeyStr : String) (config : Option RpcContextConfig) :
    RpcProg (RpcResponse UInt64) := do
  let config := config.getD {}
  let pubkey ← .ofExcept (verifyPubkey pubkeyStr)
  let hash ← getHashWithConfig config
  let slot ← callNode (Client.getSlot hash)
  let balance ← callNode (Client.getBalance pubkey hash)
  return { context := { slot := slot }, value := balance }

/-! ## Blockhashes -/

def getLatestBlockhash (config : Option RpcContextConfig) : RpcProg (RpcResponse RpcBlockhash) := do
  let config := config.getD {}
  let hash ← getHashWithConfig config
  let slot ← callNode (Client.getSlot hash)
  let lastValidBlockHeight ← callNode (Client.getLastValidBlockHeight hash)
  return {
    context := { slot := slot }
    value := { blockhash := hash.toBase58, lastValidBlockHeight := lastValidBlockHeight } }

/-! ## Transactions -/

/-- What is needed to read a `T` off the wire: its name in errors, and how its bytes
deserialize or what is wrong with them. -/
structure Wire (T : Type) where
  typeName : String
  deserialize : Bytes → Except String T

/-- The library functions the transaction methods use. -/
structure TransactionLib where
  transaction : Wire VersionedTransaction
  message : Wire VersionedMessage
  base64Error : String → String
  uiReturnData : TransactionReturnData → UiTransactionReturnData
  parseUiInnerInstructions : InnerInstructions → AccountKeys → UiInnerInstructions

def maxBase58Size : Nat := 1683
def maxBase64Size : Nat := 1644
def packetDataSize : Nat := 1232

def debugBase58Error : Base58.DecodeError → String
  | .invalidCharacter character index =>
    "InvalidCharacter \x7b character: " ++ Debug.char character ++ ", index: " ++ toString index ++ " \x7d"
  | .nonAsciiCharacter index => "NonAsciiCharacter \x7b index: " ++ toString index ++ " \x7d"

/-- The bytes of a text that is not too long for its encoding. -/
def decodeWire (typeName : String) (base64Error : String → String) (encoded : String) :
    TransactionBinaryEncoding → Except ErrorObject Bytes
  | .base58 =>
    if encoded.utf8ByteSize > maxBase58Size then
      .error (invalidParams s!"base58 encoded {typeName} too large: {encoded.utf8ByteSize} bytes (max: encoded/raw {maxBase58Size}/{packetDataSize})")
    else
      match Base58.decode encoded with
      | .ok bytes => .ok bytes
      | .error e => .error (invalidParams ("invalid base58 encoding: " ++ debugBase58Error e))
  | .base64 =>
    if encoded.utf8ByteSize > maxBase64Size then
      .error (invalidParams s!"base64 encoded {typeName} too large: {encoded.utf8ByteSize} bytes (max: encoded/raw {maxBase64Size}/{packetDataSize})")
    else
      match Base64.decode encoded with
      | some bytes => .ok bytes
      | none => .error (invalidParams ("invalid base64 encoding: " ++ base64Error encoded))

def decodeAndDeserialize {T : Type} (wire : Wire T) (base64Error : String → String)
    (encoded : String) (encoding : TransactionBinaryEncoding) : Except ErrorObject (Bytes × T) := do
  let wireOutput ← decodeWire wire.typeName base64Error encoded encoding
  if wireOutput.length > packetDataSize then
    throw (invalidParams s!"decoded {wire.typeName} too large: {wireOutput.length} bytes (max: {packetDataSize} bytes)")
  match wire.deserialize wireOutput with
  | .ok output => return (wireOutput, output)
  | .error e => throw (invalidParams ("failed to deserialize " ++ wire.typeName ++ ": " ++ e))

variable (txLib : TransactionLib)

def getFeeForMessage (data : String) (config : Option RpcContextConfig) :
    RpcProg (RpcResponse (Option UInt64)) := do
  let (_, message) ← .ofExcept (decodeAndDeserialize txLib.message txLib.base64Error data .base64)
  let hash ← getHashWithConfig (config.getD {})
  let slot ← callNode (Client.getSlot hash)
  let fee ← callNode (Client.getFeeForMessage message (some hash))
  return { context := { slot := slot }, value := some fee }

/-! ## Simulation -/

/-- `map_inner_instructions` -/
def mapInnerInstructions (info : List (List InnerInstruction)) : List InnerInstructions :=
  (info.zipIdx.map fun (instructions, index) =>
    { index := UInt8.ofNat index
      instructions := instructions.map fun info => (info.instruction, some info.stackHeight.toUInt32) }).filter
    fun (converted : InnerInstructions) => !converted.instructions.isEmpty

/-- The transaction a request holds. -/
def readTransaction (data : String) (encoding : Option UiTransactionEncoding) :
    Except ErrorObject VersionedTransaction := do
  let txEncoding := encoding.getD .base58
  match txEncoding.intoBinaryEncoding with
  | none =>
    throw (invalidParams ("unsupported encoding: " ++ txEncoding.display ++
      ". Supported encodings: base58, base64"))
  | some binaryEncoding =>
    let (_, unsanitizedTx) ←
      decodeAndDeserialize txLib.transaction txLib.base64Error data binaryEncoding
    return unsanitizedTx

variable {txLib} in
/-- A text that decodes to bytes that deserialize is read. -/
theorem readTransaction_of {encoding : Option UiTransactionEncoding}
    (binaryEncoding : TransactionBinaryEncoding) {data : String} (bytes : Bytes)
    {tx : VersionedTransaction}
    (hencoding : (encoding.getD .base58).intoBinaryEncoding = some binaryEncoding)
    (hwire : decodeWire txLib.transaction.typeName txLib.base64Error data binaryEncoding = .ok bytes)
    (hlen : ¬ bytes.length > packetDataSize)
    (htx : txLib.transaction.deserialize bytes = .ok tx) :
    readTransaction txLib data encoding = .ok tx := by
  simp only [readTransaction, hencoding, decodeAndDeserialize, hwire]
  change ((if _ then _ else _) >>= fun _ => _) = _
  rw [if_neg hlen, htx]
  rfl

/-- The transaction to simulate, with the blockhash that is reported if its own has been
replaced. -/
def replaceBlockhash (config : RpcSimulateTransactionConfig) (unsanitizedTx : VersionedTransaction) :
    RpcProg (VersionedTransaction × Option RpcBlockhash) :=
  if config.replaceRecentBlockhash then
    if config.sigVerify then
      .fail (invalidParams "sigVerify may not be used with replaceRecentBlockhash")
    else do
      let recentBlockhash ← callNode Client.latestBlockhash
      let lastValidBlockHeight ← callNode (Client.getLastValidBlockHeight recentBlockhash)
      return ({ unsanitizedTx with message := unsanitizedTx.message.setRecentBlockhash recentBlockhash },
        some { blockhash := recentBlockhash.display, lastValidBlockHeight := lastValidBlockHeight })
  else return (unsanitizedTx, none)

/-- The accounts after the simulation, if the request wants to see any. -/
def simulatedAccounts (configAccounts : Option RpcSimulateTransactionAccountsConfig)
    (simulation : TransactionSimulationResult) (numberOfAccounts : Nat) (hash : Hash) :
    RpcProg (Option (List (Option UiAccount))) :=
  match configAccounts with
  | none => return none
  | some configAccounts =>
    let accountsEncoding := configAccounts.encoding.getD .base64
    if accountsEncoding = .binary ∨ accountsEncoding = .base58 then
      .fail (invalidParams "base58 encoding not supported")
    else if configAccounts.addresses.length > numberOfAccounts then
      .fail (invalidParams s!"Too many accounts provided; max {numberOfAccounts}")
    else
      match simulation.result with
      | .error _ => return some (List.replicate configAccounts.addresses.length none)
      | .ok () => do
        let pubkeys ← .ofExcept (verifyPubkeys configAccounts.addresses)
        let accounts ← getEncodedAccounts lib orders pubkeys accountsEncoding none hash
          (some (HashMap.collect simulation.postSimulationAccounts))
        return some accounts

def simulateTransaction (data : String) (config : Option RpcSimulateTransactionConfig) :
    RpcProg (RpcResponse RpcSimulateTransactionResult) := do
  let config := config.getD {}
  let unsanitizedTx ← .ofExcept (readTransaction txLib data config.encoding)
  let hash ← getHashWithConfig ⟨config.commitment, config.minContextSlot⟩
  let slot ← callNode (Client.getSlot hash)
  let (unsanitizedTx, blockhash) ← replaceBlockhash config unsanitizedTx
  let (simulation, staticKeys, dynamicKeys) ← callNode
    (Client.simulateTransaction unsanitizedTx config.sigVerify config.innerInstructions (some hash))
  let accountKeys : AccountKeys :=
    ⟨staticKeys, dynamicKeys.map fun (writable, readonly) => ⟨writable, readonly⟩⟩
  let accounts ← simulatedAccounts lib orders config.accounts simulation accountKeys.len hash
  return {
    context := { slot := slot }
    value := {
      err := match simulation.result with
        | .error e => some e
        | .ok () => none
      logs := some simulation.logs
      accounts := accounts
      unitsConsumed := some simulation.unitsConsumed
      returnData := simulation.returnData.map txLib.uiReturnData
      innerInstructions := simulation.innerInstructions.map fun info =>
        (mapInnerInstructions info).map fun converted =>
          txLib.parseUiInnerInstructions converted accountKeys
      replacementBlockhash := blockhash } }

end Solana

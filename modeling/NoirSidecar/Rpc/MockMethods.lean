-- SUMMARY: The methods of the mock server as programs that call its virtual machine and look at the clock.
import NoirSidecar.Base.Lowering
import NoirSidecar.Rpc.Sending
import NoirSidecar.Rpc.Svm

/-!
# The methods of the mock

The mock implements the interface of the server over its virtual machine: what the server
reads at a block the mock reads as it is now, and the time in milliseconds stands for the slot
and for the timestamp of the block.
-/

namespace MockSolana

open LiteSVM Solana

/-! ## Questions -/

/-- A call of the virtual machine, or `Utc::now().timestamp_millis() as u64`. -/
inductive Question where
  | execute (call : Call)
  | now
  deriving DecidableEq, Repr

@[reducible] def Question.Answer (T : Types) : Question → Type
  | .execute call => call.Result.Val T
  | .now => UInt64

abbrev MethodProg (T : Types) := Prog Question (Question.Answer T) ErrorObject

variable {T : Types}

/-- One call of the virtual machine. -/
def call (call : Call) : MethodProg T (call.Result.Val T) := .ask (.execute call) .done

def now : MethodProg T UInt64 := .ask .now .done

/-- The look-up of a listing is a call. -/
def SvmCall.lookUp : (lookUp : SvmCall) → MethodProg T lookUp.Answer
  | .getAccount pubkey => .ask (.execute (.getAccount pubkey)) fun account => .done (.ok account)

/-! ## Look-ups -/

def getMockHashAndSlot : MethodProg T (String × UInt64) := do
  let slot ← now
  let hash ← call .latestBlockhash
  return (hash.toBase58, slot)

def getTimestamp : MethodProg T Client.UnixTimestamp := do
  let (_, slot) ← getMockHashAndSlot
  return slot.toInt64

variable (lib : Decoder)

def getParsedTokenAccount (pubkey : Pubkey) (account : Account) : MethodProg T UiAccount := do
  let additionalData ←
    match lib.getTokenAccountMint account.data with
    | some mintPubkey =>
      let mintAccount ← call (.getAccount mintPubkey)
      match mintAccount with
      | some mintAccount =>
        let timestamp ← getTimestamp
        let data ← Prog.ofExcept (getAdditionalMintData lib mintAccount.data timestamp)
        pure (some (AccountAdditionalDataV2.mk (some data)))
      | none => pure none
    | none => pure none
  return lib.encodeUiAccount pubkey account .jsonParsed additionalData none

def getEncodedAccount (pubkey : Pubkey) (encoding : UiAccountEncoding)
    (dataSlice : Option UiDataSliceConfig) : MethodProg T (Option UiAccount) := do
  let account ← call (.getAccount pubkey)
  match account with
  | some account =>
    let response ←
      if isKnownSplTokenId account.owner ∧ encoding = .jsonParsed then
        getParsedTokenAccount lib pubkey account
      else Prog.ofExcept (encodeAccount lib account pubkey encoding dataSlice)
    return some response
  | none => return none

def getAccountsFromOverwritesOrNode (pubkeys : List Pubkey)
    (overwriteAccounts : Option (HashMap Pubkey Account)) :
    MethodProg T (List (Pubkey × Option Account)) := do
  let overwrite := fun pubkey => overwriteAccounts.bind fun accounts => accounts.lookup pubkey
  let accountsFromOverwrite := HashMap.collect <|
    pubkeys.filterMap fun pubkey => (overwrite pubkey).map fun account => (pubkey, account)
  let pubkeysNotInOverwrite := pubkeys.filter fun pubkey => (overwrite pubkey).isNone
  let accounts ← call (.getAccounts pubkeysNotInOverwrite)
  let accountsFromNode := HashMap.collect accounts
  return pubkeys.map fun pubkey =>
    (pubkey, (accountsFromOverwrite.lookup pubkey).or (accountsFromNode.lookup pubkey).join)

variable (orders : IterOrders)

def getParsedTokenAccounts (keyedAccounts : List (Pubkey × Account))
    (overwriteAccounts : Option (HashMap Pubkey Account)) : MethodProg T (HashMap Pubkey UiAccount) := do
  let mintPubkeys := getMultipleTokenAccountMint lib keyedAccounts
  let accounts ← getAccountsFromOverwritesOrNode
    ((orders.mintPubkeys.iter mintPubkeys).map Prod.snd) overwriteAccounts
  let mintAccounts := HashMap.collect <| accounts.filterMap fun (mintPubkey, mintAccount) =>
    mintAccount.map fun account => (mintPubkey, account)
  let timestamp ← getTimestamp
  let accountAdditionalData := getMultipleAdditionalMintData lib orders mintAccounts timestamp
  return HashMap.collect (parsedPairs lib keyedAccounts mintPubkeys accountAdditionalData.lookup)

def getParsedTokenKeyedAccounts (keyedAccounts : List (Pubkey × Account)) :
    MethodProg T (List RpcKeyedAccount) := do
  let accounts ← getParsedTokenAccounts lib orders keyedAccounts none
  return (orders.parsedAccounts.iter accounts).filterMap jsonEntry

def getEncodedAccounts (pubkeys : List Pubkey) (encoding : UiAccountEncoding)
    (dataSlice : Option UiDataSliceConfig) (overwriteAccounts : Option (HashMap Pubkey Account)) :
    MethodProg T (List (Option UiAccount)) := do
  let accounts ← getAccountsFromOverwritesOrNode pubkeys overwriteAccounts
  if encoding = .jsonParsed then
    let (splTokens, nonSplTokens) := filterKnownSplTokens accounts
    let splTokenUiAccounts ← getParsedTokenAccounts lib orders splTokens overwriteAccounts
    let nonSplTokenUiAccounts := HashMap.collect <| nonSplTokens.map fun (pubkey, account) =>
      (pubkey, account.map fun account =>
        lib.encodeUiAccount pubkey account encoding none dataSlice)
    return pubkeys.map fun pubkey =>
      (splTokenUiAccounts.lookup pubkey).or (nonSplTokenUiAccounts.lookup pubkey).join
  else
    return accounts.map fun (pubkey, account) => account.map fun account =>
      lib.encodeUiAccount pubkey account encoding none dataSlice

def getMintOwnerAndAdditionalData (mint : Pubkey) : MethodProg T (Pubkey × SplTokenAdditionalData) :=
  if mint = SplToken.nativeMint then
    return (SplToken.id, { decimals := SplToken.nativeMintDecimals, interestBearingConfig := none })
  else do
    let mintAccount ← call (.getAccount mint)
    match mintAccount with
    | none => .fail (invalidParams "Invalid param: could not find mint")
    | some mintAccount =>
      let timestamp ← getTimestamp
      let mintData ← .ofExcept (getAdditionalMintData lib mintAccount.data timestamp)
      return (mintAccount.owner, mintData)

def getTokenProgramIdAndMint (tokenAccountFilter : TokenAccountsFilter) :
    MethodProg T (Pubkey × Option Pubkey) :=
  match tokenAccountFilter with
  | .mint mint => do
    let (mintOwner, _) ← getMintOwnerAndAdditionalData lib mint
    if !isKnownSplTokenId mintOwner then .fail (invalidParams "Invalid param: not a Token mint")
    else return (mintOwner, some mint)
  | .programId programId =>
    if isKnownSplTokenId programId then return (programId, none)
    else .fail (invalidParams "Invalid param: unrecognized Token program id")

/-! ## Reading -/

def getAccountInfo (pubkeyStr : String) (config : Option RpcAccountInfoConfig) :
    MethodProg T (RpcResponse (Option UiAccount)) := do
  let pubkey ← .ofExcept (verifyPubkey pubkeyStr)
  let config := config.getD {}
  let encoding := config.encoding.getD .binary
  let response ← getEncodedAccount lib pubkey encoding config.dataSlice
  return { context := { slot := 0 }, value := response }

def getMultipleAccounts (pubkeyStrs : List String) (config : Option RpcAccountInfoConfig) :
    MethodProg T (RpcResponse (List (Option UiAccount))) := do
  if pubkeyStrs.length > maxMultipleAccounts then
    .fail (invalidParams s!"Too many inputs provided; max {maxMultipleAccounts}")
  else
    let pubkeys ← .ofExcept (verifyPubkeys pubkeyStrs)
    let config := config.getD {}
    let encoding := config.encoding.getD .binary
    let response ← getEncodedAccounts lib orders pubkeys encoding config.dataSlice none
    let (_, slot) ← getMockHashAndSlot
    return { context := { slot := slot }, value := response }

def getBalance (pubkeyStr : String) (_config : Option RpcContextConfig) :
    MethodProg T (RpcResponse UInt64) := do
  let pubkey ← .ofExcept (verifyPubkey pubkeyStr)
  let balance ← call (.getBalance pubkey)
  let (_, slot) ← getMockHashAndSlot
  return { context := { slot := slot }, value := balance.getD 0 }

/-- The sum does not overflow before the year 500 million. -/
def getLatestBlockhash (_config : Option RpcContextConfig) : MethodProg T (RpcResponse RpcBlockhash) := do
  let (blockhash, slot) ← getMockHashAndSlot
  return {
    context := { slot := slot }
    value := { blockhash := blockhash, lastValidBlockHeight := slot + 360000 } }

/-! ## Listings -/

variable (accountsIndex : AccountsIndex) (base64Error : String → String)

def getProgramAccounts (programIdStr : String) (config : Option RpcProgramAccountsConfig) :
    MethodProg T (OptionalContext (List RpcKeyedAccount)) := do
  let programId ← .ofExcept (verifyPubkey programIdStr)
  let { filters, accountConfig, withContext, sortResults := _ } := config.getD {}
  let filters := filters.getD []
  if filters.length > maxGetProgramAccountFilters then
    .fail (invalidParams s!"Too many filters provided; max {maxGetProgramAccountFilters}")
  else
    .ofExcept (filters.forM (verifyFilter base64Error))
    let encoding := accountConfig.encoding.getD .binary
    let keyedAccounts ←
      (programAccounts accountsIndex programId (optimizeFilters filters)).through SvmCall.lookUp
    let accounts ←
      if isKnownSplTokenId programId ∧ encoding = .jsonParsed then
        getParsedTokenKeyedAccounts lib orders keyedAccounts
      else .ofExcept (encodeKeyedAccounts lib encoding accountConfig.dataSlice keyedAccounts)
    if withContext.getD false then
      return .context { context := { slot := 0 }, value := accounts }
    else return .noContext accounts

def getTokenAccountsByOwner (ownerStr : String) (tokenAccountFilter : RpcTokenAccountsFilter)
    (config : Option RpcAccountInfoConfig) : MethodProg T (RpcResponse (List RpcKeyedAccount)) := do
  let owner ← .ofExcept (verifyPubkey ownerStr)
  let tokenAccountFilter ← .ofExcept (verifyTokenAccountFilter tokenAccountFilter)
  let config := config.getD {}
  let encoding := config.encoding.getD .binary
  let (tokenProgramId, mint) ← getTokenProgramIdAndMint lib tokenAccountFilter
  let keyedAccounts ← (getFilteredSplTokenAccountsByOwner accountsIndex tokenProgramId owner
    (mintFilters mint)).through SvmCall.lookUp
  let accounts ←
    if encoding = .jsonParsed then getParsedTokenKeyedAccounts lib orders keyedAccounts
    else .ofExcept (encodeKeyedAccounts lib encoding config.dataSlice keyedAccounts)
  return { context := { slot := 0 }, value := accounts }

/-- `Default::default()`. Nothing is ever put into the index of the mock. -/
def emptyIndex : AccountsIndex := fun _ _ => none

/-! ## Transactions -/

structure TransactionMetadata where
  signature : Signature

/-- With the text of `format!("{:?}", e)`. -/
structure FailedTransactionMetadata where
  err : TransactionError
  debug : String

/-- What the methods look at of the results of transactions, and the fee of a message unless
it cannot be sanitized. -/
structure ResultLib (T : Types) where
  result : T.TransactionResult → Except FailedTransactionMetadata TransactionMetadata
  fee : VersionedMessage → Except String UInt64

variable (txLib : TransactionLib) (results : ResultLib T)

def sendTransaction (data : String) (config : Option RpcSendTransactionConfig) : MethodProg T String := do
  let config := config.getD {}
  let unsanitizedTx ← .ofExcept (readTransaction txLib data config.encoding)
  let transactionResult ← call (.sendTransaction unsanitizedTx)
  let transactionResult ← .ofExcept ((results.result transactionResult).mapError fun e =>
    internalError ("send_transaction failed. " ++ e.debug))
  return transactionResult.signature.toString

/-- Nothing is simulated. -/
def simulateTransaction (_data : String) (_config : Option RpcSimulateTransactionConfig) :
    MethodProg T (RpcResponse RpcSimulateTransactionResult) :=
  return {
    context := { slot := 0 }
    value := {
      err := none
      logs := none
      accounts := none
      unitsConsumed := none
      returnData := none
      innerInstructions := none
      replacementBlockhash := none } }

def getFeeForMessage (data : String) (_config : Option RpcContextConfig) :
    MethodProg T (RpcResponse (Option UInt64)) := do
  let (_, message) ← .ofExcept (decodeAndDeserialize txLib.message txLib.base64Error data .base64)
  let fee ← .ofExcept ((results.fee message).mapError invalidParams)
  let (_, slot) ← getMockHashAndSlot
  return { context := { slot := slot }, value := some fee }

def requestAirdrop (pubkeyStr : String) (lamports : UInt64) : MethodProg T String := do
  let pubkey ← .ofExcept (verifyPubkey pubkeyStr)
  let transaction ← call (.requestAirdrop pubkey lamports)
  let transaction ← .ofExcept ((results.result transaction).mapError fun e =>
    internalError ("request_airdrop failed. " ++ e.debug))
  return transaction.signature.toString

def getGenesisHash : String := Base58.encode (List.replicate 32 0)

/-- The status of a transaction that the virtual machine knows. -/
def transactionStatus (slot : UInt64)
    (result : Except FailedTransactionMetadata TransactionMetadata) : TransactionStatus :=
  let status := (result.map fun _ => ()).mapError FailedTransactionMetadata.err
  { slot := slot
    confirmations := none
    status := status
    err := match status with
      | .error e => some e
      | .ok () => none
    confirmationStatus := some .finalized }

def getSignatureStatuses (signatureStrs : List String) :
    MethodProg T (RpcResponse (List (Option TransactionStatus))) := do
  let signatures ← .ofExcept (verifySignatures signatureStrs)
  let transactions ← call (.getTransactions signatures)
  let (_, slot) ← getMockHashAndSlot
  return {
    context := { slot := slot }
    value := transactions.map fun result =>
      result.map fun result => transactionStatus slot (results.result result) }

/-! ## Read requests -/

/-- The mock's answer to a read request. -/
def answer : (r : ReadRequest) → MethodProg T (RpcResponse r.Value)
  | .getAccountInfo pubkeyStr config => getAccountInfo lib pubkeyStr config
  | .getMultipleAccounts pubkeyStrs config => getMultipleAccounts lib orders pubkeyStrs config
  | .getBalance pubkeyStr config => getBalance pubkeyStr config
  | .getFeeForMessage data config => getFeeForMessage txLib results data config
  | .getLatestBlockhash config => getLatestBlockhash config
  | .simulateTransaction data config _ => simulateTransaction data config

end MockSolana

-- SUMMARY: The RPC methods that list accounts with the help of the index.
import NoirSidecar.Index.Update
import NoirSidecar.Rpc.Methods
import NoirSidecar.Rpc.Routing

/-!
# Listings

`getProgramAccounts` and `getTokenAccountsByOwner` take keys from the index and have
the node look at the accounts of these keys, with filters. Which index is asked
depends on the filters of the request.
-/

/-- Native SOL as a token. -/
def SplToken.nativeMint : Pubkey where
  bytes := [6, 155, 136, 87, 254, 171, 129, 132, 251, 104, 127, 99, 70, 24, 192, 53,
    218, 196, 57, 220, 26, 235, 59, 85, 152, 160, 240, 0, 0, 0, 0, 1]
  length_eq := rfl

example : SplToken.nativeMint.toString = "So11111111111111111111111111111111111111112" := by
  decide +kernel

def SplToken.nativeMintDecimals : UInt8 := 9

namespace Solana

/-! ## Requests and responses -/

structure RpcProgramAccountsConfig where
  filters : Option (List RpcFilterType) := none
  accountConfig : RpcAccountInfoConfig := {}
  withContext : Option Bool := none
  sortResults : Option Bool := none
  deriving DecidableEq, Repr

inductive OptionalContext (T : Type) where
  | context (response : RpcResponse T)
  | noContext (value : T)
  deriving DecidableEq, Repr

def OptionalContext.value {T : Type} : OptionalContext T → T
  | .context response => response.value
  | .noContext value => value

inductive RpcTokenAccountsFilter where
  | mint (mint : String)
  | programId (programId : String)
  deriving DecidableEq, Repr

inductive TokenAccountsFilter where
  | mint (mint : Pubkey)
  | programId (programId : Pubkey)
  deriving DecidableEq, Repr

def verifyTokenAccountFilter : RpcTokenAccountsFilter → Except ErrorObject TokenAccountsFilter
  | .mint mint => (verifyPubkey mint).map .mint
  | .programId programId => (verifyPubkey programId).map .programId

def debugFilterError : RpcFilterError → String
  | .dataTooLarge => "DataTooLarge"
  | .base58DecodeError e => Debug.wrapped "Base58DecodeError" (debugBase58Error e)
  | .base64DecodeError text => Debug.wrapped "Base64DecodeError" text

def verifyFilter (base64Error : String → String) (input : RpcFilterType) : Except ErrorObject Unit :=
  (input.verify base64Error).mapError fun e => invalidParams ("Invalid param: " ++ debugFilterError e)

/-! ## Index and node -/

/-- A method that asks the node and the index. -/
abbrev ListingProg := Index.IndexProg ErrorObject

def debugAccountIndex : AccountIndex → String
  | .programId => "ProgramId"
  | .splTokenMint => "SplTokenMint"
  | .splTokenOwner => "SplTokenOwner"

def getIndexedKeys (index : AccountIndex) (indexKey : Pubkey) (sortResults : Bool) :
    ListingProg (List Pubkey) :=
  .ask (.inr (.getIndexedKeys index indexKey sortResults)) fun answer =>
    .ofExcept (answer.mapError fun _ => internalError ("Failed to get indexed keys. index: " ++
      debugAccountIndex index ++ ", index_key: " ++ indexKey.toString))

/-- Those of the keys whose accounts the node lets through. -/
def getFilteredIndexedAccounts (programId : Pubkey) (indexedKeys : List Pubkey)
    (filters : List RpcFilterType) (hash : Hash) : ListingProg (List (Pubkey × Account)) :=
  (callNode (Client.getFilteredIndexedAccounts programId indexedKeys filters (some hash))).left

/-- The filters on token account state and on the key the index is about. -/
def redundantFilters (offset : Nat) (key : Pubkey) : List RpcFilterType :=
  [.tokenAccountState, .memcmp (.newRawBytes offset key.bytes)]

def getFilteredSplTokenAccounts (index : AccountIndex) (offset : Nat) (programId key : Pubkey)
    (filters : List RpcFilterType) (sortResults : Bool) (hash : Hash) :
    ListingProg (List (Pubkey × Account)) := do
  let indexedKeys ← getIndexedKeys index key sortResults
  getFilteredIndexedAccounts programId indexedKeys (filters ++ redundantFilters offset key) hash

def getFilteredSplTokenAccountsByOwner := getFilteredSplTokenAccounts .splTokenOwner SplToken.Account.ownerOffset
def getFilteredSplTokenAccountsByMint := getFilteredSplTokenAccounts .splTokenMint SplToken.Account.mintOffset

/-! ## Token programs and mints -/

variable (lib : Decoder)

def getMintOwnerAndAdditionalData (mint : Pubkey) (hash : Hash) :
    RpcProg (Pubkey × SplTokenAdditionalData) :=
  if mint = SplToken.nativeMint then
    return (SplToken.id, { decimals := SplToken.nativeMintDecimals, interestBearingConfig := none })
  else do
    let mintAccount ← callNode (Client.getAccount mint (some hash))
    match mintAccount with
    | none => .fail (invalidParams "Invalid param: could not find mint.")
    | some mintAccount =>
      let timestamp ← callNode (Client.getTimestamp hash)
      let mintData ← .ofExcept (getAdditionalMintData lib mintAccount.data timestamp)
      return (mintAccount.owner, mintData)

/-- The token program and the mint, if one is given, that a filter asks for. -/
def getTokenProgramIdAndMint (tokenAccountFilter : TokenAccountsFilter) (hash : Hash) :
    RpcProg (Pubkey × Option Pubkey) :=
  match tokenAccountFilter with
  | .mint mint => do
    let (mintOwner, _) ← getMintOwnerAndAdditionalData lib mint hash
    if !isKnownSplTokenId mintOwner then .fail (invalidParams "Invalid param: not a Token mint")
    else return (mintOwner, some mint)
  | .programId programId =>
    if isKnownSplTokenId programId then return (programId, none)
    else .fail (invalidParams "Invalid param: unrecognized Token program id")

/-! ## The methods -/

variable (orders : IterOrders) (base64Error : String → String)

/-- The accounts as they are listed, up to the first that cannot be encoded. -/
def encodeKeyedAccounts (encoding : UiAccountEncoding) (dataSlice : Option UiDataSliceConfig)
    (keyedAccounts : List (Pubkey × Account)) : Except ErrorObject (List RpcKeyedAccount) :=
  keyedAccounts.mapM fun (pubkey, account) => do
    let account ← encodeAccount lib account pubkey encoding dataSlice
    return { pubkey := pubkey.toString, account := account }

def maxGetProgramAccountFilters : Nat := 4

/-- The accounts of a program that pass some filters, by way of the index that fits the
filters best. -/
def programAccounts (programId : Pubkey) (filters : List RpcFilterType) (sortResults : Bool)
    (hash : Hash) : ListingProg (List (Pubkey × Account)) :=
  match getSplTokenOwnerFilter programId filters with
  | some owner => getFilteredSplTokenAccountsByOwner programId owner filters sortResults hash
  | none =>
    match getSplTokenMintFilter programId filters with
    | some mint => getFilteredSplTokenAccountsByMint programId mint filters sortResults hash
    | none => do
      let indexedKeys ← getIndexedKeys .programId programId sortResults
      getFilteredIndexedAccounts programId indexedKeys filters hash

def getProgramAccounts (programIdStr : String) (config : Option RpcProgramAccountsConfig) :
    ListingProg (OptionalContext (List RpcKeyedAccount)) := do
  let programId ← .ofExcept (verifyPubkey programIdStr)
  let { filters, accountConfig, withContext, sortResults } := config.getD {}
  let filters := filters.getD []
  if filters.length > maxGetProgramAccountFilters then
    .fail (invalidParams s!"Too many filters provided; max {maxGetProgramAccountFilters}")
  else
    .ofExcept (filters.forM (verifyFilter base64Error))
    let hash ← (getHashWithConfig ⟨accountConfig.commitment, accountConfig.minContextSlot⟩).left
    let slot ← (callNode (Client.getSlot hash)).left
    let encoding := accountConfig.encoding.getD .binary
    let keyedAccounts ← programAccounts programId (optimizeFilters filters) (sortResults.getD true) hash
    let accounts ←
      if isKnownSplTokenId programId ∧ encoding = .jsonParsed then
        (getParsedTokenKeyedAccounts lib orders keyedAccounts hash).left
      else .ofExcept (encodeKeyedAccounts lib encoding accountConfig.dataSlice keyedAccounts)
    if withContext.getD false then
      return .context { context := { slot := slot }, value := accounts }
    else return .noContext accounts

/-- The filter on the mint, if one is given. -/
def mintFilters (mint : Option Pubkey) : List RpcFilterType :=
  match mint with
  | some mint => [.memcmp (.newRawBytes 0 mint.bytes)]
  | none => []

def getTokenAccountsByOwner (ownerStr : String) (tokenAccountFilter : RpcTokenAccountsFilter)
    (config : Option RpcAccountInfoConfig) : ListingProg (RpcResponse (List RpcKeyedAccount)) := do
  let owner ← .ofExcept (verifyPubkey ownerStr)
  let tokenAccountFilter ← .ofExcept (verifyTokenAccountFilter tokenAccountFilter)
  let config := config.getD {}
  let hash ← (getHashWithConfig ⟨config.commitment, config.minContextSlot⟩).left
  let slot ← (callNode (Client.getSlot hash)).left
  let encoding := config.encoding.getD .binary
  let (tokenProgramId, mint) ← (getTokenProgramIdAndMint lib tokenAccountFilter hash).left
  let keyedAccounts ←
    getFilteredSplTokenAccountsByOwner tokenProgramId owner (mintFilters mint) true hash
  let accounts ←
    if encoding = .jsonParsed then (getParsedTokenKeyedAccounts lib orders keyedAccounts hash).left
    else .ofExcept (encodeKeyedAccounts lib encoding config.dataSlice keyedAccounts)
  return { context := { slot := slot }, value := accounts }

end Solana

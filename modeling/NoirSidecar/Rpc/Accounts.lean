-- SUMMARY: The account look-ups of the RPC server: encoding one account, encoding many, and parsing token accounts with their mints.
import NoirSidecar.Base.HashMap
import NoirSidecar.Client.Node

/-!
# Account look-ups

`getEncodedAccount` and `getEncodedAccounts` are written separately in the server.
Both give `JsonParsed` token accounts additional data from their mint: the first
looks the mint up for each account, the second collects the mints of all accounts
into hash maps and joins them back by key.

The decoders of the account libraries are parameters. Hash maps are iterated in
orders the program cannot know; these are parameters too.
-/

namespace Solana

/-! ## Errors -/

structure ErrorObject where
  code : Int
  message : String
  deriving DecidableEq, Repr

def internalError (message : String) : ErrorObject := ⟨-32603, message⟩
def invalidParams (message : String) : ErrorObject := ⟨-32602, message⟩
def invalidRequest (message : String) : ErrorObject := ⟨-32600, message⟩

def debugProgramError : ProgramError → String
  | .invalidAccountData => "InvalidAccountData"
  | .uninitializedAccount => "UninitializedAccount"

abbrev RpcProg := Prog NodeCall NodeCall.Answer ErrorObject

/-- A node call whose failure is reported as an internal error. -/
def callNode {α : Type} (p : NodeProg Client.Error α) : RpcProg α :=
  p.mapError fun e => internalError e.debug

/-! ## Accounts as the server returns them -/

inductive UiAccountEncoding where
  | binary
  | base58
  | base64
  | jsonParsed
  | base64Zstd
  deriving DecidableEq, Repr

structure UiDataSliceConfig where
  offset : Nat
  length : Nat
  deriving DecidableEq, Repr

/-- `json` holds the text of the parsed value. -/
inductive UiAccountData where
  | legacyBinary (text : String)
  | json (parsed : String)
  | binary (text : String) (encoding : UiAccountEncoding)
  deriving DecidableEq, Repr

structure UiAccount where
  lamports : UInt64
  data : UiAccountData
  owner : String
  executable : Bool
  rentEpoch : UInt64
  space : Option UInt64
  deriving DecidableEq, Repr

structure RpcKeyedAccount where
  pubkey : String
  account : UiAccount
  deriving DecidableEq, Repr

/-! ## Mints -/

structure InterestBearingConfig where
  rateAuthority : Option Pubkey
  initializationTimestamp : Int64
  preUpdateAverageRate : Int16
  lastUpdateTimestamp : Int64
  currentRate : Int16
  deriving DecidableEq, Repr

/-- What is read of an unpacked mint: its decimals and one of its extensions. -/
structure Mint where
  decimals : UInt8
  interestBearingConfig : Option InterestBearingConfig
  deriving DecidableEq, Repr

structure SplTokenAdditionalData where
  decimals : UInt8
  interestBearingConfig : Option (InterestBearingConfig × Client.UnixTimestamp)
  deriving DecidableEq, Repr

structure AccountAdditionalDataV2 where
  splTokenAdditionalData : Option SplTokenAdditionalData
  deriving DecidableEq, Repr

abbrev EncodeUiAccount := Pubkey → Account → UiAccountEncoding → Option AccountAdditionalDataV2 →
  Option UiDataSliceConfig → UiAccount

/-- The library functions the look-ups use: `get_token_account_mint`,
`StateWithExtensions::<Mint>::unpack` and `encode_ui_account`. -/
structure Decoder where
  getTokenAccountMint : Bytes → Option Pubkey
  unpackMint : Bytes → Except ProgramError Mint
  encodeUiAccount : EncodeUiAccount

/-- The orders in which three of the hash maps are iterated. -/
structure IterOrders where
  mintPubkeys : IterOrder Pubkey Pubkey
  mintAccounts : IterOrder Pubkey Account
  parsedAccounts : IterOrder Pubkey UiAccount

variable (lib : Decoder)

def getAdditionalMintData (data : Bytes) (timestamp : Client.UnixTimestamp) :
    Except ErrorObject SplTokenAdditionalData :=
  match lib.unpackMint data with
  | .error e => .error (invalidParams (debugProgramError e))
  | .ok mint => .ok {
      decimals := mint.decimals
      interestBearingConfig := mint.interestBearingConfig.map fun x => (x, timestamp) }

/-! ## One account -/

def maxBase58Bytes : Nat := 128

def encodeAccount (account : Account) (pubkey : Pubkey) (encoding : UiAccountEncoding)
    (dataSlice : Option UiDataSliceConfig) : Except ErrorObject UiAccount :=
  let length := match dataSlice with
    | some s => min s.length (account.data.length - s.offset)
    | none => account.data.length
  if (encoding = .binary ∨ encoding = .base58) ∧ length > maxBase58Bytes then
    .error (invalidRequest
      "Encoded binary (base 58) data should be less than 128 bytes, please use Base64 encoding.")
  else .ok (lib.encodeUiAccount pubkey account encoding none dataSlice)

def getParsedTokenAccount (pubkey : Pubkey) (account : Account) (hash : Hash) :
    RpcProg UiAccount := do
  let additionalData ←
    match lib.getTokenAccountMint account.data with
    | some mintPubkey =>
      let mintAccount ← callNode (Client.getAccount mintPubkey (some hash))
      match mintAccount with
      | some mintAccount =>
        let timestamp ← callNode (Client.getTimestamp hash)
        let data ← Prog.ofExcept (getAdditionalMintData lib mintAccount.data timestamp)
        pure (some (AccountAdditionalDataV2.mk (some data)))
      | none => pure none
    | none => pure none
  return lib.encodeUiAccount pubkey account .jsonParsed additionalData none

def getEncodedAccount (pubkey : Pubkey) (encoding : UiAccountEncoding)
    (dataSlice : Option UiDataSliceConfig) (hash : Hash) : RpcProg (Option UiAccount) := do
  let account ← callNode (Client.getAccount pubkey (some hash))
  match account with
  | some account =>
    let response ←
      if isKnownSplTokenId account.owner ∧ encoding = .jsonParsed then
        getParsedTokenAccount lib pubkey account hash
      else Prog.ofExcept (encodeAccount lib account pubkey encoding dataSlice)
    return some response
  | none => return none

/-! ## Many accounts -/

def getAccountsFromOverwritesOrNode (pubkeys : List Pubkey)
    (overwriteAccounts : Option (HashMap Pubkey Account)) (hash : Hash) :
    RpcProg (List (Pubkey × Option Account)) := do
  let overwrite := fun pubkey => overwriteAccounts.bind fun accounts => accounts.lookup pubkey
  let accountsFromOverwrite := HashMap.collect <|
    pubkeys.filterMap fun pubkey => (overwrite pubkey).map fun account => (pubkey, account)
  let pubkeysNotInOverwrite := pubkeys.filter fun pubkey => (overwrite pubkey).isNone
  let accounts ← callNode (Client.getAccounts pubkeysNotInOverwrite (some hash))
  let accountsFromNode := HashMap.collect accounts
  return pubkeys.map fun pubkey =>
    (pubkey, (accountsFromOverwrite.lookup pubkey).or (accountsFromNode.lookup pubkey).join)

/-- Tells the token accounts by their own key. -/
def filterKnownSplTokens (accounts : List (Pubkey × Option Account)) :
    List (Pubkey × Account) × List (Pubkey × Option Account) :=
  let (splTokens, nonSplTokens) := accounts.partition fun (pubkey, account) =>
    isKnownSplTokenId pubkey && account.isSome
  (splTokens.filterMap fun (pubkey, account) => account.map fun account => (pubkey, account),
    nonSplTokens)

def getMultipleTokenAccountMint (accounts : List (Pubkey × Account)) : HashMap Pubkey Pubkey :=
  HashMap.collect <| accounts.filterMap fun (pubkey, account) =>
    (lib.getTokenAccountMint account.data).map fun mintPubkey => (pubkey, mintPubkey)

variable (orders : IterOrders)

def getMultipleAdditionalMintData (accounts : HashMap Pubkey Account)
    (timestamp : Client.UnixTimestamp) : HashMap Pubkey AccountAdditionalDataV2 :=
  HashMap.collect <| (orders.mintAccounts.iter accounts).filterMap fun (pubkey, account) =>
    (getAdditionalMintData lib account.data timestamp).toOption.map fun additionalData =>
      (pubkey, ⟨some additionalData⟩)

/-- The accounts with their encodings, before they are collected into a map. -/
def parsedPairs (keyedAccounts : List (Pubkey × Account)) (mintPubkeys : HashMap Pubkey Pubkey)
    (additionalData : Pubkey → Option AccountAdditionalDataV2) : List (Pubkey × UiAccount) :=
  keyedAccounts.map fun (pubkey, account) =>
    (pubkey, lib.encodeUiAccount pubkey account .jsonParsed
      ((mintPubkeys.lookup pubkey).bind additionalData) none)

def getParsedTokenAccounts (keyedAccounts : List (Pubkey × Account)) (hash : Hash)
    (overwriteAccounts : Option (HashMap Pubkey Account)) :
    RpcProg (HashMap Pubkey UiAccount) := do
  let mintPubkeys := getMultipleTokenAccountMint lib keyedAccounts
  let accounts ← getAccountsFromOverwritesOrNode
    ((orders.mintPubkeys.iter mintPubkeys).map Prod.snd) overwriteAccounts hash
  let mintAccounts := HashMap.collect <| accounts.filterMap fun (mintPubkey, mintAccount) =>
    mintAccount.map fun account => (mintPubkey, account)
  let timestamp ← callNode (Client.getTimestamp hash)
  let accountAdditionalData := getMultipleAdditionalMintData lib orders mintAccounts timestamp
  return HashMap.collect (parsedPairs lib keyedAccounts mintPubkeys accountAdditionalData.lookup)

/-- The entry of a keyed listing; none unless the account was parsed. -/
def jsonEntry : Pubkey × UiAccount → Option RpcKeyedAccount
  | (pubkey, account) =>
    match account.data with
    | .json _ => some ⟨pubkey.toString, account⟩
    | _ => none

def getParsedTokenKeyedAccounts (keyedAccounts : List (Pubkey × Account)) (hash : Hash) :
    RpcProg (List RpcKeyedAccount) := do
  let accounts ← getParsedTokenAccounts lib orders keyedAccounts hash none
  return (orders.parsedAccounts.iter accounts).filterMap jsonEntry

def getEncodedAccounts (pubkeys : List Pubkey) (encoding : UiAccountEncoding)
    (dataSlice : Option UiDataSliceConfig) (hash : Hash)
    (overwriteAccounts : Option (HashMap Pubkey Account)) : RpcProg (List (Option UiAccount)) := do
  let accounts ← getAccountsFromOverwritesOrNode pubkeys overwriteAccounts hash
  if encoding = .jsonParsed then
    let (splTokens, nonSplTokens) := filterKnownSplTokens accounts
    let splTokenUiAccounts ← getParsedTokenAccounts lib orders splTokens hash overwriteAccounts
    let nonSplTokenUiAccounts := HashMap.collect <| nonSplTokens.map fun (pubkey, account) =>
      (pubkey, account.map fun account =>
        lib.encodeUiAccount pubkey account encoding none dataSlice)
    return pubkeys.map fun pubkey =>
      (splTokenUiAccounts.lookup pubkey).or (nonSplTokenUiAccounts.lookup pubkey).join
  else
    return accounts.map fun (pubkey, account) => account.map fun account =>
      lib.encodeUiAccount pubkey account encoding none dataSlice

/-! ## Look-ups at a block -/

variable {lib orders} {node : Node} {chain : Pubkey → Option Account} {hash : Hash}

/-- The additional data of a mint, if its account is there and unpacks. -/
def mintData (lib : Decoder) (chain : Pubkey → Option Account) (timestamp : Client.UnixTimestamp)
    (mintPubkey : Pubkey) : Option AccountAdditionalDataV2 :=
  (chain mintPubkey).bind fun account =>
    (getAdditionalMintData lib account.data timestamp).toOption.map fun data => ⟨some data⟩

/-- What the node answers when asked for the timestamp of the block. -/
def timestampOf (node : Node) (hash : Hash) : Outcome ErrorObject Client.UnixTimestamp :=
  ((Client.getTimestamp hash).run node).mapError fun e => internalError e.debug

theorem timestampOf_atEpoch : timestampOf .atEpoch .zero = .ok 0 := by decide +kernel

@[simp] theorem run_callNode {α : Type} (p : NodeProg Client.Error α) :
    (callNode p).run node = (p.run node).mapError fun e => internalError e.debug :=
  Prog.run_mapError _ _

/-- A runtime call that succeeds returns the value the node answered with. -/
theorem run_runtimeCall_eq_ok {call : RuntimeCall} {block : Option Hash} {value : call.Value} :
    (callNode (Client.runtimeCall call block)).run node = .ok value ↔
      node (.runtime call block) = .value value := by
  rw [run_callNode, Client.run_runtimeCall, Outcome.mapError_eq_ok_iff]
  cases node (.runtime call block) <;> simp [StateCall.toExcept]

/-- The node looks up accounts at the block one by one, or cannot look up any. -/
def KeyByKey (node : Node) (hash : Hash)
    (read : Except Client.Error (Pubkey → Option Account)) : Prop :=
  ∀ pubkeys, (node (.runtime (.getMultipleAccounts pubkeys) (some hash))).toExcept =
    read.map fun accounts => pubkeys.map accounts

theorem keyByKey_serving : KeyByKey (node.serving chain) hash (.ok chain) := fun _ => rfl

/-- The accounts of a block under those that overwrite them. -/
def overlay (overwriteAccounts : Option (HashMap Pubkey Account))
    (accounts : Pubkey → Option Account) (pubkey : Pubkey) : Option Account :=
  (overwriteAccounts.bind fun overwrites => overwrites.lookup pubkey).or (accounts pubkey)

/-- What the node answers when asked for accounts of the block. -/
def accountsOf (read : Except Client.Error (Pubkey → Option Account)) :
    Outcome ErrorObject (Pubkey → Option Account) :=
  (Outcome.ofExcept read).mapError fun e => internalError e.debug

theorem run_getAccounts {read : Except Client.Error (Pubkey → Option Account)}
    (h : KeyByKey node hash read) (pubkeys : List Pubkey) :
    (callNode (Client.getAccounts pubkeys (some hash))).run node =
      (accountsOf read >>= fun accounts => .ok (pubkeys.map fun p => (p, accounts p))) := by
  rw [run_callNode, Client.getAccounts, Prog.run_bind, Client.run_runtimeCall, h pubkeys]
  cases read with
  | error e => rfl
  | ok accounts =>
    have hzip : pubkeys.zip (pubkeys.map accounts) = pubkeys.map fun p => (p, accounts p) := by
      simpa using List.zip_map' (f := id) (g := accounts) (l := pubkeys)
    simp [Except.map, accountsOf, hzip]

/-- Every key is looked up among the overwrites, and if it is not there, at the block. -/
theorem run_getAccountsFromOverwritesOrNode
    {read : Except Client.Error (Pubkey → Option Account)} (h : KeyByKey node hash read)
    (pubkeys : List Pubkey) (overwriteAccounts : Option (HashMap Pubkey Account)) :
    (getAccountsFromOverwritesOrNode pubkeys overwriteAccounts hash).run node =
      (accountsOf read >>= fun accounts =>
        .ok (pubkeys.map fun p => (p, overlay overwriteAccounts accounts p))) := by
  simp only [getAccountsFromOverwritesOrNode, Prog.run_bind, run_getAccounts h]
  cases accountsOf read with
  | error e => rfl
  | panicked => rfl
  | ok accounts =>
    simp only [Outcome.ok_bind, Prog.run_pure, Outcome.ok.injEq]
    apply List.map_congr_left
    intro p hp
    rw [HashMap.lookup_collect_graph, HashMap.lookup_collect_map, if_pos hp, overlay]
    cases hover : overwriteAccounts.bind fun overwrites => overwrites.lookup p with
    | none =>
      rw [if_pos (List.mem_filter.mpr ⟨hp, by rw [hover]; rfl⟩)]
      rfl
    | some account => rfl

/-- The accounts of the mints of some accounts, as they are collected at a block. -/
def mintAccountsAt (orders : IterOrders) (chain : Pubkey → Option Account)
    (mintPubkeys : HashMap Pubkey Pubkey) : HashMap Pubkey Account :=
  HashMap.collect <| ((orders.mintPubkeys.iter mintPubkeys).map Prod.snd).filterMap fun m =>
    (chain m).map fun account => (m, account)

/-- The additional data collected for the mints of some accounts is that of each mint. -/
theorem lookup_additionalData (mintPubkeys : HashMap Pubkey Pubkey)
    (timestamp : Client.UnixTimestamp) {pubkey mintPubkey : Pubkey}
    (h : mintPubkeys.lookup pubkey = some mintPubkey) :
    (getMultipleAdditionalMintData lib orders (mintAccountsAt orders chain mintPubkeys)
      timestamp).lookup mintPubkey = mintData lib chain timestamp mintPubkey := by
  have hmem : mintPubkey ∈ (orders.mintPubkeys.iter mintPubkeys).map Prod.snd :=
    List.mem_map.mpr ⟨(pubkey, mintPubkey), orders.mintPubkeys.mem_iter.mpr h, rfl⟩
  have hdata := orders.mintAccounts.lookup_collect_filterMap
    (mintAccountsAt orders chain mintPubkeys)
    (fun account => (getAdditionalMintData lib account.data timestamp).toOption.map
      fun data => (⟨some data⟩ : AccountAdditionalDataV2)) mintPubkey
  rw [mintAccountsAt, HashMap.lookup_collect_graph, if_pos hmem] at hdata
  simpa [getMultipleAdditionalMintData, mintAccountsAt, mintData, Function.comp_def] using hdata

theorem parsedPairs_eq (keyedAccounts : List (Pubkey × Account)) (timestamp : Client.UnixTimestamp) :
    parsedPairs lib keyedAccounts (getMultipleTokenAccountMint lib keyedAccounts)
      (getMultipleAdditionalMintData lib orders (mintAccountsAt orders chain
        (getMultipleTokenAccountMint lib keyedAccounts)) timestamp).lookup =
      parsedPairs lib keyedAccounts (getMultipleTokenAccountMint lib keyedAccounts)
        (mintData lib chain timestamp) := by
  apply List.map_congr_left
  intro p _
  cases h : (getMultipleTokenAccountMint lib keyedAccounts).lookup p.1 with
  | none => simp only [h, Option.bind_none]
  | some mintPubkey => simp only [h, Option.bind_some, lookup_additionalData _ timestamp h]

/-- Of the pairs of one key the account of the last is encoded in the end. -/
theorem lookup_parsedPairs (keyedAccounts : List (Pubkey × Account))
    (mintPubkeys : HashMap Pubkey Pubkey)
    (additionalData : Pubkey → Option AccountAdditionalDataV2) (pubkey : Pubkey) :
    (HashMap.collect (parsedPairs lib keyedAccounts mintPubkeys additionalData)).lookup pubkey =
      ((HashMap.collect keyedAccounts).lookup pubkey).map fun account =>
        lib.encodeUiAccount pubkey account .jsonParsed
          ((mintPubkeys.lookup pubkey).bind additionalData) none :=
  HashMap.lookup_collect_mapValues (fun p account => lib.encodeUiAccount p account .jsonParsed
    ((mintPubkeys.lookup p).bind additionalData) none) keyedAccounts pubkey

/-- A key for which a mint is found has an account. -/
theorem exists_account_of_mint {keyedAccounts : List (Pubkey × Account)} {pubkey mintPubkey : Pubkey}
    (h : (getMultipleTokenAccountMint lib keyedAccounts).lookup pubkey = some mintPubkey) :
    ∃ account, (HashMap.collect keyedAccounts).lookup pubkey = some account := by
  obtain ⟨p, hp, hmint⟩ := List.mem_filterMap.mp (HashMap.mem_of_lookup_collect h)
  obtain ⟨_, -, heq⟩ := Option.map_eq_some_iff.mp hmint
  have hkey : pubkey ∈ keyedAccounts.map Prod.fst :=
    List.mem_map.mpr ⟨p, hp, congrArg Prod.fst heq⟩
  exact Option.ne_none_iff_exists'.mp (mt HashMap.lookup_collect_eq_none_iff.mp (not_not.mpr hkey))

/-- Of the keys looked up those with an account are kept. -/
theorem filterMap_found (accounts : Pubkey → Option Account) (ms : List Pubkey) :
    ((ms.map fun m => (m, accounts m)).filterMap fun (mintPubkey, mintAccount) =>
      mintAccount.map fun account => (mintPubkey, account)) =
    ms.filterMap fun m => (accounts m).map fun account => (m, account) := by
  rw [List.filterMap_map]
  rfl

/-- Parsing token accounts: it takes the timestamp of the block, and gives each account
the data of the mint found for its key. -/
theorem run_getParsedTokenAccounts_of {read : Except Client.Error (Pubkey → Option Account)}
    (h : KeyByKey node hash read) (keyedAccounts : List (Pubkey × Account))
    (overwriteAccounts : Option (HashMap Pubkey Account)) :
    (getParsedTokenAccounts lib orders keyedAccounts hash overwriteAccounts).run node =
      (accountsOf read >>= fun accounts => timestampOf node hash >>= fun timestamp =>
        .ok (HashMap.collect (parsedPairs lib keyedAccounts
          (getMultipleTokenAccountMint lib keyedAccounts)
          (mintData lib (overlay overwriteAccounts accounts) timestamp)))) := by
  simp only [getParsedTokenAccounts, Prog.run_bind, run_getAccountsFromOverwritesOrNode h]
  cases accountsOf read with
  | error e => rfl
  | panicked => rfl
  | ok accounts =>
    simp only [Outcome.ok_bind, run_callNode, Prog.run_pure, filterMap_found]
    refine congrArg (timestampOf node hash >>= ·) (funext fun timestamp => ?_)
    exact congrArg (fun pairs => Outcome.ok (HashMap.collect pairs))
      (parsedPairs_eq keyedAccounts timestamp)

theorem run_getParsedTokenAccounts (keyedAccounts : List (Pubkey × Account)) :
    (getParsedTokenAccounts lib orders keyedAccounts hash none).run (node.serving chain) =
      (timestampOf node hash >>= fun timestamp => .ok (HashMap.collect
        (parsedPairs lib keyedAccounts (getMultipleTokenAccountMint lib keyedAccounts)
          (mintData lib chain timestamp)))) := by
  rw [run_getParsedTokenAccounts_of keyByKey_serving, timestampOf, Client.getTimestamp_serving]
  rfl

/-- The mint found for a key all of whose accounts are the same is that of the account. -/
theorem lookup_getMultipleTokenAccountMint {keyedAccounts : List (Pubkey × Account)}
    {pubkey : Pubkey} {account : Account}
    (h : ∀ a, (pubkey, a) ∈ keyedAccounts ↔ a = account) :
    (getMultipleTokenAccountMint lib keyedAccounts).lookup pubkey =
      lib.getTokenAccountMint account.data := by
  apply HashMap.lookup_collect
  intro mintPubkey
  simp only [List.mem_filterMap, Option.map_eq_some_iff, Prod.mk.injEq]
  constructor
  · rintro ⟨⟨p, a⟩, hmem, m, hm, rfl, rfl⟩
    rwa [(h a).mp hmem] at hm
  · intro hm
    exact ⟨(pubkey, account), (h account).mpr rfl, mintPubkey, hm, rfl, rfl⟩

end Solana

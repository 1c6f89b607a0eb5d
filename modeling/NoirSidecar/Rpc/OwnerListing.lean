-- SUMMARY: What `getTokenAccountsByOwner` lists, whatever rows the index holds.
import NoirSidecar.Index.Completeness
import NoirSidecar.Rpc.SizeLimit

/-!
# Listings by owner

Rows are never taken out of the index, so some of them are about accounts that have
been closed or have another owner by now. What is listed is decided by the filters
the request puts to the node.
-/

/-! ## Node and chain -/

/-- The key with its account, if there is one, it belongs to the program, and it passes
the filters. -/
def selectAccount (chain : Pubkey → Option Account) (programId : Pubkey)
    (filters : List RpcFilterType) (pubkey : Pubkey) : Option (Pubkey × Account) :=
  (chain pubkey).bind fun account =>
    if account.owner = programId ∧ filters.all (filterAllows · account) then some (pubkey, account)
    else none

/-- What the node answers about a block is what its accounts are; it may also fail. -/
structure Node.Shows (node : Node) (hash : Hash) (chain : Pubkey → Option Account) : Prop where
  account : ∀ pubkey account,
    node (.runtime (.getAccountInfo pubkey) (some hash)) = .value account → account = chain pubkey
  programAccounts : ∀ programId keys filters accounts,
    node (.runtime (.getProgramAccounts programId keys filters) (some hash)) = .value accounts →
      accounts = keys.filterMap (selectAccount chain programId filters)

/-- Slots and timestamps are stored as eight bytes. -/
def Node.StoresU64 (node : Node) : Prop :=
  ∀ key hash text bytes, key = Client.slotKey ∨ key = Client.timestampKey →
    node (.stateGetStorage key hash) = .ok (some text) →
    Hex.decode (Client.stripHexPrefix text) = .ok bytes → bytes.length = 8

/-- A node that answers every question about accounts from one account map. -/
def Node.listing (accounts : Pubkey → Option Account) (node : Node) : Node
  | .runtime (.getProgramAccounts programId keys filters) _ =>
    .value (keys.filterMap (selectAccount accounts programId filters))
  | call => node.serving accounts call

theorem Node.shows_listing (node : Node) (accounts : Pubkey → Option Account) (hash : Hash) :
    (node.listing accounts).Shows hash accounts where
  account := fun _ _ h => by cases h; rfl
  programAccounts := fun _ _ _ _ h => by cases h; rfl

namespace Solana

variable {lib : Decoder} {orders : IterOrders} {node : Node} {hash : Hash}
  {chain : Pubkey → Option Account}

/-! ## Nothing panics -/

section Returns

variable {σ : Type} {index : AccountsIndex σ}

theorem returns_runtimeCall (call : RuntimeCall) (block : Option Hash) :
    (callNode (Client.runtimeCall call block)).left.Returns (Prog.beside node index) := by
  apply Prog.returns_left
  rw [run_callNode, Client.run_runtimeCall]
  cases (node (.runtime call block)).toExcept <;> simp

theorem returns_readStorageU64 (h : node.StoresU64) {key : String}
    (hkey : key = Client.slotKey ∨ key = Client.timestampKey) (missing : String) (hash : Hash) :
    (callNode (Client.readStorageU64 key missing hash)).left.Returns (Prog.beside node index) := by
  apply Prog.returns_left
  rw [run_callNode, Client.run_readStorageU64]
  cases hanswer : node (.stateGetStorage key hash) with
  | error e => simp
  | ok value =>
    cases value with
    | none => simp [Client.parseStorageU64]
    | some text =>
      simp only [Outcome.ofExcept_ok, Outcome.ok_bind, Client.parseStorageU64]
      cases hbytes : Hex.decode (Client.stripHexPrefix text) with
      | error e => simp
      | ok bytes => simp [h key hash text bytes hkey hanswer hbytes]

theorem returns_getHashWithConfig (config : RpcContextConfig) :
    (getHashWithConfig config).left.Returns (Prog.beside node index) := by
  apply Prog.returns_left
  unfold getHashWithConfig Solana.hash
  split
  · rw [run_callNode, Client.run_latestBlockhash]
    cases node .chainGetBlockHash <;> simp
  · rw [run_callNode, Client.run_finalizedBlockhash]
    cases node .chainGetFinalizedHead <;> simp
  · rw [run_callNode, Client.run_finalizedBlockhash]
    cases node .chainGetFinalizedHead <;> simp

theorem returns_getSlot (h : node.StoresU64) (hash : Hash) :
    (callNode (Client.getSlot hash)).left.Returns (Prog.beside node index) :=
  returns_readStorageU64 h (.inl rfl) _ hash

theorem returns_getTimestamp (h : node.StoresU64) (hash : Hash) :
    (callNode (Client.getTimestamp hash)).left.Returns (Prog.beside node index) := by
  rw [callNode, Client.getTimestamp, Prog.mapError_bind, Prog.left_bind]
  exact (returns_readStorageU64 h (.inr rfl) _ hash).bind fun _ => Prog.returns_pure _

theorem returns_getTokenProgramIdAndMint (h : node.StoresU64) (filter : TokenAccountsFilter)
    (hash : Hash) :
    (getTokenProgramIdAndMint lib filter hash).left.Returns (Prog.beside node index) := by
  cases filter with
  | programId programId =>
    simp only [getTokenProgramIdAndMint]
    split <;> simp
  | mint mint =>
    simp only [getTokenProgramIdAndMint, Prog.left_bind]
    refine Prog.Returns.bind ?_ fun owner => ?_
    · unfold getMintOwnerAndAdditionalData
      split
      · simp
      · rw [Prog.left_bind]
        refine (returns_runtimeCall _ _).bind fun account => ?_
        split
        · simp
        · rw [Prog.left_bind]
          refine (returns_getTimestamp h hash).bind fun timestamp => ?_
          rw [Prog.left_bind, Prog.left_ofExcept]
          exact (Prog.returns_ofExcept _).bind fun _ => Prog.returns_pure _
    · split <;> simp

/-- A request that is not to be parsed never panics. -/
theorem returns_getTokenAccountsByOwner (h : node.StoresU64) (ownerStr : String)
    (tokenAccountFilter : RpcTokenAccountsFilter) (config : Option RpcAccountInfoConfig)
    (hencoding : (config.getD {}).encoding ≠ some .jsonParsed) :
    (getTokenAccountsByOwner lib orders ownerStr tokenAccountFilter config).Returns
      (Prog.beside node index) := by
  have hparsed : ¬ (config.getD {}).encoding.getD .binary = .jsonParsed := by
    cases hc : (config.getD {}).encoding <;> simp_all
  refine (Prog.returns_ofExcept _).bind fun owner => (Prog.returns_ofExcept _).bind fun filter =>
    (returns_getHashWithConfig _).bind fun hash => (returns_getSlot h hash).bind fun slot =>
    (returns_getTokenProgramIdAndMint h filter hash).bind fun program => ?_
  refine Prog.Returns.bind ?_ fun keyedAccounts => ?_
  · exact (Prog.returns_ask fun _ => Prog.returns_ofExcept _).bind fun _ => returns_runtimeCall _ _
  · dsimp only
    rw [if_neg hparsed]
    exact (Prog.returns_ofExcept _).bind fun _ => Prog.returns_pure _

end Returns

/-! ## What is listed -/

/-- The token program and the mint a filter stands for at a block. -/
def resolveFilter (chain : Pubkey → Option Account) : TokenAccountsFilter → Option (Pubkey × Option Pubkey)
  | .mint mint =>
    if mint = SplToken.nativeMint then some (SplToken.id, some mint)
    else (chain mint).map fun account => (account.owner, some mint)
  | .programId programId => some (programId, none)

/-- The key is that of a token account of the program, with the owner and, if one is
given, the mint. -/
def isTokenAccountOf (chain : Pubkey → Option Account) (programId owner : Pubkey)
    (mint : Option Pubkey) (pubkey : Pubkey) : Bool :=
  (chain pubkey).any fun account =>
    account.owner == programId && SplToken.validAccountData account.data &&
      account.data.field SplToken.Account.ownerOffset 32 == owner.bytes &&
      mint.all fun mint => account.data.field SplToken.Account.mintOffset 32 == mint.bytes

/-- The filters of a request by owner let exactly these accounts through. -/
theorem isSome_selectAccount (chain : Pubkey → Option Account) (programId owner : Pubkey)
    (mint : Option Pubkey) (pubkey : Pubkey) :
    (selectAccount chain programId
      (mintFilters mint ++ redundantFilters SplToken.Account.ownerOffset owner) pubkey).isSome =
      isTokenAccountOf chain programId owner mint pubkey := by
  rw [Bool.eq_iff_iff]
  unfold selectAccount isTokenAccountOf
  cases chain pubkey with
  | none => simp
  | some account =>
    cases mint <;> simp [mintFilters, redundantFilters, filterAllows, Option.isSome_ite] <;> tauto

theorem map_fst_selectAccounts (chain : Pubkey → Option Account) (programId : Pubkey)
    (filters : List RpcFilterType) (keys : List Pubkey) :
    (keys.filterMap (selectAccount chain programId filters)).map Prod.fst =
      keys.filter fun p => (selectAccount chain programId filters p).isSome := by
  induction keys with
  | nil => rfl
  | cons p keys ih =>
    have hkey : ∀ found, selectAccount chain programId filters p = some found → found.1 = p := by
      intro found hfound
      obtain ⟨account, -, hfound⟩ := Option.bind_eq_some_iff.mp hfound
      split at hfound
      · cases hfound
        rfl
      · cases hfound
    cases hselect : selectAccount chain programId filters p with
    | none => simp [hselect, ih]
    | some found => simp [hselect, ih, hkey found hselect]

/-- A listing has the keys of its accounts, in their order. -/
theorem encodeKeyedAccounts_ok {encoding : UiAccountEncoding} {dataSlice : Option UiDataSliceConfig}
    {keyedAccounts : List (Pubkey × Account)} {accounts : List RpcKeyedAccount}
    (h : encodeKeyedAccounts lib encoding dataSlice keyedAccounts = .ok accounts) :
    accounts.map RpcKeyedAccount.pubkey = (keyedAccounts.map Prod.fst).map Pubkey.toString := by
  unfold encodeKeyedAccounts at h
  induction keyedAccounts generalizing accounts with
  | nil => cases h; rfl
  | cons p keyedAccounts ih =>
    rw [List.mapM_cons, Except.bind_eq_ok_iff] at h
    obtain ⟨entry, hentry, h⟩ := h
    obtain ⟨rest, hrest, h⟩ := Except.bind_eq_ok_iff.mp h
    obtain ⟨account, -, hentry⟩ := Except.bind_eq_ok_iff.mp hentry
    cases h
    cases hentry
    simp [ih hrest]

/-- The filter a request by owner resolves is a program the sidecar knows. -/
theorem resolveFilter_of_run (hnode : node.Shows hash chain) {filter : TokenAccountsFilter}
    {program : Pubkey × Option Pubkey}
    (h : (getTokenProgramIdAndMint lib filter hash).run node = .ok program) :
    resolveFilter chain filter = some program := by
  cases filter with
  | programId programId =>
    simp only [getTokenProgramIdAndMint] at h
    -- only programs the sidecar knows are accepted
    split at h
    · cases h
      rfl
    · cases h
  | mint mint =>
    simp only [getTokenProgramIdAndMint, Prog.run_bind] at h
    obtain ⟨⟨owner, data⟩, howner, h⟩ := Outcome.bind_eq_ok_iff.mp h
    simp only at h
    split at h
    · cases h
    · cases h
      unfold getMintOwnerAndAdditionalData at howner
      split at howner
      -- the mint of the native token is not looked up
      · next hnative =>
        cases howner
        exact if_pos hnative
      · next hnative =>
        rw [Prog.run_bind] at howner
        obtain ⟨account, haccount, howner⟩ := Outcome.bind_eq_ok_iff.mp howner
        have hchain := hnode.account _ _ (run_runtimeCall_eq_ok.mp haccount)
        split at howner
        · cases howner
        · next account =>
          simp only [Prog.run_bind] at howner
          obtain ⟨timestamp, -, howner⟩ := Outcome.bind_eq_ok_iff.mp howner
          obtain ⟨mintData, -, howner⟩ := Outcome.bind_eq_ok_iff.mp howner
          cases howner
          rw [resolveFilter, if_neg hnative, ← hchain]
          rfl

/-! ## Listings by owner -/

variable {engine : Index.Engine} {db db' : Index.Db}

/-- The keys an index lists for a key, each once and in the order of the index. -/
structure IndexLists (engine : Index.Engine) (db : Index.Db) (index : AccountIndex)
    (indexKey : Pubkey) (sortResults : Bool) (keys : List Pubkey) : Prop where
  order : engine.select db index indexKey sortResults = keys.map Pubkey.toString
  nodup : keys.Nodup
  mem : ∀ p, p ∈ keys ↔ db.Holds ⟨index, indexKey, p⟩

theorem indexLists_of_exec {index : AccountIndex} {indexKey : Pubkey} {sortResults : Bool}
    {keys : List Pubkey}
    (h : (getIndexedKeys index indexKey sortResults).exec
      (Prog.beside node engine.accountsIndex) db = (.ok keys, db')) :
    IndexLists engine db index indexKey sortResults keys := by
  obtain ⟨keys', hkeys, hnodup, hmem⟩ := engine.select_eq db index indexKey sortResults
  have hread : (engine.getIndexedKeys index indexKey sortResults db).1 = .ok keys := by
    simp only [getIndexedKeys, Prog.exec, Prog.exec_ofExcept] at h
    have hanswer := congrArg Prod.fst h
    simp only [Prog.beside, Index.Engine.accountsIndex] at hanswer
    cases hindex : (engine.getIndexedKeys index indexKey sortResults db).1 with
    | error e => simp [hindex, Except.mapError] at hanswer
    | ok keys => simpa [hindex, Except.mapError] using hanswer
  have horder := engine.select_of_getIndexedKeys hread
  rw [horder] at hkeys
  obtain rfl := List.map_injective_iff.mpr Pubkey.toString_injective hkeys
  exact ⟨horder, hnodup, hmem⟩

theorem filterMap_of_run (hnode : node.Shows hash chain) {programId : Pubkey} {keys : List Pubkey}
    {filters : List RpcFilterType} {accounts : List (Pubkey × Account)}
    (h : (getFilteredIndexedAccounts programId keys filters hash).exec
      (Prog.beside node engine.accountsIndex) db = (.ok accounts, db')) :
    accounts = keys.filterMap (selectAccount chain programId filters) := by
  rw [getFilteredIndexedAccounts, Prog.exec_left] at h
  exact hnode.programAccounts _ _ _ _ (run_runtimeCall_eq_ok.mp (congrArg Prod.fst h))

/-- The response lists exactly the token accounts with the owner among the keys in the
index, at the block of the request. -/
def ListsByOwner (engine : Index.Engine) (db : Index.Db) (node : Node)
    (chain : Hash → Pubkey → Option Account) (ownerStr : String)
    (tokenAccountFilter : RpcTokenAccountsFilter) (config : RpcAccountInfoConfig)
    (response : RpcResponse (List RpcKeyedAccount)) : Prop :=
  ∃ owner filter hash programId mint keys, verifyPubkey ownerStr = .ok owner ∧
    verifyTokenAccountFilter tokenAccountFilter = .ok filter ∧
    (getHashWithConfig ⟨config.commitment, config.minContextSlot⟩).run node = .ok hash ∧
    resolveFilter (chain hash) filter = some (programId, mint) ∧
    IndexLists engine db .splTokenOwner owner true keys ∧
    response.value.map RpcKeyedAccount.pubkey =
      (keys.filter (isTokenAccountOf (chain hash) programId owner mint)).map Pubkey.toString

/-- What a successful request by owner lists. -/
theorem getTokenAccountsByOwner_ok {chain : Hash → Pubkey → Option Account}
    (hnode : ∀ hash, node.Shows hash (chain hash)) {ownerStr : String}
    {tokenAccountFilter : RpcTokenAccountsFilter} {config : Option RpcAccountInfoConfig}
    (hencoding : (config.getD {}).encoding ≠ some .jsonParsed)
    {response : RpcResponse (List RpcKeyedAccount)}
    (h : ((getTokenAccountsByOwner lib orders ownerStr tokenAccountFilter config).exec
      (Prog.beside node engine.accountsIndex) db).1 = .ok response) :
    ListsByOwner engine db node chain ownerStr tokenAccountFilter (config.getD {}) response := by
  have hparsed : ¬ (config.getD {}).encoding.getD .binary = .jsonParsed := by
    cases hc : (config.getD {}).encoding <;> simp_all
  obtain ⟨owner, howner, h⟩ := Prog.exec_ofExcept_bind_eq_ok.mp h
  obtain ⟨filter, hfilter, h⟩ := Prog.exec_ofExcept_bind_eq_ok.mp h
  obtain ⟨hash, hhash, h⟩ := Prog.exec_left_bind_eq_ok.mp h
  obtain ⟨slot, -, h⟩ := Prog.exec_left_bind_eq_ok.mp h
  obtain ⟨⟨programId, mint⟩, hprogram, h⟩ := Prog.exec_left_bind_eq_ok.mp h
  obtain ⟨keyedAccounts, s, hkeyed, h⟩ := Prog.exec_bind_eq_ok.mp h
  have hlist : ∃ keys, IndexLists engine db .splTokenOwner owner true keys ∧
      keyedAccounts = keys.filterMap (selectAccount (chain hash) programId
        (mintFilters mint ++ redundantFilters SplToken.Account.ownerOffset owner)) := by
    obtain ⟨keys, s', hkeys, hnodes⟩ := Prog.exec_bind_eq.mp hkeyed
    exact ⟨keys, indexLists_of_exec hkeys, filterMap_of_run (hnode hash) hnodes⟩
  obtain ⟨keys, hkeys, rfl⟩ := hlist
  dsimp only at h
  rw [if_neg hparsed] at h
  obtain ⟨accounts, haccounts, h⟩ := Prog.exec_ofExcept_bind_eq_ok.mp h
  cases h
  refine ⟨owner, filter, hash, programId, mint, keys, howner, hfilter, hhash,
    resolveFilter_of_run (hnode hash) hprogram, hkeys, ?_⟩
  rw [encodeKeyedAccounts_ok haccounts, map_fst_selectAccounts]
  simp only [isSome_selectAccount]

/-- A request by owner fails, or it lists exactly the token accounts with the owner among
the keys in the index, whatever else the index holds. -/
theorem listed_by_owner (engine : Index.Engine) (db : Index.Db) (lib : Decoder)
    (orders : IterOrders) (node : Node) (chain : Hash → Pubkey → Option Account) (ownerStr : String)
    (tokenAccountFilter : RpcTokenAccountsFilter) (config : Option RpcAccountInfoConfig)
    (hnode : ∀ hash, node.Shows hash (chain hash)) (hstore : node.StoresU64)
    (hencoding : (config.getD {}).encoding ≠ some .jsonParsed) :
    (∃ e, ((getTokenAccountsByOwner lib orders ownerStr tokenAccountFilter config).exec
      (Prog.beside node engine.accountsIndex) db).1 = .error e) ∨
    ∃ response, ((getTokenAccountsByOwner lib orders ownerStr tokenAccountFilter config).exec
        (Prog.beside node engine.accountsIndex) db).1 = .ok response ∧
      ListsByOwner engine db node chain ownerStr tokenAccountFilter (config.getD {}) response := by
  cases hanswer : ((getTokenAccountsByOwner lib orders ownerStr tokenAccountFilter config).exec
      (Prog.beside node engine.accountsIndex) db).1 with
  | ok response => exact .inr ⟨response, rfl, getTokenAccountsByOwner_ok hnode hencoding hanswer⟩
  | error e => exact .inl ⟨e, rfl⟩
  | panicked =>
    exact absurd hanswer (returns_getTokenAccountsByOwner hstore _ _ _ hencoding db)

/-! ## A closed account -/

/-- Of two accounts that were indexed only one is left. -/
def oneLeft (pubkey : Pubkey) : Option Account :=
  if pubkey = .ofByte 1 then some someAccount else none

def oneLeftNode : Node := (Chain.nodeAt Chain.steadyNode (.single .zero)).listing oneLeft

theorem storesU64_oneLeftNode : oneLeftNode.StoresU64 := by
  intro key hash text bytes _ htext hbytes
  cases htext
  cases hbytes
  rfl

/-- The index after both accounts were read. -/
def staleIndex : Index.Db :=
  Index.Completeness.dbAfter (.empty [])
    (Index.Completeness.uniformReading .dead [.ofByte 1, .ofByte 2])

def inBase64 : RpcAccountInfoConfig := { encoding := some .base64 }

def staleAnswer : Outcome ErrorObject (RpcResponse (List RpcKeyedAccount)) :=
  ((getTokenAccountsByOwner tokenDecoder listedOrders (Pubkey.ofByte 4).toString
    (.programId SplToken.id.toString) (some inBase64)).exec
      (Prog.beside oneLeftNode Index.sqliteEngine.accountsIndex) staleIndex).1

theorem select_staleIndex : Index.sqliteEngine.select staleIndex .splTokenOwner (.ofByte 4) true =
    [(Pubkey.ofByte 1).toString, (Pubkey.ofByte 2).toString] := by
  have hrows : (staleIndex.table.rows.filter fun r => r.indexName == getIndexName .splTokenOwner &&
      r.indexKey == (Pubkey.ofByte 4).toString).map Index.Row.indexedKey =
        [(Pubkey.ofByte 1).toString, (Pubkey.ofByte 2).toString] := by decide +kernel
  rw [Index.Engine.select, if_pos rfl, hrows]
  exact List.mergeSort_of_pairwise (by decide +kernel)

theorem getIndexedKeys_staleIndex :
    Index.sqliteEngine.getIndexedKeys .splTokenOwner (.ofByte 4) true staleIndex =
      (.ok [.ofByte 1, .ofByte 2], staleIndex) := by
  have hfaults : staleIndex.faults = [] := by decide +kernel
  have hnext : staleIndex.next = (none, staleIndex) := by rw [Index.Db.next, hfaults]
  rw [Index.Engine.getIndexedKeys, hnext]
  dsimp only
  rw [select_staleIndex]
  simp [Index.readKeys, Except.map]

/-- Only the account that is left is shown. -/
theorem staleAnswer_eq : staleAnswer = .ok {
    context := { slot := 0 }
    value := [⟨(Pubkey.ofByte 1).toString,
      encodeUiAccount (.ofByte 1) someAccount .base64 none none⟩] } := by
  have howner : verifyPubkey (Pubkey.ofByte 4).toString = .ok (.ofByte 4) := by decide +kernel
  have hprogram : verifyTokenAccountFilter (.programId SplToken.id.toString) =
      .ok (.programId SplToken.id) := by decide +kernel
  refine Prog.exec_ofExcept_bind_eq_ok.mpr ⟨_, howner, ?_⟩
  refine Prog.exec_ofExcept_bind_eq_ok.mpr ⟨_, hprogram, ?_⟩
  refine Prog.exec_left_bind_eq_ok.mpr ⟨.zero, rfl, ?_⟩
  refine Prog.exec_left_bind_eq_ok.mpr ⟨0, rfl, ?_⟩
  refine Prog.exec_left_bind_eq_ok.mpr ⟨(SplToken.id, none), rfl, ?_⟩
  refine Prog.exec_bind_eq_ok.mpr ⟨[(.ofByte 1, someAccount)], staleIndex, ?_, rfl⟩
  have hlisted : (oneLeftNode (.runtime (.getProgramAccounts SplToken.id [.ofByte 1, .ofByte 2]
      (mintFilters none ++ redundantFilters SplToken.Account.ownerOffset (.ofByte 4)))
        (some .zero))) = .value [(.ofByte 1, someAccount)] :=
    congrArg StateCall.value (by decide +kernel)
  refine Prog.exec_bind_eq.mpr ⟨[.ofByte 1, .ofByte 2], staleIndex, ?_, ?_⟩
  · simp [getIndexedKeys, Prog.exec, Prog.beside, Index.Engine.accountsIndex,
      getIndexedKeys_staleIndex, Except.mapError]
  · rw [getFilteredIndexedAccounts, Prog.exec_left]
    exact congrArg (·, staleIndex) (run_runtimeCall_eq_ok.mpr hlisted)

/-- The closed account is not listed, though the index still has its key. -/
theorem listed_by_owner_stale : ∃ response, staleAnswer = .ok response ∧
    response.value.map RpcKeyedAccount.pubkey = [(Pubkey.ofByte 1).toString] ∧
    ListsByOwner Index.sqliteEngine staleIndex oneLeftNode (fun _ => oneLeft)
      (Pubkey.ofByte 4).toString (.programId SplToken.id.toString) inBase64 response := by
  have hanswer := staleAnswer_eq
  obtain ⟨e, he⟩ | ⟨response, hok, hlists⟩ := listed_by_owner Index.sqliteEngine staleIndex
    tokenDecoder listedOrders oneLeftNode (fun _ => oneLeft) (Pubkey.ofByte 4).toString
    (.programId SplToken.id.toString) (some inBase64) (fun hash => Node.shows_listing _ _ hash)
    storesU64_oneLeftNode nofun
  · cases hanswer.symm.trans he
  · cases hanswer.symm.trans hok
    exact ⟨_, hanswer, rfl, hlists⟩

end Solana

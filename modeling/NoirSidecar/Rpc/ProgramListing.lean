-- SUMMARY: Which accounts of a program `getProgramAccounts` finds in an index that has seen all of them.
import NoirSidecar.Rpc.OwnerListing

/-!
# Listings by program

Without filters that fit another index, `getProgramAccounts` takes what is listed under
the program, for whatever program it is asked about. The index has entries for token
accounts only.
-/

namespace Solana

open Index

/-- The account is there and belongs to the program. -/
def Owns (chain : Pubkey → Option Account) (programId pubkey : Pubkey) : Prop :=
  ∃ account, chain pubkey = some account ∧ account.owner = programId

/-- The request has no filters, and its answer is not to be parsed. -/
structure Plain (programId : Pubkey) (config : RpcProgramAccountsConfig) : Prop where
  filters : config.filters.getD [] = []
  encoding : ¬ (isKnownSplTokenId programId ∧
    config.accountConfig.encoding.getD .binary = .jsonParsed)

/-- A request for the accounts of the program at the block finds the key: the index lists
it, and without filters it is among the accounts found, and in the answer. -/
structure FindsAccount (lib : Decoder) (orders : IterOrders) (base64Error : String → String)
    (node : Node) (hash : Hash) (engine : Engine) (db : Db) (programId pubkey : Pubkey) : Prop where
  listed : engine.Lists db ⟨.programId, programId, pubkey⟩
  found : ∀ sortResults accounts,
    ((programAccounts programId [] sortResults hash).exec
      (Prog.beside node engine.accountsIndex) db).1 = .ok accounts →
    pubkey ∈ accounts.map Prod.fst
  answered : ∀ (config : Option RpcProgramAccountsConfig) response,
    Plain programId (config.getD {}) →
    (getHashWithConfig ⟨(config.getD {}).accountConfig.commitment,
      (config.getD {}).accountConfig.minContextSlot⟩).run node = .ok hash →
    ((getProgramAccounts lib orders base64Error programId.toString config).exec
      (Prog.beside node engine.accountsIndex) db).1 = .ok response →
    pubkey.toString ∈ response.value.map RpcKeyedAccount.pubkey

variable {lib : Decoder} {orders : IterOrders} {base64Error : String → String} {node : Node}
  {hash : Hash} {chain : Pubkey → Option Account} {engine : Engine} {db : Db}
  {programId pubkey : Pubkey}

/-- An empty filter list is not routed. -/
theorem programAccounts_nil (sortResults : Bool) (hash : Hash) :
    programAccounts programId [] sortResults hash = (do
      let indexedKeys ← getIndexedKeys .programId programId sortResults
      getFilteredIndexedAccounts programId indexedKeys [] hash) := by
  have hnone : ∀ offset, splTokenKeyFilter offset programId [] = none := by
    intro offset
    unfold splTokenKeyFilter
    split <;> rfl
  simp only [programAccounts, getSplTokenOwnerFilter, getSplTokenMintFilter, hnone]

/-- The accounts found without filters are those of the keys listed that the program owns. -/
theorem mem_programAccounts (hnode : node.Shows hash chain) {sortResults : Bool}
    {accounts : List (Pubkey × Account)}
    (h : ((programAccounts programId [] sortResults hash).exec
      (Prog.beside node engine.accountsIndex) db).1 = .ok accounts) :
    pubkey ∈ accounts.map Prod.fst ↔
      db.Holds ⟨.programId, programId, pubkey⟩ ∧ Owns chain programId pubkey := by
  rw [programAccounts_nil] at h
  obtain ⟨keys, db', hkeys, h⟩ := Prog.exec_bind_eq_ok.mp h
  obtain rfl := filterMap_of_run hnode (Prod.ext h rfl)
  rw [map_fst_selectAccounts, List.mem_filter, (indexLists_of_exec hkeys).mem]
  refine and_congr_right fun _ => ?_
  unfold selectAccount Owns
  cases chain pubkey <;> simp [Option.isSome_ite]

/-- What a plain request is answered with. -/
theorem getProgramAccounts_ok {config : Option RpcProgramAccountsConfig}
    (hplain : Plain programId (config.getD {}))
    (hhash : (getHashWithConfig ⟨(config.getD {}).accountConfig.commitment,
      (config.getD {}).accountConfig.minContextSlot⟩).run node = .ok hash)
    {response : OptionalContext (List RpcKeyedAccount)}
    (h : ((getProgramAccounts lib orders base64Error programId.toString config).exec
      (Prog.beside node engine.accountsIndex) db).1 = .ok response) :
    ∃ sortResults accounts, ((programAccounts programId [] sortResults hash).exec
        (Prog.beside node engine.accountsIndex) db).1 = .ok accounts ∧
      response.value.map RpcKeyedAccount.pubkey = (accounts.map Prod.fst).map Pubkey.toString := by
  obtain ⟨programId', hprogram, h⟩ := Prog.exec_ofExcept_bind_eq_ok.mp h
  rw [verifyPubkey_toString] at hprogram
  cases hprogram
  simp only [hplain.filters, if_neg hplain.encoding] at h
  rw [if_neg (by decide)] at h
  obtain ⟨_, -, h⟩ := Prog.exec_ofExcept_bind_eq_ok.mp h
  obtain ⟨hash', hhash', h⟩ := Prog.exec_left_bind_eq_ok.mp h
  rw [hhash] at hhash'
  cases hhash'
  obtain ⟨slot, -, h⟩ := Prog.exec_left_bind_eq_ok.mp h
  obtain ⟨accounts, db', haccounts, h⟩ := Prog.exec_bind_eq_ok.mp h
  obtain ⟨keyed, hkeyed, h⟩ := Prog.exec_ofExcept_bind_eq_ok.mp h
  refine ⟨_, accounts, congrArg Prod.fst haccounts, ?_⟩
  rw [← encodeKeyedAccounts_ok hkeyed]
  split at h <;> cases h <;> rfl

/-- In a run that reads every key once, a key is found under the owner of its account
exactly if the account was read as a token account. -/
theorem findsAccount_iff (lib : Decoder) (orders : IterOrders) (base64Error : String → String)
    (node : Node) (hash : Hash) (chain : Pubkey → Option Account) (engine : Engine)
    (ts : List (Step Db Reading)) (db : Db) (x : Step Db Reading) (pubkey : Pubkey)
    (account : Account) (hnode : node.Shows hash chain)
    (hrun : Run (Completeness.step engine) (.empty []) ts db)
    (hnodup : (ts.flatMap fun x => x.ev.pubkeys).Nodup) (hx : x ∈ ts)
    (hread : (pubkey, some account) ∈ x.ev.accounts) (howned : Owns chain account.owner pubkey) :
    FindsAccount lib orders base64Error node hash engine db account.owner pubkey ↔
      ∃ token, ReadsAs account token := by
  obtain ⟨hcalm, hholds⟩ := Completeness.holds_iff_of_nodup hrun
  have hlisted : engine.Lists db ⟨.programId, account.owner, pubkey⟩ ↔
      ∃ token, ReadsAs account token := by
    rw [engine.lists_iff hcalm, hholds hnodup]
    constructor
    · rintro ⟨y, hy, hentry⟩
      obtain ⟨pubkey', account', token, hread', hreads, hentry⟩ := mem_entriesOf.mp hentry
      obtain rfl : pubkey = pubkey' := indexedKey_of_mem_tokenEntries hentry
      cases Completeness.account_unique hnodup hx hy hread hread'
      exact ⟨token, hreads⟩
    · rintro ⟨token, hreads⟩
      exact ⟨x, hx, mem_entriesOf.mpr ⟨pubkey, account, token, hread, hreads, by simp [tokenEntries]⟩⟩
  constructor
  · exact fun hfinds => hlisted.mp hfinds.listed
  · intro hreads
    have hlists := hlisted.mpr hreads
    have hfound : ∀ sortResults accounts,
        ((programAccounts account.owner [] sortResults hash).exec
          (Prog.beside node engine.accountsIndex) db).1 = .ok accounts →
        pubkey ∈ accounts.map Prod.fst := fun sortResults accounts h =>
      (mem_programAccounts hnode h).mpr ⟨(engine.lists_iff hcalm _).mp hlists, howned⟩
    refine ⟨hlists, hfound, fun config response hplain hhash h => ?_⟩
    obtain ⟨sortResults, accounts, haccounts, hresponse⟩ := getProgramAccounts_ok hplain hhash h
    rw [hresponse]
    exact List.mem_map_of_mem (hfound sortResults accounts haccounts)

/-! ## A program the index does not know -/

/-- An account of some other program. -/
def foreignAccount : Account where
  lamports := 0
  data := []
  owner := .ofByte 7
  executable := false
  rentEpoch := 0

def readingOf (account : Account) : Reading := .of .dead (fun _ => some account) [.ofByte 1]

def nodeWith (account : Account) : Node :=
  (Chain.nodeAt Chain.steadyNode (.single .zero)).listing fun _ => some account

def dbWith (account : Account) : Db := Completeness.dbAfter (.empty []) (readingOf account)

theorem run_readingOf (account : Account) :
    Run (Completeness.step sqliteEngine) (.empty [])
      [⟨.empty [], readingOf account, dbWith account⟩] (dbWith account) := .single rfl

/-- The account of another program was read and is still there; it is not found. -/
theorem foreign_account_not_found : ¬ ∀ (lib : Decoder) (orders : IterOrders)
    (base64Error : String → String) (node : Node) (hash : Hash) (chain : Pubkey → Option Account)
    (engine : Engine) (ts : List (Step Db Reading)) (db : Db) (x : Step Db Reading)
    (pubkey : Pubkey) (account : Account), node.Shows hash chain →
    Run (Completeness.step engine) (.empty []) ts db →
    (ts.flatMap fun x => x.ev.pubkeys).Nodup → x ∈ ts →
    (pubkey, some account) ∈ x.ev.accounts → Owns chain account.owner pubkey →
      FindsAccount lib orders base64Error node hash engine db account.owner pubkey := by
  intro hall
  have hrun := run_readingOf foreignAccount
  have hfinds := hall tokenDecoder listedOrders (fun _ => "") (nodeWith foreignAccount) .zero
    (fun _ => some foreignAccount) sqliteEngine _ _ _ (.ofByte 1) foreignAccount
    (Node.shows_listing _ _ _) hrun (by decide +kernel) (List.mem_singleton.mpr rfl)
    (List.mem_singleton.mpr rfl) ⟨foreignAccount, rfl, rfl⟩
  have hholds := (sqliteEngine.lists_iff (Completeness.holds_iff_of_nodup hrun).1 _).mp hfinds.listed
  revert hholds
  decide +kernel

/-- A token account is found. -/
theorem token_account_found :
    FindsAccount tokenDecoder listedOrders (fun _ => "") (nodeWith someAccount) .zero sqliteEngine
      (dbWith someAccount) SplToken.id (.ofByte 1) :=
  (findsAccount_iff _ _ _ _ _ _ _ _ _ _ _ _ (Node.shows_listing _ _ _) (run_readingOf someAccount)
    (by decide +kernel) (List.mem_singleton.mpr rfl) (List.mem_singleton.mpr rfl)
    ⟨someAccount, rfl, rfl⟩).mpr
      ⟨.new (.ofByte 3) (.ofByte 4), by decide +kernel, SplToken.Account.unpack_packNew _ _⟩

end Solana

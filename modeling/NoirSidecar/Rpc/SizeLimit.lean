-- SUMMARY: Which methods refuse to encode long data in base 58.
import NoirSidecar.Rpc.Indexed
import NoirSidecar.Rpc.Snapshot

/-!
# The size limit of base 58

Four methods return accounts. Each looks up its accounts and then encodes what it
found; three of them check the size of each account on the way.
-/

namespace Solana

/-! ## Slices -/

/-- `slice_data` of the account decoder: the bytes that are encoded. -/
def sliceData (data : Bytes) (dataSlice : Option UiDataSliceConfig) : Bytes :=
  match dataSlice with
  | none => data
  | some s =>
    if s.offset ≥ data.length then []
    else if s.length > data.length - s.offset then data.drop s.offset
    else data.field s.offset s.length

/-- The length the guard computes is that of the slice. -/
theorem length_sliceData (data : Bytes) (dataSlice : Option UiDataSliceConfig) :
    (sliceData data dataSlice).length =
      match dataSlice with
      | some s => min s.length (data.length - s.offset)
      | none => data.length := by
  cases dataSlice with
  | none => rfl
  | some s =>
    simp only [sliceData]
    split
    · next h => simp [Nat.sub_eq_zero_of_le h]
    · split
      · next h => rw [List.length_drop, Nat.min_eq_right (Nat.le_of_lt h)]
      · rw [Bytes.field, List.length_take, List.length_drop]

/-- The account is too long for base 58. -/
def TooLong (dataSlice : Option UiDataSliceConfig) (account : Account) : Prop :=
  maxBase58Bytes < (sliceData account.data dataSlice).length

instance (dataSlice : Option UiDataSliceConfig) (account : Account) :
    Decidable (TooLong dataSlice account) := inferInstanceAs (Decidable (_ < _))

variable {lib : Decoder}

/-- One account is refused exactly if it is too long. -/
theorem encodeAccount_error_iff (lib : Decoder) {encoding : UiAccountEncoding}
    (h : encoding = .binary ∨ encoding = .base58) (account : Account) (pubkey : Pubkey)
    (dataSlice : Option UiDataSliceConfig) :
    (∃ e, encodeAccount lib account pubkey encoding dataSlice = .error e) ↔
      TooLong dataSlice account := by
  have hguard : encodeAccount lib account pubkey encoding dataSlice =
      if TooLong dataSlice account then .error (invalidRequest
        "Encoded binary (base 58) data should be less than 128 bytes, please use Base64 encoding.")
      else .ok (lib.encodeUiAccount pubkey account encoding none dataSlice) := by
    simp only [TooLong, length_sliceData]
    cases dataSlice <;> simp [encodeAccount, h]
  rw [hguard]
  split
  · next hlong => exact iff_of_true ⟨_, rfl⟩ hlong
  · next hlong => exact iff_of_false (by simp) hlong

theorem mapM_error_iff {ε α β : Type} {f : α → Except ε β} {l : List α} :
    (∃ e, l.mapM f = .error e) ↔ ∃ a ∈ l, ∃ e, f a = .error e := by
  induction l with
  | nil => simp [pure, Except.pure]
  | cons a l ih =>
    rw [List.mapM_cons]
    cases hfa : f a with
    | error e => simp [hfa, bind, Except.bind]
    | ok b =>
      cases hl : l.mapM f with
      | error e =>
        have : ∃ a ∈ l, ∃ e, f a = .error e := ih.mp ⟨e, hl⟩
        simp [hfa, bind, Except.bind, this]
      | ok bs =>
        have hnone : ¬ ∃ a ∈ l, ∃ e, f a = .error e := fun h => by
          obtain ⟨e, he⟩ := ih.mpr h
          rw [hl] at he
          cases he
        simpa [hfa, hl, bind, Except.bind, pure, Except.pure] using hnone

/-- A listing is refused exactly if one of its accounts is too long. -/
theorem encodeKeyedAccounts_error_iff {encoding : UiAccountEncoding}
    (h : encoding = .binary ∨ encoding = .base58) (dataSlice : Option UiDataSliceConfig)
    (keyedAccounts : List (Pubkey × Account)) :
    (∃ e, encodeKeyedAccounts lib encoding dataSlice keyedAccounts = .error e) ↔
      ∃ pubkey account, (pubkey, account) ∈ keyedAccounts ∧ TooLong dataSlice account := by
  have hone : ∀ p : Pubkey × Account,
      (∃ e, (do
        let account ← encodeAccount lib p.2 p.1 encoding dataSlice
        return ({ pubkey := p.1.toString, account := account } : RpcKeyedAccount)) = .error e) ↔
        TooLong dataSlice p.2 := by
    intro p
    rw [← encodeAccount_error_iff lib h p.2 p.1]
    cases encodeAccount lib p.2 p.1 encoding dataSlice <;> simp [bind, Except.bind, pure, Except.pure]
  rw [encodeKeyedAccounts, mapM_error_iff]
  simp only [hone, Prod.exists]

/-! ## Requests for accounts -/

inductive AccountsRequest where
  | getAccountInfo (pubkeyStr : String) (config : Option RpcAccountInfoConfig)
  | getMultipleAccounts (pubkeyStrs : List String) (config : Option RpcAccountInfoConfig)
  | getProgramAccounts (programIdStr : String) (config : Option RpcProgramAccountsConfig)
  | getTokenAccountsByOwner (ownerStr : String) (tokenAccountFilter : RpcTokenAccountsFilter)
      (config : Option RpcAccountInfoConfig)
  deriving DecidableEq, Repr

namespace AccountsRequest

def config : AccountsRequest → RpcAccountInfoConfig
  | .getAccountInfo _ config => config.getD {}
  | .getMultipleAccounts _ config => config.getD {}
  | .getProgramAccounts _ config => (config.getD {}).accountConfig
  | .getTokenAccountsByOwner _ _ config => config.getD {}

def encoding (r : AccountsRequest) : UiAccountEncoding := r.config.encoding.getD .binary

/-- The accounts are to be encoded in base 58. -/
def Base58 (r : AccountsRequest) : Prop := r.encoding = .binary ∨ r.encoding = .base58

def IsMultiple : AccountsRequest → Prop
  | .getMultipleAccounts .. => True
  | _ => False

@[reducible] def Response : AccountsRequest → Type
  | .getAccountInfo .. => RpcResponse (Option UiAccount)
  | .getMultipleAccounts .. => RpcResponse (List (Option UiAccount))
  | .getProgramAccounts .. => OptionalContext (List RpcKeyedAccount)
  | .getTokenAccountsByOwner .. => RpcResponse (List RpcKeyedAccount)

def answer (lib : Decoder) (orders : IterOrders) (base64Error : String → String) :
    (r : AccountsRequest) → ListingProg r.Response
  | .getAccountInfo pubkeyStr config => (Solana.getAccountInfo lib pubkeyStr config).left
  | .getMultipleAccounts pubkeyStrs config =>
    (Solana.getMultipleAccounts lib orders pubkeyStrs config).left
  | .getProgramAccounts programIdStr config =>
    Solana.getProgramAccounts lib orders base64Error programIdStr config
  | .getTokenAccountsByOwner ownerStr tokenAccountFilter config =>
    Solana.getTokenAccountsByOwner lib orders ownerStr tokenAccountFilter config

/-- The block of a request and its slot. -/
def block (config : RpcAccountInfoConfig) : RpcProg (Hash × UInt64) := do
  let hash ← getHashWithConfig ⟨config.commitment, config.minContextSlot⟩
  let slot ← callNode (Client.getSlot hash)
  return (hash, slot)

/-- All that is looked up for a request: the slot and the accounts to be returned. -/
def lookUps (lib : Decoder) (base64Error : String → String) :
    AccountsRequest → ListingProg (UInt64 × List (Pubkey × Option Account))
  | .getAccountInfo pubkeyStr config => do
    let pubkey ← .ofExcept (verifyPubkey pubkeyStr)
    let (hash, slot) ← (block (config.getD {})).left
    let account ← (callNode (Client.getAccount pubkey (some hash))).left
    return (slot, [(pubkey, account)])
  | .getMultipleAccounts pubkeyStrs config => do
    if pubkeyStrs.length > maxMultipleAccounts then
      .fail (invalidParams s!"Too many inputs provided; max {maxMultipleAccounts}")
    else
      let pubkeys ← .ofExcept (verifyPubkeys pubkeyStrs)
      let (hash, slot) ← (block (config.getD {})).left
      let accounts ← (getAccountsFromOverwritesOrNode pubkeys none hash).left
      return (slot, accounts)
  | .getProgramAccounts programIdStr config => do
    let programId ← .ofExcept (verifyPubkey programIdStr)
    let { filters, accountConfig, withContext := _, sortResults } := config.getD {}
    let filters := filters.getD []
    if filters.length > maxGetProgramAccountFilters then
      .fail (invalidParams s!"Too many filters provided; max {maxGetProgramAccountFilters}")
    else
      .ofExcept (filters.forM (verifyFilter base64Error))
      let (hash, slot) ← (block accountConfig).left
      let accounts ← programAccounts programId (optimizeFilters filters) (sortResults.getD true) hash
      return (slot, accounts.map fun (pubkey, account) => (pubkey, some account))
  | .getTokenAccountsByOwner ownerStr tokenAccountFilter config => do
    let owner ← .ofExcept (verifyPubkey ownerStr)
    let tokenAccountFilter ← .ofExcept (verifyTokenAccountFilter tokenAccountFilter)
    let (hash, slot) ← (block (config.getD {})).left
    let (tokenProgramId, mint) ← (getTokenProgramIdAndMint lib tokenAccountFilter hash).left
    let accounts ← getFilteredSplTokenAccountsByOwner tokenProgramId owner (mintFilters mint) true hash
    return (slot, accounts.map fun (pubkey, account) => (pubkey, some account))

/-- What becomes of the accounts that were looked up. -/
def encode (lib : Decoder) (slot : UInt64) (accounts : List (Pubkey × Option Account)) :
    (r : AccountsRequest) → Except ErrorObject r.Response
  | r@(.getAccountInfo ..) => do
    let accounts ← encodeKeyedAccounts lib r.encoding r.config.dataSlice (Index.existing accounts)
    return { context := { slot := slot }, value := accounts.head?.map (·.account) }
  | r@(.getMultipleAccounts ..) => .ok {
      context := { slot := slot }
      value := accounts.map fun (pubkey, account) => account.map fun account =>
        lib.encodeUiAccount pubkey account r.encoding none r.config.dataSlice }
  | r@(.getProgramAccounts _ config) => do
    let accounts ← encodeKeyedAccounts lib r.encoding r.config.dataSlice (Index.existing accounts)
    return if (config.getD {}).withContext.getD false then
      .context { context := { slot := slot }, value := accounts } else .noContext accounts
  | r@(.getTokenAccountsByOwner ..) => do
    let accounts ← encodeKeyedAccounts lib r.encoding r.config.dataSlice (Index.existing accounts)
    return { context := { slot := slot }, value := accounts }

variable {orders : IterOrders} {base64Error : String → String}

theorem existing_map_some (accounts : List (Pubkey × Account)) :
    Index.existing (accounts.map fun (pubkey, account) => (pubkey, some account)) = accounts := by
  simp [Index.existing, List.filterMap_map]

/-- A request in base 58 is answered by looking up accounts and encoding them. -/
theorem answer_eq (r : AccountsRequest) (h : r.Base58) :
    r.answer lib orders base64Error =
      r.lookUps lib base64Error >>= fun found => .ofExcept (r.encode lib found.1 found.2) := by
  have hjson : r.encoding ≠ .jsonParsed := by
    intro hjson
    rcases h with h | h <;> rw [hjson] at h <;> cases h
  cases r with
  | getAccountInfo pubkeyStr config =>
    simp only [answer, lookUps, Solana.getAccountInfo, block, getEncodedAccount, Prog.left_bind,
      bind_assoc, pure_bind, Prog.left_ofExcept, Prog.left_pure]
    refine Prog.bind_congr fun pubkey => Prog.bind_congr fun hash => Prog.bind_congr fun slot =>
      Prog.bind_congr fun account => ?_
    cases account with
    | none => rfl
    | some account =>
      have hparsed : ¬ (isKnownSplTokenId account.owner ∧
          (config.getD {}).encoding.getD .binary = .jsonParsed) := fun h => hjson h.2
      have hone : Index.existing [(pubkey, some account)] = [(pubkey, account)] := rfl
      simp only [if_neg hparsed, encode, hone, encodeKeyedAccounts, AccountsRequest.encoding,
        AccountsRequest.config, List.mapM_cons, List.mapM_nil]
      cases encodeAccount lib account pubkey ((config.getD {}).encoding.getD .binary)
        (config.getD {}).dataSlice <;> rfl
  | getMultipleAccounts pubkeyStrs config =>
    have hparsed : ¬ (config.getD {}).encoding.getD .binary = .jsonParsed := hjson
    simp only [answer, lookUps, Solana.getMultipleAccounts, block, getEncodedAccounts, if_neg hparsed]
    split
    · rfl
    · simp only [Prog.left_bind, bind_assoc, pure_bind, Prog.left_ofExcept, Prog.left_pure]
      rfl
  | getProgramAccounts programIdStr config =>
    simp only [answer, lookUps, Solana.getProgramAccounts, block, bind_assoc]
    refine Prog.bind_congr fun programId => ?_
    have hparsed : ¬ (isKnownSplTokenId programId ∧
        (config.getD {}).accountConfig.encoding.getD .binary = .jsonParsed) := fun h => hjson h.2
    split
    · rfl
    · simp only [Prog.left_bind, bind_assoc, pure_bind, Prog.left_pure]
      refine Prog.bind_congr fun _ => Prog.bind_congr fun hash => Prog.bind_congr fun slot =>
        Prog.bind_congr fun accounts => ?_
      simp only [encode, existing_map_some, AccountsRequest.encoding, AccountsRequest.config]
      rw [← Prog.ofExcept_bind_ofExcept]
      refine Prog.bind_congr fun accounts => ?_
      split <;> rfl
  | getTokenAccountsByOwner ownerStr tokenAccountFilter config =>
    have hparsed : ¬ (config.getD {}).encoding.getD .binary = .jsonParsed := hjson
    simp only [answer, lookUps, Solana.getTokenAccountsByOwner, block, if_neg hparsed, bind_assoc,
      Prog.left_bind, pure_bind, Prog.left_pure]
    refine Prog.bind_congr fun owner => Prog.bind_congr fun filter => Prog.bind_congr fun hash =>
      Prog.bind_congr fun slot => Prog.bind_congr fun program => Prog.bind_congr fun accounts => ?_
    simp only [encode, existing_map_some, AccountsRequest.encoding, AccountsRequest.config]
    rw [← Prog.ofExcept_bind_ofExcept]
    rfl

/-! ## Refusals -/

/-- One of the accounts to be returned is too long. -/
def SomeTooLong (r : AccountsRequest) (accounts : List (Pubkey × Option Account)) : Prop :=
  ∃ pubkey account, (pubkey, some account) ∈ accounts ∧ TooLong r.config.dataSlice account

/-- Encoding fails exactly if an account is too long, but for `getMultipleAccounts`,
where it never does. -/
theorem encode_error_iff (r : AccountsRequest) (h : r.Base58) (slot : UInt64)
    (accounts : List (Pubkey × Option Account)) :
    (∃ e, r.encode lib slot accounts = .error e) ↔ ¬ r.IsMultiple ∧ r.SomeTooLong accounts := by
  have hlist : ∀ {α : Type} {f : List RpcKeyedAccount → α},
      (∃ e, (encodeKeyedAccounts lib r.encoding r.config.dataSlice (Index.existing accounts) >>=
        fun keyed => pure (f keyed)) = .error e) ↔ r.SomeTooLong accounts := by
    intro α f
    simp only [SomeTooLong, ← Index.mem_existing]
    rw [← encodeKeyedAccounts_error_iff h]
    cases encodeKeyedAccounts lib r.encoding r.config.dataSlice (Index.existing accounts) <;>
      simp [bind, Except.bind, pure, Except.pure]
  cases r with
  | getMultipleAccounts pubkeyStrs config => simp [encode, IsMultiple]
  | getAccountInfo pubkeyStr config => exact hlist.trans (by simp [IsMultiple])
  | getProgramAccounts programIdStr config => exact hlist.trans (by simp [IsMultiple])
  | getTokenAccountsByOwner ownerStr filter config => exact hlist.trans (by simp [IsMultiple])

variable {σ : Type}

/-- Once its accounts are looked up, the request is refused exactly if one of them is
too long. -/
def EnforcesLimit (lib : Decoder) (orders : IterOrders) (base64Error : String → String)
    (handler : ∀ q : NodeCall ⊕ Index.Call, σ → Sum.elim NodeCall.Answer Index.Call.Answer q × σ)
    (s : σ) (r : AccountsRequest) (accounts : List (Pubkey × Option Account)) : Prop :=
  (∃ e, ((r.answer lib orders base64Error).exec handler s).1 = .error e) ↔ r.SomeTooLong accounts

theorem refused_iff {handler : ∀ q : NodeCall ⊕ Index.Call, σ →
      Sum.elim NodeCall.Answer Index.Call.Answer q × σ} {s s' : σ} {r : AccountsRequest}
    {slot : UInt64} {accounts : List (Pubkey × Option Account)} (h : r.Base58)
    (hfound : (r.lookUps lib base64Error).exec handler s = (.ok (slot, accounts), s')) :
    (∃ e, ((r.answer lib orders base64Error).exec handler s).1 = .error e) ↔
      ¬ r.IsMultiple ∧ r.SomeTooLong accounts := by
  have hanswer : ((r.answer lib orders base64Error).exec handler s).1 =
      .ofExcept (r.encode lib slot accounts) := by
    rw [answer_eq r h, Prog.exec_bind, hfound]
    simp
  rw [hanswer, ← encode_error_iff r h slot accounts]
  cases r.encode lib slot accounts <;> simp

/-- The limit is enforced for every request except a `getMultipleAccounts` that finds
an account which is too long. -/
theorem enforcesLimit_iff (lib : Decoder) (orders : IterOrders) (base64Error : String → String)
    (handler : ∀ q : NodeCall ⊕ Index.Call, σ → Sum.elim NodeCall.Answer Index.Call.Answer q × σ)
    (s s' : σ) (r : AccountsRequest) (slot : UInt64) (accounts : List (Pubkey × Option Account))
    (h : r.Base58)
    (hfound : (r.lookUps lib base64Error).exec handler s = (.ok (slot, accounts), s')) :
    EnforcesLimit lib orders base64Error handler s r accounts ↔
      ¬ (r.IsMultiple ∧ r.SomeTooLong accounts) := by
  rw [EnforcesLimit, refused_iff h hfound]
  constructor
  · rintro hiff ⟨hmultiple, hlong⟩
    exact (hiff.mpr hlong).1 hmultiple
  · intro hnot
    exact ⟨fun h => h.2, fun hlong => ⟨fun hmultiple => hnot ⟨hmultiple, hlong⟩, hlong⟩⟩

/-! ## A token account in base 58 -/

/-- A node where the one account there is is a token account. -/
def tokenNode : Node :=
  Chain.nodeAt (Chain.steadyNode.serving fun _ => some someAccount) (.single .zero)

def someKey : Pubkey := .ofByte 1

/-- A request for the token account, which finds it. -/
theorem lookUps_multiple (db : Index.Db) :
    ((lookUps tokenDecoder (fun _ => "") (.getMultipleAccounts [someKey.toString] none)).exec
      (Prog.beside tokenNode Index.sqliteEngine.accountsIndex) db) =
        (.ok (0, [(someKey, some someAccount)]), db) := by
  have hkeys : verifyPubkeys [someKey.toString] = .ok [someKey] := by
    rw [verifyPubkeys, List.mapM_cons, verifyPubkey_toString]
    rfl
  simp only [lookUps, hkeys]
  rfl

theorem lookUps_info (db : Index.Db) :
    ((lookUps tokenDecoder (fun _ => "") (.getAccountInfo someKey.toString none)).exec
      (Prog.beside tokenNode Index.sqliteEngine.accountsIndex) db) =
        (.ok (0, [(someKey, some someAccount)]), db) := by
  simp only [lookUps, verifyPubkey_toString]
  rfl

/-- `getMultipleAccounts` hands a token account of 165 bytes on to be encoded in base 58. -/
theorem multiple_not_refused : ¬ ∀ (lib : Decoder) (orders : IterOrders)
    (base64Error : String → String) (node : Node) (index : AccountsIndex Index.Db) (db : Index.Db)
    (r : AccountsRequest) (slot : UInt64) (accounts : List (Pubkey × Option Account)),
    r.Base58 →
    ((r.lookUps lib base64Error).exec (Prog.beside node index) db).1 = .ok (slot, accounts) →
      EnforcesLimit lib orders base64Error (Prog.beside node index) db r accounts := by
  intro hall
  have henforced := hall tokenDecoder listedOrders (fun _ => "") tokenNode
    Index.sqliteEngine.accountsIndex (.empty []) (.getMultipleAccounts [someKey.toString] none)
    0 _ (.inl rfl) (congrArg Prod.fst (lookUps_multiple _))
  have hlong : SomeTooLong (.getMultipleAccounts [someKey.toString] none)
      [(someKey, some someAccount)] := ⟨someKey, someAccount, List.mem_cons_self, by decide +kernel⟩
  exact ((refused_iff (.inl rfl) (lookUps_multiple _)).mp (henforced.mpr hlong)).1 trivial

/-- `getAccountInfo` refuses the same account. -/
theorem info_refused : EnforcesLimit tokenDecoder listedOrders (fun _ => "")
    (Prog.beside tokenNode Index.sqliteEngine.accountsIndex) (.empty [])
    (.getAccountInfo someKey.toString none) [(someKey, some someAccount)] :=
  (enforcesLimit_iff _ _ _ _ _ _ _ _ _ (.inl rfl) (lookUps_info _)).mpr fun h => h.1

end AccountsRequest

end Solana

-- SUMMARY: What the methods of the server have in common as programs: they fail with their calls, ask for a block first, and for keys once.
import NoirSidecar.Rpc.Snapshot
import NoirSidecar.System.Threads

/-!
# Methods as threads

A method passes the failure of a call on to its caller. The methods that read first ask for
a block, and after that only about this block; a listing asks the index a single time.
-/

namespace Solana

open Chain

/-! ## Failed calls -/

section Fails

variable {α : Type} {hash : Hash}

/-- The program fails as soon as one of its calls does. -/
abbrev FailsWithNode (p : RpcProg α) : Prop := p.FailsOn NodeCall.Failed

theorem failsOn_callNode {p : NodeProg Client.Error α} (h : p.FailsOn NodeCall.Failed) :
    FailsWithNode (callNode p) := h.mapError _

theorem failsOn_runtimeCall (call : RuntimeCall) (hash : Option Hash) :
    (Client.runtimeCall call hash).FailsOn NodeCall.Failed := by
  intro a
  refine ⟨?_, Prog.failsOn_ofExcept _⟩
  rintro ⟨e, rfl⟩
  exact ⟨e, rfl⟩

theorem failsOn_readStorageU64 (key missing : String) (hash : Hash) :
    (Client.readStorageU64 key missing hash).FailsOn NodeCall.Failed := by
  intro a
  refine ⟨?_, Prog.failsOn_ofOutcome _⟩
  rintro ⟨e, rfl⟩
  exact ⟨e, rfl⟩

theorem failsOn_getTimestamp (hash : Hash) : FailsWithNode (callNode (Client.getTimestamp hash)) :=
  failsOn_callNode ((failsOn_readStorageU64 _ _ hash).bind fun _ => trivial)

theorem failsOn_getSlot (hash : Hash) : FailsWithNode (callNode (Client.getSlot hash)) :=
  failsOn_callNode (failsOn_readStorageU64 _ _ hash)

theorem failsOn_getAccounts (pubkeys : List Pubkey) (hash : Option Hash) :
    (Client.getAccounts pubkeys hash).FailsOn NodeCall.Failed := by
  refine (failsOn_runtimeCall _ hash).bind fun accounts => ?_
  split <;> trivial

theorem failsOn_getLastValidBlockHeight (hash : Hash) :
    FailsWithNode (callNode (Client.getLastValidBlockHeight hash)) := by
  refine failsOn_callNode fun a => ⟨?_, Prog.failsOn_ofExcept _⟩
  rintro ⟨e, rfl⟩
  exact ⟨e, rfl⟩

theorem failsOn_latestBlockhash : FailsWithNode (callNode Client.latestBlockhash) := by
  refine failsOn_callNode fun a => ⟨?_, Prog.failsOn_ofExcept _⟩
  rintro ⟨e, rfl⟩
  exact ⟨e, rfl⟩

theorem failsOn_finalizedBlockhash : FailsWithNode (callNode Client.finalizedBlockhash) := by
  refine failsOn_callNode fun a => ⟨?_, Prog.failsOn_ofExcept _⟩
  rintro ⟨e, rfl⟩
  exact ⟨e, rfl⟩

theorem failsOn_submitTransaction (convertedTx : Bytes) :
    FailsWithNode (callNode (Client.submitTransaction convertedTx)) := by
  refine failsOn_callNode fun a => ⟨?_, Prog.failsOn_ofExcept _⟩
  rintro ⟨e, rfl⟩
  exact ⟨.invalidRequest e.debug, rfl⟩

theorem failsOn_getHashWithConfig (config : RpcContextConfig) :
    FailsWithNode (getHashWithConfig config) := by
  unfold getHashWithConfig Solana.hash
  split
  · exact failsOn_latestBlockhash
  · exact failsOn_finalizedBlockhash
  · exact failsOn_finalizedBlockhash

variable {lib : Decoder} {txLib : TransactionLib} {orders : IterOrders}

theorem failsOn_getParsedTokenAccount (pubkey : Pubkey) (account : Account) :
    FailsWithNode (getParsedTokenAccount lib pubkey account hash) := by
  unfold getParsedTokenAccount
  split
  · refine (failsOn_callNode (failsOn_runtimeCall _ _)).bind fun mintAccount => ?_
    split
    · refine (failsOn_getTimestamp hash).bind fun timestamp => ?_
      exact (Prog.failsOn_ofExcept _).bind fun _ => trivial
    · trivial
  · trivial

theorem failsOn_getEncodedAccount (pubkey : Pubkey) (encoding : UiAccountEncoding)
    (dataSlice : Option UiDataSliceConfig) :
    FailsWithNode (getEncodedAccount lib pubkey encoding dataSlice hash) := by
  refine (failsOn_callNode (failsOn_runtimeCall _ _)).bind fun account => ?_
  split
  · dsimp only
    split
    · exact (failsOn_getParsedTokenAccount _ _).bind fun _ => trivial
    · exact (Prog.failsOn_ofExcept _).bind fun _ => trivial
  · trivial

theorem failsOn_getAccountsFromOverwritesOrNode (pubkeys : List Pubkey)
    (overwriteAccounts : Option (HashMap Pubkey Account)) :
    FailsWithNode (getAccountsFromOverwritesOrNode pubkeys overwriteAccounts hash) :=
  (failsOn_callNode (failsOn_getAccounts _ _)).bind fun _ => trivial

theorem failsOn_getParsedTokenAccounts (keyedAccounts : List (Pubkey × Account))
    (overwriteAccounts : Option (HashMap Pubkey Account)) :
    FailsWithNode (getParsedTokenAccounts lib orders keyedAccounts hash overwriteAccounts) :=
  (failsOn_getAccountsFromOverwritesOrNode _ _).bind fun _ =>
    (failsOn_getTimestamp hash).bind fun _ => trivial

theorem failsOn_getEncodedAccounts (pubkeys : List Pubkey) (encoding : UiAccountEncoding)
    (dataSlice : Option UiDataSliceConfig) (overwriteAccounts : Option (HashMap Pubkey Account)) :
    FailsWithNode
      (getEncodedAccounts lib orders pubkeys encoding dataSlice hash overwriteAccounts) := by
  refine (failsOn_getAccountsFromOverwritesOrNode _ _).bind fun accounts => ?_
  split
  · exact (failsOn_getParsedTokenAccounts _ _).bind fun _ => trivial
  · trivial

theorem failsOn_simulatedAccounts (configAccounts : Option RpcSimulateTransactionAccountsConfig)
    (simulation : TransactionSimulationResult) (numberOfAccounts : Nat) :
    FailsWithNode
      (simulatedAccounts lib orders configAccounts simulation numberOfAccounts hash) := by
  unfold simulatedAccounts
  split
  · trivial
  · dsimp only
    split
    · trivial
    · split
      · trivial
      · split
        · trivial
        · exact (Prog.failsOn_ofExcept _).bind fun _ =>
            (failsOn_getEncodedAccounts _ _ _ _).bind fun _ => trivial

theorem failsOn_replaceBlockhash (config : RpcSimulateTransactionConfig) (tx : VersionedTransaction) :
    FailsWithNode (replaceBlockhash config tx) := by
  unfold replaceBlockhash
  split
  · split
    · trivial
    · exact failsOn_latestBlockhash.bind fun hash =>
        (failsOn_getLastValidBlockHeight hash).bind fun _ => trivial
  · trivial

theorem failsOn_simulateTransaction (data : String) (config : Option RpcSimulateTransactionConfig) :
    FailsWithNode (simulateTransaction lib orders txLib data config) :=
  (Prog.failsOn_ofExcept _).bind fun tx => (failsOn_getHashWithConfig _).bind fun hash =>
    (failsOn_getSlot hash).bind fun _ => (failsOn_replaceBlockhash _ tx).bind fun _ =>
    (failsOn_callNode (failsOn_runtimeCall _ _)).bind fun _ =>
    (failsOn_simulatedAccounts _ _ _).bind fun _ => trivial

theorem failsOn_answer (r : ReadRequest) : FailsWithNode (r.answer lib txLib orders) := by
  cases r with
  | getAccountInfo pubkeyStr config =>
    exact (Prog.failsOn_ofExcept _).bind fun pubkey => (failsOn_getHashWithConfig _).bind fun hash =>
      (failsOn_getSlot hash).bind fun slot =>
      (failsOn_getEncodedAccount _ _ _).bind fun _ => trivial
  | getMultipleAccounts pubkeyStrs config =>
    simp only [ReadRequest.answer, Solana.getMultipleAccounts]
    split
    · trivial
    · exact (Prog.failsOn_ofExcept _).bind fun pubkeys =>
        (failsOn_getHashWithConfig _).bind fun hash => (failsOn_getSlot hash).bind fun slot =>
        (failsOn_getEncodedAccounts _ _ _ _).bind fun _ => trivial
  | getBalance pubkeyStr config =>
    exact (Prog.failsOn_ofExcept _).bind fun pubkey => (failsOn_getHashWithConfig _).bind fun hash =>
      (failsOn_getSlot hash).bind fun slot =>
      (failsOn_callNode (failsOn_runtimeCall _ _)).bind fun _ => trivial
  | getFeeForMessage data config =>
    exact (Prog.failsOn_ofExcept _).bind fun message =>
      (failsOn_getHashWithConfig _).bind fun hash => (failsOn_getSlot hash).bind fun slot =>
      (failsOn_callNode (failsOn_runtimeCall _ _)).bind fun _ => trivial
  | getLatestBlockhash config =>
    exact (failsOn_getHashWithConfig _).bind fun hash => (failsOn_getSlot hash).bind fun slot =>
      (failsOn_getLastValidBlockHeight hash).bind fun _ => trivial
  | simulateTransaction data config keeps => exact failsOn_simulateTransaction data config

end Fails

/-! ## Listings -/

section Listings

variable {lib : Decoder} {orders : IterOrders} {base64Error : String → String} {hash : Hash}

/-- Once a listing has its block, it asks about nothing but this block and the index. -/
def PinnedListing : NodeCall ⊕ Index.Call → Prop
  | .inl call => Pinned call
  | .inr (.getIndexedKeys ..) => True
  | .inr (.insertIndex _) => False

/-- What is to be known of a listing: it fails with its calls, asks the index once, and after
its block only about that. -/
structure Listing {α : Type} (p : ListingProg α) : Prop where
  fails : p.FailsOn fun q a => Sidecar.Refused ⟨q, a⟩
  once : p.Once (·.isRight)
  asks : p.Asks PinnedListing

/-- The same of a part that only asks the node. -/
structure AtBlock {α : Type} (p : RpcProg α) : Prop where
  fails : FailsWithNode p
  asks : p.Asks Pinned

theorem AtBlock.bind {α β : Type} {p : RpcProg α} {f : α → RpcProg β} (hp : AtBlock p)
    (hf : ∀ a, AtBlock (f a)) : AtBlock (p >>= f) where
  fails := hp.fails.bind fun a => (hf a).fails
  asks := hp.asks.bind fun a => (hf a).asks

theorem atBlock_pure {α : Type} (a : α) : AtBlock (pure a : RpcProg α) := ⟨trivial, trivial⟩

theorem atBlock_fail {α : Type} (e : ErrorObject) : AtBlock (.fail e : RpcProg α) :=
  ⟨trivial, trivial⟩

theorem atBlock_ofExcept {α : Type} (r : Except ErrorObject α) : AtBlock (.ofExcept r : RpcProg α) :=
  ⟨Prog.failsOn_ofExcept r, Prog.asks_ofExcept r⟩

theorem atBlock_runtimeCall (call : RuntimeCall) (hash : Hash) :
    AtBlock (callNode (Client.runtimeCall call (some hash))) :=
  ⟨failsOn_callNode (failsOn_runtimeCall call _), asks_callNode (Client.asks_runtimeCall call hash)⟩

theorem atBlock_getSlot (hash : Hash) : AtBlock (callNode (Client.getSlot hash)) :=
  ⟨failsOn_getSlot hash, (asks_callNode (Client.looksUp_getSlot hash)).mono LooksUp.pinned⟩

theorem atBlock_getTimestamp (hash : Hash) : AtBlock (callNode (Client.getTimestamp hash)) :=
  ⟨failsOn_getTimestamp hash, (asks_callNode (Client.looksUp_getTimestamp hash)).mono LooksUp.pinned⟩

theorem Listing.bind_left {α β : Type} {p : RpcProg α} {f : α → ListingProg β} (hp : AtBlock p)
    (hf : ∀ a, Listing (f a)) : Listing (p.left >>= f) where
  fails := (Prog.FailsOn.left hp.fails).bind fun a => (hf a).fails
  once := .bind_right (Prog.asks_left p) fun a => (hf a).once
  asks := (Prog.Asks.left hp.asks).bind fun a => (hf a).asks

theorem listing_left {α : Type} {p : RpcProg α} (hp : AtBlock p) : Listing p.left where
  fails := .left hp.fails
  once := Prog.once_of_asks (Prog.asks_left p)
  asks := .left hp.asks

theorem listing_ofExcept {α : Type} (r : Except ErrorObject α) : Listing (Prog.ofExcept r) where
  fails := Prog.failsOn_ofExcept r
  once := Prog.once_of_asks (Prog.asks_ofExcept r)
  asks := Prog.asks_ofExcept r

theorem listing_pure {α : Type} (a : α) : Listing (pure a : ListingProg α) := ⟨trivial, trivial, trivial⟩

/-- What follows a listing of keys does not ask the index again. -/
theorem Listing.bind {α β : Type} {p : ListingProg α} {f : α → ListingProg β} (hp : Listing p)
    (hf : ∀ a, Listing (f a)) (hnode : ∀ a, (f a).Asks (¬ ·.isRight)) : Listing (p >>= f) where
  fails := hp.fails.bind fun a => (hf a).fails
  once := hp.once.bind_left hnode
  asks := hp.asks.bind fun a => (hf a).asks

theorem listing_getIndexedKeys (index : AccountIndex) (indexKey : Pubkey) (sortResults : Bool) :
    Listing (getIndexedKeys index indexKey sortResults) where
  fails _ := ⟨False.elim, Prog.failsOn_ofExcept _⟩
  once _ := ⟨fun _ => Prog.asks_ofExcept _, Prog.once_of_asks (Prog.asks_ofExcept _)⟩
  asks := ⟨trivial, fun _ => Prog.asks_ofExcept _⟩

theorem listing_getFilteredIndexedAccounts (programId : Pubkey) (indexedKeys : List Pubkey)
    (filters : List RpcFilterType) :
    Listing (getFilteredIndexedAccounts programId indexedKeys filters hash) :=
  listing_left (atBlock_runtimeCall _ hash)

theorem listing_keys_bind (index : AccountIndex) (indexKey : Pubkey) (sortResults : Bool)
    (programId : Pubkey) (filters : List RpcFilterType) :
    Listing (getIndexedKeys index indexKey sortResults >>= fun indexedKeys =>
      getFilteredIndexedAccounts programId indexedKeys filters hash) :=
  (listing_getIndexedKeys index indexKey sortResults).bind
    (fun keys => listing_getFilteredIndexedAccounts programId keys filters)
    fun _ => Prog.asks_left _

theorem listing_programAccounts (programId : Pubkey) (filters : List RpcFilterType)
    (sortResults : Bool) : Listing (programAccounts programId filters sortResults hash) := by
  unfold programAccounts
  split
  · exact listing_keys_bind _ _ _ _ _
  · split
    · exact listing_keys_bind _ _ _ _ _
    · exact listing_keys_bind _ _ _ _ _

/-- The end of a listing: its accounts are encoded, parsed ones with the help of the node. -/
theorem listing_encode {α : Type} {parsed : Prop} [Decidable parsed] {encoding : UiAccountEncoding}
    {dataSlice : Option UiDataSliceConfig} {keyedAccounts : List (Pubkey × Account)}
    {f : List RpcKeyedAccount → ListingProg α} (hf : ∀ accounts, ∃ a, f accounts = pure a) :
    let p : ListingProg α :=
      if parsed then (getParsedTokenKeyedAccounts lib orders keyedAccounts hash).left >>= f
      else .ofExcept (encodeKeyedAccounts lib encoding dataSlice keyedAccounts) >>= f
    Listing p ∧ p.Asks (¬ ·.isRight) := by
  have hpure : ∀ accounts, Listing (f accounts) ∧ (f accounts).Asks (¬ ·.isRight) := by
    intro accounts
    obtain ⟨a, ha⟩ := hf accounts
    rw [ha]
    exact ⟨listing_pure a, trivial⟩
  dsimp only
  split
  · have hparsed : AtBlock (getParsedTokenKeyedAccounts lib orders keyedAccounts hash) :=
      ⟨(failsOn_getParsedTokenAccounts _ _).bind fun _ => trivial,
        ((looksUp_getParsedTokenAccounts _ _).mono LooksUp.pinned).bind fun _ => trivial⟩
    exact ⟨.bind_left hparsed fun accounts => (hpure accounts).1,
      (Prog.asks_left _).bind fun accounts => (hpure accounts).2⟩
  · exact ⟨(listing_ofExcept _).bind (fun accounts => (hpure accounts).1)
      fun accounts => (hpure accounts).2,
      (Prog.asks_ofExcept _).bind fun accounts => (hpure accounts).2⟩

theorem atBlock_getMintOwnerAndAdditionalData (mint : Pubkey) :
    AtBlock (getMintOwnerAndAdditionalData lib mint hash) := by
  unfold getMintOwnerAndAdditionalData
  split
  · exact atBlock_pure _
  · refine (atBlock_runtimeCall _ hash).bind fun mintAccount => ?_
    split
    · exact atBlock_fail _
    · exact (atBlock_getTimestamp hash).bind fun _ => (atBlock_ofExcept _).bind fun _ => atBlock_pure _

theorem atBlock_getTokenProgramIdAndMint (filter : TokenAccountsFilter) :
    AtBlock (getTokenProgramIdAndMint lib filter hash) := by
  unfold getTokenProgramIdAndMint
  split
  · refine (atBlock_getMintOwnerAndAdditionalData _).bind fun owner => ?_
    dsimp only
    split
    · exact atBlock_fail _
    · exact atBlock_pure _
  · split
    · exact atBlock_pure _
    · exact atBlock_fail _

end Listings

/-! ## Methods -/

/-- A method that reads one block: it first asks for the head that a commitment names. -/
structure FromBlock {α : Type} (commitment : Option CommitmentConfig) (p : ListingProg α) : Prop where
  fails : p.FailsOn fun q a => Sidecar.Refused ⟨q, a⟩
  once : p.Once (·.isRight)
  opens : p.Opens (.inl (headCall commitment)) PinnedListing

section Methods

variable {lib : Decoder} {txLib : TransactionLib} {orders : IterOrders}
  {base64Error : String → String}

theorem FromBlock.ofExcept_bind {α β : Type} {commitment : Option CommitmentConfig}
    {r : Except ErrorObject α} {f : α → ListingProg β} (hf : ∀ a, FromBlock commitment (f a)) :
    FromBlock commitment (Prog.ofExcept r >>= f) where
  fails := (Prog.failsOn_ofExcept r).bind fun a => (hf a).fails
  once := .bind_right (Prog.asks_ofExcept r) fun a => (hf a).once
  opens := Prog.opens_ofExcept_bind fun a => (hf a).opens

theorem fromBlock_fail {α : Type} (commitment : Option CommitmentConfig) (e : ErrorObject) :
    FromBlock commitment (.fail e : ListingProg α) := ⟨trivial, trivial, trivial⟩

theorem fromBlock_getHashWithConfig_bind {α : Type} {commitment : Option CommitmentConfig}
    {minContextSlot : Option UInt64} {f : Hash → ListingProg α} (hf : ∀ hash, Listing (f hash)) :
    FromBlock commitment ((getHashWithConfig ⟨commitment, minContextSlot⟩).left >>= f) where
  fails := (Prog.FailsOn.left (failsOn_getHashWithConfig _)).bind fun hash => (hf hash).fails
  once := .bind_right (Prog.asks_left _) fun hash => (hf hash).once
  opens := by
    have hhead : (getHashWithConfig ⟨commitment, minContextSlot⟩).Opens (headCall commitment)
        Pinned := by
      rw [← bind_pure (getHashWithConfig _)]
      exact opens_getHashWithConfig_bind fun _ => trivial
    have hasked : ∀ hash, ((getHashWithConfig ⟨commitment, minContextSlot⟩).left :
        ListingProg Hash) ≠ .done hash := by
      intro hash heq
      unfold getHashWithConfig Solana.hash at heq
      split at heq <;> cases heq
    exact (Prog.Opens.left hhead).bind hasked fun hash => (hf hash).asks

theorem fromBlock_read (r : ReadRequest) :
    FromBlock r.commitment ((r.answer lib txLib orders).left : ListingProg (RpcResponse r.Value)) where
  fails := .left (failsOn_answer r)
  once := Prog.once_of_asks (Prog.asks_left _)
  opens := .left (answer_opens r)

theorem fromBlock_getSignatureStatuses (signatureStrs : List String) :
    FromBlock (some ⟨.processed⟩) ((getSignatureStatuses signatureStrs).left : ListingProg _) := by
  have hfails : FailsWithNode (getSignatureStatuses signatureStrs) := by
    simp only [getSignatureStatuses, mapM_getTransactionStatus]
    exact (Prog.failsOn_ofExcept _).bind fun signatures => (failsOn_getHashWithConfig _).bind
      fun hash => (failsOn_getSlot hash).bind fun _ => trivial
  have hopens : (getSignatureStatuses signatureStrs).Opens (headCall (some ⟨.processed⟩)) Pinned := by
    simp only [getSignatureStatuses, mapM_getTransactionStatus]
    refine Prog.opens_ofExcept_bind fun signatures =>
      @opens_getHashWithConfig_bind _ { commitment := some ⟨.processed⟩ } _ fun hash => ?_
    exact ((asks_callNode (Client.looksUp_getSlot hash)).mono LooksUp.pinned).bind fun _ => trivial
  exact ⟨.left hfails, Prog.once_of_asks (Prog.asks_left _), .left hopens⟩

theorem fromBlock_getProgramAccounts (programIdStr : String)
    (config : Option RpcProgramAccountsConfig) :
    FromBlock (config.getD {}).accountConfig.commitment
      (getProgramAccounts lib orders base64Error programIdStr config) := by
  refine .ofExcept_bind fun programId => ?_
  dsimp only
  split
  · exact fromBlock_fail _ _
  · refine .ofExcept_bind fun _ => fromBlock_getHashWithConfig_bind fun hash => ?_
    refine .bind_left (atBlock_getSlot hash) fun slot => ?_
    have hend : ∀ accounts : List RpcKeyedAccount, ∃ response,
        (if (config.getD {}).withContext.getD false then
          return .context { context := { slot := slot }, value := accounts }
        else return .noContext accounts : ListingProg (OptionalContext (List RpcKeyedAccount))) =
          pure response := by
      intro accounts
      split <;> exact ⟨_, rfl⟩
    exact (listing_programAccounts _ _ _).bind (fun _ => (listing_encode hend).1)
      fun _ => (listing_encode hend).2

theorem fromBlock_getTokenAccountsByOwner (ownerStr : String)
    (tokenAccountFilter : RpcTokenAccountsFilter) (config : Option RpcAccountInfoConfig) :
    FromBlock (config.getD {}).commitment
      (getTokenAccountsByOwner lib orders ownerStr tokenAccountFilter config) := by
  refine .ofExcept_bind fun owner => .ofExcept_bind fun filter =>
    fromBlock_getHashWithConfig_bind fun hash => ?_
  refine .bind_left (atBlock_getSlot hash) fun slot =>
    .bind_left (atBlock_getTokenProgramIdAndMint filter) fun program => ?_
  refine (listing_keys_bind _ _ _ _ _).bind (fun keyedAccounts => ?_) fun keyedAccounts => ?_
  · exact (listing_encode fun accounts => ⟨_, rfl⟩).1
  · exact (listing_encode fun accounts => ⟨_, rfl⟩).2

end Methods

end Solana

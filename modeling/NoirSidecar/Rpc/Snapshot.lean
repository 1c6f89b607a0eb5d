-- SUMMARY: Read methods answer from the block their first call names, however the chain moves while they do.
import NoirSidecar.Rpc.Listing
import NoirSidecar.Rpc.Methods

/-!
# Answers from one block

After its first question, for the head its commitment names, a read method only puts
questions that name the block it was told. Their answers do not depend on when they
are asked, so the response is that of a chain that consists of this block. Nor does
it depend on the orders in which hash maps are iterated, if the node looks accounts
up one by one.
-/

namespace Solana

open Chain

/-! ## Requests -/

/-- A request to a read method; a simulation keeps the blockhash of its transaction. -/
inductive ReadRequest where
  | getAccountInfo (pubkeyStr : String) (config : Option RpcAccountInfoConfig)
  | getMultipleAccounts (pubkeyStrs : List String) (config : Option RpcAccountInfoConfig)
  | getBalance (pubkeyStr : String) (config : Option RpcContextConfig)
  | getFeeForMessage (data : String) (config : Option RpcContextConfig)
  | getLatestBlockhash (config : Option RpcContextConfig)
  | simulateTransaction (data : String) (config : Option RpcSimulateTransactionConfig)
      (keeps : (config.getD {}).replaceRecentBlockhash = false)

namespace ReadRequest

@[reducible] def Value : ReadRequest → Type
  | .getAccountInfo .. => Option UiAccount
  | .getMultipleAccounts .. => List (Option UiAccount)
  | .getBalance .. => UInt64
  | .getFeeForMessage .. => Option UInt64
  | .getLatestBlockhash _ => RpcBlockhash
  | .simulateTransaction .. => RpcSimulateTransactionResult

def commitment : ReadRequest → Option CommitmentConfig
  | .getAccountInfo _ config | .getMultipleAccounts _ config => (config.getD {}).commitment
  | .getBalance _ config | .getFeeForMessage _ config => (config.getD {}).commitment
  | .getLatestBlockhash config => (config.getD {}).commitment
  | .simulateTransaction _ config _ => (config.getD {}).commitment

def answer (lib : Decoder) (txLib : TransactionLib) (orders : IterOrders) :
    (r : ReadRequest) → RpcProg (RpcResponse r.Value)
  | .getAccountInfo pubkeyStr config => Solana.getAccountInfo lib pubkeyStr config
  | .getMultipleAccounts pubkeyStrs config =>
    Solana.getMultipleAccounts lib orders pubkeyStrs config
  | .getBalance pubkeyStr config => Solana.getBalance pubkeyStr config
  | .getFeeForMessage data config => Solana.getFeeForMessage txLib data config
  | .getLatestBlockhash config => Solana.getLatestBlockhash config
  | .simulateTransaction data config _ => Solana.simulateTransaction lib orders txLib data config

end ReadRequest

/-- The head a commitment names. -/
def resolve (commitment : Option CommitmentConfig) (w : World) : Hash :=
  match (commitment.getD {}).commitment with
  | .processed => w.best
  | .confirmed | .finalized => w.finalized

/-- The call that asks for it. -/
def headCall (commitment : Option CommitmentConfig) : NodeCall :=
  match (commitment.getD {}).commitment with
  | .processed => .chainGetBlockHash
  | .confirmed | .finalized => .chainGetFinalizedHead

/-- It is answered as on a chain where there is only that block. -/
theorem nodeAt_headCall (node : Node) (w : World) (commitment : Option CommitmentConfig) :
    nodeAt node (.single (resolve commitment w)) (headCall commitment) =
      nodeAt node w (headCall commitment) := by
  unfold headCall resolve
  cases (commitment.getD {}).commitment <;> rfl

/-! ## What the methods ask -/

variable {lib : Decoder} {txLib : TransactionLib} {orders : IterOrders} {hash : Hash}

theorem asks_callNode {α : Type} {S : NodeCall → Prop} {p : NodeProg Client.Error α}
    (h : p.Asks S) : (callNode p).Asks S := h.mapError _

theorem looksUp_getParsedTokenAccount (pubkey : Pubkey) (account : Account) :
    (getParsedTokenAccount lib pubkey account hash).Asks LooksUp := by
  unfold getParsedTokenAccount
  split
  · refine (asks_callNode (Client.looksUp_getAccount _ hash)).bind fun mintAccount => ?_
    split
    · refine (asks_callNode (Client.looksUp_getTimestamp hash)).bind fun timestamp => ?_
      exact (Prog.asks_ofExcept _).bind fun _ => trivial
    · trivial
  · trivial

theorem looksUp_getEncodedAccount (pubkey : Pubkey) (encoding : UiAccountEncoding)
    (dataSlice : Option UiDataSliceConfig) :
    (getEncodedAccount lib pubkey encoding dataSlice hash).Asks LooksUp := by
  refine (asks_callNode (Client.looksUp_getAccount _ hash)).bind fun account => ?_
  split
  · dsimp only
    split
    · exact (looksUp_getParsedTokenAccount _ _).bind fun _ => trivial
    · exact (Prog.asks_ofExcept _).bind fun _ => trivial
  · trivial

theorem looksUp_getAccountsFromOverwritesOrNode (pubkeys : List Pubkey)
    (overwriteAccounts : Option (HashMap Pubkey Account)) :
    (getAccountsFromOverwritesOrNode pubkeys overwriteAccounts hash).Asks LooksUp :=
  (asks_callNode (Client.looksUp_getAccounts _ hash)).bind fun _ => trivial

theorem looksUp_getParsedTokenAccounts (keyedAccounts : List (Pubkey × Account))
    (overwriteAccounts : Option (HashMap Pubkey Account)) :
    (getParsedTokenAccounts lib orders keyedAccounts hash overwriteAccounts).Asks LooksUp :=
  (looksUp_getAccountsFromOverwritesOrNode _ _).bind fun _ =>
    (asks_callNode (Client.looksUp_getTimestamp hash)).bind fun _ => trivial

theorem looksUp_getEncodedAccounts (pubkeys : List Pubkey) (encoding : UiAccountEncoding)
    (dataSlice : Option UiDataSliceConfig) (overwriteAccounts : Option (HashMap Pubkey Account)) :
    (getEncodedAccounts lib orders pubkeys encoding dataSlice hash overwriteAccounts).Asks
      LooksUp := by
  refine (looksUp_getAccountsFromOverwritesOrNode _ _).bind fun accounts => ?_
  split
  · exact (looksUp_getParsedTokenAccounts _ _).bind fun _ => trivial
  · trivial

theorem looksUp_simulatedAccounts (configAccounts : Option RpcSimulateTransactionAccountsConfig)
    (simulation : TransactionSimulationResult) (numberOfAccounts : Nat) :
    (simulatedAccounts lib orders configAccounts simulation numberOfAccounts hash).Asks
      LooksUp := by
  unfold simulatedAccounts
  split
  · trivial
  · dsimp only
    split
    · trivial
    · split
      · trivial
      · split
        · trivial
        · exact (Prog.asks_ofExcept _).bind fun _ =>
            (looksUp_getEncodedAccounts _ _ _ _).bind fun _ => trivial

/-- What a method does once it has its block only asks about that block. -/
theorem opens_getHashWithConfig_bind {α : Type} {config : RpcContextConfig} {f : Hash → RpcProg α}
    (h : ∀ hash, (f hash).Asks Pinned) :
    (getHashWithConfig config >>= f).Opens (headCall config.commitment) Pinned := by
  have hhead : (getHashWithConfig config).Opens (headCall config.commitment) Pinned ∧
      ∀ hash, getHashWithConfig config ≠ .done hash := by
    cases hc : (config.commitment.getD {}).commitment <;>
      simp only [getHashWithConfig, Solana.hash, headCall, hc]
    · exact ⟨⟨rfl, fun a => (Prog.asks_ofExcept a).mapError _⟩, fun _ h => by cases h⟩
    · exact ⟨⟨rfl, fun a => (Prog.asks_ofExcept a).mapError _⟩, fun _ h => by cases h⟩
    · exact ⟨⟨rfl, fun a => (Prog.asks_ofExcept a).mapError _⟩, fun _ h => by cases h⟩
  exact hhead.1.bind hhead.2 h

theorem answer_opens (r : ReadRequest) :
    (r.answer lib txLib orders).Opens (headCall r.commitment) Pinned := by
  have hslot : ∀ {α : Type} {hash : Hash} {f : UInt64 → RpcProg α}, (∀ slot, (f slot).Asks Pinned) →
      (callNode (Client.getSlot hash) >>= f).Asks Pinned :=
    fun h => ((asks_callNode (Client.looksUp_getSlot _)).mono LooksUp.pinned).bind h
  cases r with
  | getAccountInfo pubkeyStr config =>
    refine Prog.opens_ofExcept_bind fun pubkey => opens_getHashWithConfig_bind fun hash =>
      hslot fun slot => ?_
    exact ((looksUp_getEncodedAccount _ _ _).mono LooksUp.pinned).bind fun _ => trivial
  | getMultipleAccounts pubkeyStrs config =>
    simp only [ReadRequest.answer, Solana.getMultipleAccounts]
    split
    · trivial
    · refine Prog.opens_ofExcept_bind fun pubkeys => opens_getHashWithConfig_bind fun hash =>
        hslot fun slot => ?_
      exact ((looksUp_getEncodedAccounts _ _ _ _).mono LooksUp.pinned).bind fun _ => trivial
  | getBalance pubkeyStr config =>
    refine Prog.opens_ofExcept_bind fun pubkey => opens_getHashWithConfig_bind fun hash =>
      hslot fun slot => ?_
    exact (asks_callNode (Client.asks_runtimeCall _ hash)).bind fun _ => trivial
  | getFeeForMessage data config =>
    refine Prog.opens_ofExcept_bind fun message => opens_getHashWithConfig_bind fun hash =>
      hslot fun slot => ?_
    exact (asks_callNode (Client.asks_runtimeCall _ hash)).bind fun _ => trivial
  | getLatestBlockhash config =>
    refine opens_getHashWithConfig_bind fun hash => hslot fun slot => ?_
    exact (asks_callNode (Client.asks_getLastValidBlockHeight hash)).bind fun _ => trivial
  | simulateTransaction data config keeps =>
    refine Prog.opens_ofExcept_bind fun tx => opens_getHashWithConfig_bind fun hash =>
      hslot fun slot => ?_
    have hkeep : replaceBlockhash (config.getD {}) tx = pure (tx, none) := by
      simp [replaceBlockhash, keeps]
    rw [hkeep]
    refine (asks_callNode (Client.asks_runtimeCall _ hash)).bind fun simulation => ?_
    exact ((looksUp_simulatedAccounts _ _ _).mono LooksUp.pinned).bind fun _ => trivial

/-! ## Responses -/

variable {node : Node} {read : Except Client.Error (Pubkey → Option Account)}

theorem run_getHashWithConfig (node : Node) (hash : Hash) (config : RpcContextConfig) :
    (getHashWithConfig config).run (nodeAt node (.single hash)) = .ok hash := by
  unfold getHashWithConfig Solana.hash
  split <;> rfl

/-- Where accounts are looked up one by one, the iteration orders make no difference. -/
theorem run_getEncodedAccounts_orders (h : KeyByKey node hash read) (orders orders' : IterOrders)
    (pubkeys : List Pubkey) (encoding : UiAccountEncoding) (dataSlice : Option UiDataSliceConfig)
    (overwriteAccounts : Option (HashMap Pubkey Account)) :
    (getEncodedAccounts lib orders pubkeys encoding dataSlice hash overwriteAccounts).run node =
      (getEncodedAccounts lib orders' pubkeys encoding dataSlice hash overwriteAccounts).run
        node := by
  simp only [getEncodedAccounts, Prog.run_bind]
  refine Outcome.bind_congr fun accounts => ?_
  split
  · simp only [Prog.run_bind, run_getParsedTokenAccounts_of h]
  · rfl

theorem run_simulatedAccounts_orders (h : KeyByKey node hash read) (orders orders' : IterOrders)
    (configAccounts : Option RpcSimulateTransactionAccountsConfig)
    (simulation : TransactionSimulationResult) (numberOfAccounts : Nat) :
    (simulatedAccounts lib orders configAccounts simulation numberOfAccounts hash).run node =
      (simulatedAccounts lib orders' configAccounts simulation numberOfAccounts hash).run node := by
  unfold simulatedAccounts
  split
  · rfl
  · dsimp only
    split
    · rfl
    · split
      · rfl
      · split
        · rfl
        · simp only [Prog.run_bind, run_getEncodedAccounts_orders h orders orders']

theorem run_answer_orders (h : KeyByKey node hash read) (orders orders' : IterOrders)
    (r : ReadRequest) :
    (r.answer lib txLib orders).run (nodeAt node (.single hash)) =
      (r.answer lib txLib orders').run (nodeAt node (.single hash)) := by
  have hpinned : KeyByKey (nodeAt node (.single hash)) hash read := h
  cases r with
  | getMultipleAccounts pubkeyStrs config =>
    simp only [ReadRequest.answer, Solana.getMultipleAccounts]
    split
    · rfl
    · simp only [Prog.run_bind, run_getHashWithConfig, Outcome.ok_bind,
        run_getEncodedAccounts_orders hpinned orders orders']
  | simulateTransaction data config keeps =>
    simp only [ReadRequest.answer, Solana.simulateTransaction, Prog.run_bind,
      run_getHashWithConfig, Outcome.ok_bind]
    refine Outcome.bind_congr fun tx => Outcome.bind_congr fun slot => Outcome.bind_congr ?_
    rintro ⟨tx, blockhash⟩
    refine Outcome.bind_congr ?_
    rintro ⟨simulation, staticKeys, dynamicKeys⟩
    simp only [run_simulatedAccounts_orders hpinned orders orders']
  | _ => rfl

/-- Two runs that are told the same block by their first call respond alike, whatever
becomes of the chain afterwards, and as on a chain where there is only this block.
Their hash maps are iterated in the same orders, or in any if the node looks up
accounts one by one. -/
theorem answers_from_one_block (lib : Decoder) (txLib : TransactionLib) (node : Node)
    (r : ReadRequest) {orders orders' : IterOrders} {H H' : History} {hash : Hash}
    (hfirst : resolve r.commitment (H.world 0) = hash)
    (hfirst' : resolve r.commitment (H'.world 0) = hash)
    (horders : orders = orders' ∨ ∃ read, KeyByKey node hash read) :
    ((r.answer lib txLib orders).exec (H.handler node) 0).1 =
        ((r.answer lib txLib orders').exec (H'.handler node) 0).1 ∧
      ((r.answer lib txLib orders).exec (H.handler node) 0).1 =
        ((r.answer lib txLib orders').exec ((History.frozen hash).handler node) 0).1 := by
  have hrun : ∀ (H : History) (orders : IterOrders), resolve r.commitment (H.world 0) = hash →
      ((r.answer lib txLib orders).exec (H.handler node) 0).1 =
        (r.answer lib txLib orders).run (nodeAt node (.single hash)) := by
    intro H orders hH
    refine Prog.exec_eq_run_of_opens ?_ (fun call hcall n => ?_) (answer_opens r)
    · subst hH
      exact (nodeAt_headCall node (H.world 0) r.commitment).symm
    · exact (nodeAt_pinned hcall node _).trans (nodeAt_pinned hcall node _).symm
  have horder : (r.answer lib txLib orders).run (nodeAt node (.single hash)) =
      (r.answer lib txLib orders').run (nodeAt node (.single hash)) := by
    rcases horders with rfl | ⟨read, hread⟩
    · rfl
    · exact run_answer_orders hread orders orders' r
  have hfrozen : resolve r.commitment ((History.frozen hash).world 0) = hash := by
    unfold resolve
    split <;> rfl
  constructor
  · rw [hrun H orders hfirst, horder, hrun H' orders' hfirst']
  · rw [hrun H orders hfirst, horder, hrun _ orders' hfrozen]

/-- A library that reads nothing and shows accounts as JSON. -/
def nullTransactionLib : TransactionLib where
  transaction := ⟨"VersionedTransaction", fun _ => .error "unexpected end of file"⟩
  message := ⟨"VersionedMessage", fun _ => .error "unexpected end of file"⟩
  base64Error := fun _ => "InvalidPadding"
  uiReturnData := fun data => ⟨data.programId.toString, ""⟩
  parseUiInnerInstructions := fun converted _ => ⟨converted.index, []⟩

def listedOrders : IterOrders := ⟨.listed, .listed, .listed⟩

def latestProcessed : ReadRequest := .getLatestBlockhash (some { commitment := some ⟨.processed⟩ })

/-- A block is produced while the latest blockhash is being read. -/
theorem latestBlockhash_from_one_block :
    let answer := latestProcessed.answer tokenDecoder nullTransactionLib listedOrders
    let H := History.produce .zero (.ofByte 1) (by decide)
    let H' := History.still (.single .zero)
    (answer.exec (H.handler steadyNode) 0).1 = (answer.exec (H'.handler steadyNode) 0).1 ∧
      (answer.exec (H.handler steadyNode) 0).1 =
        (answer.exec ((History.frozen .zero).handler steadyNode) 0).1 :=
  answers_from_one_block tokenDecoder nullTransactionLib steadyNode latestProcessed rfl rfl (.inl rfl)

end Solana

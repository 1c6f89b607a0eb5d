-- SUMMARY: Look-ups of many accounts answer in the order of the keys, overwritten accounts first, and fail on a miscounted answer.
import NoirSidecar.Rpc.Agreement
import NoirSidecar.Rpc.Blockhash

/-!
# Accounts in the order asked for

A look-up of many accounts splits the keys into those that are overwritten and those the
node is asked for, collects both into hash maps and joins them back by key. To be parsed,
the accounts are split and joined a second time. The entries of the answer are those of
the keys in the order asked for all the same.
-/

namespace Solana

/-- What stands for a key in an answer: nothing if no account was found for it, otherwise
that account under that key, encoded. -/
structure Shows (lib : Decoder) (encoding : UiAccountEncoding) (found : Pubkey → Option Account)
    (pubkey : Pubkey) (entry : Option UiAccount) : Prop where
  absent : entry = none ↔ found pubkey = none
  present : ∀ account, found pubkey = some account → ∃ additionalData dataSlice,
    entry = some (lib.encodeUiAccount pubkey account encoding additionalData dataSlice)

/-- The node answers a look-up of many accounts with another number of them. -/
def Miscounts (node : Node) : NodeCall → Prop
  | .runtime (.getMultipleAccounts pubkeys) hash => ∃ answers,
    node (.runtime (.getMultipleAccounts pubkeys) hash) = .value answers ∧
      answers.length ≠ pubkeys.length
  | _ => False

/-- All look-ups of many accounts are answered key by key, where `accounts` is what the node
has at each block. -/
structure Positional (lib : Decoder) (orders : IterOrders) (txLib : TransactionLib) (node : Node)
    (accounts : Hash → Pubkey → Option Account) : Prop where
  found : ∀ pubkeys overwriteAccounts hash,
    (getAccountsFromOverwritesOrNode pubkeys overwriteAccounts hash).run node =
      .ok (pubkeys.map fun p => (p, overlay overwriteAccounts (accounts hash) p))
  succeeds : ∀ pubkeys encoding dataSlice hash overwriteAccounts,
    ((getEncodedAccounts lib orders pubkeys encoding dataSlice hash overwriteAccounts).run
      node).Succeeds ↔ (encoding = .jsonParsed → (timestampOf node hash).Succeeds)
  encoded : ∀ pubkeys encoding dataSlice hash overwriteAccounts entries,
    (getEncodedAccounts lib orders pubkeys encoding dataSlice hash overwriteAccounts).run node =
        .ok entries →
      List.Forall₂ (Shows lib encoding (overlay overwriteAccounts (accounts hash))) pubkeys entries
  /-- The accounts of a simulation that has failed are not looked up. -/
  simulated : ∀ data (config : RpcSimulateTransactionConfig) configAccounts response,
    config.accounts = some configAccounts →
    (simulateTransaction lib orders txLib data (some config)).run node = .ok response →
    ∃ tx hash simulation keys,
      .runtime (.simulateTransaction tx config.sigVerify config.innerInstructions) (some hash) ∈
        (simulateTransaction lib orders txLib data (some config)).asked (Prog.answering node) () ∧
      node (.runtime (.simulateTransaction tx config.sigVerify config.innerInstructions)
        (some hash)) = .value (simulation, keys) ∧
      match simulation.result with
      | .ok () => ∃ pubkeys entries, verifyPubkeys configAccounts.addresses = .ok pubkeys ∧
          response.value.accounts = some entries ∧
          List.Forall₂ (Shows lib (configAccounts.encoding.getD .base64)
            (overlay (some (HashMap.collect simulation.postSimulationAccounts)) (accounts hash)))
            pubkeys entries
      | .error _ => response.value.accounts =
          some (List.replicate configAccounts.addresses.length none)

/-- No look-up survives an answer with the wrong number of accounts. -/
structure HeedsCounts (lib : Decoder) (orders : IterOrders) (txLib : TransactionLib)
    (node : Node) : Prop where
  found : ∀ pubkeys overwriteAccounts hash,
    (getAccountsFromOverwritesOrNode pubkeys overwriteAccounts hash).Heeds node (Miscounts node)
  encoded : ∀ pubkeys encoding dataSlice hash overwriteAccounts,
    (getEncodedAccounts lib orders pubkeys encoding dataSlice hash overwriteAccounts).Heeds node
      (Miscounts node)
  simulated : ∀ data config,
    (simulateTransaction lib orders txLib data config).Heeds node (Miscounts node)

variable {lib : Decoder} {orders : IterOrders} {txLib : TransactionLib} {node : Node} {hash : Hash}
  {accounts : Pubkey → Option Account}

/-! ## Answers key by key -/

theorem shows_map {encoding : UiAccountEncoding} {found : Pubkey → Option Account} {pubkey : Pubkey}
    {encode : Account → UiAccount} (h : ∀ account, ∃ additionalData dataSlice,
      encode account = lib.encodeUiAccount pubkey account encoding additionalData dataSlice) :
    Shows lib encoding found pubkey ((found pubkey).map encode) where
  absent := Option.map_eq_none_iff
  present account haccount := by
    obtain ⟨additionalData, dataSlice, heq⟩ := h account
    exact ⟨additionalData, dataSlice, by rw [haccount, Option.map_some, heq]⟩

theorem forall₂_shows {encoding : UiAccountEncoding} {found : Pubkey → Option Account}
    {encode : Pubkey → Account → UiAccount} (h : ∀ pubkey account, ∃ additionalData dataSlice,
      encode pubkey account = lib.encodeUiAccount pubkey account encoding additionalData dataSlice)
    (pubkeys : List Pubkey) :
    List.Forall₂ (Shows lib encoding found) pubkeys
      (pubkeys.map fun p => (found p).map (encode p)) := by
  rw [List.forall₂_map_right_iff, List.forall₂_same]
  exact fun p _ => shows_map (h p)

/-- Reading many accounts that are not to be parsed. -/
theorem run_getEncodedAccounts_raw (h : KeyByKey node hash (.ok accounts)) (pubkeys : List Pubkey)
    {encoding : UiAccountEncoding} (hencoding : encoding ≠ .jsonParsed)
    (dataSlice : Option UiDataSliceConfig)
    (overwriteAccounts : Option (HashMap Pubkey Account)) :
    (getEncodedAccounts lib orders pubkeys encoding dataSlice hash overwriteAccounts).run node =
      .ok (pubkeys.map fun p => (overlay overwriteAccounts accounts p).map fun account =>
        lib.encodeUiAccount p account encoding none dataSlice) := by
  simp [getEncodedAccounts, run_getAccountsFromOverwritesOrNode h, accountsOf, hencoding]

theorem succeeds_getEncodedAccounts_iff (h : KeyByKey node hash (.ok accounts))
    (pubkeys : List Pubkey) (encoding : UiAccountEncoding) (dataSlice : Option UiDataSliceConfig)
    (overwriteAccounts : Option (HashMap Pubkey Account)) :
    ((getEncodedAccounts lib orders pubkeys encoding dataSlice hash overwriteAccounts).run
      node).Succeeds ↔ (encoding = .jsonParsed → (timestampOf node hash).Succeeds) := by
  by_cases hencoding : encoding = .jsonParsed
  · subst hencoding
    rw [run_getEncodedAccounts_parsed h, imp_iff_right rfl]
    cases timestampOf node hash <;> simp
  · rw [run_getEncodedAccounts_raw h pubkeys hencoding]
    simp [hencoding]

theorem forall₂_getEncodedAccounts (h : KeyByKey node hash (.ok accounts)) {pubkeys : List Pubkey}
    {encoding : UiAccountEncoding} {dataSlice : Option UiDataSliceConfig}
    {overwriteAccounts : Option (HashMap Pubkey Account)} {entries : List (Option UiAccount)}
    (hrun : (getEncodedAccounts lib orders pubkeys encoding dataSlice hash overwriteAccounts).run
      node = .ok entries) :
    List.Forall₂ (Shows lib encoding (overlay overwriteAccounts accounts)) pubkeys entries := by
  by_cases hencoding : encoding = .jsonParsed
  · subst hencoding
    rw [run_getEncodedAccounts_parsed h] at hrun
    obtain ⟨timestamp, -, hrun⟩ := Outcome.bind_eq_ok_iff.mp hrun
    cases hrun
    refine forall₂_shows (fun p account => ?_) pubkeys
    unfold encodeAs
    split <;> exact ⟨_, _, rfl⟩
  · rw [run_getEncodedAccounts_raw h pubkeys hencoding] at hrun
    cases hrun
    exact forall₂_shows (fun p account => ⟨_, _, rfl⟩) pubkeys

/-- The accounts of a simulation, if the request wants to see them and gets a response. -/
theorem run_simulatedAccounts_ok (h : KeyByKey node hash (.ok accounts))
    {configAccounts : RpcSimulateTransactionAccountsConfig} {simulation : TransactionSimulationResult}
    {numberOfAccounts : Nat} {shown : Option (List (Option UiAccount))}
    (hrun : (simulatedAccounts lib orders (some configAccounts) simulation numberOfAccounts hash).run
      node = .ok shown) :
    match simulation.result with
    | .ok () => ∃ pubkeys entries, verifyPubkeys configAccounts.addresses = .ok pubkeys ∧
        shown = some entries ∧ List.Forall₂ (Shows lib (configAccounts.encoding.getD .base64)
          (overlay (some (HashMap.collect simulation.postSimulationAccounts)) accounts))
          pubkeys entries
    | .error _ => shown = some (List.replicate configAccounts.addresses.length none) := by
  unfold simulatedAccounts at hrun
  dsimp only at hrun
  split at hrun
  · cases hrun
  · split at hrun
    · cases hrun
    · cases hresult : simulation.result with
      | error e =>
        -- a transaction that failed has no accounts to show
        rw [hresult] at hrun
        cases hrun
        rfl
      | ok u =>
        rw [hresult] at hrun
        dsimp only at hrun
        rw [Prog.run_bind] at hrun
        obtain ⟨pubkeys, hpubkeys, hrun⟩ := Outcome.bind_eq_ok_iff.mp hrun
        rw [Prog.run_bind] at hrun
        obtain ⟨entries, hentries, hrun⟩ := Outcome.bind_eq_ok_iff.mp hrun
        cases hrun
        rw [Prog.run_ofExcept] at hpubkeys
        exact ⟨pubkeys, entries, Outcome.ofExcept_eq_ok_iff.mp hpubkeys, rfl,
          forall₂_getEncodedAccounts h hentries⟩

/-- A response to a simulation: what was simulated on which block, and the accounts. -/
theorem simulateTransaction_accounts {data : String} {config : RpcSimulateTransactionConfig}
    {response : RpcResponse RpcSimulateTransactionResult}
    (h : (simulateTransaction lib orders txLib data (some config)).run node = .ok response) :
    ∃ tx hash simulation keys numberOfAccounts,
      .runtime (.simulateTransaction tx config.sigVerify config.innerInstructions) (some hash) ∈
        (simulateTransaction lib orders txLib data (some config)).asked (Prog.answering node) () ∧
      node (.runtime (.simulateTransaction tx config.sigVerify config.innerInstructions)
        (some hash)) = .value (simulation, keys) ∧
      (simulatedAccounts lib orders config.accounts simulation numberOfAccounts hash).run node =
        .ok response.value.accounts := by
  have hexec : ∀ {α : Type} {p : RpcProg α} {a : α}, p.run node = .ok a →
      p.exec (Prog.answering node) () = (.ok a, ()) := by
    intro α p a hrun
    rw [Prog.exec_answering, hrun]
  have hprog := h
  unfold simulateTransaction at hprog
  simp only [Option.getD_some, Prog.run_bind, Prog.run_ofExcept] at hprog
  obtain ⟨tx₀, hread, hprog⟩ := Outcome.bind_eq_ok_iff.mp hprog
  obtain ⟨hash, hhash, hprog⟩ := Outcome.bind_eq_ok_iff.mp hprog
  obtain ⟨slot, hslot, hprog⟩ := Outcome.bind_eq_ok_iff.mp hprog
  obtain ⟨⟨tx, blockhash⟩, hreplace, hprog⟩ := Outcome.bind_eq_ok_iff.mp hprog
  obtain ⟨⟨simulation, keys⟩, hsimulation, hprog⟩ := Outcome.bind_eq_ok_iff.mp hprog
  obtain ⟨shown, hshown, hprog⟩ := Outcome.bind_eq_ok_iff.mp hprog
  have hmem : .runtime (.simulateTransaction tx config.sigVerify config.innerInstructions)
      (some hash) ∈ (simulateTransaction lib orders txLib data (some config)).asked
        (Prog.answering node) () := mem_simulations_iff.mpr ⟨tx₀, hash, slot, blockhash, (), (), (),
    Outcome.ofExcept_eq_ok_iff.mp hread, hexec hhash, hexec hslot, hexec hreplace, rfl, rfl, rfl⟩
  cases hprog
  exact ⟨tx, hash, simulation, keys, _, hmem, run_runtimeCall_eq_ok.mp hsimulation, hshown⟩

theorem positional (lib : Decoder) (orders : IterOrders) (txLib : TransactionLib) {node : Node}
    {accounts : Hash → Pubkey → Option Account}
    (h : ∀ hash, KeyByKey node hash (.ok (accounts hash))) :
    Positional lib orders txLib node accounts where
  found pubkeys overwriteAccounts hash :=
    run_getAccountsFromOverwritesOrNode (h hash) pubkeys overwriteAccounts
  succeeds pubkeys encoding dataSlice hash overwriteAccounts :=
    succeeds_getEncodedAccounts_iff (h hash) pubkeys encoding dataSlice overwriteAccounts
  encoded _ _ _ hash _ _ hrun := forall₂_getEncodedAccounts (h hash) hrun
  simulated data config configAccounts response hconfig hrun := by
    obtain ⟨tx, hash, simulation, keys, numberOfAccounts, hmem, hanswer, hshown⟩ :=
      simulateTransaction_accounts hrun
    rw [hconfig] at hshown
    exact ⟨tx, hash, simulation, keys, hmem, hanswer, run_simulatedAccounts_ok (h hash) hshown⟩

/-! ## Miscounted answers -/

theorem heeds_callNode {α : Type} {bad : NodeCall → Prop} {p : NodeProg Client.Error α}
    (h : p.Heeds node bad) : (callNode p).Heeds node bad := h.mapError _

/-- The readers check the number of accounts they get. -/
theorem heeds_getAccounts (pubkeys : List Pubkey) (hash : Option Hash) :
    (Client.getAccounts pubkeys hash).Heeds node (Miscounts node) := by
  intro q hq hbad
  rcases Prog.mem_asked_bind.mp hq with hq | ⟨answers, s', -, hq⟩
  · obtain rfl : q = .runtime (.getMultipleAccounts pubkeys) hash := by
      simpa [Client.runtimeCall, Prog.asked] using hq
    obtain ⟨answers, hanswer, hlen⟩ := hbad
    refine ⟨.unexpectedResponse "Account count mismatch with public keys.", ?_⟩
    rw [Client.getAccounts, Prog.run_bind, Client.run_runtimeCall, hanswer]
    exact congrArg (Prog.run node) (if_pos hlen.symm)
  · split at hq <;> cases hq

theorem heeds_getAccountsFromOverwritesOrNode (pubkeys : List Pubkey)
    (overwriteAccounts : Option (HashMap Pubkey Account)) (hash : Hash) :
    (getAccountsFromOverwritesOrNode pubkeys overwriteAccounts hash).Heeds node (Miscounts node) :=
  (heeds_callNode (heeds_getAccounts _ _)).bind fun _ => Prog.heeds_pure _

theorem heeds_readStorageU64 (key missing : String) (hash : Hash) :
    (Client.readStorageU64 key missing hash).Heeds node (Miscounts node) :=
  Prog.heeds_of_asks ⟨nofun, fun _ => Prog.asks_ofOutcome _⟩

theorem heeds_getParsedTokenAccounts (keyedAccounts : List (Pubkey × Account)) (hash : Hash)
    (overwriteAccounts : Option (HashMap Pubkey Account)) :
    (getParsedTokenAccounts lib orders keyedAccounts hash overwriteAccounts).Heeds node
      (Miscounts node) := by
  refine (heeds_getAccountsFromOverwritesOrNode _ _ _).bind fun _ => ?_
  refine (heeds_callNode ?_).bind fun _ => Prog.heeds_pure _
  exact (heeds_readStorageU64 _ _ _).bind fun _ => Prog.heeds_pure _

theorem heeds_getEncodedAccounts (pubkeys : List Pubkey) (encoding : UiAccountEncoding)
    (dataSlice : Option UiDataSliceConfig) (hash : Hash)
    (overwriteAccounts : Option (HashMap Pubkey Account)) :
    (getEncodedAccounts lib orders pubkeys encoding dataSlice hash overwriteAccounts).Heeds node
      (Miscounts node) := by
  refine (heeds_getAccountsFromOverwritesOrNode _ _ _).bind fun accounts => ?_
  split
  · exact (heeds_getParsedTokenAccounts _ _ _).bind fun _ => Prog.heeds_pure _
  · exact Prog.heeds_pure _

theorem heeds_simulatedAccounts (configAccounts : Option RpcSimulateTransactionAccountsConfig)
    (simulation : TransactionSimulationResult) (numberOfAccounts : Nat) (hash : Hash) :
    (simulatedAccounts lib orders configAccounts simulation numberOfAccounts hash).Heeds node
      (Miscounts node) := by
  unfold simulatedAccounts
  split
  · exact Prog.heeds_pure _
  · dsimp only
    split
    · exact Prog.heeds_fail _
    · split
      · exact Prog.heeds_fail _
      · split
        · exact Prog.heeds_pure _
        · refine (Prog.heeds_ofExcept _).bind fun pubkeys => ?_
          exact (heeds_getEncodedAccounts _ _ _ _ _).bind fun _ => Prog.heeds_pure _

/-- A call that is no look-up of many accounts. -/
theorem heeds_callNode_ask {α : Type} {q : NodeCall} {r : q.Answer → Except Client.Error α}
    (h : ¬ Miscounts node q) :
    (callNode (.ask q fun answer => .ofExcept (r answer))).Heeds node (Miscounts node) :=
  heeds_callNode (Prog.heeds_of_asks ⟨h, fun _ => Prog.asks_ofExcept _⟩)

theorem heeds_getHashWithConfig (config : RpcContextConfig) :
    (getHashWithConfig config).Heeds node (Miscounts node) := by
  unfold getHashWithConfig Solana.hash
  split <;> exact heeds_callNode_ask nofun

theorem heeds_replaceBlockhash (config : RpcSimulateTransactionConfig) (tx : VersionedTransaction) :
    (replaceBlockhash config tx).Heeds node (Miscounts node) := by
  unfold replaceBlockhash
  split
  · split
    · exact Prog.heeds_fail _
    · refine Prog.Heeds.bind (heeds_callNode_ask nofun) fun recent => ?_
      exact Prog.Heeds.bind (heeds_callNode_ask nofun) fun height => Prog.heeds_pure _
  · exact Prog.heeds_pure _

/-- A simulation looks up accounts only at its end. -/
theorem heeds_simulateTransaction (data : String) (config : Option RpcSimulateTransactionConfig) :
    (simulateTransaction lib orders txLib data config).Heeds node (Miscounts node) := by
  unfold simulateTransaction
  refine (Prog.heeds_ofExcept _).bind fun tx => ?_
  refine (heeds_getHashWithConfig _).bind fun hash => ?_
  refine (heeds_callNode (heeds_readStorageU64 _ _ _)).bind fun slot => ?_
  refine (heeds_replaceBlockhash _ _).bind fun _ => ?_
  refine Prog.Heeds.bind (heeds_callNode_ask nofun) fun _ => ?_
  exact (heeds_simulatedAccounts _ _ _ _).bind fun _ => Prog.heeds_pure _

theorem heedsCounts (lib : Decoder) (orders : IterOrders) (txLib : TransactionLib) (node : Node) :
    HeedsCounts lib orders txLib node where
  found := heeds_getAccountsFromOverwritesOrNode
  encoded := heeds_getEncodedAccounts
  simulated := heeds_simulateTransaction

/-- From a node that looks up accounts key by key, all look-ups return one entry for each key
in the order asked for, overwritten accounts first; from any node, they fail if it answers
with another number of accounts. -/
theorem lookups_positional (lib : Decoder) (orders : IterOrders) (txLib : TransactionLib) :
    (∀ (node : Node) (accounts : Hash → Pubkey → Option Account),
      (∀ hash, KeyByKey node hash (.ok (accounts hash))) →
        Positional lib orders txLib node accounts) ∧
    ∀ node, HeedsCounts lib orders txLib node :=
  ⟨fun _ _ => positional lib orders txLib, heedsCounts lib orders txLib⟩

/-- A node that has a token account under every key. -/
theorem lookups_positional_serving :
    Positional tokenDecoder listedOrders emptyTransactionLib (simulatingNode.serving tokenChain)
      fun _ => tokenChain :=
  (lookups_positional tokenDecoder listedOrders emptyTransactionLib).1 _ _ fun _ => keyByKey_serving

end Solana

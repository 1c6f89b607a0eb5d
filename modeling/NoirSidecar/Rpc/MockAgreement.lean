-- SUMMARY: On the accounts of its virtual machine the mock answers account reads as the server does at a block that has them.
import NoirSidecar.Rpc.Agreement
import NoirSidecar.Rpc.MockMethods

/-!
# The mock beside the server

The mock and the server read accounts in methods that are written separately. Where a block of
the node has the accounts of the virtual machine, and the time of the clock as its timestamp,
the two agree.
-/

namespace MockSolana

open LiteSVM Solana

section Methods

variable {T : Types} {σ : Type}

/-! ## Running a method -/

/-- The state of the virtual machine after a call. -/
def Call.next (svm : Vm T σ) (s : σ) : Call → σ
  | .sendTransaction tx => (svm.sendTransaction s tx).2
  | .requestAirdrop pubkey lamports => (svm.airdrop s pubkey lamports).2
  | _ => s

/-- Calls are answered by the virtual machine as it is, and the clock has been read some times. -/
def answering (svm : Vm T σ) (clock : Nat → UInt64) : (q : Question) → σ × Nat → q.Answer T × (σ × Nat)
  | .execute call, (s, n) => (call.value svm s, (call.next svm s, n))
  | .now, (s, n) => (clock n, (s, n + 1))

variable {svm : Vm T σ} {clock : Nat → UInt64} {s : σ} {n : Nat} {lib : Decoder}
  {orders : IterOrders} {node : Node} {hash : Hash}

theorem exec_getTimestamp :
    (getTimestamp : MethodProg T _).exec (answering svm clock) (s, n) =
      (.ok (clock n).toInt64, (s, n + 1)) := rfl

/-- What the two of them return, apart from the slot. -/
def Alike {α : Type} (o o' : Outcome ErrorObject (RpcResponse α)) : Prop :=
  RpcResponse.value <$> o = RpcResponse.value <$> o'

/-! ## Accounts under others -/

/-- The two maps, of the accounts that are overwritten and of the others, are joined back. -/
theorem lookup_overlay {pubkeys : List Pubkey} {overwriteAccounts : Option (HashMap Pubkey Account)}
    (accounts : Pubkey → Option Account) {p : Pubkey} (hp : p ∈ pubkeys) :
    let overwrite := fun pubkey => overwriteAccounts.bind fun accounts => accounts.lookup pubkey
    ((HashMap.collect (pubkeys.filterMap fun pubkey =>
        (overwrite pubkey).map fun account => (pubkey, account))).lookup p).or
      ((HashMap.collect ((pubkeys.filter fun pubkey => (overwrite pubkey).isNone).map
        fun pubkey => (pubkey, accounts pubkey))).lookup p).join =
      overlay overwriteAccounts accounts p := by
  intro overwrite
  rw [HashMap.lookup_collect_graph, HashMap.lookup_collect_map, if_pos hp, overlay]
  cases hover : overwrite p with
  | none =>
    have hkept : p ∈ pubkeys.filter fun pubkey => (overwrite pubkey).isNone :=
      List.mem_filter.mpr ⟨hp, by rw [hover]; rfl⟩
    rw [if_pos hkept]
    change _ = (overwrite p).or (accounts p)
    rw [hover]
    rfl
  | some account =>
    change _ = (overwrite p).or (accounts p)
    rw [hover]
    rfl

theorem exec_getAccountsFromOverwritesOrNode (pubkeys : List Pubkey)
    (overwriteAccounts : Option (HashMap Pubkey Account)) :
    (getAccountsFromOverwritesOrNode pubkeys overwriteAccounts : MethodProg T _).exec
        (answering svm clock) (s, n) =
      (.ok (pubkeys.map fun p => (p, overlay overwriteAccounts (svm.getAccount s) p)), (s, n)) := by
  refine Prod.ext ?_ rfl
  refine congrArg Outcome.ok (List.map_congr_left fun p hp => ?_)
  exact congrArg (Prod.mk p) (lookup_overlay (svm.getAccount s) hp)

theorem exec_getParsedTokenAccounts (keyedAccounts : List (Pubkey × Account))
    (overwriteAccounts : Option (HashMap Pubkey Account)) :
    (getParsedTokenAccounts lib orders keyedAccounts overwriteAccounts : MethodProg T _).exec
        (answering svm clock) (s, n) =
      (.ok (HashMap.collect (parsedPairs lib keyedAccounts
        (getMultipleTokenAccountMint lib keyedAccounts)
        (mintData lib (overlay overwriteAccounts (svm.getAccount s)) (clock n).toInt64))), (s, n + 1)) := by
  rw [getParsedTokenAccounts, Prog.exec_bind_of_eq (exec_getAccountsFromOverwritesOrNode _ _),
    Prog.exec_bind_of_eq exec_getTimestamp]
  simp only [filterMap_found]
  refine Prod.ext (congrArg (fun pairs => Outcome.ok (HashMap.collect pairs)) ?_) rfl
  exact parsedPairs_eq keyedAccounts (clock n).toInt64

/-! ## Account reads -/

variable (svm s lib orders) in
/-- Many accounts. -/
theorem exec_getEncodedAccounts (htime : timestampOf node hash = .ok (clock n).toInt64)
    (pubkeys : List Pubkey) (encoding : UiAccountEncoding) (dataSlice : Option UiDataSliceConfig) :
    ∃ n', (getEncodedAccounts lib orders pubkeys encoding dataSlice none : MethodProg T _).exec
        (answering svm clock) (s, n) =
      ((Solana.getEncodedAccounts lib orders pubkeys encoding dataSlice hash none).run
        (node.serving (svm.getAccount s)), (s, n')) := by
  have htime' : timestampOf (node.serving (svm.getAccount s)) hash = .ok (clock n).toInt64 := by
    rw [← htime, timestampOf, timestampOf, Client.getTimestamp_serving]
  rw [getEncodedAccounts, Prog.exec_bind_of_eq (exec_getAccountsFromOverwritesOrNode _ _),
    Solana.getEncodedAccounts, Prog.run_bind,
    run_getAccountsFromOverwritesOrNode keyByKey_serving]
  simp only [Solana.accountsOf, Outcome.ofExcept_ok, Outcome.mapError_ok, Outcome.ok_bind]
  by_cases hjson : encoding = .jsonParsed
  · refine ⟨n + 1, ?_⟩
    rw [if_pos hjson, if_pos hjson, Prog.exec_bind_of_eq (exec_getParsedTokenAccounts _ _),
      Prog.run_bind, run_getParsedTokenAccounts_of keyByKey_serving, htime']
    rfl
  · refine ⟨n, ?_⟩
    rw [if_neg hjson, if_neg hjson]
    rfl

variable (svm s lib) in
/-- A token account. -/
theorem exec_getParsedTokenAccount (htime : timestampOf node hash = .ok (clock n).toInt64)
    (pubkey : Pubkey) (account : Account) :
    ∃ n', (getParsedTokenAccount lib pubkey account : MethodProg T _).exec
        (answering svm clock) (s, n) =
      ((Solana.getParsedTokenAccount lib pubkey account hash).run (node.serving (svm.getAccount s)),
        (s, n')) := by
  rw [run_getParsedTokenAccount, mintAccountOf]
  unfold getParsedTokenAccount
  cases hmint : lib.getTokenAccountMint account.data with
  | none => exact ⟨n, rfl⟩
  | some mintPubkey =>
    have hread : (call (.getAccount mintPubkey) : MethodProg T _).exec (answering svm clock) (s, n) =
        (.ok (svm.getAccount s mintPubkey), (s, n)) := rfl
    simp only [Option.bind_some]
    cases hfound : svm.getAccount s mintPubkey with
    | none =>
      refine ⟨n, ?_⟩
      rw [hfound] at hread
      rw [Prog.exec_bind_of_eq hread]
      rfl
    | some mintAccount =>
      refine ⟨n + 1, ?_⟩
      rw [hfound] at hread
      rw [Prog.exec_bind_of_eq hread]
      dsimp only
      rw [Prog.exec_bind_of_eq exec_getTimestamp, htime, Outcome.ok_bind]
      cases getAdditionalMintData lib mintAccount.data (clock n).toInt64 with
      | ok data => rfl
      | error e => rfl

variable (svm s lib) in
/-- One account. -/
theorem exec_getEncodedAccount (htime : timestampOf node hash = .ok (clock n).toInt64)
    (pubkey : Pubkey) (encoding : UiAccountEncoding) (dataSlice : Option UiDataSliceConfig) :
    ∃ n', (getEncodedAccount lib pubkey encoding dataSlice : MethodProg T _).exec
        (answering svm clock) (s, n) =
      ((Solana.getEncodedAccount lib pubkey encoding dataSlice hash).run
        (node.serving (svm.getAccount s)), (s, n')) := by
  have hread : (call (.getAccount pubkey) : MethodProg T _).exec (answering svm clock) (s, n) =
      (.ok (svm.getAccount s pubkey), (s, n)) := rfl
  rw [getEncodedAccount, Prog.exec_bind_of_eq hread, Solana.getEncodedAccount, Prog.run_bind,
    run_callNode, Client.getAccount_serving, Outcome.mapError_ok, Outcome.ok_bind]
  cases svm.getAccount s pubkey with
  | none => exact ⟨n, rfl⟩
  | some account =>
    dsimp only
    split
    · obtain ⟨n', hparsed⟩ := exec_getParsedTokenAccount svm s lib htime pubkey account
      refine ⟨n', ?_⟩
      rw [Prog.exec_bind, hparsed, Prog.run_bind]
      cases (Solana.getParsedTokenAccount lib pubkey account hash).run
        (node.serving (svm.getAccount s)) <;> rfl
    · refine ⟨n, ?_⟩
      cases encodeAccount lib account pubkey encoding dataSlice <;> rfl

/-! ## Requests -/

variable {orders : IterOrders} {txLib : TransactionLib} {results : ResultLib T}

theorem run_hash_serving (commitment : Option CommitmentConfig) (accounts : Pubkey → Option Account) :
    (Solana.hash commitment).run (node.serving accounts) = (Solana.hash commitment).run node := by
  have hlatest : Client.latestBlockhash.run (node.serving accounts) = Client.latestBlockhash.run node := by
    rw [Client.run_latestBlockhash, Client.run_latestBlockhash]
    rfl
  have hfinalized : Client.finalizedBlockhash.run (node.serving accounts) =
      Client.finalizedBlockhash.run node := by
    rw [Client.run_finalizedBlockhash, Client.run_finalizedBlockhash]
    rfl
  unfold Solana.hash
  split
  · rw [run_callNode, run_callNode, hlatest]
  · rw [run_callNode, run_callNode, hfinalized]
  · rw [run_callNode, run_callNode, hfinalized]

theorem run_getSlot_serving (accounts : Pubkey → Option Account) :
    (callNode (Client.getSlot hash)).run (node.serving accounts) =
      (callNode (Client.getSlot hash)).run node := by
  rw [run_callNode, run_callNode, Client.getSlot, Client.run_readStorageU64, Client.run_readStorageU64]
  rfl

/-- Finding the block of a commitment and its slot. -/
theorem run_at_head {α : Type} {config : RpcContextConfig} {accounts : Pubkey → Option Account}
    {slot : UInt64} (f : Hash → UInt64 → RpcProg α)
    (hhead : (Solana.hash config.commitment).run node = .ok hash)
    (hslot : (callNode (Client.getSlot hash)).run node = .ok slot) :
    (getHashWithConfig config >>= fun hash => callNode (Client.getSlot hash) >>= f hash).run
        (node.serving accounts) = (f hash slot).run (node.serving accounts) := by
  rw [Prog.run_bind, getHashWithConfig, run_hash_serving, hhead, Outcome.ok_bind, Prog.run_bind,
    run_getSlot_serving, hslot, Outcome.ok_bind]

/-- The request reads accounts. -/
def ReadsAccounts : ReadRequest → Prop
  | .getAccountInfo .. | .getMultipleAccounts .. | .getBalance .. => True
  | _ => False

/-- The block of the node has the balances of the virtual machine, and its timestamp reads as
the milliseconds of the clock. -/
structure Mirrors (node : Node) (hash : Hash) (svm : Vm T σ) (s : σ) (millis : UInt64) : Prop where
  slot : ((callNode (Client.getSlot hash)).run node).Succeeds
  timestamp : timestampOf node hash = .ok millis.toInt64
  balance : ∀ p, node (.runtime (.getBalance p) (some hash)) = .value ((svm.getBalance s p).getD 0)

variable (lib orders txLib results) in
/-- The answers of the virtual machine to the calls of a request are those of the server at the
block. -/
theorem exec_answer_alike {r : ReadRequest} (hreads : ReadsAccounts r)
    (hhead : (Solana.hash r.commitment).run node = .ok hash)
    (hblock : Mirrors node hash svm s (clock n)) :
    ∃ n' o, (answer lib orders txLib results r : MethodProg T _).exec (answering svm clock) (s, n) =
        (o, (s, n')) ∧
      Alike o ((r.answer lib txLib orders).run (node.serving (svm.getAccount s))) := by
  obtain ⟨slot, hslot⟩ := hblock.slot
  cases r with
  | getAccountInfo pubkeyStr config =>
    simp only [answer, getAccountInfo, ReadRequest.answer, Solana.getAccountInfo]
    cases verifyPubkey pubkeyStr with
    | error e => exact ⟨n, _, rfl, rfl⟩
    | ok pubkey =>
      obtain ⟨n', hread⟩ := exec_getEncodedAccount svm s lib
        hblock.timestamp pubkey ((config.getD {}).encoding.getD .binary) (config.getD {}).dataSlice
      rw [Prog.run_bind, Prog.run_ofExcept, Outcome.ofExcept_ok, Outcome.ok_bind,
        run_at_head _ hhead hslot, Prog.run_bind]
      rw [Prog.exec_bind_of_eq (Prog.exec_ofExcept _ _), Prog.exec_bind, hread]
      cases (Solana.getEncodedAccount lib pubkey ((config.getD {}).encoding.getD .binary)
        (config.getD {}).dataSlice hash).run (node.serving (svm.getAccount s)) with
      | ok account => exact ⟨n', _, rfl, rfl⟩
      | error e => exact ⟨n', _, rfl, rfl⟩
      | panicked => exact ⟨n', _, rfl, rfl⟩
  | getMultipleAccounts pubkeyStrs config =>
    simp only [answer, getMultipleAccounts, ReadRequest.answer, Solana.getMultipleAccounts]
    split
    · exact ⟨n, _, rfl, rfl⟩
    · cases verifyPubkeys pubkeyStrs with
      | error e => exact ⟨n, _, rfl, rfl⟩
      | ok pubkeys =>
        obtain ⟨n', hread⟩ := exec_getEncodedAccounts svm s lib orders
          hblock.timestamp pubkeys ((config.getD {}).encoding.getD .binary)
          (config.getD {}).dataSlice
        rw [Prog.run_bind, Prog.run_ofExcept, Outcome.ofExcept_ok, Outcome.ok_bind,
          run_at_head _ hhead hslot, Prog.run_bind]
        rw [Prog.exec_bind_of_eq (Prog.exec_ofExcept _ _), Prog.exec_bind, hread]
        cases (Solana.getEncodedAccounts lib orders pubkeys ((config.getD {}).encoding.getD .binary)
          (config.getD {}).dataSlice hash none).run (node.serving (svm.getAccount s)) with
        | ok accounts => exact ⟨n' + 1, _, rfl, rfl⟩
        | error e => exact ⟨n', _, rfl, rfl⟩
        | panicked => exact ⟨n', _, rfl, rfl⟩
  | getBalance pubkeyStr config =>
    simp only [answer, getBalance, ReadRequest.answer, Solana.getBalance]
    cases verifyPubkey pubkeyStr with
    | error e => exact ⟨n, _, rfl, rfl⟩
    | ok pubkey =>
      have hread : (callNode (Client.getBalance pubkey hash)).run (node.serving (svm.getAccount s)) =
          .ok ((svm.getBalance s pubkey).getD 0) :=
        run_runtimeCall_eq_ok.mpr (hblock.balance pubkey)
      rw [Prog.run_bind, Prog.run_ofExcept, Outcome.ofExcept_ok, Outcome.ok_bind,
        run_at_head _ hhead hslot, Prog.run_bind, hread]
      exact ⟨n + 1, _, rfl, rfl⟩
  | _ => exact hreads.elim

/-! ## Down to the queue of the virtual machine -/

/-- What is put into the queue, or a look at the clock. -/
abbrev Sent := ExecuteCall ⊕ Unit

abbrev Sent.Answer : Sent → Type := Sum.elim ExecuteCall.Answer fun _ => UInt64

def Question.lower (bincode : Bincode T) : (q : Question) → Prog Sent Sent.Answer ErrorObject (q.Answer T)
  | .execute call => (call.execute bincode).left
  | .now => .ask (.inr ()) .done

/-- The request loop takes each request after some of other callers. -/
def machine (bincode : Bincode T) (svm : Vm T σ) (clock : Nat → UInt64) (others : Nat → List SvmRequest) :
    (q : Sent) → σ × Nat × Nat → q.Answer × (σ × Nat × Nat)
  | .inl ⟨method, params⟩, (s, n, k) =>
    let s := stateAfter bincode svm s (others k)
    let (result, s) := handle bincode svm ⟨method, params, some k⟩ s
    (.ok result, (s, n, k + 1))
  | .inr (), (s, n, k) => (clock n, (s, n + 1, k))

/-- Both what is asked and the answer survive the way as bytes. -/
def Carried (bincode : Bincode T) (svm : Vm T σ) : Question → σ × Nat → Prop
  | .execute call, (s, _) =>
    bincode.Carries (t := call.Param) call.params ∧ bincode.Carries (t := call.Result) (call.value svm s)
  | .now, _ => True

variable {bincode : Bincode T} {others : Nat → List SvmRequest}

theorem stateAfter_of_reads {rs : List SvmRequest} (h : ∀ r ∈ rs, operation bincode r = none) :
    stateAfter bincode svm s rs = s := by
  have hnone : rs.filterMap (operation bincode) = [] := List.filterMap_eq_nil_iff.mpr h
  rw [stateAfter, hnone]
  rfl

/-- A request of a call leads to the state after the call. -/
theorem handle_next {c : Call} {r : SvmRequest} (hmethod : r.method = c.method)
    (hparams : bincode.deserialize c.Param r.params = .ok c.params) :
    (handle bincode svm r s).2 = c.next svm s := by
  rw [handle_state]
  cases c with
  | sendTransaction tx =>
    have hop : operation bincode r = some (.sendTransaction tx) := by
      simp only [operation, hmethod, Call.method]
      exact congrArg (fun p => p.toOption.map Operation.sendTransaction) hparams
    rw [hop]
    rfl
  | requestAirdrop pubkey lamports =>
    have hop : operation bincode r = some (.airdrop pubkey lamports) := by
      simp only [operation, hmethod, Call.method]
      exact congrArg (fun p => p.toOption.map fun p => Operation.airdrop p.1 p.2) hparams
    rw [hop]
    rfl
  | _ =>
    rw [operation_eq_none (by simp [hmethod, Call.method]) (by simp [hmethod, Call.method])]
    rfl

/-- A question is answered from its bytes as the virtual machine answers it, if only reads of
others come between. -/
theorem exec_lower_of_carried {q : Question} {k : Nat}
    (hothers : ∀ k, ∀ r ∈ others k, operation bincode r = none)
    (hq : Carried bincode svm q (s, n)) :
    ∃ k', (q.lower bincode).exec (machine bincode svm clock others) (s, n, k) =
      (.ok (answering svm clock q (s, n)).1,
        ((answering svm clock q (s, n)).2.1, (answering svm clock q (s, n)).2.2, k')) := by
  cases q with
  | now => exact ⟨k, rfl⟩
  | execute call =>
    obtain ⟨⟨params, hser, hde⟩, ⟨result, hser', hde'⟩⟩ := hq
    refine ⟨k + 1, ?_⟩
    have hanswer : machine bincode svm clock others (.inl ⟨call.method, params⟩) (s, n, k) =
        (.ok (.ok result), (call.next svm s, n, k + 1)) := by
      simp only [machine, stateAfter_of_reads (hothers k)]
      have hmethod : (⟨call.method, params, some k⟩ : SvmRequest).method = call.method := rfl
      have hvalue : (handle bincode svm ⟨call.method, params, some k⟩ s).1 = _ :=
        Call.handle_eq hmethod hde s
      rw [hser'] at hvalue
      rw [handle_next hmethod hde, hvalue]
      rfl
    have hasked : (Prog.query ⟨call.method, params⟩ : ExecuteProg _).left.exec
        (machine bincode svm clock others) (s, n, k) =
          (.ok (.ok (.ok result)), (call.next svm s, n, k + 1)) := by
      exact congrArg (fun r => (Outcome.ok r.1, r.2)) hanswer
    simp only [Question.lower, Call.execute, MockSolana.execute, Prog.left_bind,
      Prog.left_ofExcept, hser]
    rw [Prog.exec_bind_of_eq (Prog.exec_ofExcept _ _), Prog.exec_bind_of_eq hasked,
      Prog.exec_bind_of_eq (Prog.exec_ofExcept _ _), Prog.exec_bind_of_eq (Prog.exec_ofExcept _ _),
      Prog.exec_ofExcept, hde']
    rfl

/-- A method answers from the bytes as from the virtual machine itself. -/
theorem exec_through_lower {α : Type} {p : MethodProg T α} (k : Nat)
    (hothers : ∀ k, ∀ r ∈ others k, operation bincode r = none)
    (hcarried : p.Meets (Carried bincode svm) (answering svm clock) (s, n)) :
    ∃ k', (p.through (Question.lower bincode)).exec (machine bincode svm clock others) (s, n, k) =
      ((p.exec (answering svm clock) (s, n)).1,
        ((p.exec (answering svm clock) (s, n)).2.1, (p.exec (answering svm clock) (s, n)).2.2, k')) := by
  let Same : σ × Nat → σ × Nat × Nat → Prop := fun st st' => st'.1 = st.1 ∧ st'.2.1 = st.2
  have hsim : ∀ q (st : σ × Nat) (st' : σ × Nat × Nat), Same st st' → Carried bincode svm q st →
      ∃ st'', (q.lower bincode).exec (machine bincode svm clock others) st' =
        (.ok (answering svm clock q st).1, st'') ∧ Same (answering svm clock q st).2 st'' := by
    rintro q ⟨s, n⟩ ⟨s', n', k⟩ ⟨hs, hn⟩ hq
    dsimp only at hs hn
    subst hs hn
    obtain ⟨k', hexec⟩ := exec_lower_of_carried hothers hq
    exact ⟨_, hexec, rfl, rfl⟩
  obtain ⟨⟨s', n', k'⟩, hlow, hs, hn⟩ := Prog.exec_through hsim (t := (s, n, k)) ⟨rfl, rfl⟩ hcarried
  dsimp only at hs hn
  subst hs hn
  exact ⟨k', hlow⟩

/-- Whatever account read the mock is asked for, and whatever others read from its virtual
machine meanwhile, it answers with the value, or the error, that the server answers with at a
block that has the accounts and balances of the virtual machine, and leaves the virtual machine
as it is. The timestamp of the block, in seconds, has to be the clock in milliseconds. -/
theorem account_reads_agree {r : ReadRequest} {k : Nat} (hreads : ReadsAccounts r)
    (hhead : (Solana.hash r.commitment).run node = .ok hash)
    (hblock : Mirrors node hash svm s (clock n))
    (hothers : ∀ k, ∀ r ∈ others k, operation bincode r = none)
    (hcarried : (answer lib orders txLib results r).Meets (Carried bincode svm)
      (answering svm clock) (s, n)) :
    ∃ n' k' o, ((answer lib orders txLib results r).through (Question.lower bincode)).exec
        (machine bincode svm clock others) (s, n, k) = (o, (s, n', k')) ∧
      Alike o ((r.answer lib txLib orders).run (node.serving (svm.getAccount s))) := by
  obtain ⟨n', o, hexec, halike⟩ := exec_answer_alike lib orders txLib results hreads hhead
    hblock
  obtain ⟨k', hlow⟩ := exec_through_lower k hothers hcarried
  rw [hexec] at hlow
  exact ⟨n', k', o, hlow, halike⟩

end Methods

/-! ### A balance -/

/-- Besides balances, what carries airdrops and the latest blockhash. -/
def readBincode : Bincode types where
  serialize
    | .string, "" => .ok (List.replicate 8 0)
    | .hash, blockhash => .ok blockhash.bytes
    | .pair .pubkey .u64, (pubkey, n) =>
      .ok (pubkey.bytes ++ (List.range 8).map fun i => (n >>> (8 * i).toUInt64).toUInt8)
    | .transactionResult, .ok signature => .ok signature.bytes
    | t, v => balanceBincode.serialize t v
  deserialize
    | .string, _ => .ok ""
    | .hash, bytes => if h : bytes.length = 32 then .ok ⟨bytes, h⟩ else .error "unexpected end of file"
    | .pair .pubkey .u64, bytes =>
      if h : (bytes.take 32).length = pubkeyBytes then
        .ok (⟨bytes.take 32, h⟩, (bytes.drop 32).foldr (fun b n => n <<< 8 ||| b.toUInt64) 0)
      else .error "unexpected end of file"
    | .transactionResult, bytes =>
      if h : bytes.length = 64 then .ok (.ok ⟨bytes, h⟩) else .error "unexpected end of file"
    | t, bytes => balanceBincode.deserialize t bytes

/-- A block at the epoch where key 7 has five lamports. -/
def balanceNode : Node
  | .chainGetFinalizedHead => .ok .zero
  | .runtime (.getBalance p) _ => .value ((balances.getBalance [(.ofByte 7, 5)] p).getD 0)
  | call => Node.atEpoch call

def noResults : ResultLib types where
  result r := match r with
    | .ok signature => .ok ⟨signature⟩
    | .error text => .error ⟨⟨text⟩, text⟩
  fee _ := .ok 5000

/-- Others ask for the same balance all the time. -/
theorem balance_agrees : ∃ n' k' o,
    ((answer tokenDecoder listedOrders nullTransactionLib noResults
        (.getBalance (Pubkey.ofByte 7).toString none)).through (Question.lower readBincode)).exec
        (machine readBincode balances (fun _ => 0) fun _ => [balanceRequest])
          ([(.ofByte 7, 5)], 0, 0) = (o, ([(.ofByte 7, 5)], n', k')) ∧
      Alike o (((ReadRequest.getBalance (Pubkey.ofByte 7).toString none).answer tokenDecoder
        nullTransactionLib listedOrders).run (balanceNode.serving
          (balances.getAccount [(.ofByte 7, 5)]))) := by
  have hblock : Mirrors balanceNode .zero balances [(.ofByte 7, 5)] 0 := by
    refine ⟨⟨0, ?_⟩, ?_, fun p => rfl⟩
    · decide +kernel
    · decide +kernel
  refine account_reads_agree (r := .getBalance (Pubkey.ofByte 7).toString none) trivial rfl hblock ?_ ?_
  · intro k r hr
    rw [List.mem_singleton.mp hr]
    rfl
  · simp only [answer, getBalance, verifyPubkey_toString]
    refine ⟨⟨⟨_, rfl, ?_⟩, ⟨_, rfl, ?_⟩⟩, trivial, ⟨⟨_, rfl, ?_⟩, ⟨_, rfl, ?_⟩⟩, trivial⟩
    all_goals decide +kernel

end MockSolana

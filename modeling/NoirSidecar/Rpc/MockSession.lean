-- SUMMARY: Over a session of the mock only the transactions and airdrops it accepts change the virtual machine, and each request is answered from where those before it have led.
import NoirSidecar.Rpc.MockAgreement

/-!
# Sessions with the mock

Requests are answered one after another. Those that read leave the virtual machine as it is,
whatever they ask of it and however they end; a transaction or an airdrop is carried out once
if its texts can be read, and not at all otherwise.
-/

namespace MockSolana

open LiteSVM Solana

/-! ## Requests -/

inductive Request where
  | read (r : ReadRequest)
  | getProgramAccounts (programIdStr : String) (config : Option RpcProgramAccountsConfig)
  | getTokenAccountsByOwner (ownerStr : String) (tokenAccountFilter : RpcTokenAccountsFilter)
      (config : Option RpcAccountInfoConfig)
  | getSignatureStatuses (signatureStrs : List String)
  | sendTransaction (data : String) (config : Option RpcSendTransactionConfig)
  | requestAirdrop (pubkeyStr : String) (lamports : UInt64)
  | getGenesisHash
  | getVersion
  | getSignaturesForAddress (address : String)
  | getVoteAccounts

@[reducible] def Request.Value : Request → Type
  | .read r => RpcResponse r.Value
  | .getProgramAccounts .. => OptionalContext (List RpcKeyedAccount)
  | .getTokenAccountsByOwner .. => RpcResponse (List RpcKeyedAccount)
  | .getSignatureStatuses _ => RpcResponse (List (Option TransactionStatus))
  | .sendTransaction .. => String
  | .requestAirdrop .. => String
  | .getGenesisHash => String
  | .getVersion => RpcVersionInfo
  | .getSignaturesForAddress _ => List RpcConfirmedTransactionStatusWithSignature
  | .getVoteAccounts => RpcVoteAccountStatus

section Sessions

variable {T : Types} {σ : Type} (bincode : Bincode T) (svm : Vm T σ) (clock : Nat → UInt64)
  (others : Nat → List SvmRequest) (lib : Decoder) (orders : IterOrders) (txLib : TransactionLib)
  (results : ResultLib T)

def respond : (r : Request) → MethodProg T r.Value
  | .read r => answer lib orders txLib results r
  | .getProgramAccounts programIdStr config =>
    getProgramAccounts lib orders emptyIndex txLib.base64Error programIdStr config
  | .getTokenAccountsByOwner ownerStr tokenAccountFilter config =>
    getTokenAccountsByOwner lib orders emptyIndex ownerStr tokenAccountFilter config
  | .getSignatureStatuses signatureStrs => getSignatureStatuses results signatureStrs
  | .sendTransaction data config => sendTransaction txLib results data config
  | .requestAirdrop pubkeyStr lamports => requestAirdrop results pubkeyStr lamports
  | .getGenesisHash => return getGenesisHash
  | .getVersion => return getVersion
  | .getSignaturesForAddress address => return getSignaturesForAddress address
  | .getVoteAccounts => return getVoteAccounts

/-- The responses to some requests one after another, and where they lead. -/
def session : List Request → σ × Nat × Nat →
    List ((r : Request) × Outcome ErrorObject r.Value) × (σ × Nat × Nat)
  | [], st => ([], st)
  | r :: rs, st =>
    let (o, st) := ((respond lib orders txLib results r).through (Question.lower bincode)).exec
      (machine bincode svm clock others) st
    let (os, st) := session rs st
    (⟨r, o⟩ :: os, st)

/-- What a request does to the virtual machine, if its texts can be read. -/
def Request.operation : Request → Option Operation
  | .sendTransaction data config =>
    (readTransaction txLib data (config.getD {}).encoding).toOption.map .sendTransaction
  | .requestAirdrop pubkeyStr lamports =>
    (verifyPubkey pubkeyStr).toOption.map fun pubkey => .airdrop pubkey lamports
  | _ => none

/-- The virtual machine after some requests. -/
def performed (s : σ) (rs : List Request) : σ :=
  (rs.filterMap (Request.operation txLib)).foldl svm.perform s

/-! ## Requests that read -/

/-- The request is neither a transaction nor an airdrop. -/
def Request.Reads : Request → Prop
  | .sendTransaction .. | .requestAirdrop .. => False
  | _ => True

/-- The question does not change the virtual machine. -/
def Question.Reads : Question → Prop
  | .execute (.sendTransaction _) | .execute (.requestAirdrop ..) => False
  | _ => True

variable {bincode svm clock others lib orders txLib results} {s : σ} {n k : Nat}

theorem exec_of_reads {α : Type} {p : MethodProg T α} (h : p.Asks Question.Reads) (st : σ × Nat) :
    (p.exec (answering svm clock) st).2.1 = st.1 := by
  induction p generalizing st with
  | done a => rfl
  | fail e => rfl
  | panic => rfl
  | ask q k ih =>
    obtain ⟨hq, hk⟩ := h
    have hstep : (answering svm clock q st).2.1 = st.1 := by
      cases q with
      | now => rfl
      | execute call =>
        cases call with
        | sendTransaction tx => exact hq.elim
        | requestAirdrop pubkey lamports => exact hq.elim
        | _ => rfl
    exact (ih _ (hk _) _).trans hstep

theorem reads_getMockHashAndSlot : (getMockHashAndSlot : MethodProg T _).Asks Question.Reads :=
  ⟨trivial, fun _ => ⟨trivial, fun _ => trivial⟩⟩

theorem reads_getTimestamp : (getTimestamp : MethodProg T _).Asks Question.Reads :=
  reads_getMockHashAndSlot.bind fun _ => trivial

theorem reads_getParsedTokenAccount (pubkey : Pubkey) (account : Account) :
    (getParsedTokenAccount lib pubkey account : MethodProg T _).Asks Question.Reads := by
  unfold getParsedTokenAccount
  split
  · refine Prog.Asks.bind ⟨trivial, fun _ => trivial⟩ fun mintAccount => ?_
    split
    · exact reads_getTimestamp.bind fun _ => (Prog.asks_ofExcept _).bind fun _ => trivial
    · trivial
  · trivial

theorem reads_getEncodedAccount (pubkey : Pubkey) (encoding : UiAccountEncoding)
    (dataSlice : Option UiDataSliceConfig) :
    (getEncodedAccount lib pubkey encoding dataSlice : MethodProg T _).Asks Question.Reads := by
  refine Prog.Asks.bind ⟨trivial, fun _ => trivial⟩ fun account => ?_
  split
  · dsimp only
    split
    · exact (reads_getParsedTokenAccount _ _).bind fun _ => trivial
    · exact (Prog.asks_ofExcept _).bind fun _ => trivial
  · trivial

theorem reads_getParsedTokenAccounts (keyedAccounts : List (Pubkey × Account))
    (overwriteAccounts : Option (HashMap Pubkey Account)) :
    (getParsedTokenAccounts lib orders keyedAccounts overwriteAccounts : MethodProg T _).Asks
      Question.Reads :=
  Prog.Asks.bind ⟨trivial, fun _ => trivial⟩ fun _ => reads_getTimestamp.bind fun _ => trivial

theorem reads_getParsedTokenKeyedAccounts (keyedAccounts : List (Pubkey × Account)) :
    (getParsedTokenKeyedAccounts lib orders keyedAccounts : MethodProg T _).Asks Question.Reads :=
  (reads_getParsedTokenAccounts _ _).bind fun _ => trivial

theorem reads_getEncodedAccounts (pubkeys : List Pubkey) (encoding : UiAccountEncoding)
    (dataSlice : Option UiDataSliceConfig) (overwriteAccounts : Option (HashMap Pubkey Account)) :
    (getEncodedAccounts lib orders pubkeys encoding dataSlice overwriteAccounts : MethodProg T _).Asks
      Question.Reads := by
  refine Prog.Asks.bind ⟨trivial, fun _ => trivial⟩ fun accounts => ?_
  split
  · exact (reads_getParsedTokenAccounts _ _).bind fun _ => trivial
  · trivial

theorem reads_getTokenProgramIdAndMint (tokenAccountFilter : TokenAccountsFilter) :
    (getTokenProgramIdAndMint lib tokenAccountFilter : MethodProg T _).Asks Question.Reads := by
  have howner : ∀ mint, (getMintOwnerAndAdditionalData lib mint : MethodProg T _).Asks Question.Reads := by
    intro mint
    unfold getMintOwnerAndAdditionalData
    split
    · trivial
    · refine Prog.Asks.bind ⟨trivial, fun _ => trivial⟩ fun mintAccount => ?_
      split
      · trivial
      · exact reads_getTimestamp.bind fun _ => (Prog.asks_ofExcept _).bind fun _ => trivial
  cases tokenAccountFilter with
  | mint mint =>
    refine (howner mint).bind fun r => ?_
    dsimp only
    split <;> trivial
  | programId programId =>
    unfold getTokenProgramIdAndMint
    dsimp only
    split <;> trivial

theorem reads_lookUp (q : SvmCall) : (SvmCall.lookUp q : MethodProg T _).Asks Question.Reads := by
  cases q
  exact ⟨trivial, fun _ => trivial⟩

theorem reads_answer (r : ReadRequest) :
    (answer lib orders txLib results r).Asks Question.Reads := by
  cases r with
  | getAccountInfo pubkeyStr config =>
    exact (Prog.asks_ofExcept _).bind fun _ => (reads_getEncodedAccount _ _ _).bind fun _ => trivial
  | getMultipleAccounts pubkeyStrs config =>
    simp only [answer, getMultipleAccounts]
    split
    · trivial
    · exact (Prog.asks_ofExcept _).bind fun _ => (reads_getEncodedAccounts _ _ _ _).bind fun _ =>
        reads_getMockHashAndSlot.bind fun _ => trivial
  | getBalance pubkeyStr config =>
    exact (Prog.asks_ofExcept _).bind fun _ => Prog.Asks.bind ⟨trivial, fun _ => trivial⟩ fun _ =>
      reads_getMockHashAndSlot.bind fun _ => trivial
  | getFeeForMessage data config =>
    exact (Prog.asks_ofExcept _).bind fun _ => (Prog.asks_ofExcept _).bind fun _ =>
      reads_getMockHashAndSlot.bind fun _ => trivial
  | getLatestBlockhash config => exact reads_getMockHashAndSlot.bind fun _ => trivial
  | simulateTransaction data config keeps => trivial

theorem reads_respond {r : Request} (hreads : r.Reads) :
    (respond lib orders txLib results r).Asks Question.Reads := by
  cases r with
  | read r => exact reads_answer r
  | getProgramAccounts programIdStr config =>
    refine (Prog.asks_ofExcept _).bind fun programId => ?_
    dsimp only
    split
    · trivial
    · refine (Prog.asks_ofExcept _).bind fun _ => (Prog.asks_through reads_lookUp _).bind fun _ => ?_
      split
      · refine (reads_getParsedTokenKeyedAccounts _).bind fun _ => ?_
        split <;> trivial
      · refine (Prog.asks_ofExcept _).bind fun _ => ?_
        split <;> trivial
  | getTokenAccountsByOwner ownerStr tokenAccountFilter config =>
    refine (Prog.asks_ofExcept _).bind fun owner => (Prog.asks_ofExcept _).bind fun _ => ?_
    refine (reads_getTokenProgramIdAndMint _).bind fun r => ?_
    refine (Prog.asks_through reads_lookUp _).bind fun _ => ?_
    split
    · exact (reads_getParsedTokenKeyedAccounts _).bind fun _ => trivial
    · exact (Prog.asks_ofExcept _).bind fun _ => trivial
  | getSignatureStatuses signatureStrs =>
    exact (Prog.asks_ofExcept _).bind fun _ => Prog.Asks.bind ⟨trivial, fun _ => trivial⟩ fun _ =>
      reads_getMockHashAndSlot.bind fun _ => trivial
  | sendTransaction data config => exact hreads.elim
  | requestAirdrop pubkeyStr lamports => exact hreads.elim
  | _ => trivial

/-! ## Sessions -/

/-- A request does to the virtual machine what its texts say, and nothing if they cannot be
read. -/
theorem exec_respond (r : Request) (st : σ × Nat) :
    ((respond lib orders txLib results r).exec (answering svm clock) st).2.1 =
      (r.operation txLib).elim st.1 (svm.perform st.1) := by
  cases r with
  | sendTransaction data config =>
    simp only [respond, sendTransaction, Request.operation]
    cases readTransaction txLib data (config.getD {}).encoding with
    | error e => rfl
    | ok tx =>
      have hcall : (call (.sendTransaction tx) : MethodProg T _).exec (answering svm clock) st =
        (.ok (svm.sendTransaction st.1 tx).1, ((svm.sendTransaction st.1 tx).2, st.2)) := rfl
      rw [Prog.exec_bind_of_eq (Prog.exec_ofExcept _ _), Prog.exec_bind_of_eq hcall]
      cases results.result (svm.sendTransaction st.1 tx).1 <;> rfl
  | requestAirdrop pubkeyStr lamports =>
    simp only [respond, requestAirdrop, Request.operation]
    cases verifyPubkey pubkeyStr with
    | error e => rfl
    | ok pubkey =>
      have hcall : (call (.requestAirdrop pubkey lamports) : MethodProg T _).exec
          (answering svm clock) st =
        (.ok (svm.airdrop st.1 pubkey lamports).1, ((svm.airdrop st.1 pubkey lamports).2, st.2)) := rfl
      rw [Prog.exec_bind_of_eq (Prog.exec_ofExcept _ _), Prog.exec_bind_of_eq hcall]
      cases results.result (svm.airdrop st.1 pubkey lamports).1 <;> rfl
  | _ =>
    refine exec_of_reads (reads_respond ?_) st
    trivial

theorem performed_cons (r : Request) (rs : List Request) :
    performed svm txLib s (r :: rs) =
      performed svm txLib ((r.operation txLib).elim s (svm.perform s)) rs := by
  unfold performed
  cases h : r.operation txLib with
  | none => rw [List.filterMap_cons_none h]; rfl
  | some operation => rw [List.filterMap_cons_some h]; rfl

/-- The first request of a session is answered from the virtual machine as it is, and the others
start where it leads. -/
theorem session_cons {r : Request} (rs : List Request) (k : Nat)
    (hothers : ∀ k, ∀ r ∈ others k, LiteSVM.operation bincode r = none)
    (hcarried : (respond lib orders txLib results r).Meets (Carried bincode svm)
      (answering svm clock) (s, n)) :
    ∃ n' k', session bincode svm clock others lib orders txLib results (r :: rs) (s, n, k) =
      (⟨r, ((respond lib orders txLib results r).exec (answering svm clock) (s, n)).1⟩ ::
        (session bincode svm clock others lib orders txLib results rs
          ((r.operation txLib).elim s (svm.perform s), n', k')).1,
        (session bincode svm clock others lib orders txLib results rs
          ((r.operation txLib).elim s (svm.perform s), n', k')).2) := by
  obtain ⟨k', hexec⟩ := exec_through_lower k hothers hcarried
  rw [exec_respond] at hexec
  generalize ((respond lib orders txLib results r).exec (answering svm clock) (s, n)).2.2 = n' at hexec
  refine ⟨n', k', ?_⟩
  rw [session, hexec]

/-- In every session, whatever others read meanwhile: the virtual machine ends up where the
transactions and airdrops that could be read have led, each carried out once and in order, and
each request is answered from where those before it have led. -/
theorem session_effects {rs : List Request}
    (hothers : ∀ k, ∀ r ∈ others k, LiteSVM.operation bincode r = none)
    (hcarried : ∀ i r, rs[i]? = some r → ∀ n, (respond lib orders txLib results r).Meets
      (Carried bincode svm) (answering svm clock) (performed svm txLib s (rs.take i), n)) :
    let held := session bincode svm clock others lib orders txLib results rs (s, n, k)
    held.2.1 = performed svm txLib s rs ∧ held.1.map Sigma.fst = rs ∧
      ∀ i r o, held.1[i]? = some ⟨r, o⟩ → ∃ n, o = ((respond lib orders txLib results r).exec
        (answering svm clock) (performed svm txLib s (rs.take i), n)).1 := by
  induction rs generalizing s n k with
  | nil => exact ⟨rfl, rfl, fun i r o h => by simp [session] at h⟩
  | cons r rs ih =>
    obtain ⟨n', k', hcons⟩ := session_cons rs k hothers (hcarried 0 r rfl n)
    have hrest : ∀ i r', rs[i]? = some r' → ∀ n, (respond lib orders txLib results r').Meets
        (Carried bincode svm) (answering svm clock) (performed svm txLib
          ((r.operation txLib).elim s (svm.perform s)) (rs.take i), n) := by
      intro i r' hr' n
      rw [← performed_cons, ← List.take_succ_cons]
      exact hcarried (i + 1) r' hr' n
    obtain ⟨hstate, hrequests, hanswers⟩ := ih (n := n') (k := k') hrest
    intro held
    have hheld : held = _ := hcons
    rw [hheld]
    refine ⟨hstate.trans (performed_cons r rs).symm, congrArg (r :: ·) hrequests, ?_⟩
    intro i r' o ho
    cases i with
    | zero =>
      obtain ⟨rfl, ho⟩ := Sigma.mk.inj (Option.some.inj ho)
      exact ⟨n, (eq_of_heq ho).symm⟩
    | succ i =>
      rw [List.take_succ_cons, performed_cons]
      exact hanswers i r' o ho

end Sessions

/-! ### A session -/

/-- Three lamports for key 7, a transaction that is no text of one, and the balance of key 7. -/
def threeMockRequests : List Request :=
  [.requestAirdrop (Pubkey.ofByte 7).toString 3, .sendTransaction "" none,
    .read (.getBalance (Pubkey.ofByte 7).toString none)]

theorem balance_after_airdrop :
    let held := session readBincode balances (fun _ => 0) (fun _ => [balanceRequest]) tokenDecoder
      listedOrders nullTransactionLib noResults threeMockRequests ([(.ofByte 7, 5)], 0, 0)
    held.2.1 = performed balances nullTransactionLib [(.ofByte 7, 5)] threeMockRequests ∧
      held.1.map Sigma.fst = threeMockRequests ∧
      ∀ i r o, held.1[i]? = some ⟨r, o⟩ → ∃ n, o =
        ((respond tokenDecoder listedOrders nullTransactionLib noResults r).exec
          (answering balances fun _ => 0)
          (performed balances nullTransactionLib [(.ofByte 7, 5)] (threeMockRequests.take i), n)).1 := by
  refine session_effects ?_ ?_
  · intro k r hr
    rw [List.mem_singleton.mp hr]
    rfl
  · have hunreadable : ∃ e, readTransaction nullTransactionLib "" none = .error e := ⟨_, rfl⟩
    obtain ⟨e, hunreadable⟩ := hunreadable
    have hairdrop : (Request.requestAirdrop (Pubkey.ofByte 7).toString 3).operation
        nullTransactionLib = some (.airdrop (.ofByte 7) 3) := by
      rw [Request.operation, verifyPubkey_toString]
      rfl
    intro i r hr n
    match i with
    | 0 =>
      obtain rfl := Option.some.inj hr
      simp only [respond, requestAirdrop, verifyPubkey_toString]
      refine ⟨⟨⟨_, rfl, ?_⟩, ⟨_, rfl, rfl⟩⟩, trivial⟩
      decide +kernel
    | 1 =>
      obtain rfl := Option.some.inj hr
      simp only [respond, sendTransaction, Option.getD_none, hunreadable]
      trivial
    | 2 =>
      obtain rfl := Option.some.inj hr
      have hstate : performed balances nullTransactionLib [(.ofByte 7, 5)] (threeMockRequests.take 2) =
          [(.ofByte 7, 8), (.ofByte 7, 5)] := by
        change performed balances nullTransactionLib _ [_, .sendTransaction "" none] = _
        rw [performed_cons, hairdrop]
        rfl
      rw [hstate]
      simp only [respond, answer, getBalance, verifyPubkey_toString]
      refine ⟨⟨⟨_, rfl, ?_⟩, ⟨_, rfl, ?_⟩⟩, trivial, ⟨⟨_, rfl, rfl⟩, ⟨_, rfl, rfl⟩⟩, trivial⟩
      all_goals decide +kernel
    | i + 3 => cases hr

end MockSolana

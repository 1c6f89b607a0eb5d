-- SUMMARY: Sending a transaction, and the requests on which it panics after the node has accepted the transaction.
import NoirSidecar.Rpc.Snapshot

/-!
# Sending a transaction

The server has the node convert the transaction and submits what comes back. Its own
answer is the first signature of the transaction, which it takes only then.
-/

namespace Solana

structure RpcSendTransactionConfig where
  skipPreflight : Bool := false
  preflightCommitment : Option CommitmentLevel := none
  encoding : Option UiTransactionEncoding := none
  maxRetries : Option Nat := none
  minContextSlot : Option UInt64 := none
  deriving DecidableEq, Repr

/-- `signatures[0].to_string()` -/
def firstSignature : List Bytes → Outcome ErrorObject String
  | [] => .panicked
  | signature :: _ => .ok (Base58.encode signature)

/-- Only the encoding of the configuration is looked at. -/
def sendTransaction (txLib : TransactionLib) (data : String)
    (config : Option RpcSendTransactionConfig) : RpcProg String := do
  let config := config.getD {}
  let unsanitizedTx ← .ofExcept (readTransaction txLib data config.encoding)
  let convertedTx ← callNode (Client.convertTransaction unsanitizedTx)
  let _ ← callNode (Client.submitTransaction convertedTx)
  .ofOutcome (firstSignature unsanitizedTx.signatures)

/-! ## What becomes of a request -/

variable {txLib : TransactionLib} {node : Node} {data : String}
  {config : Option RpcSendTransactionConfig}

/-- The request submits something, and the node accepts it. -/
def Accepted (txLib : TransactionLib) (node : Node) (data : String)
    (config : Option RpcSendTransactionConfig) : Prop :=
  ∃ transaction hash, .authorSubmitExtrinsic transaction ∈
      (sendTransaction txLib data config).asked (Prog.answering node) () ∧
    node (.authorSubmitExtrinsic transaction) = .ok hash

/-- The request fails and nothing is accepted, or something is accepted and the answer is
the first signature of the transaction. -/
def Sends (txLib : TransactionLib) (node : Node) (data : String)
    (config : Option RpcSendTransactionConfig) : Prop :=
  (¬ Accepted txLib node data config ∧
      ∃ e, (sendTransaction txLib data config).run node = .error e) ∨
    Accepted txLib node data config ∧ ∃ tx signature signatures,
      readTransaction txLib data (config.getD {}).encoding = .ok tx ∧
        tx.signatures = signature :: signatures ∧
        (sendTransaction txLib data config).run node = .ok (Base58.encode signature)

/-- The request holds `tx`, and the node converts it and accepts what that gives. -/
def Takes (txLib : TransactionLib) (node : Node) (data : String)
    (config : Option RpcSendTransactionConfig) (tx : VersionedTransaction) : Prop :=
  readTransaction txLib data (config.getD {}).encoding = .ok tx ∧
    ∃ converted hash, node (.runtime (.convertTransaction tx) none) = .value converted ∧
      node (.authorSubmitExtrinsic ("0x" ++ Hex.encode converted)) = .ok hash

/-- The rest of a request once its transaction is converted: a submission, and then, if
that is accepted, `outcome`. -/
def submit (convertedTx : Bytes) (outcome : Outcome ErrorObject String) : RpcProg String := do
  let _ ← callNode (Client.submitTransaction convertedTx)
  .ofOutcome outcome

theorem asked_submit (convertedTx : Bytes) (outcome : Outcome ErrorObject String) :
    (submit convertedTx outcome).asked (Prog.answering node) () =
      [.authorSubmitExtrinsic ("0x" ++ Hex.encode convertedTx)] := by
  refine congrArg (NodeCall.authorSubmitExtrinsic _ :: ·) ?_
  rw [Prog.answering]
  cases node (.authorSubmitExtrinsic ("0x" ++ Hex.encode convertedTx)) with
  | error e => rfl
  | ok hash => cases outcome <;> rfl

theorem run_submit (convertedTx : Bytes) (outcome : Outcome ErrorObject String) :
    (submit convertedTx outcome).run node =
      match node (.authorSubmitExtrinsic ("0x" ++ Hex.encode convertedTx)) with
      | .ok _ => outcome
      | .error e => .error (internalError (Client.Error.invalidRequest e.debug).debug) := by
  rw [submit, callNode, Client.submitTransaction, Prog.run_bind, Prog.run_mapError, Prog.run]
  cases node (.authorSubmitExtrinsic ("0x" ++ Hex.encode convertedTx)) with
  | error e => rfl
  | ok hash => exact Prog.run_ofOutcome outcome

/-- A request that holds `tx` has the node convert it, submits that, and takes the first
signature. -/
theorem sendTransaction_of_read {tx : VersionedTransaction}
    (h : readTransaction txLib data (config.getD {}).encoding = .ok tx) :
    sendTransaction txLib data config =
      .ask (.runtime (.convertTransaction tx) none) fun converted =>
        callNode (.ofExcept converted.toExcept) >>= fun convertedTx =>
          submit convertedTx (firstSignature tx.signatures) := by
  rw [sendTransaction, h]
  rfl

/-- Nothing is submitted before the node has converted the transaction. -/
theorem asked_of_converted {tx : VersionedTransaction} {converted : Bytes}
    (hread : readTransaction txLib data (config.getD {}).encoding = .ok tx)
    (hconvert : node (.runtime (.convertTransaction tx) none) = .value converted) :
    (sendTransaction txLib data config).asked (Prog.answering node) () =
      [.runtime (.convertTransaction tx) none,
        .authorSubmitExtrinsic ("0x" ++ Hex.encode converted)] := by
  rw [sendTransaction_of_read hread]
  refine congrArg (NodeCall.runtime _ none :: ·) ?_
  rw [Prog.answering, hconvert]
  exact asked_submit converted _

theorem run_of_converted {tx : VersionedTransaction} {converted : Bytes}
    (hread : readTransaction txLib data (config.getD {}).encoding = .ok tx)
    (hconvert : node (.runtime (.convertTransaction tx) none) = .value converted) :
    (sendTransaction txLib data config).run node =
      (submit converted (firstSignature tx.signatures)).run node := by
  rw [sendTransaction_of_read hread, Prog.run, hconvert]
  rfl

/-- What the node has to answer for it to take the transaction of a request. -/
theorem takes_iff {tx : VersionedTransaction} {converted : Bytes}
    (hread : readTransaction txLib data (config.getD {}).encoding = .ok tx)
    (hconvert : node (.runtime (.convertTransaction tx) none) = .value converted)
    (tx' : VersionedTransaction) :
    Takes txLib node data config tx' ↔ tx' = tx ∧
      ∃ hash, node (.authorSubmitExtrinsic ("0x" ++ Hex.encode converted)) = .ok hash := by
  constructor
  · rintro ⟨hread', converted', hash, hconvert', hsubmit⟩
    rw [hread] at hread'
    cases hread'
    rw [hconvert] at hconvert'
    cases hconvert'
    exact ⟨rfl, hash, hsubmit⟩
  · rintro ⟨rfl, hash, hsubmit⟩
    exact ⟨hread, converted, hash, hconvert, hsubmit⟩

/-- The node takes nothing, and the request fails. -/
structure NotTaken (txLib : TransactionLib) (node : Node) (data : String)
    (config : Option RpcSendTransactionConfig) : Prop where
  takes : ∀ tx, ¬ Takes txLib node data config tx
  accepted : ¬ Accepted txLib node data config
  fails : ∃ e, (sendTransaction txLib data config).run node = .error e

theorem notTaken_of_unread {e : ErrorObject}
    (hread : readTransaction txLib data (config.getD {}).encoding = .error e) :
    NotTaken txLib node data config := by
  have hsend : sendTransaction txLib data config = .fail e := by
    rw [sendTransaction, hread]
    rfl
  refine ⟨fun tx htakes => ?_, ?_, e, by rw [hsend]; rfl⟩
  · rw [Takes, hread] at htakes
    cases htakes.1
  · rintro ⟨transaction, hash, hmem, -⟩
    rw [hsend] at hmem
    cases hmem

theorem notTaken_of_unconverted {tx : VersionedTransaction} {e : Client.Error}
    (hread : readTransaction txLib data (config.getD {}).encoding = .ok tx)
    (hconvert : (node (.runtime (.convertTransaction tx) none)).toExcept = .error e) :
    NotTaken txLib node data config := by
  have hsend := sendTransaction_of_read hread
  refine ⟨fun tx' htakes => ?_, ?_, ?_⟩
  · obtain ⟨hread', converted, hash, hconvert', -⟩ := htakes
    rw [hread] at hread'
    cases hread'
    rw [hconvert'] at hconvert
    cases hconvert
  · rintro ⟨transaction, hash, hmem, -⟩
    rw [hsend] at hmem
    simp only [Prog.asked, Prog.answering, hconvert] at hmem
    rcases List.mem_cons.mp hmem with heq | hmem
    · cases heq
    · cases hmem
  · rw [hsend, Prog.run, hconvert]
    exact ⟨_, rfl⟩

theorem notTaken_of_refused {tx : VersionedTransaction} {converted : Bytes} {e : Client.Error}
    (hread : readTransaction txLib data (config.getD {}).encoding = .ok tx)
    (hconvert : node (.runtime (.convertTransaction tx) none) = .value converted)
    (hsubmit : node (.authorSubmitExtrinsic ("0x" ++ Hex.encode converted)) = .error e) :
    NotTaken txLib node data config := by
  refine ⟨fun tx' htakes => ?_, ?_, ?_⟩
  · obtain ⟨-, hash, haccept⟩ := (takes_iff hread hconvert tx').mp htakes
    rw [hsubmit] at haccept
    cases haccept
  · rintro ⟨transaction, hash, hmem, haccept⟩
    rw [asked_of_converted hread hconvert] at hmem
    simp only [List.mem_cons, List.not_mem_nil, or_false, reduceCtorEq, false_or,
      NodeCall.authorSubmitExtrinsic.injEq] at hmem
    rw [hmem, hsubmit] at haccept
    cases haccept
  · rw [run_of_converted hread hconvert, run_submit, hsubmit]
    exact ⟨_, rfl⟩

/-- A request whose transaction the node takes gets as far as the signature. -/
theorem sendTransaction_cases (txLib : TransactionLib) (node : Node) (data : String)
    (config : Option RpcSendTransactionConfig) :
    (∃ tx, Takes txLib node data config tx ∧ Accepted txLib node data config ∧
        (sendTransaction txLib data config).run node = firstSignature tx.signatures) ∨
      NotTaken txLib node data config := by
  cases hread : readTransaction txLib data (config.getD {}).encoding with
  | error e => exact .inr (notTaken_of_unread hread)
  | ok tx =>
    cases hconvert : node (.runtime (.convertTransaction tx) none) with
    | value converted =>
      cases hsubmit : node (.authorSubmitExtrinsic ("0x" ++ Hex.encode converted)) with
      | error e => exact .inr (notTaken_of_refused hread hconvert hsubmit)
      | ok hash =>
        refine .inl ⟨tx, ⟨hread, converted, hash, hconvert, hsubmit⟩, ⟨_, hash, ?_, hsubmit⟩, ?_⟩
        · rw [asked_of_converted hread hconvert]
          simp
        · rw [run_of_converted hread hconvert, run_submit, hsubmit]
    | _ => exact .inr (notTaken_of_unconverted hread (by rw [hconvert]; rfl))

/-- A request goes as it should unless it holds a transaction without signatures that the
node converts and accepts. -/
theorem sends_iff (txLib : TransactionLib) (node : Node) (data : String)
    (config : Option RpcSendTransactionConfig) :
    Sends txLib node data config ↔ ¬ ∃ tx, Takes txLib node data config tx ∧ tx.signatures = [] := by
  obtain ⟨tx, htakes, haccepted, hrun⟩ | hnot :=
    sendTransaction_cases txLib node data config
  · have hunique : ∀ tx', Takes txLib node data config tx' → tx' = tx := by
      intro tx' htakes'
      have hread := htakes'.1
      rw [htakes.1] at hread
      cases hread
      rfl
    cases hsignatures : tx.signatures with
    | nil =>
      rw [hsignatures] at hrun
      refine iff_of_false ?_ (not_not.mpr ⟨tx, htakes, hsignatures⟩)
      rintro (⟨hnot, -⟩ | ⟨-, _, _, _, -, -, hok⟩)
      · exact hnot haccepted
      · rw [hrun] at hok
        cases hok
    | cons signature signatures =>
      rw [hsignatures] at hrun
      refine iff_of_true (.inr ⟨haccepted, tx, signature, signatures, htakes.1, hsignatures, hrun⟩) ?_
      rintro ⟨tx', htakes', hempty⟩
      rw [hunique tx' htakes', hsignatures] at hempty
      cases hempty
  · refine iff_of_true (.inl ⟨hnot.accepted, hnot.fails⟩) ?_
    rintro ⟨tx, htakes, -⟩
    exact hnot.takes tx htakes

/-! ## A transaction without signatures -/

def unsignedTransaction : VersionedTransaction where
  signatures := []
  message := .legacy ⟨⟨0, 0, 0⟩, [], .zero, []⟩

/-- The bytes of `unsignedTransaction`: no signatures, the header, no keys, the blockhash,
no instructions. -/
def unsignedTransactionBytes : Bytes := [0] ++ [0, 0, 0] ++ [0] ++ List.replicate 32 0 ++ [0]

/-- A library that reads one transaction. -/
def unsignedTransactionLib : TransactionLib :=
  { nullTransactionLib with
    transaction := ⟨"VersionedTransaction", fun bytes =>
      if bytes = unsignedTransactionBytes then .ok unsignedTransaction
      else .error "unexpected end of file"⟩ }

def unsignedTransactionData : String := "11111111111111111111111111111111111111"

theorem readTransaction_unsigned :
    readTransaction unsignedTransactionLib unsignedTransactionData none = .ok unsignedTransaction := by
  have hsize : ¬ unsignedTransactionData.utf8ByteSize > maxBase58Size := by decide +kernel
  have hbytes : Base58.decode unsignedTransactionData = .ok unsignedTransactionBytes := by
    decide +kernel
  refine readTransaction_of .base58 unsignedTransactionBytes rfl ?_ (by decide +kernel) ?_
  · simp only [decodeWire, if_neg hsize, hbytes]
  · simp [unsignedTransactionLib]

/-- A node that accepts everything. -/
def acceptingNode : Node
  | .runtime (.convertTransaction _) _ => .value []
  | .authorSubmitExtrinsic _ => .ok .zero
  | call => Node.dead call

theorem not_sends : ¬ ∀ (txLib : TransactionLib) (node : Node) (data : String)
    (config : Option RpcSendTransactionConfig), Sends txLib node data config := by
  intro hall
  have hrun : (sendTransaction unsignedTransactionLib unsignedTransactionData none).run
      acceptingNode = .panicked := by
    have hread : readTransaction unsignedTransactionLib unsignedTransactionData
        ((none : Option RpcSendTransactionConfig).getD {}).encoding = .ok unsignedTransaction :=
      readTransaction_unsigned
    rw [run_of_converted hread rfl, run_submit]
    rfl
  rcases hall unsignedTransactionLib acceptingNode unsignedTransactionData none with
    ⟨-, e, herror⟩ | ⟨-, _, _, _, -, -, hok⟩
  · rw [hrun] at herror
    cases herror
  · rw [hrun] at hok
    cases hok

end Solana

-- SUMMARY: The whole sidecar as one machine: client task, subscriber, index task and requests, interleaved at their awaits.
import NoirSidecar.Base.Dialogue
import NoirSidecar.Client.Routing
import NoirSidecar.Client.Wire
import NoirSidecar.Event.Delivery
import NoirSidecar.Index.Ingest
import NoirSidecar.Rpc.Indexed
import NoirSidecar.Rpc.Sending
import NoirSidecar.Rpc.Statuses

/-!
# The sidecar

`main` starts the client task, the event subscriber, the index task and the server, which
handles any number of requests at a time. They only meet at channels and at the database:
whoever asks the node puts a message into the queue of the client task and waits for the
sender that goes with it, and the subscriber feeds the index task. Between two awaits of
one of them the others may act.

A request or an update of the index is a thread: a program, of which something is left.
-/

/-! ## Calls on the wire -/

/-- What the reader of a call gets to see when `Client::request` fails. -/
def NodeCall.failed : (call : NodeCall) → Client.Error → call.Answer
  | .runtime .., e => .failed e
  | .stateGetStorage .., e => .error e
  | .chainGetBlockHash, e => .error e
  | .chainGetGenesisHash, e => .error e
  | .chainGetFinalizedHead, e => .error e
  | .chainGetHeader _, e => .error e
  | .authorSubmitExtrinsic _, e => .error e

def NodeCall.Failed (call : NodeCall) (a : call.Answer) : Prop := ∃ e, a = call.failed e

namespace Sidecar

open Chain Solana
open Client (ClientError Response)
open Index.Ingest (included)

variable {P V : Type}

/-- What the sidecar runs against. The parameters of a call and the value of a response are
JSON: `params` writes the ones, unless they do not serialize, and `parse` reads the others, and
what the node serves for a call reads as its answer at that time. -/
structure Setting (P V : Type) where
  node : Node
  history : History
  params : NodeCall → Except String P
  serve : World → String → P → Except ClientError V
  parse : (call : NodeCall) → V → call.Answer
  serves : ∀ w call p v, params call = .ok p → serve w call.method p = .ok v →
    parse call v = nodeAt node w call
  installable : Bool
  engine : Index.Engine
  decode : Bytes → Except String (List Pubkey)
  lib : Decoder
  txLib : TransactionLib
  base64Error : String → String

/-- The rest of `Client::request` once the response is there. -/
def Setting.receive (set : Setting P V) (call : NodeCall) : Response V → call.Answer
  | .ok v => set.parse call v
  | .error e => call.failed e

/-! ## main -/

def systemProgramId : Pubkey := .ofByte 0

def bpfLoaderId : Pubkey where
  bytes := [2, 168, 246, 145, 78, 136, 161, 110, 57, 90, 225, 40, 148, 143, 250, 105,
    86, 147, 55, 104, 24, 221, 71, 67, 82, 33, 243, 198, 0, 0, 0, 0]
  length_eq := rfl

def computeBudgetId : Pubkey where
  bytes := [3, 6, 70, 111, 229, 33, 23, 50, 255, 236, 173, 186, 114, 195, 155, 231,
    188, 140, 229, 187, 197, 247, 18, 107, 44, 67, 155, 58, 64, 0, 0, 0]
  length_eq := rfl

example : bpfLoaderId.toString = "BPFLoader2111111111111111111111111111111111" := by decide +kernel

def excludeKeys : List Pubkey :=
  [systemProgramId, bpfLoaderId, computeBudgetId, SplToken.id, Token2022.id]

/-- The filter whose payloads go to the index. -/
def loadedAccounts : EventFilter := ⟨"Solana", "LoadedAccounts"⟩

def filters : List EventFilter := [loadedAccounts]

/-! ## Jobs -/

/-- A request to the server. Simulations that replace the blockhash are no read requests. -/
inductive Request where
  | read (r : ReadRequest)
  | simulateReplacing (data : String) (config : Option RpcSimulateTransactionConfig)
      (replaces : (config.getD {}).replaceRecentBlockhash = true)
  | getProgramAccounts (programIdStr : String) (config : Option RpcProgramAccountsConfig)
  | getTokenAccountsByOwner (ownerStr : String) (tokenAccountFilter : RpcTokenAccountsFilter)
      (config : Option RpcAccountInfoConfig)
  | sendTransaction (data : String) (config : Option RpcSendTransactionConfig)
  | getSignatureStatuses (signatureStrs : List String)
  | getGenesisHash
  | requestAirdrop (pubkeyStr : String) (lamports : UInt64)
  | getVersion
  | getSignaturesForAddress (address : String)
  | getVoteAccounts

@[reducible] def Request.Reply : Request → Type
  | .read r => RpcResponse r.Value
  | .simulateReplacing .. => RpcResponse RpcSimulateTransactionResult
  | .getProgramAccounts .. => OptionalContext (List RpcKeyedAccount)
  | .getTokenAccountsByOwner .. => RpcResponse (List RpcKeyedAccount)
  | .sendTransaction .. => String
  | .getSignatureStatuses _ => RpcResponse (List (Option TransactionStatus))
  | .getGenesisHash => String
  | .requestAirdrop .. => String
  | .getVersion => RpcVersionInfo
  | .getSignaturesForAddress _ => List RpcConfirmedTransactionStatusWithSignature
  | .getVoteAccounts => RpcVoteAccountStatus

/-- What there is to do: update the index with the keys of a payload that are not excluded,
or answer a request, with hash maps iterated in some orders. -/
inductive Job where
  | index (payload : Bytes) (pubkeys : List Pubkey)
  | request (r : Request) (orders : IterOrders)

@[reducible] def Job.Error : Job → Type
  | .index .. => Index.Error
  | .request .. => ErrorObject

@[reducible] def Job.Reply : Job → Type
  | .index .. => Unit
  | .request r _ => r.Reply

def Request.answer (set : Setting P V) (orders : IterOrders) : (r : Request) → ListingProg r.Reply
  | .read r => (r.answer set.lib set.txLib orders).left
  | .simulateReplacing data config _ =>
    (simulateTransaction set.lib orders set.txLib data config).left
  | .getProgramAccounts programIdStr config =>
    Solana.getProgramAccounts set.lib orders set.base64Error programIdStr config
  | .getTokenAccountsByOwner ownerStr tokenAccountFilter config =>
    Solana.getTokenAccountsByOwner set.lib orders ownerStr tokenAccountFilter config
  | .sendTransaction data config => (Solana.sendTransaction set.txLib data config).left
  | .getSignatureStatuses signatureStrs => (Solana.getSignatureStatuses signatureStrs).left
  | .getGenesisHash => Solana.getGenesisHash.left
  | .requestAirdrop pubkeyStr lamports => (Solana.requestAirdrop pubkeyStr lamports).left
  | .getVersion => return Solana.getVersion
  | .getSignaturesForAddress address => return Solana.getSignaturesForAddress address
  | .getVoteAccounts => return Solana.getVoteAccounts

def Job.prog (set : Setting P V) : (job : Job) → Index.IndexProg job.Error job.Reply
  | .index _ pubkeys => Index.updateIndex pubkeys
  | .request r orders => r.answer set orders

/-! ## Threads -/

abbrev Answered := Σ q : NodeCall ⊕ Index.Call, Sum.elim NodeCall.Answer Index.Call.Answer q

/-- A job and what is left to do of it. `awaiting` names the channel of the node call that
is under way, `told` records the answers so far. -/
structure Thread where
  job : Job
  prog : Index.IndexProg job.Error job.Reply
  awaiting : Option Nat
  told : List Answered
  left : Bool

def Thread.start (set : Setting P V) (job : Job) : Thread where
  job := job
  prog := job.prog set
  awaiting := none
  told := []
  left := false

/-- The thread goes on with an answer. -/
def Thread.tell (thread : Thread) {q : NodeCall ⊕ Index.Call}
    (k : Sum.elim NodeCall.Answer Index.Call.Answer q → Index.IndexProg thread.job.Error thread.job.Reply)
    (a : Sum.elim NodeCall.Answer Index.Call.Answer q) : Thread :=
  { thread with prog := k a, awaiting := none, told := thread.told ++ [⟨q, a⟩] }

/-- An update of the index that has not come to its end. -/
def Thread.indexing (thread : Thread) : Bool :=
  match thread.job, thread.prog with
  | .index .., .ask .. => true
  | _, _ => false

/-! ## States and events -/

/-- `time` is the moment in the history of the chain, `received` counts the payloads the
index task has taken off its channel. -/
structure State (P V : Type) where
  time : Nat
  client : Client.State P V
  subscriber : EventSubscriber.State
  received : Nat
  store : Index.Db
  threads : List Thread

def State.init (chain : List Block) (store : Index.Db) : State P V where
  time := 0
  client := .init
  subscriber := .init chain
  received := 0
  store := store
  threads := []

/-- The chain moves on, the client task or its surroundings, the node with its answer or a
failure to bring it, the subscriber, the index task at its channel, the server with a
request, and the thread at a position of the list. -/
inductive Event (P V : Type) where
  | tick
  | client (e : Client.Event P V)
  | answer (failure : Option ClientError)
  | subscriber (e : EventSubscriber.Event)
  | receive
  | accept (r : Request) (orders : IterOrders)
  | ask (i : Nat)
  | reply (i : Nat)
  | lookUp (i : Nat)
  | leave (i : Nat)

/-- Requests are submitted, abandoned and answered by other parts of the sidecar. -/
def alone : Client.Event P V → Bool
  | .submit .. | .cancel _ | .answer _ => false
  | _ => true

/-! ## Steps -/

section

variable (set : Setting P V)

/-- What the node brings for a request it has. -/
def Setting.bring (time : Nat) (r : Client.Request P) : Option ClientError → Except ClientError V
  | none => set.serve (set.history.world time) r.method r.params
  | some e => .error e

/-- The update that a payload asks for, if it decodes. -/
def Setting.updates (payload : Bytes) : List Job :=
  match set.decode payload with
  | .ok pubkeys => [.index payload (included excludeKeys pubkeys)]
  | .error _ => []

/-- The payload the index task takes next. -/
def State.nextPayload (s : State P V) : Option Bytes :=
  (EventSubscriber.sentTo 0 s.subscriber.pushed)[s.received]?

/-- The thread at a position, unless it is gone. -/
def State.present (s : State P V) (i : Nat) : Option Thread :=
  s.threads[i]?.filter fun thread => !thread.left

/-- The response is there, or the sender has been dropped. -/
def reply (s : State P V) (thread : Thread) : Option Thread :=
  match thread.prog, thread.awaiting with
  | .ask (.inl call) k, some channel =>
    match s.client.sent.lookup channel with
    | some response => some (thread.tell k (set.receive call response))
    | none =>
      if channel ∈ s.client.dropped then
        some (thread.tell k (call.failed (.requestFailed "RecvError(())")))
      else none
  | _, _ => none

/-- A call of the index. -/
def lookUp (s : State P V) (thread : Thread) : Option (Index.Db × Thread) :=
  match thread.prog with
  | .ask (.inr call) k =>
    some ((set.engine.accountsIndex call s.store).2,
      thread.tell k (set.engine.accountsIndex call s.store).1)
  | _ => none

variable [ToString P]

/-- `Client::request` up to its await. Nothing is sent if the parameters do not serialize, and
the send fails if the client task has ended. -/
def ask (s : State P V) (thread : Thread) : Option (Client.State P V × Thread) :=
  match thread.prog, thread.awaiting with
  | .ask (.inl call) k, none =>
    match set.params call with
    | .error text => some (s.client, thread.tell k (call.failed (.parseError text)))
    | .ok params =>
      (Client.step set.installable s.client (.submit call.method params)).map fun client =>
        if s.client.phase.Ended then
          (client, thread.tell k (call.failed (.requestFailed "SendError \x7b .. \x7d")))
        else (client, { thread with awaiting := some s.client.calls })
  | _, _ => none

/-- The caller of a request is gone, and the receiver it waits at with it. -/
def leave (s : State P V) (thread : Thread) : Option (Client.State P V × Thread) :=
  match thread.job, thread.awaiting with
  | .index .., _ => none
  | .request .., none => some (s.client, { thread with left := true })
  | .request .., some channel =>
    (Client.step set.installable s.client (.cancel channel)).map fun client =>
      (client, { thread with left := true })

def step (s : State P V) : Event P V → Option (State P V)
  | .tick => some { s with time := s.time + 1 }
  | .client e =>
    -- answers and submissions have events of their own below
    if alone e then
      (Client.step set.installable s.client e).map fun client => { s with client := client }
    else none
  | .answer failure =>
    match s.client.phase with
    | .requesting r =>
      (Client.step set.installable s.client (.answer (set.bring s.time r failure))).map
        fun client => { s with client := client }
    | _ => none
  | .subscriber e =>
    (EventSubscriber.step filters s.subscriber e).map fun subscriber =>
      { s with subscriber := subscriber }
  | .receive =>
    -- the next payload is received when the updates of the last are done
    if s.threads.any Thread.indexing then none
    else s.nextPayload.map fun payload =>
      { s with
        received := s.received + 1
        threads := s.threads ++ (set.updates payload).map (Thread.start set) }
  | .accept r orders => some { s with threads := s.threads ++ [.start set (.request r orders)] }
  | .ask i =>
    (s.present i).bind fun thread => (ask set s thread).map fun (client, thread) =>
      { s with client := client, threads := s.threads.set i thread }
  | .reply i =>
    (s.present i).bind fun thread => (reply set s thread).map fun thread =>
      { s with threads := s.threads.set i thread }
  | .lookUp i =>
    (s.present i).bind fun thread => (lookUp set s thread).map fun (store, thread) =>
      { s with store := store, threads := s.threads.set i thread }
  | .leave i =>
    (s.present i).bind fun thread => (leave set s thread).map fun (client, thread) =>
      { s with client := client, threads := s.threads.set i thread }

end

/-! ## What a step does to a thread -/

/-- A thread is told an answer: its call has failed, the response to it has come, or the
index has looked it up. -/
inductive Answers (set : Setting P V) (s : State P V) (thread : Thread) (s' : State P V) :
    (q : NodeCall ⊕ Index.Call) → Sum.elim NodeCall.Answer Index.Call.Answer q → Prop where
  | refused (call : NodeCall) (e : Client.Error) : Answers set s thread s' (.inl call) (call.failed e)
  | received (call : NodeCall) (channel : Nat) (response : Response V)
      (awaiting : thread.awaiting = some channel) (sent : (channel, response) ∈ s.client.sent) :
      Answers set s thread s' (.inl call) (set.receive call response)
  | found (call : Index.Call) (store : s'.store = (set.engine.accountsIndex call s.store).2) :
      Answers set s thread s' (.inr call) (set.engine.accountsIndex call s.store).1

/-- What becomes of a thread in a step of its own. -/
inductive ThreadStep (set : Setting P V) (s s' : State P V) (thread : Thread) :
    Thread → Prop where
  | gone : ThreadStep set s s' thread { thread with left := true }
  | asked (call : NodeCall)
      (k : call.Answer → Index.IndexProg thread.job.Error thread.job.Reply) (params : P)
      (prog : thread.prog = .ask (.inl call) k) (idle : thread.awaiting = none)
      (alive : ¬ s.client.phase.Ended) (written : set.params call = .ok params)
      (client : s'.client = s.client.submit call.method params) :
      ThreadStep set s s' thread { thread with awaiting := some s.client.calls }
  | told (q : NodeCall ⊕ Index.Call)
      (k : Sum.elim NodeCall.Answer Index.Call.Answer q →
        Index.IndexProg thread.job.Error thread.job.Reply)
      (a : Sum.elim NodeCall.Answer Index.Call.Answer q) (prog : thread.prog = .ask q k)
      (answers : Answers set s thread s' q a) :
      ThreadStep set s s' thread (thread.tell k a)

/-- Where the job of a new thread comes from. -/
inductive Begins (set : Setting P V) (s : State P V) : Event P V → Job → Prop where
  | update (payload : Bytes) (job : Job) (next : s.nextPayload = some payload)
      (mem : job ∈ set.updates payload) : Begins set s .receive job
  | request (r : Request) (orders : IterOrders) :
      Begins set s (.accept r orders) (.request r orders)

section Threads

variable {set : Setting P V} {s : State P V} {e : Event P V} {thread : Thread}

theorem mem_updates {payload : Bytes} {job : Job} : job ∈ set.updates payload ↔
    ∃ pubkeys, set.decode payload = .ok pubkeys ∧
      job = .index payload (included excludeKeys pubkeys) := by
  unfold Setting.updates
  split <;> simp_all

theorem Begins.index_eq {payload : Bytes} {pubkeys : List Pubkey}
    (h : Begins set s e (.index payload pubkeys)) :
    e = .receive ∧ s.nextPayload = some payload ∧ ∃ all, set.decode payload = .ok all ∧
      pubkeys = included excludeKeys all := by
  cases h with
  | update payload' _ next mem =>
    obtain ⟨all, hdecode, heq⟩ := mem_updates.mp mem
    cases heq
    exact ⟨rfl, next, all, hdecode, rfl⟩

theorem mem_of_lookup {α β : Type} [BEq α] [LawfulBEq α] {l : List (α × β)} {a : α} {b : β}
    (h : l.lookup a = some b) : (a, b) ∈ l := by
  obtain ⟨l₁, l₂, rfl, -⟩ := List.lookup_eq_some_iff.mp h
  exact List.mem_append_right _ List.mem_cons_self

theorem present_eq_some {i : Nat} (h : s.present i = some thread) :
    s.threads[i]? = some thread ∧ thread.left = false := by
  obtain ⟨hthread, hleft⟩ := Option.filter_eq_some_iff.mp h
  exact ⟨hthread, by simpa using hleft⟩

theorem present_of_left {i : Nat} (h : s.threads[i]? = some thread) (hleft : thread.left = false) :
    s.present i = some thread :=
  Option.filter_eq_some_iff.mpr ⟨h, by simp [hleft]⟩

/-- Replacing a thread leaves the others where they are. -/
theorem getElem?_set_thread {i j : Nat} {old : Thread} (hi : s.threads[i]? = some old)
    (hj : s.threads[j]? = some thread) (new : Thread) :
    i ≠ j ∧ (s.threads.set i new)[j]? = some thread ∨
      i = j ∧ thread = old ∧ (s.threads.set i new)[j]? = some new := by
  by_cases hij : i = j
  · subst hij
    rw [hi] at hj
    cases hj
    obtain ⟨hlt, -⟩ := List.getElem?_eq_some_iff.mp hi
    exact .inr ⟨rfl, rfl, by rw [List.getElem?_set_self hlt]⟩
  · exact .inl ⟨hij, by rw [List.getElem?_set_ne hij, hj]⟩

end Threads

section Steps

variable {set : Setting P V} {s s' : State P V} {thread thread' : Thread}

theorem threadStep_reply (h : reply set s thread = some thread') :
    ThreadStep set s s' thread thread' := by
  unfold reply at h
  split at h
  · next call k channel hprog hawaiting =>
    split at h
    · next response hsent =>
      cases h
      exact .told _ k _ hprog (.received call channel response hawaiting (mem_of_lookup hsent))
    · split at h
      · cases h
        exact .told _ k _ hprog (.refused call _)
      · cases h
  · cases h

theorem threadStep_lookUp (h : lookUp set s thread = some (s'.store, thread')) :
    ThreadStep set s s' thread thread' := by
  unfold lookUp at h
  split at h
  · next call k hprog =>
    obtain ⟨hstore, rfl⟩ := Prod.mk.inj (Option.some.inj h)
    exact .told _ k _ hprog (.found call hstore.symm)
  · cases h

/-- A thread that asks the index can be told the answer. -/
theorem lookUp_of_answer {call : Index.Call} {a : call.Answer} {store : Index.Db}
    {k : call.Answer → Index.IndexProg thread.job.Error thread.job.Reply}
    (hprog : thread.prog = .ask (.inr call) k)
    (h : set.engine.accountsIndex call s.store = (a, store)) :
    lookUp set s thread = some (store, thread.tell (q := .inr call) k a) := by
  unfold lookUp
  split
  · next call' k' hprog' =>
    rw [hprog] at hprog'
    cases hprog'
    rw [h]
  · next hno => exact absurd hprog (hno call k)

/-- A thread that waits goes on when its sender has been used or dropped. -/
theorem exists_reply {call : NodeCall} {channel : Nat}
    {k : call.Answer → Index.IndexProg thread.job.Error thread.job.Reply}
    (hprog : thread.prog = .ask (.inl call) k) (hawaiting : thread.awaiting = some channel)
    (h : channel ∈ s.client.answered ∨ channel ∈ s.client.dropped) :
    ∃ thread', reply set s thread = some thread' := by
  unfold reply
  split
  · next call' k' channel' hprog' hawaiting' =>
    rw [hawaiting] at hawaiting'
    cases hawaiting'
    split
    · exact ⟨_, rfl⟩
    · next hnone =>
      have hdropped : channel ∈ s.client.dropped := by
        refine h.resolve_left fun hanswered => ?_
        obtain ⟨⟨_, response⟩, hmem, rfl⟩ := List.mem_map.mp hanswered
        simpa using List.lookup_eq_none_iff.mp hnone _ hmem
      exact ⟨_, if_pos hdropped⟩
  · next hno => exact absurd hawaiting (hno call k channel hprog)

variable [ToString P]

/-- A thread that has a question for the node can ask it. -/
theorem exists_ask {call : NodeCall}
    {k : call.Answer → Index.IndexProg thread.job.Error thread.job.Reply}
    (hprog : thread.prog = .ask (.inl call) k) (hidle : thread.awaiting = none) :
    ∃ client thread', ask set s thread = some (client, thread') := by
  unfold ask
  split
  · next call' k' hprog' hidle' =>
    split
    · exact ⟨_, _, rfl⟩
    · rw [Client.step_submit.mpr rfl, Option.map_some]
      split
      · exact ⟨_, _, rfl⟩
      · exact ⟨_, _, rfl⟩
  · next hno => exact absurd hidle (hno call k hprog)

/-- A thread asks the node, or is told that its question cannot be written or that there is
nobody to ask. -/
theorem ask_eq {client : Client.State P V} (h : ask set s thread = some (client, thread')) :
    ∃ call k, thread.prog = .ask (.inl call) k ∧ thread.awaiting = none ∧
      (client = s.client ∧ (∃ e, thread' = thread.tell (q := .inl call) k (call.failed e)) ∨
        ∃ params, set.params call = .ok params ∧ client = s.client.submit call.method params ∧
          (s.client.phase.Ended ∧ (∃ e, thread' = thread.tell (q := .inl call) k (call.failed e)) ∨
            ¬ s.client.phase.Ended ∧ thread' = { thread with awaiting := some s.client.calls })) := by
  unfold ask at h
  split at h
  · next call k hprog hidle =>
    refine ⟨call, k, hprog, hidle, ?_⟩
    split at h
    · cases h
      exact .inl ⟨rfl, _, rfl⟩
    · next params hparams =>
      obtain ⟨client', hstep, heq⟩ := Option.map_eq_some_iff.mp h
      obtain rfl := Client.step_submit.mp hstep
      refine .inr ⟨params, hparams, ?_⟩
      split at heq
      · next hend =>
        cases heq
        exact ⟨rfl, .inl ⟨hend, _, rfl⟩⟩
      · next halive =>
        cases heq
        exact ⟨rfl, .inr ⟨halive, rfl⟩⟩
  · cases h

/-- What a thread that asks does to the client task. -/
theorem client_ask {client : Client.State P V} (h : ask set s thread = some (client, thread')) :
    client = s.client ∨ ∃ method params, client = s.client.submit method params := by
  obtain ⟨call, -, -, -, ⟨hsame, -⟩ | ⟨params, -, hclient, -⟩⟩ := ask_eq h
  · exact .inl hsame
  · exact .inr ⟨call.method, params, hclient⟩

theorem threadStep_ask (h : ask set s thread = some (s'.client, thread')) :
    ThreadStep set s s' thread thread' := by
  obtain ⟨call, k, hprog, hidle, ⟨-, e, rfl⟩ | ⟨params, hparams, hclient, hcases⟩⟩ := ask_eq h
  · exact .told _ k _ hprog (.refused call e)
  obtain ⟨-, e, rfl⟩ | ⟨halive, rfl⟩ := hcases
  · exact .told _ k _ hprog (.refused call e)
  · exact .asked call k params hprog hidle halive hparams hclient

theorem leave_eq {client : Client.State P V} (h : leave set s thread = some (client, thread')) :
    thread' = { thread with left := true } ∧ (client = s.client ∨ ∃ channel,
      thread.awaiting = some channel ∧
      Client.step set.installable s.client (.cancel channel) = some client) := by
  unfold leave at h
  split at h
  · cases h
  · cases h
    exact ⟨rfl, .inl rfl⟩
  · next channel hjob hawaiting =>
    obtain ⟨client', hstep, heq⟩ := Option.map_eq_some_iff.mp h
    cases heq
    exact ⟨rfl, .inr ⟨channel, hawaiting, hstep⟩⟩

/-- The steps that move a thread. -/
theorem step_ask {i : Nat} : step set s (.ask i) = some s' ↔ ∃ thread client thread',
    s.present i = some thread ∧ ask set s thread = some (client, thread') ∧
      s' = { s with client := client, threads := s.threads.set i thread' } := by
  simp [step, Option.bind_eq_some_iff, Option.map_eq_some_iff, @eq_comm _ s']

theorem step_reply {i : Nat} : step set s (.reply i) = some s' ↔ ∃ thread thread',
    s.present i = some thread ∧ reply set s thread = some thread' ∧
      s' = { s with threads := s.threads.set i thread' } := by
  simp [step, Option.bind_eq_some_iff, Option.map_eq_some_iff, @eq_comm _ s']

theorem step_lookUp {i : Nat} : step set s (.lookUp i) = some s' ↔ ∃ thread store thread',
    s.present i = some thread ∧ lookUp set s thread = some (store, thread') ∧
      s' = { s with store := store, threads := s.threads.set i thread' } := by
  simp [step, Option.bind_eq_some_iff, Option.map_eq_some_iff, @eq_comm _ s']

theorem step_leave {i : Nat} : step set s (.leave i) = some s' ↔ ∃ thread client thread',
    s.present i = some thread ∧ leave set s thread = some (client, thread') ∧
      s' = { s with client := client, threads := s.threads.set i thread' } := by
  simp [step, Option.bind_eq_some_iff, Option.map_eq_some_iff, @eq_comm _ s']

theorem step_client {e : Client.Event P V} : step set s (.client e) = some s' ↔
    alone e ∧ ∃ client, Client.step set.installable s.client e = some client ∧
      s' = { s with client := client } := by
  simp [step, Option.map_eq_some_iff, @eq_comm _ s']

theorem step_answer {failure : Option ClientError} : step set s (.answer failure) = some s' ↔
    ∃ r client, s.client.phase = .requesting r ∧
      Client.step set.installable s.client (.answer (set.bring s.time r failure)) = some client ∧
      s' = { s with client := client } := by
  cases hp : s.client.phase <;> simp [step, hp, Option.map_eq_some_iff, @eq_comm _ s']

theorem step_subscriber {e : EventSubscriber.Event} : step set s (.subscriber e) = some s' ↔
    ∃ subscriber, EventSubscriber.step filters s.subscriber e = some subscriber ∧
      s' = { s with subscriber := subscriber } := by
  simp [step, Option.map_eq_some_iff, @eq_comm _ s']

theorem step_receive : step set s .receive = some s' ↔
    (∀ thread ∈ s.threads, thread.indexing = false) ∧ ∃ payload, s.nextPayload = some payload ∧
      s' = { s with
        received := s.received + 1
        threads := s.threads ++ (set.updates payload).map (Thread.start set) } := by
  simp [step, Option.map_eq_some_iff, @eq_comm _ s']

theorem step_accept {r : Request} {orders : IterOrders} :
    step set s (.accept r orders) = some s' ↔
      s' = { s with threads := s.threads ++ [.start set (.request r orders)] } := by
  simp [step, @eq_comm _ s']

theorem step_tick : step set s .tick = some s' ↔ s' = { s with time := s.time + 1 } := by
  simp [step, @eq_comm _ s']

/-- The client task takes a step of its own machine, or none. What comes back from the node
is what the node brings at that time. -/
theorem client_step {e : Event P V} (h : step set s e = some s') :
    s'.client = s.client ∨ ∃ ce, Client.step set.installable s.client ce = some s'.client ∧
      ∀ answer, ce = .answer answer → ∃ r failure, s.client.phase = .requesting r ∧
        answer = set.bring s.time r failure := by
  cases e with
  | tick =>
    obtain rfl := step_tick.mp h
    exact .inl rfl
  | client ce =>
    obtain ⟨halone, client, hstep, rfl⟩ := step_client.mp h
    refine .inr ⟨ce, hstep, ?_⟩
    rintro answer rfl
    cases halone
  | answer failure =>
    obtain ⟨r, client, hp, hstep, rfl⟩ := step_answer.mp h
    refine .inr ⟨_, hstep, ?_⟩
    intro answer heq
    cases heq
    exact ⟨r, failure, hp, rfl⟩
  | subscriber se =>
    obtain ⟨subscriber, -, rfl⟩ := step_subscriber.mp h
    exact .inl rfl
  | receive =>
    obtain ⟨-, payload, -, rfl⟩ := step_receive.mp h
    exact .inl rfl
  | accept r orders =>
    obtain rfl := step_accept.mp h
    exact .inl rfl
  | ask i =>
    obtain ⟨thread, client, thread', -, hask, rfl⟩ := step_ask.mp h
    rcases client_ask hask with rfl | ⟨method, params, rfl⟩
    · exact .inl rfl
    · exact .inr ⟨.submit method params, rfl, fun answer heq => by cases heq⟩
  | reply i =>
    obtain ⟨thread, thread', -, -, rfl⟩ := step_reply.mp h
    exact .inl rfl
  | lookUp i =>
    obtain ⟨thread, store, thread', -, -, rfl⟩ := step_lookUp.mp h
    exact .inl rfl
  | leave i =>
    obtain ⟨thread, client, thread', -, hleave, rfl⟩ := step_leave.mp h
    obtain ⟨-, rfl | ⟨channel, -, hcancel⟩⟩ := leave_eq hleave
    · exact .inl rfl
    · exact .inr ⟨.cancel channel, hcancel, fun answer heq => by cases heq⟩

theorem subscriber_step {e : Event P V} (h : step set s e = some s') :
    s'.subscriber = s.subscriber ∨
      ∃ se, EventSubscriber.step filters s.subscriber se = some s'.subscriber := by
  cases e with
  | tick =>
    obtain rfl := step_tick.mp h
    exact .inl rfl
  | client ce =>
    obtain ⟨-, client, -, rfl⟩ := step_client.mp h
    exact .inl rfl
  | answer failure =>
    obtain ⟨r, client, -, -, rfl⟩ := step_answer.mp h
    exact .inl rfl
  | subscriber se =>
    obtain ⟨subscriber, hstep, rfl⟩ := step_subscriber.mp h
    exact .inr ⟨se, hstep⟩
  | receive =>
    obtain ⟨-, payload, -, rfl⟩ := step_receive.mp h
    exact .inl rfl
  | accept r orders =>
    obtain rfl := step_accept.mp h
    exact .inl rfl
  | ask i =>
    obtain ⟨thread, client, thread', -, -, rfl⟩ := step_ask.mp h
    exact .inl rfl
  | reply i =>
    obtain ⟨thread, thread', -, -, rfl⟩ := step_reply.mp h
    exact .inl rfl
  | lookUp i =>
    obtain ⟨thread, store, thread', -, -, rfl⟩ := step_lookUp.mp h
    exact .inl rfl
  | leave i =>
    obtain ⟨thread, client, thread', -, -, rfl⟩ := step_leave.mp h
    exact .inl rfl

/-- What a step does to the threads: some jobs are started, or one thread has a step of its own. -/
theorem threads_step {e : Event P V} (h : step set s e = some s') :
    (∃ jobs : List Job, s'.threads = s.threads ++ jobs.map (Thread.start set) ∧
      ∀ job ∈ jobs, Begins set s e job) ∨
    ∃ i thread thread', s.present i = some thread ∧ s'.threads = s.threads.set i thread' ∧
      ThreadStep set s s' thread thread' := by
  have hsame : s'.threads = s.threads → ∃ jobs : List Job,
      s'.threads = s.threads ++ jobs.map (Thread.start set) ∧ ∀ job ∈ jobs, Begins set s e job :=
    fun heq => ⟨[], by simp [heq], fun _ hjob => absurd hjob List.not_mem_nil⟩
  cases e with
  | tick =>
    obtain rfl := step_tick.mp h
    exact .inl (hsame rfl)
  | client ce =>
    obtain ⟨-, client, -, rfl⟩ := step_client.mp h
    exact .inl (hsame rfl)
  | answer failure =>
    obtain ⟨r, client, -, -, rfl⟩ := step_answer.mp h
    exact .inl (hsame rfl)
  | subscriber se =>
    obtain ⟨subscriber, -, rfl⟩ := step_subscriber.mp h
    exact .inl (hsame rfl)
  | receive =>
    obtain ⟨-, payload, hnext, rfl⟩ := step_receive.mp h
    exact .inl ⟨set.updates payload, rfl, fun job hjob => .update payload job hnext hjob⟩
  | accept r orders =>
    obtain rfl := step_accept.mp h
    refine .inl ⟨[.request r orders], rfl, fun job hjob => ?_⟩
    obtain rfl := List.mem_singleton.mp hjob
    exact .request r orders
  | ask i =>
    obtain ⟨thread, client, thread', hi, hask, rfl⟩ := step_ask.mp h
    exact .inr ⟨i, thread, thread', hi, rfl, threadStep_ask hask⟩
  | reply i =>
    obtain ⟨thread, thread', hi, hreply, rfl⟩ := step_reply.mp h
    exact .inr ⟨i, thread, thread', hi, rfl, threadStep_reply hreply⟩
  | lookUp i =>
    obtain ⟨thread, store, thread', hi, hlookUp, rfl⟩ := step_lookUp.mp h
    exact .inr ⟨i, thread, thread', hi, rfl, threadStep_lookUp hlookUp⟩
  | leave i =>
    obtain ⟨thread, client, thread', hi, hleave, rfl⟩ := step_leave.mp h
    obtain ⟨rfl, -⟩ := leave_eq hleave
    exact .inr ⟨i, thread, _, hi, rfl, .gone⟩

/-- A thread stays at its position, and this is what can become of it. -/
theorem thread_step {e : Event P V} (h : step set s e = some s') {i : Nat}
    (hi : s.threads[i]? = some thread) :
    ∃ thread', s'.threads[i]? = some thread' ∧
      (thread' = thread ∨ ThreadStep set s s' thread thread') := by
  rcases threads_step h with ⟨jobs, heq, -⟩ | ⟨j, old, new, hj, heq, hone⟩
  · obtain ⟨hlt, -⟩ := List.getElem?_eq_some_iff.mp hi
    exact ⟨thread, by rw [heq, List.getElem?_append_left hlt, hi], .inl rfl⟩
  · rw [heq]
    rcases getElem?_set_thread (present_eq_some hj).1 hi new with ⟨-, hget⟩ | ⟨-, rfl, hget⟩
    · exact ⟨thread, hget, .inl rfl⟩
    · exact ⟨new, hget, .inr hone⟩

/-- A position that becomes occupied is that of a thread at its start. -/
theorem begins_of_step {e : Event P V} (h : step set s e = some s') {i : Nat}
    (hi : s.threads[i]? = none) (hi' : s'.threads[i]? = some thread) :
    Begins set s e thread.job ∧ thread = .start set thread.job := by
  rw [List.getElem?_eq_none_iff] at hi
  rcases threads_step h with ⟨jobs, heq, hbegins⟩ | ⟨j, old, new, -, heq, -⟩
  · rw [heq, List.getElem?_append_right hi] at hi'
    obtain ⟨job, hjob, rfl⟩ := List.mem_map.mp (List.mem_of_getElem? hi')
    exact ⟨hbegins job hjob, rfl⟩
  · obtain ⟨hlt, -⟩ := List.getElem?_eq_some_iff.mp hi'
    rw [heq, List.length_set] at hlt
    omega

end Steps

/-! ## A plain wire -/

instance : ToString NodeCall := ⟨reprStr⟩

/-- A wire that carries calls and answers as they are. -/
def plainSetting (node : Node) (H : History) (installable : Bool) : Setting NodeCall Answered where
  node := node
  history := H
  params := .ok
  serve := fun w _ call => .ok ⟨.inl call, nodeAt node w call⟩
  parse := fun
    | call, ⟨.inl call', a⟩ => if h : call' = call then h ▸ a else call.failed (.parseError "")
    | call, ⟨.inr _, _⟩ => call.failed (.parseError "")
  serves := by
    intro w call p v hp h
    cases hp
    cases h
    exact dif_pos rfl
  installable := installable
  engine := Index.sqliteEngine
  decode := Index.Ingest.decodeOne
  lib := tokenDecoder
  txLib := nullTransactionLib
  base64Error := fun _ => ""

/-- The client task makes a connection for the request at the head of its queue. -/
def connecting : List (Event NodeCall Answered) :=
  [.client .signalFailed, .client .dequeue, .client .resubmit, .client .signalFailed,
    .client .dequeue, .client (.connect (.ok ()))]

/-- The client task takes the request at the head of its queue to the node and back. -/
def exchange : List (Event NodeCall Answered) :=
  [.client .signalFailed, .client .dequeue, .answer none]

end Sidecar

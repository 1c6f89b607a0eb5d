-- SUMMARY: Where the client task waits for Ctrl-C, or has ended, the running sidecar answers no request with a value.
import NoirSidecar.Client.Stall
import NoirSidecar.System.Indexing
import NoirSidecar.System.Rest

/-!
# The sidecar without its client task

Where Ctrl-C can be waited for, the client task waits for it before it looks at its queue,
and once it has ended nothing starts it again. No call of the node is answered then, and all
that the server can do without the node is to refuse a request.
-/

/-! ## What needs the node -/

namespace Solana

open Client (Error)

variable {lib : Decoder} {txLib : TransactionLib} {orders : IterOrders}

/-- Without answers of the node the program does not finish. -/
abbrev NeedsNode {α : Type} (p : RpcProg α) : Prop := p.Starves NodeCall.Failed

theorem needsNode_getHashWithConfig (config : RpcContextConfig) :
    NeedsNode (getHashWithConfig config) := by
  unfold getHashWithConfig Solana.hash
  split
  · exact failsOn_latestBlockhash.starves fun _ => id
  · exact failsOn_finalizedBlockhash.starves fun _ => id
  · exact failsOn_finalizedBlockhash.starves fun _ => id

theorem needsNode_simulateTransaction (data : String)
    (config : Option RpcSimulateTransactionConfig) :
    NeedsNode (simulateTransaction lib orders txLib data config) :=
  Prog.starves_bind fun _ => (needsNode_getHashWithConfig _).bind _

theorem needsNode_sendTransaction (data : String) (config : Option RpcSendTransactionConfig) :
    NeedsNode (sendTransaction txLib data config) :=
  Prog.starves_bind fun _ => Prog.starves_bind fun convertedTx =>
    ((failsOn_submitTransaction convertedTx).starves fun _ => id).bind _

theorem needsNode_getGenesisHash : NeedsNode Solana.getGenesisHash := by
  rintro a ⟨e, rfl⟩
  trivial

theorem needsNode_getSignatureStatuses (signatureStrs : List String) :
    NeedsNode (getSignatureStatuses signatureStrs) :=
  Prog.starves_bind fun _ => (needsNode_getHashWithConfig _).bind _

theorem needsNode_answer (r : ReadRequest) : NeedsNode (r.answer lib txLib orders) := by
  cases r with
  | getMultipleAccounts pubkeyStrs config =>
    simp only [ReadRequest.answer, Solana.getMultipleAccounts]
    split
    · trivial
    · exact Prog.starves_bind fun _ => (needsNode_getHashWithConfig _).bind _
  | getLatestBlockhash config => exact (needsNode_getHashWithConfig _).bind _
  | simulateTransaction data config keeps => exact needsNode_simulateTransaction data config
  | getAccountInfo pubkeyStr config =>
    exact Prog.starves_bind fun _ => (needsNode_getHashWithConfig _).bind _
  | getBalance pubkeyStr config =>
    exact Prog.starves_bind fun _ => (needsNode_getHashWithConfig _).bind _
  | getFeeForMessage data config =>
    exact Prog.starves_bind fun _ => (needsNode_getHashWithConfig _).bind _

end Solana

namespace Client

variable {P V : Type} [ToString P] {s s' : State P V} {e : Event P V}

/-- A task that waits for the signal sends nothing. -/
theorem silent_step (h : step true s e = some s') (hs : s.Parked) (hsent : s.sent = []) :
    s'.sent = [] := by
  by_cases he : e.isTask
  · obtain rfl := eq_signalled_of_parked h hs he
    obtain ⟨-, -, -, rfl⟩ := step_signalled.mp h
    exact hsent
  · cases e with
    | submit method params =>
      obtain rfl := step_submit.mp h
      unfold State.submit
      split
      · exact hsent
      · exact hsent
    | cancel call =>
      obtain ⟨-, rfl⟩ := step_cancel.mp h
      exact hsent
    | disconnect =>
      obtain ⟨-, rfl⟩ := step_disconnect.mp h
      exact hsent
    | ctrlC =>
      obtain rfl := step_ctrlC.mp h
      exact hsent
    | _ => exact absurd rfl he

end Client

namespace Sidecar

open Solana

variable {P V : Type}

/-- The answer is not one of the node. -/
def Unheard : ∀ q : NodeCall ⊕ Index.Call, Sum.elim NodeCall.Answer Index.Call.Answer q → Prop
  | .inl call, a => call.Failed a
  | .inr _, _ => True

/-- The method has no value to answer with before it has asked the node. An airdrop never has one. -/
def Request.AsksNode : Request → Prop
  | .getVersion | .getSignaturesForAddress _ | .getVoteAccounts => False
  | _ => True

/-- The others are answered at once. -/
theorem done_of_not_asksNode (set : Setting P V) (orders : IterOrders) {r : Request}
    (hr : ¬ r.AsksNode) : ∃ reply, r.answer set orders = .done reply := by
  cases r with
  | getVersion => exact ⟨_, rfl⟩
  | getSignaturesForAddress address => exact ⟨_, rfl⟩
  | getVoteAccounts => exact ⟨_, rfl⟩
  | _ => exact absurd trivial hr

theorem starves_request (set : Setting P V) (orders : IterOrders) {r : Request} (hr : r.AsksNode) :
    (r.answer set orders).Starves Unheard := by
  have hhash : ∀ config, ((getHashWithConfig config).left : ListingProg Hash).Starves Unheard :=
    fun config => (needsNode_getHashWithConfig config).left
  cases r with
  | read r => exact (needsNode_answer r).left
  | simulateReplacing data config replaces => exact (needsNode_simulateTransaction data config).left
  | sendTransaction data config => exact (needsNode_sendTransaction data config).left
  | getTokenAccountsByOwner ownerStr filter config =>
    exact Prog.starves_bind fun _ => Prog.starves_bind fun _ => (hhash _).bind _
  | getProgramAccounts programIdStr config =>
    refine Prog.starves_bind fun programId => ?_
    dsimp only
    split
    · trivial
    · exact Prog.starves_bind fun _ => (hhash _).bind _
  | getSignatureStatuses signatureStrs => exact (needsNode_getSignatureStatuses signatureStrs).left
  | getGenesisHash => exact needsNode_getGenesisHash.left
  | requestAirdrop pubkeyStr lamports => trivial
  | _ => exact hr.elim

/-! ## A task that waits for Ctrl-C -/

/-- The client task waits for the signal and has sent nothing, and no thread has heard from
the node. -/
structure Deaf (s : State P V) : Prop where
  parked : s.client.Parked
  silent : s.client.sent = []
  unheard : ∀ (i : Nat) (thread : Thread), s.threads[i]? = some thread →
    ∀ x ∈ thread.told, Unheard x.1 x.2

theorem deaf_init (chain : List Block) (store : Index.Db) : Deaf (.init chain store : State P V) where
  parked := .inl rfl
  silent := rfl
  unheard _ _ hi := by cases hi

section Runs

variable [ToString P] {set : Setting P V} {s s' t : State P V} {e : Event P V}
  {chain : List Block} {store : Index.Db} {ts : List (Step (State P V) (Event P V))}

theorem deaf_step (hset : set.installable = true) (h : step set s e = some s') (hs : Deaf s) :
    Deaf s' := by
  -- with a signal to wait for, the client task never gets to its queue
  have hclient : s'.client.Parked ∧ s'.client.sent = [] := by
    rcases client_step h with hsame | ⟨ce, hce, -⟩
    · rw [hsame]
      exact ⟨hs.parked, hs.silent⟩
    · rw [hset] at hce
      exact ⟨Client.parked_step hce hs.parked, Client.silent_step hce hs.parked hs.silent⟩
  refine ⟨hclient.1, hclient.2, fun i thread' hi' x hx => ?_⟩
  cases hi : s.threads[i]? with
  | none =>
    obtain ⟨-, hstart⟩ := begins_of_step h hi hi'
    rw [hstart] at hx
    cases hx
  | some thread =>
    have hold := hs.unheard i thread hi
    obtain ⟨thread'', hi'', hthread⟩ := thread_step h hi
    rw [hi'] at hi''
    cases hi''
    rcases hthread with rfl | hthread
    · exact hold x hx
    cases hthread with
    | gone => exact hold x hx
    | asked => exact hold x hx
    | told q k a hprog hanswers =>
      rcases List.mem_append.mp hx with hx | hx
      · exact hold x hx
      · obtain rfl := List.mem_singleton.mp hx
        -- nothing has been sent, so what the thread is told is no value
        cases hanswers with
        | refused call e => exact ⟨e, rfl⟩
        | received call channel response hawaiting hsent =>
          rw [hs.silent] at hsent
          cases hsent
        | found call hstore => trivial

/-- Where Ctrl-C can be waited for, whatever happens: no request for a method that asks the node is
ever answered with a value, the index holds what it held at the start, and as long as Ctrl-C is
not pressed nobody who waits for the node hears of it again. -/
theorem serves_nothing (h : Run (step set) (.init chain store) ts t)
    (hset : set.installable = true) :
    (∀ (i : Nat) r orders (o : Outcome ErrorObject (Request.Reply r)) awaiting told left,
      t.threads[i]? = some ⟨.request r orders, .ofOutcome o, awaiting, told, left⟩ → r.AsksNode →
        ∀ reply, o ≠ .ok reply) ∧
    (∀ entry, t.store.Holds entry ↔ store.Holds entry) ∧
    (t.client.signal = false → ∀ i, step set t (.reply i) = none) := by
  have hdeaf : ∀ {us u}, Run (step set) (.init chain store) us u → Deaf u :=
    fun hrun => (hrun.invariant (fun _ _ _ => deaf_step hset) (deaf_init chain store)).1
  refine ⟨?_, fun entry => ⟨fun hholds => ?_, fun hholds => ?_⟩, fun hsignal i => ?_⟩
  · rintro i r orders o awaiting told left hi hr reply rfl
    obtain ⟨_, _, _, -, -, -, hthread⟩ := thread_of_run h hi
    exact (hthread.dialogue.starves (starves_request set orders hr) ((hdeaf h).unheard i _ hi)).elim
  · by_contra hnew
    -- a new entry was read by a thread that has heard from the node
    obtain ⟨before, x, later, rfl, hpre, hpost⟩ :=
      h.exists_change (P := fun s => s.store.Holds entry) hnew hholds
    obtain ⟨hbefore, hx, -⟩ := h.split
    obtain ⟨i, thread, hi, hinserts⟩ := ((store_step hx entry).2 hpost).resolve_left hpre
    obtain ⟨_, _, answers, -, hmem, -⟩ := read_of_inserts hbefore hi hinserts
    obtain ⟨e, hfailed⟩ := (hdeaf hbefore).unheard i thread hi _ hmem
    cases hfailed
  · exact holds_of_visited h (u := .init chain store) List.mem_cons_self hholds
  · by_contra hsome
    obtain ⟨s', hstep⟩ := Option.ne_none_iff_exists'.mp hsome
    obtain ⟨thread, thread', -, hreply, -⟩ := step_reply.mp hstep
    obtain ⟨cs, hclient, -⟩ := client_run h
    have halive : ¬ t.client.phase.Ended := by
      rcases (hdeaf h).parked with hp | ⟨-, hs⟩
      · simp [hp, Client.Phase.Ended]
      · rw [hsignal] at hs
        cases hs
    -- there is neither a response nor a dropped sender to wake the thread
    have hdropped := (Client.settled_of_run hclient).kept halive
    unfold reply at hreply
    simp only [(hdeaf h).silent, hdropped] at hreply
    split at hreply
    · cases hreply
    · cases hreply

end Runs

/-! ## A task that has ended -/

/-- The client task has ended, and threads that have begun since have asked it for nothing and
heard nothing. -/
structure Cut (begun : Nat → Prop) (s : State P V) : Prop where
  ended : s.client.phase.Ended
  idle : ∀ (i : Nat) (thread : Thread), s.threads[i]? = some thread → ¬ begun i →
    thread.awaiting = none
  unheard : ∀ (i : Nat) (thread : Thread), s.threads[i]? = some thread → ¬ begun i →
    ∀ x ∈ thread.told, Unheard x.1 x.2

section Ended

variable [ToString P] {set : Setting P V} {s s' t : State P V} {e : Event P V}
  {chain : List Block} {store : Index.Db} {ts later : List (Step (State P V) (Event P V))}

theorem cut_thread {begun : Nat → Prop} (hs : Cut begun s) (h : step set s e = some s') {i : Nat}
    {thread' : Thread} (hi' : s'.threads[i]? = some thread') (hnew : ¬ begun i) :
    thread'.awaiting = none ∧ ∀ x ∈ thread'.told, Unheard x.1 x.2 := by
  cases hi : s.threads[i]? with
  | none =>
    obtain ⟨-, hstart⟩ := begins_of_step h hi hi'
    rw [hstart]
    exact ⟨rfl, fun _ hx => absurd hx List.not_mem_nil⟩
  | some thread =>
    have hidle := hs.idle i thread hi hnew
    have hold := hs.unheard i thread hi hnew
    obtain ⟨thread'', hi'', hthread⟩ := thread_step h hi
    rw [hi'] at hi''
    cases hi''
    rcases hthread with rfl | hthread
    · exact ⟨hidle, hold⟩
    cases hthread with
    | gone => exact ⟨hidle, hold⟩
    | asked call k params hprog _ halive => exact absurd hs.ended halive
    | told q k a hprog hanswers =>
      refine ⟨rfl, fun x hx => ?_⟩
      rcases List.mem_append.mp hx with hx | hx
      · exact hold x hx
      · obtain rfl := List.mem_singleton.mp hx
        cases hanswers with
        | refused call e => exact ⟨e, rfl⟩
        | received call channel response hawaiting =>
          rw [hidle] at hawaiting
          cases hawaiting
        | found call hstore => trivial

theorem cut_step {begun : Nat → Prop} (h : step set s e = some s') (hs : Cut begun s) :
    Cut begun s' := by
  refine ⟨?_, fun i thread hi hnew => (cut_thread hs h hi hnew).1,
    fun i thread hi hnew => (cut_thread hs h hi hnew).2⟩
  rcases client_step h with hsame | ⟨ce, hce, -⟩
  · rw [hsame]
    exact hs.ended
  · exact Client.ended_step hce hs.ended

/-- Once the client task has ended, by Ctrl-C or by a panic, it does not come back, and no
request that comes afterwards for a method that asks the node is answered with a value. -/
theorem refuses_after_end (h : Run (step set) (.init chain store) ts s) (hend : s.client.phase.Ended)
    (hlater : Run (step set) s later t) : t.client.phase.Ended ∧
      ∀ (i : Nat) r orders (o : Outcome ErrorObject (Request.Reply r)) awaiting told left,
        s.threads[i]? = none →
        t.threads[i]? = some ⟨.request r orders, .ofOutcome o, awaiting, told, left⟩ → r.AsksNode →
          ∀ reply, o ≠ .ok reply := by
  have hstart : Cut (fun i => i < s.threads.length) s := by
    refine ⟨hend, fun i thread hi hnew => ?_, fun i thread hi hnew => ?_⟩
    · exact absurd (List.getElem?_eq_some_iff.mp hi).1 hnew
    · exact absurd (List.getElem?_eq_some_iff.mp hi).1 hnew
  have hcut := (hlater.invariant (fun _ _ _ => cut_step) hstart).1
  refine ⟨hcut.ended, ?_⟩
  rintro i r orders o awaiting told left hnone hi hr reply rfl
  obtain ⟨_, _, _, -, -, -, hthread⟩ := thread_of_run (h.append hlater) hi
  have hnew : ¬ i < s.threads.length := Nat.not_lt.mpr (List.getElem?_eq_none_iff.mp hnone)
  exact (hthread.dialogue.starves (starves_request set orders hr)
    (hcut.unheard i _ hi hnew)).elim

end Ended

/-! ## A request that waits -/

def handledSetting : Setting NodeCall Answered :=
  plainSetting Chain.steadyNode (.frozen .zero) true

/-- A request is accepted and asks the node. -/
def oneWaiting : List (Event NodeCall Answered) :=
  [.accept (.read latestProcessed) listedOrders, .ask 0]

theorem serves_nothing_one :
    let t := after (.init [] (.empty [])) (trace (step handledSetting) (.init [] (.empty [])) oneWaiting)
    (∀ (i : Nat) r orders (o : Outcome ErrorObject (Request.Reply r)) awaiting told left,
      t.threads[i]? = some ⟨.request r orders, .ofOutcome o, awaiting, told, left⟩ → r.AsksNode →
        ∀ reply, o ≠ .ok reply) ∧
    (∀ entry, t.store.Holds entry ↔ (Index.Db.empty []).Holds entry) ∧
    (t.client.signal = false → ∀ i, step handledSetting t (.reply i) = none) :=
  serves_nothing (.of_trace _ oneWaiting) rfl

/-! ## A caller that leaves -/

/-- The caller of a request leaves while the node is asked, and the task ends with the answer. -/
def leftAtTheNode : List (Event NodeCall Answered) :=
  [.accept (.read latestProcessed) listedOrders, .ask 0] ++ connecting ++
    [.client .signalFailed, .client .dequeue, .leave 0, .answer none]

/-- Another request comes and asks. -/
def nextRequest : List (Event NodeCall Answered) :=
  [.accept (.read latestProcessed) listedOrders, .ask 1]

theorem refuses_after_leaving :
    let s := after (.init [] (.empty [])) (trace (step steadySetting) (.init [] (.empty []))
      leftAtTheNode)
    let t := after s (trace (step steadySetting) s nextRequest)
    t.client.phase.Ended ∧
      ∀ (i : Nat) r orders (o : Outcome ErrorObject (Request.Reply r)) awaiting told left,
        s.threads[i]? = none →
        t.threads[i]? = some ⟨.request r orders, .ofOutcome o, awaiting, told, left⟩ → r.AsksNode →
          ∀ reply, o ≠ .ok reply :=
  refuses_after_end (.of_trace _ leftAtTheNode) (by decide) (.of_trace _ nextRequest)

end Sidecar

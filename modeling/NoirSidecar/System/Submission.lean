-- SUMMARY: The running sidecar gives a transaction to the node at most once for each request to send it, and answers with a signature only if the node took it.
import NoirSidecar.Rpc.Blockhash
import NoirSidecar.System.Indexing

/-!
# Transactions on their way to the node

A request to send a transaction puts one submission into the queue of the client task, where
it may be dequeued and put back several times while there is no connection. What has gone to
the node is not put back, so that a submission that is in the queue is still owed to the
node, and one that has been made is accounted for by the thread that has asked for it.
-/

namespace Client

variable {P V : Type}

/-! ## Requests that go to the node -/

/-- The request that the task takes to the node. -/
def delivery (s s' : State P V) : Option (Request P) :=
  match s.phase, s'.phase with
  | .recv, .requesting r => some r
  | _, _ => none

/-- The request calls the method with these parameters. -/
def Request.isCall [DecidableEq P] (method : String) (params : P) (r : Request P) : Bool :=
  r.method == method && r.params == params

section Deliveries

variable [ToString P] {installable : Bool} {s s' : State P V} {e : Event P V} {r : Request P}

omit [ToString P] in
theorem delivery_eq_some : delivery s s' = some r ↔ s.phase = .recv ∧ s'.phase = .requesting r := by
  unfold delivery
  split
  · next r' hs hs' => simp [hs, hs']
  · next hno =>
    refine iff_of_false (by simp) ?_
    rintro ⟨hs, hs'⟩
    exact hno r hs hs'

omit [ToString P] in
theorem delivery_of_phase_eq (h : s'.phase = s.phase) : delivery s s' = none := by
  refine Option.eq_none_iff_forall_ne_some.mpr fun r hr => ?_
  obtain ⟨hrecv, hphase⟩ := delivery_eq_some.mp hr
  rw [h, hrecv] at hphase
  cases hphase

/-- Requests get to the node from the queue. -/
theorem recv_of_requesting (hs : step installable s e = some s') (hphase : s'.phase = .requesting r) :
    s.phase = .requesting r ∨ s.phase = .recv ∧ e = .dequeue := by
  by_cases he : e.isTask
  · cases e with
    | dequeue =>
      obtain ⟨_, _, hp, -⟩ := step_dequeue.mp hs
      exact .inr ⟨hp, rfl⟩
    | signalled =>
      obtain ⟨-, -, -, rfl⟩ := step_signalled.mp hs
      cases hphase
    | signalFailed =>
      obtain ⟨-, -, rfl⟩ := step_signalFailed.mp hs
      cases hphase
    | resubmit =>
      obtain ⟨_, -, rfl⟩ := step_resubmit.mp hs
      cases hphase
    | answer response =>
      obtain ⟨_, -, ⟨-, rfl⟩ | ⟨-, rfl⟩⟩ := step_answer.mp hs
      · cases hphase
      · cases hphase
    | connect result =>
      obtain ⟨-, rfl⟩ := step_connect.mp hs
      cases hphase
    | _ => cases he
  · rw [phase_of_world_step hs (Bool.eq_false_iff.mpr he)] at hphase
    exact .inl hphase

/-- A request that goes to the node leaves the queue for good. -/
theorem taken_of_delivery (hs : step installable s e = some s') (h : delivery s s' = some r) :
    dequeued ⟨s, e, s'⟩ = some (.request r) ∧ (∃ rest, s.waiting = r :: rest) ∧ s.connected := by
  obtain ⟨hrecv, hphase⟩ := delivery_eq_some.mp h
  obtain ⟨-, rfl⟩ := (recv_of_requesting hs hphase).resolve_left (by simp [hrecv])
  obtain ⟨m, queue, hp, hq, rfl⟩ := step_dequeue.mp hs
  cases m with
  | tryConnect => cases hphase
  | request r' =>
    rw [State.handle_request] at hphase
    split_ifs at hphase with hretry hlive
    · cases hphase
    · cases hphase
      exact ⟨by simp [dequeued, hq], ⟨_, State.waiting_of_recv hp hq⟩, hlive⟩
    · cases hphase

/-- A step other than a submission takes to the node what it takes from those that wait. -/
theorem delivered_le [DecidableEq P] (hs : step installable s e = some s')
    (he : ∀ method params, e ≠ .submit method params) (method : String) (params : P) :
    (delivery s s').toList.countP (Request.isCall method params) +
      s'.waiting.countP (Request.isCall method params) ≤
        s.waiting.countP (Request.isCall method params) := by
  have hnone : (∀ call, dequeues call ⟨s, e, s'⟩ = false) → delivery s s' = none := by
    intro hnot
    refine Option.eq_none_iff_forall_ne_some.mpr fun r hr => ?_
    have hdequeues : dequeues r.response ⟨s, e, s'⟩ :=
      dequeues_iff.mpr ⟨r, (taken_of_delivery hs hr).1, rfl⟩
    rw [hnot] at hdequeues
    cases hdequeues
  cases waiting_step hs with
  | same hnot calls waiting =>
    rw [hnone hnot, Option.toList_none, List.countP_nil, Nat.zero_add]
    rcases waiting with hperm | hempty
    · exact (hperm.countP_eq _).le
    · dsimp only at hempty
      rw [hempty]
      exact Nat.zero_le _
  | added method params hnot calls =>
    rcases calls_step hs with hsame | ⟨method', params', hev, -⟩
    · dsimp only at calls
      omega
    · exact absurd hev (he method' params')
  | taken r rest one calls before waiting =>
    dsimp only at before waiting
    rw [before, waiting, List.countP_cons]
    cases hdelivery : delivery s s' with
    | none =>
      rw [Option.toList_none, List.countP_nil, Nat.zero_add]
      split
      · rw [List.countP_cons]
        exact Nat.le_refl _
      · exact Nat.le_add_right _ _
    | some r' =>
      -- it had a connection, and so is not put back
      obtain ⟨-, ⟨rest', hfirst⟩, hlive⟩ := taken_of_delivery hs hdelivery
      rw [before] at hfirst
      cases hfirst
      rw [if_neg (fun hback => hback.2 hlive), Option.toList_some, List.countP_singleton,
        Nat.add_comm]

omit [ToString P] in
/-- A submission adds a request to those that wait, unless the task has ended. -/
theorem countP_submit [DecidableEq P] (s : State P V) (method method' : String)
    (params params' : P) :
    (s.submit method' params').waiting.countP (Request.isCall method params) =
      s.waiting.countP (Request.isCall method params) +
        if ¬ s.phase.Ended ∧ method' = method ∧ params' = params then 1 else 0 := by
  by_cases hend : s.phase.Ended
  · have hwaiting : (s.submit method' params').waiting = s.waiting := by
      simp [State.submit, hend, State.waiting]
    rw [hwaiting, if_neg (fun h => h.1 hend), Nat.add_zero]
  · have hwaiting : (s.submit method' params').waiting =
        s.waiting ++ [⟨method', params', s.calls, initialRetry⟩] := by
      cases hp : s.phase <;>
        simp_all [State.submit, State.waiting, Message.requests, Phase.Ended]
    rw [hwaiting, List.countP_append, List.countP_singleton]
    simp [Request.isCall, hend]

end Deliveries

end Client

/-! ## Who submits -/

namespace Solana

open Sidecar (Answered)

/-- The call gives something to the node. -/
def Submits : NodeCall → Prop
  | .authorSubmitExtrinsic _ => True
  | _ => False

/-- The same among questions to the node and to the index. -/
def Submitting : NodeCall ⊕ Index.Call → Prop
  | .inl call => Submits call
  | .inr _ => False

section Methods

variable {lib : Decoder} {txLib : TransactionLib} {orders : IterOrders}

theorem not_submits_of_pinned (call : NodeCall) (h : Chain.Pinned call) : ¬ Submits call := by
  cases call with
  | authorSubmitExtrinsic => exact h.elim
  | _ => exact not_false

theorem FromBlock.not_submitting {α : Type} {commitment : Option CommitmentConfig} {p : ListingProg α}
    (h : FromBlock commitment p) : p.Asks (¬ Submitting ·) := by
  refine h.opens.asks ?_ ?_
  · unfold headCall
    split <;> exact not_false
  · rintro (call | call) hpinned
    · exact not_submits_of_pinned call hpinned
    · exact not_false

theorem asks_hash (config : RpcContextConfig) : (getHashWithConfig config).Asks (¬ Submits ·) := by
  unfold getHashWithConfig Solana.hash
  split
  · exact asks_callNode ⟨not_false, fun _ => Prog.asks_ofExcept _⟩
  · exact asks_callNode ⟨not_false, fun _ => Prog.asks_ofExcept _⟩
  · exact asks_callNode ⟨not_false, fun _ => Prog.asks_ofExcept _⟩

theorem asks_replaceBlockhash (config : RpcSimulateTransactionConfig) (tx : VersionedTransaction) :
    (replaceBlockhash config tx).Asks (¬ Submits ·) := by
  unfold replaceBlockhash
  split
  · split
    · trivial
    · refine Prog.Asks.bind (asks_callNode ⟨not_false, fun _ => Prog.asks_ofExcept _⟩) fun hash => ?_
      exact ((asks_callNode (Client.asks_getLastValidBlockHeight hash)).mono
        not_submits_of_pinned).bind fun _ => trivial
  · trivial

/-- A simulation submits nothing. -/
theorem asks_simulateTransaction (data : String) (config : Option RpcSimulateTransactionConfig) :
    (simulateTransaction lib orders txLib data config).Asks (¬ Submits ·) := by
  have hlooksUp : ∀ call, Chain.LooksUp call → ¬ Submits call :=
    fun call h => not_submits_of_pinned call h.pinned
  refine (Prog.asks_ofExcept _).bind fun tx => (asks_hash _).bind fun hash => ?_
  refine ((asks_callNode (Client.looksUp_getSlot hash)).mono hlooksUp).bind fun slot => ?_
  refine (asks_replaceBlockhash _ tx).bind fun _ => ?_
  refine ((asks_callNode (Client.asks_runtimeCall _ hash)).mono not_submits_of_pinned).bind fun _ => ?_
  exact ((looksUp_simulatedAccounts _ _ _).mono hlooksUp).bind fun _ => trivial

theorem asks_getGenesisHash : Solana.getGenesisHash.Asks (¬ Submits ·) := by
  have hread : Client.getGenesisHash.Asks (¬ Submits ·) :=
    ⟨not_false, fun a => (Prog.asks_ofExcept a).bind fun _ => trivial⟩
  exact asks_callNode hread

variable {data : String} {config : Option RpcSendTransactionConfig}

/-- A request to send a transaction submits once. -/
theorem once_sendTransaction : (sendTransaction txLib data config).Once Submits := by
  refine .bind_right (Prog.asks_ofExcept _) fun tx => .bind_right ?_ fun convertedTx => ?_
  · exact asks_callNode ⟨not_false, fun _ => Prog.asks_ofExcept _⟩
  · refine Prog.Once.bind_left (fun answer => ?_) fun _ => Prog.asks_ofOutcome _
    have hend : (Prog.mapError (fun e : Client.Error => internalError e.debug)
        (.ofExcept (answer.mapError fun e => Client.Error.invalidRequest e.debug)) :
        RpcProg Hash).Asks (¬ Submits ·) := (Prog.asks_ofExcept _).mapError _
    exact ⟨fun _ => hend, Prog.once_of_asks hend⟩

/-- The node has answered with the transaction in its own format. -/
abbrev converted (tx : VersionedTransaction) (extrinsic : Bytes) : Answered :=
  ⟨.inl (.runtime (.convertTransaction tx) none), .value extrinsic⟩

/-- How far a request to send a transaction has come: it is not about to submit anything, it
is about to, or it has. -/
theorem sending_cases {told : List Answered} {p : ListingProg String}
    (h : Prog.Dialogue (sendTransaction txLib data config).left told p) :
    ((∀ x ∈ told, ¬ Submitting x.1) ∧ (∀ q, p.next = some q → ¬ Submitting q) ∧
        ∀ signature, p ≠ .done signature) ∨
      ∃ tx extrinsic, readTransaction txLib data (config.getD {}).encoding = .ok tx ∧
        (told = [converted tx extrinsic] ∧
            p.next = some (.inl (.authorSubmitExtrinsic ("0x" ++ Hex.encode extrinsic))) ∨
          ∃ taken, told = [converted tx extrinsic,
              ⟨.inl (.authorSubmitExtrinsic ("0x" ++ Hex.encode extrinsic)), taken⟩] ∧
            p.next = none ∧ ∀ signature, p = .done signature →
              (∃ hash, taken = .ok hash) ∧ firstSignature tx.signatures = .ok signature) := by
  -- the transaction is read before the node is asked anything
  cases hread : readTransaction txLib data (config.getD {}).encoding with
  | error e =>
    have hsend : sendTransaction txLib data config = .fail e := by
      rw [sendTransaction, hread]
      rfl
    rw [hsend] at h
    cases h
    refine .inl ⟨fun _ hx => absurd hx List.not_mem_nil, fun _ hq => ?_, fun _ hp => ?_⟩
    · cases hq
    · cases hp
  | ok tx =>
    rw [sendTransaction_of_read hread] at h
    -- the node has yet to convert the transaction, or has answered
    rcases h with - | @⟨_, _, answer, rest, _, h⟩
    · refine .inl ⟨fun _ hx => absurd hx List.not_mem_nil, fun _ hq => ?_, fun _ hp => ?_⟩
      · cases hq
        exact not_false
      · cases hp
    · cases answer with
      | value extrinsic =>
        refine .inr ⟨tx, extrinsic, rfl, ?_⟩
        -- the extrinsic is about to be submitted, or has been
        rcases h with - | @⟨_, _, taken, rest, _, h⟩
        · exact .inl ⟨rfl, rfl⟩
        · refine .inr ⟨taken, ?_⟩
          cases taken with
          | error e =>
            cases h
            exact ⟨rfl, rfl, fun _ hp => by cases hp⟩
          | ok hash =>
            have houtcome : Prog.Dialogue
                (Prog.left (.ofOutcome (firstSignature tx.signatures)) : ListingProg String) rest p := h
            -- submitted, but there is a signature to return only if the transaction carries one
            cases hsignature : firstSignature tx.signatures with
            | ok signature =>
              rw [hsignature] at houtcome
              cases houtcome
              exact ⟨rfl, rfl, fun _ hp => by cases hp; exact ⟨⟨hash, rfl⟩, rfl⟩⟩
            | error e =>
              rw [hsignature] at houtcome
              cases houtcome
              exact ⟨rfl, rfl, fun _ hp => by cases hp⟩
            | panicked =>
              rw [hsignature] at houtcome
              cases houtcome
              exact ⟨rfl, rfl, fun _ hp => by cases hp⟩
      | _ =>
        -- without an extrinsic the request ends before anything is submitted
        cases h
        refine .inl ⟨fun x hx => ?_, fun _ hq => ?_, fun _ hp => ?_⟩
        · obtain rfl := List.mem_singleton.mp hx
          exact not_false
        · cases hq
        · cases hp

end Methods

end Solana

/-! ## What threads have asked for -/

namespace Sidecar

open Chain Solana

variable {P V : Type} [DecidableEq P]

/-- The question is a call of the method with these parameters. -/
def Setting.isCall (set : Setting P V) (method : String) (params : P) :
    NodeCall ⊕ Index.Call → Bool
  | .inl call => call.method == method && decide (set.params call = .ok params)
  | .inr _ => false

/-- The thread has asked a question of the kind, and may be waiting for the answer. -/
def Thread.hasAsked (R : NodeCall ⊕ Index.Call → Bool) (thread : Thread) : Bool :=
  thread.told.any (fun x => R x.1) || thread.awaiting.isSome && thread.prog.next.any R

/-- How often the method has been called at the node with these parameters. -/
def timesDelivered (method : String) (params : P) (ts : List (Step (State P V) (Event P V))) : Nat :=
  (ts.filterMap fun x => Client.delivery x.pre.client x.post.client).countP
    (Client.Request.isCall method params)

section Counting

variable {set : Setting P V} {s s' t : State P V} {e : Event P V} {thread thread' : Thread}
  {R : NodeCall ⊕ Index.Call → Bool}

omit [DecidableEq P] in
/-- What has been asked stays so. -/
theorem hasAsked_step (h : ThreadStep set s s' thread thread') (hasked : thread.hasAsked R) :
    thread'.hasAsked R := by
  unfold Thread.hasAsked at hasked ⊢
  rw [Bool.or_eq_true, Bool.and_eq_true] at hasked ⊢
  cases h with
  | gone => exact hasked
  | asked call k params hprog hidle =>
    refine .inl (hasked.resolve_right fun hwaits => ?_)
    rw [hidle] at hwaits
    cases hwaits.1
  | told q k a hprog =>
    refine .inl ?_
    rw [hprog] at hasked
    rw [Thread.tell, List.any_append, Bool.or_eq_true]
    refine hasked.imp id fun hwaits => ?_
    simpa [Prog.next] using hwaits.2

variable [ToString P]

omit [DecidableEq P] in
theorem countP_hasAsked_le (h : step set s e = some s') :
    s.threads.countP (Thread.hasAsked R) ≤ s'.threads.countP (Thread.hasAsked R) := by
  rcases threads_step h with ⟨jobs, heq, -⟩ | ⟨i, old, new, hi, heq, hone⟩
  · rw [heq, List.countP_append]
    exact Nat.le_add_right _ _
  · have hcount := countP_set_add (present_eq_some hi).1 new (Thread.hasAsked R)
    rw [heq]
    by_cases hold : old.hasAsked R
    · rw [if_pos hold, if_pos (hasAsked_step hone hold)] at hcount
      omega
    · rw [if_neg hold] at hcount
      omega

/-- A step in which no thread asks takes to the node what it takes from those that wait. -/
theorem delivered_le (h : step set s e = some s') (he : ∀ i, e ≠ .ask i) (method : String)
    (params : P) :
    (Client.delivery s.client s'.client).toList.countP (Client.Request.isCall method params) +
      s'.client.waiting.countP (Client.Request.isCall method params) ≤
        s.client.waiting.countP (Client.Request.isCall method params) := by
  -- most events do not reach the client
  have hsame : s'.client = s.client →
      (Client.delivery s.client s'.client).toList.countP (Client.Request.isCall method params) +
        s'.client.waiting.countP (Client.Request.isCall method params) ≤
          s.client.waiting.countP (Client.Request.isCall method params) := by
    intro hclient
    rw [Client.delivery_of_phase_eq (congrArg Client.State.phase hclient), hclient]
    exact Nat.le_of_eq (Nat.zero_add _)
  cases e with
  | client ce =>
    obtain ⟨halone, client, hstep, rfl⟩ := step_client.mp h
    refine Client.delivered_le hstep ?_ method params
    rintro method' params' rfl
    cases halone
  | answer failure =>
    obtain ⟨r, client, -, hstep, rfl⟩ := step_answer.mp h
    exact Client.delivered_le hstep (fun _ _ hev => by cases hev) method params
  | leave i =>
    obtain ⟨thread, client, thread', -, hleave, rfl⟩ := step_leave.mp h
    obtain ⟨-, rfl | ⟨channel, -, hcancel⟩⟩ := leave_eq hleave
    · exact hsame rfl
    · exact Client.delivered_le hcancel (fun _ _ hev => by cases hev) method params
  | ask i => exact absurd rfl (he i)
  | tick =>
    obtain rfl := step_tick.mp h
    exact hsame rfl
  | subscriber se =>
    obtain ⟨subscriber, -, rfl⟩ := step_subscriber.mp h
    exact hsame rfl
  | receive =>
    obtain ⟨-, payload, -, rfl⟩ := step_receive.mp h
    exact hsame rfl
  | accept r orders =>
    obtain rfl := step_accept.mp h
    exact hsame rfl
  | reply i =>
    obtain ⟨thread, thread', -, -, rfl⟩ := step_reply.mp h
    exact hsame rfl
  | lookUp i =>
    obtain ⟨thread, store, thread', -, -, rfl⟩ := step_lookUp.mp h
    exact hsame rfl

/-- A thread that asks adds to those that wait, and has not asked before. -/
theorem asked_le {i : Nat} (h : step set s (.ask i) = some s') (method : String) (params : P)
    (honce : ∀ job : Job, (job.prog set).Once (set.isCall method params ·))
    (hdialogue : ∀ (i : Nat) (thread : Thread), s.threads[i]? = some thread →
      Prog.Dialogue (thread.job.prog set) thread.told thread.prog) :
    s'.client.waiting.countP (Client.Request.isCall method params) +
      s.threads.countP (Thread.hasAsked (set.isCall method params)) ≤
        s.client.waiting.countP (Client.Request.isCall method params) +
          s'.threads.countP (Thread.hasAsked (set.isCall method params)) := by
  have hle := countP_hasAsked_le (R := set.isCall method params) h
  obtain ⟨thread, client, thread', hi, hask, rfl⟩ := step_ask.mp h
  obtain ⟨call, k, hprog, hidle, ⟨rfl, -⟩ | ⟨params', hwritten, rfl, hcases⟩⟩ := ask_eq hask
  · exact Nat.add_le_add_left hle _
  have hget := (present_eq_some hi).1
  have hcount := countP_set_add hget thread' (Thread.hasAsked (set.isCall method params))
  dsimp only at hle ⊢
  rw [Client.countP_submit]
  split
  · next hcall =>
    obtain ⟨halive, hmethod, hparams⟩ := hcall
    obtain rfl := (hcases.resolve_left fun hend => halive hend.1).2
    have hkind : set.isCall method params (.inl call) := by
      simp [Setting.isCall, hmethod, hwritten, hparams]
    have hasks := hdialogue i thread hget
    rw [hprog] at hasks
    have hnew : thread.hasAsked (set.isCall method params) = false := by
      simp only [Thread.hasAsked, hidle, Option.isSome_none, Bool.false_and, Bool.or_false]
      refine List.any_eq_false.mpr fun x hx hR => ?_
      exact (hasks.asks_of_mem (honce thread.job) hx hR).1 hkind
    have hnow : Thread.hasAsked (set.isCall method params)
        { thread with awaiting := some s.client.calls } := by
      simp [Thread.hasAsked, hprog, Prog.next, hkind]
    rw [if_neg (by simp [hnew]), if_pos hnow] at hcount
    omega
  · omega

/-- Where a program asks a question of the kind at most once, the calls that have gone to the
node and those that wait are accounted for by the threads that have asked for them. -/
theorem delivered_of_run {chain : List Block} {store : Index.Db}
    {ts : List (Step (State P V) (Event P V))} (h : Run (step set) (.init chain store) ts t)
    (method : String) (params : P)
    (honce : ∀ job : Job, (job.prog set).Once (set.isCall method params ·)) :
    timesDelivered method params ts +
      t.client.waiting.countP (Client.Request.isCall method params) ≤
        t.threads.countP (Thread.hasAsked (set.isCall method params)) := by
  refine h.history_induction (P := fun ts t => timesDelivered method params ts +
    t.client.waiting.countP (Client.Request.isCall method params) ≤
      t.threads.countP (Thread.hasAsked (set.isCall method params))) (Nat.zero_le _) ?_
  intro as a e a' hrun ih hstep
  have htimes : timesDelivered method params (as ++ [⟨a, e, a'⟩]) =
      timesDelivered method params as +
        (Client.delivery a.client a'.client).toList.countP (Client.Request.isCall method params) := by
    unfold timesDelivered
    rw [List.filterMap_append, List.countP_append]
    cases hdelivery : Client.delivery a.client a'.client <;> simp [hdelivery]
  rw [htimes]
  by_cases hask : ∃ i, e = .ask i
  · obtain ⟨i, rfl⟩ := hask
    have hasked := asked_le hstep method params honce fun i thread => dialogue_of_run hrun
    have hphase : a'.client.phase = a.client.phase := by
      obtain ⟨thread, client, thread', -, hask, rfl⟩ := step_ask.mp hstep
      rcases client_ask hask with rfl | ⟨method, params, rfl⟩
      · rfl
      · exact Client.State.submit_phase _ _ _
    rw [Client.delivery_of_phase_eq hphase, Option.toList_none, List.countP_nil]
    omega
  · have hdelivered := delivered_le hstep (fun i hev => hask ⟨i, hev⟩) method params
    have hkept := countP_hasAsked_le (R := set.isCall method params) hstep
    omega

end Counting

/-! ## At most once -/

section Submissions

variable {set : Setting P V}

omit [DecidableEq P] in
/-- Only requests to send a transaction submit. -/
theorem sends_or_asks (set : Setting P V) (job : Job) :
    (∃ data config orders, job = .request (.sendTransaction data config) orders) ∨
      (job.prog set).Asks (¬ Submitting ·) := by
  cases job with
  | index payload pubkeys =>
    refine .inr (?_ : (Index.updateIndex pubkeys).Asks _)
    rw [Index.updateIndex_eq]
    refine ⟨not_false, fun answer => ?_⟩
    cases answer with
    | value answers =>
      by_cases hlen : pubkeys.length = answers.length
      · rw [Index.insertRead_of_length_eq hlen]
        refine (Index.asks_forM_insertIndex _).mono ?_
        rintro q ⟨entry, -, rfl⟩
        exact not_false
      · rw [Index.insertRead_of_length_ne hlen]
        trivial
    | _ => trivial
  | request r orders =>
    cases r with
    | read r => exact .inr (fromBlock_read r).not_submitting
    | simulateReplacing data config replaces => exact .inr (.left (asks_simulateTransaction data config))
    | getProgramAccounts programIdStr config =>
      exact .inr (fromBlock_getProgramAccounts programIdStr config).not_submitting
    | getTokenAccountsByOwner ownerStr filter config =>
      exact .inr (fromBlock_getTokenAccountsByOwner ownerStr filter config).not_submitting
    | sendTransaction data config => exact .inl ⟨data, config, orders, rfl⟩
    | getSignatureStatuses signatureStrs =>
      exact .inr (fromBlock_getSignatureStatuses signatureStrs).not_submitting
    | getGenesisHash => exact .inr (.left asks_getGenesisHash)
    | _ => exact .inr trivial

omit [DecidableEq P] in
theorem once_submitting (job : Job) : (job.prog set).Once Submitting := by
  rcases sends_or_asks set job with ⟨data, config, orders, rfl⟩ | hasks
  · exact Prog.Once.left once_sendTransaction
  · exact Prog.once_of_asks hasks

theorem submitting_of_isCall {params : P} (q : NodeCall ⊕ Index.Call)
    (h : set.isCall "author_submitExtrinsic" params q) : Submitting q := by
  rcases q with call | call
  · simp only [Setting.isCall, Bool.and_eq_true, beq_iff_eq] at h
    cases call with
    | authorSubmitExtrinsic transaction => trivial
    | _ => exact absurd h.1 (by simp [NodeCall.method])
  · cases h

omit [DecidableEq P] in
/-- Only a request to send a transaction submits, what the node has converted it to. -/
theorem sending_of_submitting {job : Job} {told : List Answered}
    {prog : Index.IndexProg job.Error job.Reply} {q : NodeCall ⊕ Index.Call}
    (h : Prog.Dialogue (job.prog set) told prog)
    (hq : (∃ x ∈ told, x.1 = q) ∨ prog.next = some q) (hsubmitting : Submitting q) :
    ∃ data config orders tx extrinsic, job = .request (.sendTransaction data config) orders ∧
      readTransaction set.txLib data (config.getD {}).encoding = .ok tx ∧
      converted tx extrinsic ∈ told ∧
      q = .inl (.authorSubmitExtrinsic ("0x" ++ Hex.encode extrinsic)) := by
  rcases sends_or_asks set job with ⟨data, config, orders, rfl⟩ | hasks
  · obtain ⟨htold, hnext, -⟩ | ⟨tx, extrinsic, hread, hcases⟩ := sending_cases h
    · rcases hq with ⟨x, hx, rfl⟩ | hq
      · exact absurd hsubmitting (htold x hx)
      · exact absurd hsubmitting (hnext q hq)
    refine ⟨data, config, orders, tx, extrinsic, rfl, hread, ?_⟩
    obtain ⟨rfl, hnext⟩ | ⟨taken, rfl, hnext, -⟩ := hcases
    · refine ⟨List.mem_cons_self, ?_⟩
      rcases hq with ⟨x, hx, rfl⟩ | hq
      · obtain rfl := List.mem_singleton.mp hx
        exact hsubmitting.elim
      · exact Option.some.inj (hq.symm.trans hnext)
    · refine ⟨List.mem_cons_self, ?_⟩
      rcases hq with ⟨x, hx, rfl⟩ | hq
      · rcases List.mem_pair.mp hx with rfl | rfl
        · exact hsubmitting.elim
        · rfl
      · rw [hnext] at hq
        cases hq
  · obtain ⟨htold, hleft⟩ := h.asks hasks
    rcases hq with ⟨x, hx, rfl⟩ | hq
    · exact absurd hsubmitting (htold x hx)
    · cases prog with
      | ask q' k =>
        cases hq
        exact absurd hsubmitting hleft.1
      | _ => cases hq

/-- The thread is a request to send a transaction, which the node has converted to this at the
best block of one of these moments. -/
def Thread.Sends (set : Setting P V) (us : List (State P V)) (extrinsic : Bytes) (thread : Thread) :
    Prop :=
  ∃ data config orders tx, thread.job = .request (.sendTransaction data config) orders ∧
    readTransaction set.txLib data (config.getD {}).encoding = .ok tx ∧
    ∃ u ∈ us, set.node (.runtime (.convertTransaction tx) (some (set.history.world u.time).best)) =
      .value extrinsic

variable [ToString P] {chain : List Block} {store : Index.Db}
  {ts : List (Step (State P V) (Event P V))} {t : State P V}

omit [DecidableEq P] in
/-- What a thread has been told at some moment it was told in the run. -/
theorem heard_of_run (h : Run (step set) (.init chain store) ts t) {i : Nat} {thread : Thread}
    (hi : t.threads[i]? = some thread) :
    ∀ x ∈ thread.told, Heard set (visited (.init chain store) ts) x := by
  obtain ⟨before, x, later, rfl, -, -, hthread⟩ := thread_of_run h hi
  exact fun y hy => (hthread.heard y hy).mono fun u hu => visited_later hu

/-- The node is given an extrinsic at most once for each request to send a transaction that it
has converted to this extrinsic, however often the requests have been dequeued and put back. -/
theorem submitted_once (h : Run (step set) (.init chain store) ts t) (params : P) :
    timesDelivered "author_submitExtrinsic" params ts ≤
        t.threads.countP (Thread.hasAsked (set.isCall "author_submitExtrinsic" params)) ∧
      ∀ thread ∈ t.threads, thread.hasAsked (set.isCall "author_submitExtrinsic" params) →
        ∃ extrinsic, set.params (.authorSubmitExtrinsic ("0x" ++ Hex.encode extrinsic)) = .ok params ∧
          thread.Sends set (visited (.init chain store) ts) extrinsic := by
  refine ⟨?_, fun thread hmem hasked => ?_⟩
  · have hrun := delivered_of_run h "author_submitExtrinsic" params
      fun job => (once_submitting job).mono submitting_of_isCall
    exact (Nat.le_add_right _ _).trans hrun
  · obtain ⟨i, hi⟩ := List.mem_iff_getElem?.mp hmem
    have hquestion : ∃ q, ((∃ x ∈ thread.told, x.1 = q) ∨ thread.prog.next = some q) ∧
        set.isCall "author_submitExtrinsic" params q := by
      unfold Thread.hasAsked at hasked
      rcases Bool.or_eq_true _ _ ▸ hasked with htold | hwaits
      · obtain ⟨x, hx, hcall⟩ := List.any_eq_true.mp htold
        exact ⟨x.1, .inl ⟨x, hx, rfl⟩, hcall⟩
      · obtain ⟨-, hnext⟩ := Bool.and_eq_true _ _ ▸ hwaits
        cases hq : thread.prog.next with
        | none =>
          rw [hq] at hnext
          cases hnext
        | some q =>
          rw [hq] at hnext
          exact ⟨q, .inr rfl, hnext⟩
    obtain ⟨q, hq, hcall⟩ := hquestion
    obtain ⟨data, config, orders, tx, extrinsic, hjob, hread, hconverted, rfl⟩ :=
      sending_of_submitting (dialogue_of_run h hi) hq (submitting_of_isCall q hcall)
    refine ⟨extrinsic, ?_, data, config, orders, tx, hjob, hread, ?_⟩
    · simp only [Setting.isCall, Bool.and_eq_true, decide_eq_true_eq] at hcall
      exact hcall.2
    · rcases heard_of_run h hi _ hconverted with ⟨e, hfailed⟩ | ⟨u, hu, hsaid, -⟩
      · cases hfailed
      · exact ⟨u, hu, hsaid.symm⟩

/-! ## Signatures -/

/-- What the node has been seen with has been given to it. -/
theorem delivered_of_atNode (h : Run (step set) (.init chain store) ts t) {call : NodeCall}
    {u : State P V} (hu : u ∈ visited (.init chain store) ts) (hnode : u.AtNode set call) :
    ∃ params, set.params call = .ok params ∧ 0 < timesDelivered call.method params ts := by
  obtain ⟨as, bs, rfl, has⟩ := h.of_visited hu
  have hinit : ¬ (State.init chain store : State P V).AtNode set call := by
    rintro ⟨r, hphase, -⟩
    cases hphase
  obtain ⟨before, x, later, rfl, hpre, r, hphase, hmethod, hparams⟩ :=
    has.exists_change (P := fun s => s.AtNode set call) hinit hnode
  have hdelivery : Client.delivery x.pre.client x.post.client = some r := by
    refine Client.delivery_eq_some.mpr ⟨?_, hphase⟩
    have hsame : x.pre.client.phase ≠ .requesting r := fun hp => hpre ⟨r, hp, hmethod, hparams⟩
    rcases client_step has.split.2.1 with heq | ⟨ce, hce, -⟩
    · rw [← heq] at hsame
      exact absurd hphase hsame
    · exact ((Client.recv_of_requesting hce hphase).resolve_left hsame).1
  refine ⟨r.params, hparams, List.countP_pos_iff.mpr
    ⟨r, List.mem_filterMap.mpr ⟨x, by simp, hdelivery⟩, ?_⟩⟩
  simp [Client.Request.isCall, hmethod]

/-- A signature is answered only if the node has been given the transaction and has taken it. -/
theorem signature_if_taken (h : Run (step set) (.init chain store) ts t) {i : Nat} {data : String}
    {config : Option RpcSendTransactionConfig} {orders : IterOrders} {signature : String}
    {awaiting : Option Nat} {told : List Answered} {left : Bool}
    (hi : t.threads[i]? = some
      ⟨.request (.sendTransaction data config) orders, .done signature, awaiting, told, left⟩) :
    ∃ tx extrinsic hash, readTransaction set.txLib data (config.getD {}).encoding = .ok tx ∧
      firstSignature tx.signatures = .ok signature ∧
      (∃ u ∈ visited (.init chain store) ts, set.node (.runtime (.convertTransaction tx)
        (some (set.history.world u.time).best)) = .value extrinsic) ∧
      set.node (.authorSubmitExtrinsic ("0x" ++ Hex.encode extrinsic)) = .ok hash ∧
      ∃ params, set.params (.authorSubmitExtrinsic ("0x" ++ Hex.encode extrinsic)) = .ok params ∧
        0 < timesDelivered "author_submitExtrinsic" params ts := by
  have hsaid : ∀ call (a : call.Answer), ⟨.inl call, a⟩ ∈ told → ¬ call.Failed a →
      ∃ u ∈ visited (.init chain store) ts, u.Says set ⟨.inl call, a⟩ :=
    fun call a hmem hok => (heard_of_run h hi _ hmem).resolve_left hok
  obtain ⟨-, -, hnever⟩ | ⟨tx, extrinsic, hread, ⟨-, hnext⟩ | ⟨taken, rfl, -, hdone⟩⟩ :=
    sending_cases (dialogue_of_run h hi)
  · exact absurd rfl (hnever signature)
  · cases hnext
  · obtain ⟨⟨hash, rfl⟩, hsignature⟩ := hdone signature rfl
    obtain ⟨u, hu, hconverted, -⟩ := hsaid _ _ List.mem_cons_self (by rintro ⟨e, he⟩; cases he)
    obtain ⟨v, hv, htaken, hnode⟩ := hsaid (.authorSubmitExtrinsic _) (.ok hash)
      (List.mem_cons_of_mem _ List.mem_cons_self) (by rintro ⟨e, he⟩; cases he)
    exact ⟨tx, extrinsic, hash, hread, hsignature, ⟨u, hu, hconverted.symm⟩, htaken.symm,
      delivered_of_atNode h hv hnode⟩

end Submissions

/-! ## A transaction that is sent -/

def sendingSetting : Setting NodeCall Answered :=
  { plainSetting acceptingNode (.frozen .zero) false with txLib := emptyTransactionLib }

def sendEmpty : RpcSendTransactionConfig := { encoding := some .base64 }

/-- The request has come, and its transaction has been read. -/
def sendAccepted : State NodeCall Answered where
  time := 0
  client := .init
  subscriber := .init []
  received := 0
  store := .empty []
  threads := [{
    job := .request (.sendTransaction emptyTransactionData (some sendEmpty)) listedOrders
    prog := .ask (.inl (.runtime (.convertTransaction emptyTransaction) none)) fun answer =>
      (callNode (.ofExcept answer.toExcept) >>= fun extrinsic =>
        Solana.submit extrinsic (firstSignature emptyTransaction.signatures)).left
    awaiting := none
    told := []
    left := false }]

theorem step_sendAccepted : step sendingSetting (.init [] (.empty []))
    (.accept (.sendTransaction emptyTransactionData (some sendEmpty)) listedOrders) =
      some sendAccepted := by
  have hread : readTransaction emptyTransactionLib emptyTransactionData
      ((some sendEmpty).getD {}).encoding = .ok emptyTransaction := readTransaction_empty
  have hsend := sendTransaction_of_read hread
  have hstart : Thread.start sendingSetting
      (.request (.sendTransaction emptyTransactionData (some sendEmpty)) listedOrders) =
        { job := .request (.sendTransaction emptyTransactionData (some sendEmpty)) listedOrders
          prog := (sendTransaction emptyTransactionLib emptyTransactionData (some sendEmpty)).left
          awaiting := none
          told := []
          left := false } := rfl
  rw [step_accept, hstart, hsend]
  rfl

/-- The transaction is converted and submitted; before the first call the client task has to
make a connection. -/
def sendOnce : List (Event NodeCall Answered) :=
  [.ask 0] ++ connecting ++ exchange ++ [.reply 0, .ask 0] ++ exchange ++ [.reply 0]

def sendOnceRun : List (Step (State NodeCall Answered) (Event NodeCall Answered)) :=
  ⟨.init [] (.empty []), .accept (.sendTransaction emptyTransactionData (some sendEmpty)) listedOrders,
    sendAccepted⟩ :: trace (step sendingSetting) sendAccepted sendOnce

theorem run_sendOnce : Run (step sendingSetting) (.init [] (.empty [])) sendOnceRun
    (after sendAccepted (trace (step sendingSetting) sendAccepted sendOnce)) :=
  .cons step_sendAccepted (.of_trace _ sendOnce)

theorem submitted_once_one :
    let t := after sendAccepted (trace (step sendingSetting) sendAccepted sendOnce)
    let params : NodeCall := .authorSubmitExtrinsic "0x"
    timesDelivered "author_submitExtrinsic" params sendOnceRun ≤
        t.threads.countP (Thread.hasAsked (sendingSetting.isCall "author_submitExtrinsic" params)) ∧
      ∀ thread ∈ t.threads,
        thread.hasAsked (sendingSetting.isCall "author_submitExtrinsic" params) →
          ∃ extrinsic, sendingSetting.params
              (.authorSubmitExtrinsic ("0x" ++ Hex.encode extrinsic)) = .ok params ∧
            thread.Sends sendingSetting (visited (.init [] (.empty [])) sendOnceRun) extrinsic :=
  submitted_once run_sendOnce (.authorSubmitExtrinsic "0x")

set_option maxRecDepth 4000 in
/-- The signature is answered. -/
theorem signature_after_sending :
    let t := after sendAccepted (trace (step sendingSetting) sendAccepted sendOnce)
    ∃ signature told, t.threads[0]? = some
        ⟨.request (.sendTransaction emptyTransactionData (some sendEmpty)) listedOrders,
          .done signature, none, told, false⟩ ∧
      ∃ tx extrinsic hash,
        readTransaction emptyTransactionLib emptyTransactionData sendEmpty.encoding = .ok tx ∧
        firstSignature tx.signatures = .ok signature ∧
        (∃ u ∈ visited (.init [] (.empty [])) sendOnceRun,
          acceptingNode (.runtime (.convertTransaction tx)
            (some (sendingSetting.history.world u.time).best)) = .value extrinsic) ∧
        acceptingNode (.authorSubmitExtrinsic ("0x" ++ Hex.encode extrinsic)) = .ok hash ∧
        ∃ params, sendingSetting.params (.authorSubmitExtrinsic ("0x" ++ Hex.encode extrinsic)) =
            .ok params ∧
          0 < timesDelivered "author_submitExtrinsic" params sendOnceRun :=
  ⟨_, _, rfl, signature_if_taken (i := 0) run_sendOnce rfl⟩

end Sidecar

-- SUMMARY: Once nothing new comes in, the sidecar comes to rest with every request answered, whatever the node brings and whoever leaves.
import NoirSidecar.Base.Rest
import NoirSidecar.Client.Shutdown
import NoirSidecar.System.Threads

/-!
# The sidecar at rest

Without new requests and events there is only so much work: a payload makes one update, a
thread has finitely many questions left, and the client task finitely many steps to take for
each, however often it loses its connection. A thread could still be left waiting for ever, at
a channel that nobody sends on or drops. That no channel is another thread's, and that only a
thread that waits no longer drops its receiver, rules this out.
-/

namespace Sidecar

open Client (ClientError)

variable {P V : Type}

/-- The work there is, and callers that leave. -/
def Event.Working : Event P V → Prop
  | .client e => e.isTask
  | .answer _ | .ask _ | .reply _ | .lookUp _ | .leave _ => True
  | .tick | .subscriber _ | .receive | .accept .. => False

/-- Besides it, payloads that have been sent are received, and connections are lost. -/
def Event.Inside : Event P V → Prop
  | .receive | .client .disconnect => True
  | e => e.Working

/-! ## Threads have only so much to do -/

/-- A thread is told something, or starts to wait, or leaves. -/
inductive Moved : Thread → Thread → Prop where
  | gone (thread : Thread) (present : thread.left = false) : Moved { thread with left := true } thread
  | asked (thread : Thread) (channel : Nat) (present : thread.left = false)
      (idle : thread.awaiting = none) : Moved { thread with awaiting := some channel } thread
  | told (thread : Thread) (q : NodeCall ⊕ Index.Call)
      (k : Sum.elim NodeCall.Answer Index.Call.Answer q →
        Index.IndexProg thread.job.Error thread.job.Reply)
      (a : Sum.elim NodeCall.Answer Index.Call.Answer q) (present : thread.left = false)
      (prog : thread.prog = .ask q k) : Moved (thread.tell k a) thread

theorem ThreadStep.moved {set : Setting P V} {s s' : State P V} {thread thread' : Thread}
    (h : ThreadStep set s s' thread thread') (present : thread.left = false) :
    Moved thread' thread := by
  cases h with
  | gone => exact .gone thread present
  | asked call k params hprog hidle => exact .asked thread _ present hidle
  | told q k a hprog => exact .told thread q k a present hprog

theorem acc_moved (thread : Thread) : Acc Moved thread := by
  refine Runner.acc_of_goes (ε := Job.Error) (α := Job.Reply) Thread.job
    (fun thread => ⟨thread.prog, thread.awaiting, thread.left⟩) (fun thread' thread hmoved => ?_) thread
  cases hmoved with
  | gone _ present => exact ⟨_, .gone _ present, rfl⟩
  | asked _ channel present idle => exact ⟨_, .asked _ channel present idle, rfl⟩
  | told _ q k a present hprog => exact ⟨_, .told _ q k a present hprog, rfl⟩

/-! ## Work -/

/-- A payload starts threads, which move, and in between the client task does. -/
def Less : Nat × List Thread × Nat → Nat × List Thread × Nat → Prop :=
  Prod.Lex (· < ·) (Prod.Lex (OneLess Moved) (· < ·))

/-- The payloads the index task has not received. -/
def State.pending (s : State P V) : Nat :=
  (EventSubscriber.sentTo 0 s.subscriber.pushed).length - s.received

/-- A step of the client task may make a connection, so it counts twice. -/
def clientWork (client : Client.State P V) : Nat :=
  2 * (3 * client.weight + client.phase.distance) + if client.connected then 1 else 0

def State.work (s : State P V) : Nat × List Thread × Nat :=
  (s.pending, s.threads, clientWork s.client)

theorem acc_less (x : Nat × List Thread × Nat) : Acc Less x := by
  refine Prod.lexAccessible (Nat.lt_wfRel.wf.apply x.1) (fun y => ?_) x.2
  exact Prod.lexAccessible (acc_oneLess fun thread _ => acc_moved thread) Nat.lt_wfRel.wf.apply y.2

section Steps

variable [ToString P] {set : Setting P V} {s s' : State P V} {e : Event P V}

theorem clientWork_lt {installable : Bool} {client client' : Client.State P V}
    {e : Client.Event P V} (h : Client.step installable client e = some client')
    (he : e = .disconnect ∨ e.isTask) : clientWork client' < clientWork client := by
  rcases he with rfl | he
  · obtain ⟨hconnected, rfl⟩ := Client.step_disconnect.mp h
    have hlost : Client.State.connected { client with client := some ⟨false⟩ } = false := rfl
    have hsame : ({ client with client := some ⟨false⟩ } : Client.State P V).weight = client.weight := rfl
    unfold clientWork
    rw [hconnected, hlost, hsame]
    simp
  · have hlt := Client.task_step_lt h he
    unfold clientWork
    split <;> split <;> omega

omit [ToString P] in
theorem less_of_moved {i : Nat} {thread thread' : Thread} {n n' : Nat}
    (hi : s.present i = some thread) (hmoved : thread.left = false → Moved thread' thread) :
    Less (s.pending, s.threads.set i thread', n') (s.pending, s.threads, n) := by
  obtain ⟨hget, hpresent⟩ := present_eq_some hi
  exact .right _ (.left _ _ ⟨i, thread, thread', hget, hmoved hpresent, rfl⟩)

theorem work_step (h : step set s e = some s') (he : e.Inside) : Less s'.work s.work := by
  cases e with
  | client ce =>
    obtain ⟨-, client, hclient, rfl⟩ := step_client.mp h
    refine .right _ (.right _ (clientWork_lt hclient ?_))
    cases ce with
    | disconnect => exact .inl rfl
    | _ => exact .inr he
  | answer failure =>
    obtain ⟨r, client, -, hclient, rfl⟩ := step_answer.mp h
    exact .right _ (.right _ (clientWork_lt hclient (.inr rfl)))
  | ask i =>
    obtain ⟨thread, client, thread', hi, hask, rfl⟩ := step_ask.mp h
    have hmoved : ThreadStep set s { s with client := client } thread thread' := threadStep_ask hask
    exact less_of_moved hi hmoved.moved
  | reply i =>
    obtain ⟨thread, thread', hi, hreply, rfl⟩ := step_reply.mp h
    have hmoved : ThreadStep set s s thread thread' := threadStep_reply hreply
    exact less_of_moved hi hmoved.moved
  | lookUp i =>
    obtain ⟨thread, store, thread', hi, hlookUp, rfl⟩ := step_lookUp.mp h
    have hmoved : ThreadStep set s { s with store := store } thread thread' :=
      threadStep_lookUp hlookUp
    exact less_of_moved hi hmoved.moved
  | leave i =>
    obtain ⟨thread, client, thread', hi, hleave, rfl⟩ := step_leave.mp h
    obtain ⟨rfl, -⟩ := leave_eq hleave
    exact less_of_moved hi (.gone thread)
  | receive =>
    obtain ⟨-, payload, hnext, rfl⟩ := step_receive.mp h
    obtain ⟨hlt, -⟩ := List.getElem?_eq_some_iff.mp hnext
    exact .left _ _ (Nat.sub_lt_sub_left hlt (Nat.lt_succ_self _))
  | tick => cases he
  | subscriber se => cases he
  | accept r orders => cases he

end Steps

/-! ## Threads that wait -/

/-- A thread that waits has asked the node. The channel it waits at is its own, and as long
as it waits there is a receiver. -/
structure Waiting (s : State P V) : Prop where
  made : ∀ (i : Nat) (thread : Thread) channel, s.threads[i]? = some thread →
    thread.awaiting = some channel → channel < s.client.calls
  asking : ∀ (i : Nat) (thread : Thread) channel, s.threads[i]? = some thread →
    thread.awaiting = some channel → ∃ call k, thread.prog = .ask (.inl call) k
  distinct : ∀ (i j : Nat) (thread thread' : Thread) channel, s.threads[i]? = some thread →
    s.threads[j]? = some thread' → thread.awaiting = some channel →
    thread'.awaiting = some channel → i = j
  gone : ∀ channel ∈ s.client.gone, channel < s.client.calls
  kept : ∀ (i : Nat) (thread : Thread) channel, s.present i = some thread →
    thread.awaiting = some channel → channel ∉ s.client.gone

theorem waiting_init (chain : List Block) (store : Index.Db) :
    Waiting (State.init chain store : State P V) := by
  constructor <;> simp [State.init, State.present, Client.State.init]

section Waiting

variable [ToString P] {set : Setting P V} {s s' : State P V} {e : Event P V}

theorem calls_le (h : step set s e = some s') : s.client.calls ≤ s'.client.calls := by
  rcases client_step h with hsame | ⟨ce, hce, -⟩
  · rw [hsame]
  · rcases Client.calls_step hce with hsame | ⟨_, _, -, hnext⟩ <;> omega

/-- A receiver goes only when the thread that waits at it leaves. -/
theorem gone_step (h : step set s e = some s') : s'.client.gone = s.client.gone ∨
    ∃ i thread channel, s.present i = some thread ∧ thread.awaiting = some channel ∧
      s'.threads = s.threads.set i { thread with left := true } ∧
      s'.client.gone = channel :: s.client.gone := by
  cases e with
  | tick =>
    obtain rfl := step_tick.mp h
    exact .inl rfl
  | client ce =>
    obtain ⟨halone, client, hclient, rfl⟩ := step_client.mp h
    obtain ⟨hsame | ⟨call, rfl, -⟩, -⟩ := Client.around_step hclient
    · exact .inl hsame
    · cases halone
  | answer failure =>
    obtain ⟨r, client, -, hclient, rfl⟩ := step_answer.mp h
    obtain ⟨hsame | ⟨call, heq, -⟩, -⟩ := Client.around_step hclient
    · exact .inl hsame
    · cases heq
  | subscriber se =>
    obtain ⟨subscriber, -, rfl⟩ := step_subscriber.mp h
    exact .inl rfl
  | receive =>
    obtain ⟨-, payload, -, rfl⟩ := step_receive.mp h
    exact .inl rfl
  | accept r orders =>
    obtain rfl := step_accept.mp h
    exact .inl rfl
  | ask i =>
    obtain ⟨thread, client, thread', -, hask, rfl⟩ := step_ask.mp h
    rcases client_ask hask with rfl | ⟨method, params, rfl⟩
    · exact .inl rfl
    · exact .inl (s.client.submit_gone method params)
  | reply i =>
    obtain ⟨thread, thread', -, -, rfl⟩ := step_reply.mp h
    exact .inl rfl
  | lookUp i =>
    obtain ⟨thread, store, thread', -, -, rfl⟩ := step_lookUp.mp h
    exact .inl rfl
  | leave i =>
    obtain ⟨thread, client, thread', hi, hleave, rfl⟩ := step_leave.mp h
    obtain ⟨rfl, rfl | ⟨channel, hawaiting, hcancel⟩⟩ := leave_eq hleave
    · exact .inl rfl
    · obtain ⟨-, rfl⟩ := Client.step_cancel.mp hcancel
      exact .inr ⟨i, thread, channel, hi, hawaiting, rfl, rfl⟩

/-- A thread that waits after a step has waited before it at the same channel, with the same
question, or its channel is new. -/
theorem waits_step (h : step set s e = some s') {i : Nat} {thread' : Thread} {channel : Nat}
    (hi' : s'.threads[i]? = some thread') (hawaiting : thread'.awaiting = some channel) :
    (∃ thread, s.threads[i]? = some thread ∧ thread.awaiting = some channel ∧
        (thread'.left = false → thread.left = false) ∧
        ((∃ call k, thread.prog = .ask (.inl call) k) → ∃ call k, thread'.prog = .ask (.inl call) k)) ∨
      channel = s.client.calls ∧ s.client.calls < s'.client.calls ∧
        ∃ call k, thread'.prog = .ask (.inl call) k := by
  cases hi : s.threads[i]? with
  | none =>
    obtain ⟨-, hstart⟩ := begins_of_step h hi hi'
    rw [hstart] at hawaiting
    cases hawaiting
  | some thread =>
    obtain ⟨thread'', hi'', hthread⟩ := thread_step h hi
    rw [hi'] at hi''
    cases hi''
    rcases hthread with rfl | hthread
    · exact .inl ⟨thread', rfl, hawaiting, id, id⟩
    cases hthread with
    | gone => exact .inl ⟨thread, rfl, hawaiting, by simp, id⟩
    | asked call k params hprog hidle halive hwritten hclient =>
      cases hawaiting
      refine .inr ⟨rfl, ?_, call, k, hprog⟩
      rw [hclient, Client.State.submit_calls]
      exact Nat.lt_succ_self _
    | told => cases hawaiting

/-- Only one thread at a time starts to wait. -/
theorem eq_of_new (h : step set s e = some s') (hwaiting : Waiting s) {i j : Nat}
    {thread thread' : Thread} (hi : s'.threads[i]? = some thread)
    (hj : s'.threads[j]? = some thread') (hinew : thread.awaiting = some s.client.calls)
    (hjnew : thread'.awaiting = some s.client.calls) : i = j := by
  -- the channel is new, so nobody waited at it before the step
  have hold : ∀ (i : Nat) (thread : Thread), s.threads[i]? = some thread →
      thread.awaiting ≠ some s.client.calls :=
    fun i thread hi hnew => Nat.lt_irrefl _ (hwaiting.made i thread _ hi hnew)
  -- threads that are started wait for nothing, which leaves the one that moved
  rcases threads_step h with ⟨jobs, heq, -⟩ | ⟨k, old, new, -, heq, -⟩
  · rw [heq, List.getElem?_append] at hi
    split at hi
    · exact absurd hinew (hold i thread hi)
    · obtain ⟨job, -, rfl⟩ := List.mem_map.mp (List.mem_of_getElem? hi)
      cases hinew
  · have hmoved : ∀ (i : Nat) (thread : Thread), s'.threads[i]? = some thread →
        thread.awaiting = some s.client.calls → k = i := by
      intro i thread hi hnew
      by_contra hne
      rw [heq, List.getElem?_set_ne hne] at hi
      exact hold i thread hi hnew
    exact (hmoved i thread hi hinew).symm.trans (hmoved j thread' hj hjnew)

theorem waiting_step (h : step set s e = some s') (hwaiting : Waiting s) : Waiting s' := by
  have hcalls := calls_le h
  refine ⟨?_, ?_, ?_, ?_, ?_⟩
  · intro i thread' channel hi' hawaiting
    rcases waits_step h hi' hawaiting with ⟨thread, hi, hold, -⟩ | ⟨rfl, hlt, -⟩
    · exact Nat.lt_of_lt_of_le (hwaiting.made i thread channel hi hold) hcalls
    · exact hlt
  · intro i thread' channel hi' hawaiting
    rcases waits_step h hi' hawaiting with ⟨thread, hi, hold, -, hprog⟩ | ⟨-, -, hprog⟩
    · exact hprog (hwaiting.asking i thread channel hi hold)
    · exact hprog
  · intro i j thread thread' channel hi hj hithread hjthread
    -- old channels are told apart as before, and the new one is one thread's
    rcases waits_step h hi hithread with ⟨old, hold, holdi, -⟩ | ⟨rfl, -⟩
    · rcases waits_step h hj hjthread with ⟨old', hold', holdj, -⟩ | ⟨rfl, -⟩
      · exact hwaiting.distinct i j old old' channel hold hold' holdi holdj
      · exact absurd (hwaiting.made i old _ hold holdi) (Nat.lt_irrefl _)
    · exact eq_of_new h hwaiting hi hj hithread hjthread
  · intro channel hgone
    rcases gone_step h with hsame | ⟨i, thread, channel', hi, hawaiting, -, hcons⟩
    · rw [hsame] at hgone
      exact Nat.lt_of_lt_of_le (hwaiting.gone channel hgone) hcalls
    · rw [hcons] at hgone
      rcases List.mem_cons.mp hgone with rfl | hgone
      · exact Nat.lt_of_lt_of_le (hwaiting.made i thread _ (present_eq_some hi).1 hawaiting) hcalls
      · exact Nat.lt_of_lt_of_le (hwaiting.gone channel hgone) hcalls
  · intro i thread' channel hi' hawaiting hgone
    obtain ⟨hget', hleft'⟩ := present_eq_some hi'
    -- a receiver that goes in this step is another thread's
    have hgone' : channel ∈ s.client.gone ∨ ∃ j thread, s.threads[j]? = some thread ∧
        thread.awaiting = some channel ∧ j ≠ i := by
      rcases gone_step h with hsame | ⟨j, thread, channel', hj, hwaits, heq, hcons⟩
      · exact .inl (hsame ▸ hgone)
      · rw [hcons] at hgone
        rcases List.mem_cons.mp hgone with rfl | hgone
        · refine .inr ⟨j, thread, (present_eq_some hj).1, hwaits, ?_⟩
          rintro rfl
          obtain ⟨hlt, -⟩ := List.getElem?_eq_some_iff.mp (present_eq_some hj).1
          rw [heq, List.getElem?_set_self hlt] at hget'
          cases hget'
          cases hleft'
        · exact .inl hgone
    rcases waits_step h hget' hawaiting with ⟨thread, hi, hold, hleft, -⟩ | ⟨rfl, -⟩
    · rcases hgone' with hgone | ⟨j, old, hj, hwaits, hne⟩
      · exact hwaiting.kept i thread channel (present_of_left hi (hleft hleft')) hold hgone
      · exact hne (hwaiting.distinct j i old thread channel hj hi hwaits hold)
    · rcases hgone' with hgone | ⟨j, old, hj, hwaits, -⟩
      · exact absurd (hwaiting.gone _ hgone) (Nat.lt_irrefl _)
      · exact absurd (hwaiting.made j old _ hj hwaits) (Nat.lt_irrefl _)

end Waiting

/-! ## Rest -/

section Rest

variable [ToString P] {set : Setting P V} {chain : List Block} {store : Index.Db}
  {ts us : List (Step (State P V) (Event P V))} {t t' : State P V}

theorem waiting_of_run (h : Run (step set) (.init chain store) ts t) : Waiting t :=
  (h.invariant (fun _ _ _ => waiting_step) (waiting_init chain store)).1

/-- Where the sidecar is at rest, the client task is. -/
theorem client_rest (hrest : AtRest (step set) Event.Working t) :
    ∀ e, e.isTask → Client.step set.installable t.client e = none := by
  intro e he
  by_cases halone : alone e
  · have hnone := hrest (.client e) he
    simpa [step, halone] using hnone
  · cases e with
    | answer response =>
      cases hp : t.client.phase with
      | requesting r =>
        have hnone := hrest (.answer none) trivial
        simp only [step, hp, Option.map_eq_none_iff, Client.step] at hnone
        split at hnone
        · cases hnone
        · cases hnone
      | _ => simp [Client.step, hp]
    | submit => cases he
    | cancel => cases he
    | _ => exact absurd rfl halone

/-- A thread that has a question can take a step, sooner or later. -/
theorem done_of_rest (h : Run (step set) (.init chain store) ts t)
    (hrest : AtRest (step set) Event.Working t)
    (hsignal : set.installable = false ∨ t.client.signal = true) {i : Nat} {thread : Thread}
    (hi : t.present i = some thread) : ∃ o, thread.prog = .ofOutcome o := by
  have hstuck : ∀ e s', e.Working → step set t e ≠ some s' := by
    intro e s' he hstep
    rw [hrest e he] at hstep
    cases hstep
  have hwaiting := waiting_of_run h
  obtain ⟨cs, hclient, -⟩ := client_run h
  have htold := Client.told_at_rest hclient (client_rest hrest) hsignal
  cases hprog : thread.prog with
  | done a => exact ⟨.ok a, rfl⟩
  | fail e => exact ⟨.error e, rfl⟩
  | panic => exact ⟨.panicked, rfl⟩
  | ask q k =>
    exfalso
    cases q with
    | inr call =>
      exact hstuck (.lookUp i) _ trivial
        (step_lookUp.mpr ⟨thread, _, _, hi, lookUp_of_answer hprog rfl, rfl⟩)
    | inl call =>
      cases hawaiting : thread.awaiting with
      | none =>
        have hcan : ∃ client thread', ask set t thread = some (client, thread') :=
          exists_ask hprog hawaiting
        obtain ⟨client, thread', hask⟩ := hcan
        exact hstuck (.ask i) _ trivial (step_ask.mpr ⟨thread, client, thread', hi, hask, rfl⟩)
      | some channel =>
        have hmade := hwaiting.made i thread channel (present_eq_some hi).1 hawaiting
        have hcan : ∃ thread', reply set t thread = some thread' := exists_reply hprog hawaiting
          (htold channel hmade (hwaiting.kept i thread channel hi hawaiting))
        obtain ⟨thread', hreply⟩ := hcan
        exact hstuck (.reply i) _ trivial (step_reply.mpr ⟨thread, thread', hi, hreply, rfl⟩)

end Rest

/-! ## Two callers -/

def steadySetting : Setting NodeCall Answered :=
  plainSetting Chain.steadyNode (.frozen .zero) false

end Sidecar

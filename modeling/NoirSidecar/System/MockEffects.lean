-- SUMMARY: Whatever runs beside it, a transaction or an airdrop given to the mock is carried out once if its caller has a result, and never twice.
import NoirSidecar.Rpc.WireText
import NoirSidecar.System.MockTurns
import Mathlib.Data.List.Perm.Subperm
import Mathlib.Tactic.IntervalCases

/-!
# Effects of the mock

Callers come and go, results are lost with the queue, and what changes the virtual machine is
an entry of a queue that no longer says who put it there. Still the changes are those of the
requests: each comes from one of them, a request is good for one change, and a request with a
result has had its.
-/

namespace MockSidecar

open LiteSVM MockSolana Solana

variable {T : Types} {σ : Type} {set : Setting T σ} {s s' t : State σ} {e : Event} {s₀ : σ}
  {ts : List (Step (State σ) Event)} {thread thread' : Thread}

/-! ## What a method asks -/

/-- A value that is written is read back. -/
def ReadsBack (bincode : Bincode T) {t : WireType} (v : t.Val T) : Prop :=
  ∀ bytes, bincode.serialize t v = .ok bytes → bincode.deserialize t bytes = .ok v

/-- What changes the virtual machine is read back: the transactions that can be read from a
text, and airdrops. -/
structure Faithful (set : Setting T σ) : Prop where
  transaction : ∀ data encoding tx, readTransaction set.txLib data encoding = .ok tx →
    ReadsBack set.bincode (t := .versionedTransaction) tx
  airdrop : ∀ pubkey lamports, ReadsBack set.bincode (t := .pair .pubkey .u64) (pubkey, lamports)

/-- A call that stands for no operation. -/
def Harmless (bincode : Bincode T) : Sent → Prop
  | .inl call => ∀ channel, operation bincode (put call channel) = none
  | .inr _ => True

/-- The program makes one call, which stands for the operation. -/
def Performs (bincode : Bincode T) (op : Operation) {α : Type}
    (p : Prog Sent Sent.Answer ErrorObject α) : Prop :=
  ∃ call k, p = .ask (.inl call) k ∧ (∀ channel, operation bincode (put call channel) = some op) ∧
    ∀ a, (k a).Asks fun _ => False

theorem Performs.bind {op : Operation} {α β : Type} {p : Prog Sent Sent.Answer ErrorObject α}
    {f : α → Prog Sent Sent.Answer ErrorObject β} (hp : Performs set.bincode op p)
    (hf : ∀ a, (f a).Asks fun _ => False) : Performs set.bincode op (p >>= f) := by
  obtain ⟨call, k, rfl, hop, hk⟩ := hp
  exact ⟨call, fun a => k a >>= f, rfl, hop, fun a => (hk a).bind hf⟩

theorem harmless_lower {q : Question} (hq : q.Reads) :
    (q.lower set.bincode).Asks (Harmless set.bincode) := by
  refine asks_lower q (fun call params hcall channel => ?_) trivial
  subst hcall
  cases call with
  | sendTransaction tx => exact hq.elim
  | requestAirdrop pubkey lamports => exact hq.elim
  | _ => exact operation_eq_none (by simp [put, Call.method]) (by simp [put, Call.method])

/-- A call that can be written performs the operation its bytes stand for, if nothing is asked
after it. -/
theorem performs_call {call : Call} {op : Operation} {α : Type} {f : call.Result.Val T → MethodProg T α}
    (hop : ∀ params, set.bincode.serialize call.Param call.params = .ok params →
      ∀ channel, operation set.bincode ⟨call.method, params, some channel⟩ = some op)
    (hf : ∀ a, (f a).Asks fun _ => False) :
    Performs set.bincode op ((MockSolana.call call >>= f).through (Question.lower set.bincode)) ∨
      ∃ e, (MockSolana.call call >>= f).through (Question.lower set.bincode) = .fail e := by
  have hlower : Performs set.bincode op (Question.lower set.bincode (.execute call)) ∨
      ∃ e, Question.lower set.bincode (.execute call) = .fail e := by
    simp only [Question.lower, Call.execute, MockSolana.execute]
    cases hser : set.bincode.serialize call.Param call.params with
    | error e => exact .inr ⟨_, rfl⟩
    | ok params =>
      refine .inl ⟨_, _, rfl, hop params hser, fun answer => ?_⟩
      exact Prog.Asks.left ((asks_result call answer).mono fun _ hfalse => hfalse.elim)
  rcases hlower with hperforms | ⟨e, he⟩
  · exact .inl (hperforms.bind fun a => (hf a).through fun _ hfalse => hfalse.elim)
  · exact .inr ⟨e, congrArg (· >>= fun a => (f a).through (Question.lower set.bincode)) he⟩

/-- A transaction or an airdrop performs its operation, unless it cannot be written. Other
requests do no harm. -/
theorem method_cases (hset : Faithful set) (r : Request) (orders : IterOrders) :
    (∃ op, r.operation set.txLib = some op ∧
      (Performs set.bincode op (set.method r orders) ∨ ∃ e, set.method r orders = .fail e)) ∨
    r.operation set.txLib = none ∧ (set.method r orders).Asks (Harmless set.bincode) := by
  cases r with
  | sendTransaction data config =>
    simp only [Setting.method, respond, MockSolana.sendTransaction, Request.operation]
    cases hread : readTransaction set.txLib data (config.getD {}).encoding with
    | error e => exact .inr ⟨rfl, trivial⟩
    | ok tx =>
      refine .inl ⟨.sendTransaction tx, rfl, ?_⟩
      refine performs_call (fun params hser channel => ?_) fun result =>
        (Prog.asks_ofExcept _).bind fun _ => Prog.asks_pure _
      simp only [operation, Call.method]
      rw [hset.transaction data _ tx hread params hser]
      rfl
  | requestAirdrop pubkeyStr lamports =>
    simp only [Setting.method, respond, MockSolana.requestAirdrop, Request.operation]
    cases verifyPubkey pubkeyStr with
    | error e => exact .inr ⟨rfl, trivial⟩
    | ok pubkey =>
      refine .inl ⟨.airdrop pubkey lamports, rfl, ?_⟩
      refine performs_call (fun params hser channel => ?_)
        fun result => (Prog.asks_ofExcept _).bind fun _ => Prog.asks_pure _
      simp only [operation, Call.method]
      rw [hset.airdrop pubkey lamports params hser]
      rfl
  | _ =>
    refine .inr ⟨rfl, (reads_respond ?_).through fun q hq => harmless_lower hq⟩
    trivial

/-- A call that is asked stands for the operation of its request, and comes first if there is
one. -/
theorem operation_of_asking (hset : Faithful set) {r : Request} {orders : IterOrders}
    {told : List Answered} {call : ExecuteCall}
    {k : Except String SvmResult → Prog Sent Sent.Answer ErrorObject r.Value}
    (h : Prog.Dialogue (set.method r orders) told (.ask (.inl call) k)) (channel : Nat) :
    operation set.bincode (put call channel) = r.operation set.txLib ∧
      (r.operation set.txLib ≠ none → told = []) := by
  obtain ⟨op, hop, ⟨call', k', hmethod, hput, hend⟩ | ⟨e, he⟩⟩ | ⟨hnone, hharmless⟩ :=
    method_cases hset r orders
  · rw [hmethod] at h
    cases h with
    | nil => exact ⟨(hput channel).trans hop.symm, fun _ => rfl⟩
    | cons h => exact (h.asks (hend _)).2.1.elim
  · rw [he] at h
    cases h
  · refine ⟨?_, fun hsome => absurd hnone hsome⟩
    rw [hnone]
    exact (h.asks hharmless).2.1 channel

/-! ## Whose the queue is -/

/-- Each entry of the queue is for one thread, which waits for it. -/
structure Queued (s : State σ) : Prop where
  unnamed : ∀ r ∈ s.svm.queue, r.response = none → r = terminateSvm
  owned : ∀ r ∈ s.svm.queue, ∀ channel, r.response = some channel →
    ∃ (i : Nat) (thread : Thread), s.threads[i]? = some thread ∧ thread.awaiting = some channel
  alone : ∀ (i j : Nat) (thread thread' : Thread) channel, s.threads[i]? = some thread →
    s.threads[j]? = some thread' → thread.awaiting = some channel →
    thread'.awaiting = some channel → i = j
  once : (s.sent.filterMap SvmRequest.response).Nodup
  stopped : s.svm.running = false → s.svm.queue = []

theorem queued_init (s₀ : σ) : Queued (State.init s₀) := by
  constructor <;> simp [State.init, State.sent, State.received, Server.State.init]

/-- What has been answered does not wait. -/
theorem Queued.not_answered (h : Queued s) {r : SvmRequest} (hr : r ∈ s.svm.queue) {channel : Nat}
    (hresponse : r.response = some channel) : ∀ x ∈ s.svm.answered, x.1.response ≠ some channel := by
  intro x hx hanswered
  have honce := h.once
  rw [State.sent, List.filterMap_append, List.nodup_append'] at honce
  have hreceived : channel ∈ s.received.filterMap SvmRequest.response :=
    List.mem_filterMap.mpr ⟨x.1, List.mem_map_of_mem hx, hanswered⟩
  exact honce.2.2 hreceived (List.mem_filterMap.mpr ⟨r, hr, hresponse⟩)

/-- A thread that goes on waits for nothing in the queue any more. -/
theorem Queued.not_waiting (h : Queued s) (hmoves : Moves s thread thread')
    {r : SvmRequest} (hr : r ∈ s.svm.queue) {channel : Nat} (hresponse : r.response = some channel)
    (hawaiting : thread.awaiting = some channel) (hasking : ∃ call k, thread.prog = .ask (.inl call) k) :
    thread'.awaiting = some channel := by
  cases hmoves with
  | gone => exact hawaiting
  | looked k millis hprog =>
    obtain ⟨call, k', hprog'⟩ := hasking
    rw [hprog] at hprog'
    cases hprog'
  | refused call k e hprog hstopped =>
    rw [h.stopped hstopped] at hr
    cases hr
  | told call k channel' r' result hprog hwaits hmem hresponse' =>
    obtain rfl : channel' = channel := Option.some.inj (hwaits.symm.trans hawaiting)
    exact absurd hresponse' (h.not_answered hr hresponse _ hmem)

/-- Only one thread at a time starts to wait. -/
theorem waits_change (h : Change set s e s') {i channel : Nat} (hi' : s'.threads[i]? = some thread')
    (hawaiting : thread'.awaiting = some channel) :
    (∃ thread, s.threads[i]? = some thread ∧ thread.awaiting = some channel) ∨
      channel = s.channels ∧ e = .ask i := by
  cases h with
  | signalled => exact .inl ⟨thread', hi', hawaiting⟩
  | took => exact .inl ⟨thread', hi', hawaiting⟩
  | accepted r orders =>
    rw [List.getElem?_append] at hi'
    split at hi'
    · exact .inl ⟨thread', hi', hawaiting⟩
    · rw [List.mem_singleton.mp (List.mem_of_getElem? hi')] at hawaiting
      cases hawaiting
  | asked j old call k hold hprog hidle hrunning =>
    obtain ⟨hlt, -⟩ := List.getElem?_eq_some_iff.mp (present_eq_some hold).1
    by_cases hij : j = i
    · subst hij
      rw [List.getElem?_set_self hlt] at hi'
      cases hi'
      cases hawaiting
      exact .inr ⟨rfl, rfl⟩
    · rw [List.getElem?_set_ne hij] at hi'
      exact .inl ⟨thread', hi', hawaiting⟩
  | moved e j old new hold hmoves =>
    obtain ⟨hlt, -⟩ := List.getElem?_eq_some_iff.mp (present_eq_some hold).1
    by_cases hij : j = i
    · subst hij
      rw [List.getElem?_set_self hlt] at hi'
      cases hi'
      rw [hmoves.awaiting hawaiting] at hawaiting
      exact .inl ⟨old, (present_eq_some hold).1, hawaiting⟩
    · rw [List.getElem?_set_ne hij] at hi'
      exact .inl ⟨thread', hi', hawaiting⟩

/-- Who waits for an entry of the queue goes on waiting. -/
theorem still_waits (h : Change set s e s') (hchannels : Channels s) (hs : Queued s) {r : SvmRequest}
    (hr : r ∈ s.svm.queue) {channel : Nat} (hresponse : r.response = some channel) :
    ∃ (i : Nat) (thread : Thread), s'.threads[i]? = some thread ∧ thread.awaiting = some channel := by
  obtain ⟨i, thread, hi, hawaiting⟩ := hs.owned r hr channel hresponse
  obtain ⟨call, k, hprog, -⟩ := hchannels.asking i thread channel hi hawaiting
  obtain ⟨thread', hi', hthread⟩ := thread_after h hi
  refine ⟨i, thread', hi', ?_⟩
  cases hthread with
  | same => exact hawaiting
  | asked call k hprog hidle =>
    -- who waits cannot ask
    rw [hidle] at hawaiting
    cases hawaiting
  | moved thread' hsvm hsame hmoves =>
    exact hs.not_waiting hmoves hr hresponse hawaiting ⟨call, k, hprog⟩

/-- What a step puts into the queue and takes off it. -/
theorem queue_change (h : Change set s e s') (hs : Queued s) :
    (s'.svm.running = false → s'.svm.queue = []) ∧
    (s'.sent.Sublist s.sent ∧ s'.svm.queue ⊆ s.svm.queue ∨
      s'.sent = s.sent ++ [terminateSvm] ∧ s'.svm.queue = s.svm.queue ++ [terminateSvm] ∨
      ∃ (i : Nat) (thread : Thread) (call : ExecuteCall), s'.sent = s.sent ++ [put call s.channels] ∧
        s'.svm.queue = s.svm.queue ++ [put call s.channels] ∧
        s'.threads[i]? = some thread ∧ thread.awaiting = some s.channels) := by
  cases h with
  | signalled =>
    by_cases hrunning : s.svm.running
    · refine ⟨fun hstopped => ?_, .inr (.inl ⟨?_, ?_⟩)⟩
      · simp [State.send, hrunning] at hstopped
      · simp [State.sent, State.received, State.send, hrunning]
      · simp [State.send, hrunning]
    -- a loop that has stopped is not told again
    · have hsame : s.send terminateSvm = s.svm := if_neg hrunning
      refine ⟨fun hstopped => ?_, .inl ⟨?_, ?_⟩⟩
      · exact (congrArg Server.State.queue hsame).trans (hs.stopped (by simpa using hrunning))
      · simp [State.sent, State.received, hsame]
      · simp [hsame]
  | took r queue hrunning hhead =>
    obtain ⟨hlive, -, hqueue, hsent, -⟩ | ⟨hstopped, hreceived, hqueue⟩ := took_cases set hhead
    · refine ⟨fun hstopped => ?_, .inl ⟨hsent ▸ List.Sublist.refl _, ?_⟩⟩
      · rw [hlive, hrunning] at hstopped
        cases hstopped
      · rw [hqueue, hhead]
        exact List.subset_cons_self _ _
    -- what is left of the queue is lost
    · refine ⟨fun _ => hqueue, .inl ⟨?_, hqueue ▸ List.nil_subset _⟩⟩
      rw [State.sent, hreceived, hqueue, List.append_nil]
      exact List.sublist_append_left _ _
  | accepted => exact ⟨hs.stopped, .inl ⟨List.Sublist.refl _, List.Subset.refl _⟩⟩
  | asked i thread call k hi hprog hidle hrunning =>
    obtain ⟨hlt, -⟩ := List.getElem?_eq_some_iff.mp (present_eq_some hi).1
    refine ⟨fun hstopped => ?_, .inr (.inr ⟨i, _, call, ?_, rfl, List.getElem?_set_self hlt, rfl⟩)⟩
    · rw [hrunning] at hstopped
      cases hstopped
    · simp [State.sent, State.received]
  | moved => exact ⟨hs.stopped, .inl ⟨List.Sublist.refl _, List.Subset.refl _⟩⟩

theorem queued_change (h : Change set s e s') (hchannels : Channels s) (hs : Queued s) : Queued s' := by
  obtain ⟨hstopped, hqueue⟩ := queue_change h hs
  refine ⟨?_, ?_, ?_, ?_, hstopped⟩
  · intro r hr hnone
    rcases hqueue with ⟨-, hsub⟩ | ⟨-, heq⟩ | ⟨i, thread, call, -, heq, -⟩
    · exact hs.unnamed r (hsub hr) hnone
    · rw [heq] at hr
      rcases List.mem_append.mp hr with hr | hr
      · exact hs.unnamed r hr hnone
      · exact List.mem_singleton.mp hr
    · rw [heq] at hr
      rcases List.mem_append.mp hr with hr | hr
      · exact hs.unnamed r hr hnone
      · rw [List.mem_singleton.mp hr] at hnone
        cases hnone
  · intro r hr channel hresponse
    rcases hqueue with ⟨-, hsub⟩ | ⟨-, heq⟩ | ⟨i, thread, call, -, heq, hi, hawaiting⟩
    · exact still_waits h hchannels hs (hsub hr) hresponse
    · rw [heq] at hr
      rcases List.mem_append.mp hr with hr | hr
      · exact still_waits h hchannels hs hr hresponse
      · rw [List.mem_singleton.mp hr] at hresponse
        cases hresponse
    · rw [heq] at hr
      rcases List.mem_append.mp hr with hr | hr
      · exact still_waits h hchannels hs hr hresponse
      · rw [List.mem_singleton.mp hr] at hresponse
        cases hresponse
        exact ⟨i, thread, hi, hawaiting⟩
  · intro i j thread thread' channel hi hj hawaiting hawaiting'
    rcases waits_change h hi hawaiting with ⟨old, hold, hwaits⟩ | ⟨rfl, he⟩
    · rcases waits_change h hj hawaiting' with ⟨old', hold', hwaits'⟩ | ⟨rfl, -⟩
      · exact hs.alone i j old old' channel hold hold' hwaits hwaits'
      · exact absurd (hchannels.made i old _ hold hwaits) (Nat.lt_irrefl _)
    · rcases waits_change h hj hawaiting' with ⟨old', hold', hwaits'⟩ | ⟨-, he'⟩
      · exact absurd (hchannels.made j old' _ hold' hwaits') (Nat.lt_irrefl _)
      · cases he.symm.trans he'
        rfl
  · rcases hqueue with ⟨hsub, -⟩ | ⟨heq, -⟩ | ⟨i, thread, call, heq, -⟩
    · exact hs.once.sublist (hsub.filterMap _)
    · rw [heq, List.filterMap_append]
      simpa [terminateSvm] using hs.once
    · have hfresh : s.channels ∉ s.sent.filterMap SvmRequest.response := by
        intro hmem
        obtain ⟨r, hr, hresponse⟩ := List.mem_filterMap.mp hmem
        exact Nat.lt_irrefl _ (hchannels.numbered r hr _ hresponse)
      have hlast : [put call s.channels].filterMap SvmRequest.response = [s.channels] := rfl
      rw [heq, List.filterMap_append, hlast]
      exact hs.once.append (List.nodup_singleton _) (List.disjoint_singleton.mpr hfresh)

theorem queued_of_run (h : Run (step set) (.init s₀) ts t) : Queued t :=
  (h.invariant (I := fun s => Channels s ∧ Queued s) (fun _ _ _ hstep hs =>
    ⟨channels_change (change_of_step hstep) hs.1, queued_change (change_of_step hstep) hs.1 hs.2⟩)
    ⟨channels_init s₀, queued_init s₀⟩).1.2

/-! ## What has been carried out -/

/-- An answer from the loop, and not that there is none. -/
def fromLoop : Answered → Bool
  | ⟨.inl _, a⟩ => Except.isOk a
  | ⟨.inr _, _⟩ => false

/-- The loop has handled a call of the thread. -/
def Thread.served (received : List SvmRequest) (thread : Thread) : Bool :=
  thread.told.any fromLoop ||
    thread.awaiting.any fun channel => received.any fun r => r.response == some channel

theorem served_append (received : List SvmRequest) (r : SvmRequest) (thread : Thread) :
    thread.served (received ++ [r]) =
      (thread.served received || thread.awaiting.any fun channel => r.response == some channel) := by
  cases hawaiting : thread.awaiting <;> simp [Thread.served, hawaiting, Bool.or_assoc]

/-- A thread waits for nothing, or at a channel nobody has answered. -/
theorem served_eq_told {received : List SvmRequest}
    (h : ∀ channel, thread.awaiting = some channel → ∀ r ∈ received, r.response ≠ some channel) :
    thread.served received = thread.told.any fromLoop := by
  cases hawaiting : thread.awaiting with
  | none => simp [Thread.served, hawaiting]
  | some channel =>
    have hnone : (received.any fun r => r.response == some channel) = false := by
      simpa using h channel hawaiting
    simp [Thread.served, hawaiting, hnone]

/-- Whether a thread gets its result does not change whether it has been served. -/
theorem served_moved (hchannels : Channels s) {i : Nat} (hi : s.threads[i]? = some thread)
    (hmoves : Moves s thread thread') : thread'.served s.received = thread.served s.received := by
  cases hmoves with
  | gone => rfl
  | looked k millis hprog =>
    have hidle : thread.awaiting = none := by
      by_contra hne
      obtain ⟨channel, hawaiting⟩ := Option.ne_none_iff_exists'.mp hne
      obtain ⟨call, k', hprog', -⟩ := hchannels.asking i thread channel hi hawaiting
      rw [hprog] at hprog'
      cases hprog'
    simp [Thread.served, Thread.tell, hidle, fromLoop]
  | refused call k e hprog hstopped hunanswered =>
    have hlost : ∀ channel, thread.awaiting = some channel →
        ∀ r ∈ s.received, r.response ≠ some channel := by
      intro channel hawaiting r hr
      obtain ⟨x, hx, rfl⟩ := List.mem_map.mp hr
      exact hunanswered channel hawaiting x hx
    rw [served_eq_told hlost]
    simp [Thread.served, Thread.tell, fromLoop, Except.isOk, Except.toBool]
  | told call k channel r result hprog hawaiting hmem hresponse =>
    have hreceived : (s.received.any fun r => r.response == some channel) = true :=
      List.any_eq_true.mpr ⟨r, List.mem_map_of_mem hmem, by simp [hresponse]⟩
    simp [Thread.served, Thread.tell, fromLoop, Except.isOk, Except.toBool, hawaiting, hreceived]

/-- The thread has had its operation carried out. -/
def Thread.counts (set : Setting T σ) (op : Operation) (received : List SvmRequest)
    (thread : Thread) : Bool :=
  thread.request.operation set.txLib == some op && thread.served received

/-- As many changes of a kind as there are threads that have been served with one. -/
def Matched (set : Setting T σ) (s : State σ) : Prop :=
  ∀ op, (s.received.filterMap (operation set.bincode)).count op =
    s.threads.countP (Thread.counts set op s.received)

/-- The loop serves the thread whose call it takes, and no other. -/
theorem countP_took (hset : Faithful set) (hchannels : Channels s) (hs : Queued s)
    (hdialogue : ∀ (i : Nat) (thread : Thread), s.threads[i]? = some thread →
      Prog.Dialogue (set.method thread.request thread.orders) thread.told thread.prog)
    {r : SvmRequest} (hr : r ∈ s.svm.queue) (hne : r ≠ terminateSvm) (op : Operation) :
    s.threads.countP (Thread.counts set op (s.received ++ [r])) =
      s.threads.countP (Thread.counts set op s.received) +
        if operation set.bincode r == some op then 1 else 0 := by
  obtain ⟨channel, hresponse⟩ :=
    Option.ne_none_iff_exists'.mp fun hnone => hne (hs.unnamed r hr hnone)
  obtain ⟨i, thread, hi, hawaiting⟩ := hs.owned r hr channel hresponse
  obtain ⟨call, k, hprog, hown, -⟩ := hchannels.asking i thread channel hi hawaiting
  obtain rfl := hown r (List.mem_append_right _ hr) hresponse
  have hasking := hdialogue i thread hi
  rw [hprog] at hasking
  obtain ⟨hop, hfirst⟩ := operation_of_asking hset hasking channel
  -- its operation, if there is one, was still to be carried out
  have hunserved : thread.counts set op s.received = false := by
    by_cases hnone : thread.request.operation set.txLib = none
    · simp [Thread.counts, hnone]
    · have hwaits : thread.served s.received = thread.told.any fromLoop := by
        refine served_eq_told fun channel' hawaiting' r' hr' => ?_
        obtain ⟨x, hx, rfl⟩ := List.mem_map.mp hr'
        obtain rfl := Option.some.inj (hawaiting.symm.trans hawaiting')
        exact hs.not_answered hr hresponse x hx
      simp [Thread.counts, hwaits, hfirst hnone]
  have hmap : s.threads.map (Thread.counts set op (s.received ++ [put call channel])) =
      (s.threads.map (Thread.counts set op s.received)).set i
        (operation set.bincode (put call channel) == some op) := by
    refine List.ext_getElem? fun j => ?_
    by_cases hij : i = j
    · subst hij
      obtain ⟨hlt, -⟩ := List.getElem?_eq_some_iff.mp hi
      rw [List.getElem?_set_self (by simpa using hlt), List.getElem?_map, hi]
      simp [Thread.counts, served_append, hawaiting, hop, hresponse]
    · rw [List.getElem?_set_ne hij, List.getElem?_map, List.getElem?_map]
      cases hj : s.threads[j]? with
      | none => rfl
      | some other =>
        -- the others wait at channels of their own
        have hother : ∀ channel', other.awaiting = some channel' →
            (put call channel).response ≠ some channel' := by
          rintro channel' hawaiting' ⟨rfl⟩
          exact hij (hs.alone i j thread other channel hi hj hawaiting hawaiting')
        cases hawaiting' : other.awaiting with
        | none => simp [Thread.counts, served_append, hawaiting']
        | some channel' =>
          have hne : ((put call channel).response == some channel') = false :=
            beq_eq_false_iff_ne.mpr (hother channel' hawaiting')
          simp [Thread.counts, served_append, hawaiting', hne]
  have hcount := countP_changed hi hmap
  rwa [hunserved, if_neg Bool.false_ne_true, Nat.add_zero] at hcount

theorem matched_change (hset : Faithful set) (h : Change set s e s')
    (hchannels : Channels s) (hs : Queued s)
    (hdialogue : ∀ (i : Nat) (thread : Thread), s.threads[i]? = some thread →
      Prog.Dialogue (set.method thread.request thread.orders) thread.told thread.prog)
    (hmatched : Matched set s) : Matched set s' := by
  intro op
  have hold := hmatched op
  cases h with
  | signalled =>
    have hreceived : State.received { s with svm := s.send terminateSvm, signal := true } = s.received := by
      simp only [State.received, State.send]
      split <;> rfl
    rw [hreceived]
    exact hold
  | took r queue hrunning hhead =>
    obtain ⟨-, hreceived, -, -, hne⟩ | ⟨-, hreceived, -⟩ := took_cases set hhead
    · have hr : r ∈ s.svm.queue := by
        rw [hhead]
        exact List.mem_cons_self
      rw [hreceived, countP_took hset hchannels hs hdialogue hr hne op, List.filterMap_append,
        List.count_append, hold]
      congr 1
      rw [List.count_filterMap, List.countP_singleton]
    · rw [hreceived]
      exact hold
  | accepted r orders =>
    -- a request that has just come has asked for nothing yet
    have hstart : (Thread.start set r orders).counts set op s.received = false := Bool.and_false _
    have hsame : (s.threads ++ [Thread.start set r orders]).countP (Thread.counts set op s.received) =
        s.threads.countP (Thread.counts set op s.received) := by
      rw [List.countP_append, List.countP_singleton, hstart]
      rfl
    exact hold.trans hsame.symm
  | asked i thread call k hi hprog hidle hrunning =>
    refine hold.trans ?_
    have hsame : Thread.counts set op s.received { thread with awaiting := some s.channels } =
        thread.counts set op s.received := by
      -- nobody has answered at a channel that is new
      have hfresh : ∀ r ∈ s.received, r.response ≠ some s.channels := fun r hr hresponse =>
        Nat.lt_irrefl _ (hchannels.numbered r (List.mem_append_left _ hr) _ hresponse)
      have hserved : Thread.served s.received { thread with awaiting := some s.channels } =
          thread.told.any fromLoop := served_eq_told (by rintro channel ⟨rfl⟩; exact hfresh)
      have hserved' : thread.served s.received = thread.told.any fromLoop := by
        refine served_eq_told fun channel hawaiting => ?_
        rw [hidle] at hawaiting
        cases hawaiting
      simp only [Thread.counts, hserved, hserved']
    exact (countP_set_same (present_eq_some hi).1 hsame).symm
  | moved e i thread thread' hi hmoves =>
    refine hold.trans ?_
    have hrequest : thread'.request = thread.request := by cases hmoves <;> rfl
    have hsame : thread'.counts set op s.received = thread.counts set op s.received := by
      simp only [Thread.counts, hrequest, served_moved hchannels (present_eq_some hi).1 hmoves]
    exact (countP_set_same (present_eq_some hi).1 hsame).symm

theorem matched_of_run (hset : Faithful set) (h : Run (step set) (.init s₀) ts t) :
    Matched set t := by
  refine h.history_induction (P := fun _ t => Matched set t) (fun _ => rfl) ?_
  intro as a e a' hrun ih hstep
  exact matched_change hset (change_of_step hstep) (channels_of_run hrun) (queued_of_run hrun)
    (fun _ _ hi => dialogue_of_run hrun hi) ih

/-- Who performs an operation and has a result has heard from the loop. -/
theorem any_fromLoop {op : Operation} {α : Type} {p : Prog Sent Sent.Answer ErrorObject α}
    {told : List Answered} {a : α} (hp : Performs set.bincode op p) (h : Prog.Dialogue p told (.done a))
    (hkept : ∀ x ∈ told, ¬ Lost x.1 x.2) : told.any fromLoop = true := by
  obtain ⟨call, k, rfl, -⟩ := hp
  cases h with
  | @cons _ _ answer rest _ h =>
    cases answer with
    | error e => exact absurd ⟨e, rfl⟩ (hkept _ List.mem_cons_self)
    | ok result => rfl

theorem served_of_done (hset : Faithful set)
    (h : Prog.Dialogue (set.method thread.request thread.orders) thread.told thread.prog)
    {a : thread.request.Value} (hdone : thread.prog = .done a) {op : Operation}
    (hop : thread.request.operation set.txLib = some op) (received : List SvmRequest) :
    thread.served received = true := by
  rw [hdone] at h
  have hkept : ∀ x ∈ thread.told, ¬ Lost x.1 x.2 :=
    h.not_bad (failsOn_method set _ _) fun e he => by cases he
  obtain ⟨op', -, hperforms | ⟨e, he⟩⟩ | ⟨hnone, -⟩ :=
    method_cases hset thread.request thread.orders
  · rw [Thread.served, any_fromLoop hperforms h hkept, Bool.true_or]
  · rw [he] at h
    generalize thread.told = told at h
    cases h
  · rw [hnone] at hop
    cases hop

/-! ## Runs -/

/-- The caller is told a result. -/
def Thread.hasResult (thread : Thread) : Bool :=
  match thread.prog with
  | .done _ => true
  | _ => false

/-- What some requests are meant to carry out. -/
def requested (set : Setting T σ) (threads : List Thread) : List Operation :=
  threads.filterMap fun thread => thread.request.operation set.txLib

/-- In every interleaved run of the mock, callers that are gone, lost results and Ctrl-C
included: the virtual machine is where some of the requested transactions and airdrops have led,
none of them carried out more often than requested, and all of those that had a result among
them. -/
theorem carried_out_once (hset : Faithful set) (h : Run (step set) (.init s₀) ts t) :
    ∃ operations, t.svm.store = operations.foldl set.svm.perform s₀ ∧
      operations.Subperm (requested set t.threads) ∧
      (requested set (t.threads.filter Thread.hasResult)).Subperm operations := by
  have hmatched := matched_of_run hset h
  refine ⟨t.received.filterMap (operation set.bincode), (answered_of_run h).2, ?_, ?_⟩
  · refine List.subperm_ext_iff.mpr fun op _ => ?_
    rw [hmatched op, requested, List.count_filterMap]
    refine List.countP_mono_left fun thread _ hcounts => ?_
    exact (Bool.and_eq_true_iff.mp hcounts).1
  · refine List.subperm_ext_iff.mpr fun op _ => ?_
    rw [hmatched op, requested, List.count_filterMap, List.countP_filter]
    refine List.countP_mono_left fun thread hthread hcounts => ?_
    obtain ⟨hop, hresult⟩ := Bool.and_eq_true_iff.mp hcounts
    obtain ⟨i, hi⟩ := List.getElem?_of_mem hthread
    rw [Thread.hasResult] at hresult
    split at hresult
    · next a hdone =>
      have hserved := served_of_done hset (dialogue_of_run h hi) hdone (eq_of_beq hop) t.received
      exact Bool.and_eq_true_iff.mpr ⟨hop, hserved⟩
    · cases hresult

/-! ### A transaction and two airdrops -/

/-- The bytes of a number, the lowest first, are read back. -/
theorem u64_le (n : UInt64) :
    ((List.range 8).map fun i => (n >>> (8 * i).toUInt64).toUInt8).foldr
      (fun (b : UInt8) (n : UInt64) => n <<< 8 ||| b.toUInt64) 0 = n := by
  have hrange : List.range 8 = [0, 1, 2, 3, 4, 5, 6, 7] := rfl
  rw [hrange]
  apply UInt64.eq_of_toBitVec_eq
  apply BitVec.eq_of_getLsbD_eq
  intro i hi
  simp [-UInt64.toUInt64_toUInt8, BitVec.getLsbD_or, BitVec.getLsbD_shiftLeft, BitVec.getLsbD_setWidth,
    BitVec.getLsbD_ushiftRight]
  interval_cases i <;> simp

/-- What carries airdrops, and transactions in the format of the chain. -/
def packetBincode : Bincode types where
  serialize
    | .versionedTransaction, tx =>
      (Packet.writeTransaction tx).elim (.error "invalid length") .ok
    | t, v => readBincode.serialize t v
  deserialize
    | .versionedTransaction, bytes => transactionWire.deserialize bytes
    | t, bytes => readBincode.deserialize t bytes

/-- A virtual machine that keeps what it has been asked to do. -/
def recorder : Vm types (List Operation) where
  getAccount _ _ := none
  airdrop s pubkey lamports := (.ok .zero, s ++ [.airdrop pubkey lamports])
  getBalance _ _ := none
  sendTransaction s tx := (.ok .zero, s ++ [.sendTransaction tx])
  getTransaction _ _ := none
  latestBlockhash _ := .zero
  simulateTransaction _ _ := .error "SignatureFailure"

def recordingSetting : Setting types (List Operation) where
  bincode := packetBincode
  svm := recorder
  lib := tokenDecoder
  txLib := { nullTransactionLib with transaction := transactionWire, message := messageWire }
  results := noResults

theorem faithful_recordingSetting : Faithful recordingSetting where
  transaction data encoding tx hread bytes hwrite := by
    -- what was read is no legacy message that begins like a versioned one
    obtain ⟨bytes', hwire⟩ := deserialize_of_readTransaction hread
    obtain ⟨rest, hpacket⟩ := deserialize_wireOf.mp hwire
    have htx := (Packet.writeTransaction_readTransaction hpacket).1
    change (Packet.writeTransaction tx).elim _ _ = _ at hwrite
    cases hwritten : Packet.writeTransaction tx with
    | none =>
      rw [hwritten] at hwrite
      cases hwrite
    | some written =>
      rw [hwritten] at hwrite
      cases hwrite
      exact (deserialize_transactionWire hwritten).mpr htx
  airdrop pubkey n bytes hwrite := by
    cases hwrite
    have htake : ∀ number : Bytes, (pubkey.bytes ++ number).take pubkeyBytes = pubkey.bytes :=
      fun number => List.take_left' pubkey.length_eq
    have hdrop : ∀ number : Bytes, (pubkey.bytes ++ number).drop pubkeyBytes = number :=
      fun number => List.drop_left' pubkey.length_eq
    have hlength : ∀ number : Bytes, ((pubkey.bytes ++ number).take pubkeyBytes).length = pubkeyBytes :=
      fun number => (congrArg List.length (htake number)).trans pubkey.length_eq
    refine (dif_pos (hlength _)).trans ?_
    congr
    · exact htake _
    · exact (congrArg _ (hdrop _)).trans (u64_le n)

def sendEmpty : Request :=
  .sendTransaction emptyTransactionData (some { encoding := some .base64 })

/-- A transaction and two airdrops, and Ctrl-C before the last of them, which is lost. -/
def lostAirdrop : List Event :=
  [.accept sendEmpty listedOrders, .ask 0,
    .accept (.requestAirdrop (Pubkey.ofByte 7).toString 3) listedOrders, .ask 1, .signal,
    .accept (.requestAirdrop (Pubkey.ofByte 7).toString 4) listedOrders, .ask 2,
    .poll, .poll, .poll, .reply 0, .reply 1, .reply 2]

theorem airdrop_carried_out : Faithful recordingSetting ∧ ∃ operations,
    [.sendTransaction emptyTransaction, .airdrop (.ofByte 7) 3] =
      operations.foldl recorder.perform [] ∧
    operations.Subperm
      [.sendTransaction emptyTransaction, .airdrop (.ofByte 7) 3, .airdrop (.ofByte 7) 4] ∧
    [.sendTransaction emptyTransaction, .airdrop (.ofByte 7) 3].Subperm operations := by
  let ts := trace (step recordingSetting) (.init []) lostAirdrop
  let t := after (.init []) ts
  have hrun : Run (step recordingSetting) (.init []) ts t := .of_trace _ lostAirdrop
  have hstore : t.svm.store = [.sendTransaction emptyTransaction, .airdrop (.ofByte 7) 3] := by
    decide +kernel
  have hrequested : requested recordingSetting t.threads =
      [.sendTransaction emptyTransaction, .airdrop (.ofByte 7) 3, .airdrop (.ofByte 7) 4] := by
    decide +kernel
  have hresult : requested recordingSetting (t.threads.filter Thread.hasResult) =
      [.sendTransaction emptyTransaction, .airdrop (.ofByte 7) 3] := by decide +kernel
  obtain ⟨operations, hops⟩ := carried_out_once faithful_recordingSetting hrun
  rw [hstore, hrequested, hresult] at hops
  exact ⟨faithful_recordingSetting, operations, hops⟩

end MockSidecar

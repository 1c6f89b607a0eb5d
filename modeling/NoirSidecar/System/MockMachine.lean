-- SUMMARY: The whole mock as one machine: its requests, the request loop of its virtual machine and Ctrl-C, interleaved at their awaits.
import NoirSidecar.Base.Dialogue
import NoirSidecar.Rpc.MockSession

/-!
# The mock sidecar

With the feature `mock`, `main` starts the request loop of the virtual machine, the server,
and a task that puts `terminateSvm` into the queue of the loop when Ctrl-C is pressed. The
server handles any number of requests at a time, and each of them waits at a channel of its
own when it has put something into the queue.
-/

namespace MockSidecar

open LiteSVM MockSolana Solana

variable {T : Types} {σ : Type}

/-- What the mock runs against. -/
structure Setting (T : Types) (σ : Type) where
  bincode : Bincode T
  svm : Vm T σ
  lib : Decoder
  txLib : TransactionLib
  results : ResultLib T

/-- The method of a request, down to what it puts into the queue, with hash maps iterated in
some orders. -/
def Setting.method (set : Setting T σ) (r : Request) (orders : IterOrders) :
    Prog Sent Sent.Answer ErrorObject r.Value :=
  (respond set.lib orders set.txLib set.results r).through (Question.lower set.bincode)

/-! ## Threads -/

abbrev Answered := Σ q : Sent, Sent.Answer q

/-- A request and what is left to do of it. `awaiting` names the channel of the call that is
under way, `told` records the answers so far. -/
structure Thread where
  request : Request
  orders : IterOrders
  prog : Prog Sent Sent.Answer ErrorObject request.Value
  awaiting : Option Nat
  told : List Answered
  left : Bool

def Thread.start (set : Setting T σ) (r : Request) (orders : IterOrders) : Thread where
  request := r
  orders := orders
  prog := set.method r orders
  awaiting := none
  told := []
  left := false

/-- The thread goes on with an answer. -/
def Thread.tell (thread : Thread) {q : Sent}
    (k : Sent.Answer q → Prog Sent Sent.Answer ErrorObject thread.request.Value)
    (a : Sent.Answer q) : Thread :=
  { thread with prog := k a, awaiting := none, told := thread.told ++ [⟨q, a⟩] }

/-! ## States and events -/

/-- `channels` counts the channels made so far. -/
structure State (σ : Type) where
  svm : Server.State σ SvmRequest SvmResult
  channels : Nat
  signal : Bool
  threads : List Thread

def State.init (s : σ) : State σ where
  svm := .init s
  channels := 0
  signal := false
  threads := []

/-- Ctrl-C, the request loop, the server with a request, and the thread at a position of the
list, which looks at the clock, puts a call into the queue, gets its result, or is gone. -/
inductive Event where
  | signal
  | poll
  | accept (r : Request) (orders : IterOrders)
  | look (i : Nat) (millis : UInt64)
  | ask (i : Nat)
  | reply (i : Nat)
  | leave (i : Nat)

/-- The requests the loop has handled. -/
def State.received (s : State σ) : List SvmRequest := s.svm.answered.map Prod.fst

/-- The thread at a position, unless it is gone. -/
def State.present (s : State σ) (i : Nat) : Option Thread :=
  s.threads[i]?.filter fun thread => !thread.left

def terminateSvm : SvmRequest where
  method := "terminateSvm"
  params := []
  response := none

/-- What a call puts into the queue. -/
def put (call : ExecuteCall) (channel : Nat) : SvmRequest where
  method := call.method
  params := call.params
  response := some channel

/-- A request that reaches the loop, if there still is one. -/
def State.send (s : State σ) (r : SvmRequest) : Server.State σ SvmRequest SvmResult :=
  if s.svm.running then { s.svm with queue := s.svm.queue ++ [r] } else s.svm

/-- `execute` up to its await. The send fails if the loop has stopped. -/
def ask (s : State σ) (thread : Thread) : Option (State σ × Thread) :=
  match thread.prog, thread.awaiting with
  | .ask (.inl call) k, none =>
    if s.svm.running then
      some ({ s with svm := s.send (put call s.channels), channels := s.channels + 1 },
        { thread with awaiting := some s.channels })
    else some (s, thread.tell (q := .inl call) k (.error "SendError \x7b .. \x7d"))
  | _, _ => none

/-- The result is there, or the sender has gone with the queue of the loop. -/
def reply (s : State σ) (thread : Thread) : Option Thread :=
  match thread.prog, thread.awaiting with
  | .ask (.inl call) k, some channel =>
    match s.svm.answered.find? fun x => x.1.response == some channel with
    | some (_, result) => some (thread.tell (q := .inl call) k (.ok result))
    | none =>
      if s.svm.running then none
      else some (thread.tell (q := .inl call) k (.error "RecvError(())"))
  | _, _ => none

def look (thread : Thread) (millis : UInt64) : Option Thread :=
  match thread.prog with
  | .ask (.inr ()) k => some (thread.tell (q := .inr ()) k millis)
  | _ => none

variable (set : Setting T σ)

/-- The task that waits for Ctrl-C ends with it. A loop that finds nothing in its queue sleeps. -/
def step (s : State σ) : Event → Option (State σ)
  | .signal => if s.signal then none else some { s with svm := s.send terminateSvm, signal := true }
  | .poll =>
    if s.svm.queue = [] then none
    else (Server.step (LiteSVM.run set.bincode set.svm) s.svm .poll).map fun svm =>
      { s with svm := svm }
  | .accept r orders => some { s with threads := s.threads ++ [.start set r orders] }
  | .look i millis =>
    (s.present i).bind fun thread => (look thread millis).map fun thread =>
      { s with threads := s.threads.set i thread }
  | .ask i =>
    (s.present i).bind fun thread => (ask s thread).map fun (s, thread) =>
      { s with threads := s.threads.set i thread }
  | .reply i =>
    (s.present i).bind fun thread => (reply s thread).map fun thread =>
      { s with threads := s.threads.set i thread }
  | .leave i =>
    (s.present i).map fun thread => { s with threads := s.threads.set i { thread with left := true } }

/-! ## What a step does -/

/-- What a thread does without putting anything into the queue. A thread is refused when the
loop has stopped with its call, if any, unanswered. -/
inductive Moves (s : State σ) (thread : Thread) : Thread → Prop where
  | gone : Moves s thread { thread with left := true }
  | looked (k : UInt64 → Prog Sent Sent.Answer ErrorObject thread.request.Value) (millis : UInt64)
      (prog : thread.prog = .ask (.inr ()) k) : Moves s thread (thread.tell (q := .inr ()) k millis)
  | refused (call : ExecuteCall)
      (k : Except String SvmResult → Prog Sent Sent.Answer ErrorObject thread.request.Value) (e : String)
      (prog : thread.prog = .ask (.inl call) k) (stopped : s.svm.running = false)
      (unanswered : ∀ channel, thread.awaiting = some channel →
        ∀ x ∈ s.svm.answered, x.1.response ≠ some channel) :
      Moves s thread (thread.tell (q := .inl call) k (.error e))
  | told (call : ExecuteCall)
      (k : Except String SvmResult → Prog Sent Sent.Answer ErrorObject thread.request.Value)
      (channel : Nat) (r : SvmRequest) (result : SvmResult)
      (prog : thread.prog = .ask (.inl call) k) (awaiting : thread.awaiting = some channel)
      (answered : (r, result) ∈ s.svm.answered) (response : r.response = some channel) :
      Moves s thread (thread.tell (q := .inl call) k (.ok result))

inductive Change (s : State σ) : Event → State σ → Prop where
  | signalled : Change s .signal { s with svm := s.send terminateSvm, signal := true }
  | took (r : SvmRequest) (queue : List SvmRequest) (running : s.svm.running = true)
      (head : s.svm.queue = r :: queue) :
      Change s .poll { s with svm := s.svm.take (LiteSVM.run set.bincode set.svm) r queue }
  | accepted (r : Request) (orders : IterOrders) :
      Change s (.accept r orders) { s with threads := s.threads ++ [.start set r orders] }
  | asked (i : Nat) (thread : Thread) (call : ExecuteCall)
      (k : Except String SvmResult → Prog Sent Sent.Answer ErrorObject thread.request.Value)
      (present : s.present i = some thread) (prog : thread.prog = .ask (.inl call) k)
      (idle : thread.awaiting = none) (running : s.svm.running = true) :
      Change s (.ask i)
        { s with
          svm := { s.svm with queue := s.svm.queue ++ [put call s.channels] }
          channels := s.channels + 1
          threads := s.threads.set i { thread with awaiting := some s.channels } }
  | moved (e : Event) (i : Nat) (thread thread' : Thread) (present : s.present i = some thread)
      (moves : Moves s thread thread') : Change s e { s with threads := s.threads.set i thread' }

section Steps

variable {set : Setting T σ} {s s' : State σ} {e : Event} {thread thread' : Thread}

theorem present_eq_some {i : Nat} (h : s.present i = some thread) :
    s.threads[i]? = some thread ∧ thread.left = false := by
  obtain ⟨hthread, hleft⟩ := Option.filter_eq_some_iff.mp h
  exact ⟨hthread, by simpa using hleft⟩

theorem moves_look {millis : UInt64} (h : look thread millis = some thread') : Moves s thread thread' := by
  unfold look at h
  split at h
  · next k hprog =>
    cases h
    exact .looked k millis hprog
  · cases h

theorem moves_reply (h : reply s thread = some thread') : Moves s thread thread' := by
  unfold reply at h
  split at h
  · next call k channel hprog hawaiting =>
    split at h
    · next r result hfind =>
      cases h
      have hresponse : r.response = some channel := by simpa using List.find?_some hfind
      exact .told call k channel r result hprog hawaiting (List.mem_of_find?_eq_some hfind) hresponse
    · next hnone =>
      split at h
      · cases h
      · next hstopped =>
        cases h
        refine .refused call k _ hprog (by simpa using hstopped) fun channel' hchannel x hx => ?_
        rw [hawaiting] at hchannel
        cases hchannel
        simpa using List.find?_eq_none.mp hnone x hx
  · cases h

/-- A thread puts its call into the queue, or is told that nobody reads it. -/
theorem ask_cases {u : State σ} (h : ask s thread = some (u, thread')) :
    (∃ call k, thread.prog = .ask (.inl call) k ∧ thread.awaiting = none ∧ s.svm.running = true ∧
      u = { s with
        svm := { s.svm with queue := s.svm.queue ++ [put call s.channels] }
        channels := s.channels + 1 } ∧
      thread' = { thread with awaiting := some s.channels }) ∨
    u = s ∧ Moves s thread thread' := by
  unfold ask at h
  split at h
  · next call k hprog hidle =>
    split at h
    · next hrunning =>
      cases h
      refine .inl ⟨call, k, hprog, hidle, hrunning, ?_, rfl⟩
      rw [State.send, if_pos hrunning]
    · next hstopped =>
      cases h
      refine .inr ⟨rfl, .refused call k _ hprog (by simpa using hstopped) fun channel hchannel => ?_⟩
      rw [hidle] at hchannel
      cases hchannel
  · cases h

theorem change_of_step (h : step set s e = some s') : Change set s e s' := by
  cases e with
  | signal =>
    simp only [step] at h
    split at h
    · cases h
    · cases h
      exact .signalled
  | poll =>
    simp only [step] at h
    split at h
    · cases h
    · next hqueue =>
      obtain ⟨svm, hstep, rfl⟩ := Option.map_eq_some_iff.mp h
      obtain ⟨hrunning, ⟨hempty, -⟩ | ⟨r, queue, hhead, rfl⟩⟩ := Server.step_poll.mp hstep
      · exact absurd hempty hqueue
      · exact .took r queue hrunning hhead
  | accept r orders =>
    cases h
    exact .accepted r orders
  | look i millis =>
    obtain ⟨thread, hi, h⟩ := Option.bind_eq_some_iff.mp h
    obtain ⟨thread', hlook, rfl⟩ := Option.map_eq_some_iff.mp h
    exact .moved _ i thread thread' hi (moves_look hlook)
  | ask i =>
    obtain ⟨thread, hi, h⟩ := Option.bind_eq_some_iff.mp h
    obtain ⟨⟨u, thread'⟩, hask, rfl⟩ := Option.map_eq_some_iff.mp h
    obtain ⟨call, k, hprog, hidle, hrunning, rfl, rfl⟩ | ⟨rfl, hmoves⟩ := ask_cases hask
    · exact .asked i thread call k hi hprog hidle hrunning
    · exact .moved _ i thread thread' hi hmoves
  | reply i =>
    obtain ⟨thread, hi, h⟩ := Option.bind_eq_some_iff.mp h
    obtain ⟨thread', hreply, rfl⟩ := Option.map_eq_some_iff.mp h
    exact .moved _ i thread thread' hi (moves_reply hreply)
  | leave i =>
    obtain ⟨thread, hi, rfl⟩ := Option.map_eq_some_iff.mp h
    exact .moved _ i thread _ hi .gone

/-! ## What becomes of a thread -/

inductive ThreadStep (s s' : State σ) (thread : Thread) : Thread → Prop where
  | same : ThreadStep s s' thread thread
  | asked (call : ExecuteCall)
      (k : Except String SvmResult → Prog Sent Sent.Answer ErrorObject thread.request.Value)
      (prog : thread.prog = .ask (.inl call) k) (idle : thread.awaiting = none)
      (running : s.svm.running = true)
      (svm : s'.svm = { s.svm with queue := s.svm.queue ++ [put call s.channels] })
      (channels : s'.channels = s.channels + 1) :
      ThreadStep s s' thread { thread with awaiting := some s.channels }
  | moved (thread' : Thread) (svm : s'.svm = s.svm) (channels : s'.channels = s.channels)
      (moves : Moves s thread thread') : ThreadStep s s' thread thread'

theorem thread_after (h : Change set s e s') {i : Nat} (hi : s.threads[i]? = some thread) :
    ∃ thread', s'.threads[i]? = some thread' ∧ ThreadStep s s' thread thread' := by
  obtain ⟨hlt, -⟩ := List.getElem?_eq_some_iff.mp hi
  cases h with
  | signalled => exact ⟨thread, hi, .same⟩
  | took r queue hrunning hhead => exact ⟨thread, hi, .same⟩
  | accepted r orders => exact ⟨thread, by rw [List.getElem?_append_left hlt, hi], .same⟩
  | asked j old call k hold hprog hidle hrunning =>
    by_cases hij : j = i
    · subst hij
      obtain rfl : old = thread := Option.some.inj ((present_eq_some hold).1.symm.trans hi)
      exact ⟨_, List.getElem?_set_self hlt, .asked call k hprog hidle hrunning rfl rfl⟩
    · exact ⟨thread, by rw [List.getElem?_set_ne hij, hi], .same⟩
  | moved e j old new hold hmoves =>
    by_cases hij : j = i
    · subst hij
      obtain rfl : old = thread := Option.some.inj ((present_eq_some hold).1.symm.trans hi)
      exact ⟨new, List.getElem?_set_self hlt, .moved new rfl rfl hmoves⟩
    · exact ⟨thread, by rw [List.getElem?_set_ne hij, hi], .same⟩

/-- A position that becomes occupied is that of a request at its start. -/
theorem start_of_change (h : Change set s e s') {i : Nat} (hi : s.threads[i]? = none)
    (hi' : s'.threads[i]? = some thread) :
    e = .accept thread.request thread.orders ∧ i = s.threads.length ∧
      thread = .start set thread.request thread.orders ∧ s'.svm = s.svm ∧ s'.channels = s.channels := by
  rw [List.getElem?_eq_none_iff] at hi
  obtain ⟨hlt, -⟩ := List.getElem?_eq_some_iff.mp hi'
  cases h with
  | signalled => exact absurd hlt (Nat.not_lt.mpr hi)
  | took r queue hrunning hhead => exact absurd hlt (Nat.not_lt.mpr hi)
  | accepted r orders =>
    rw [List.length_append, List.length_singleton] at hlt
    have hlast : i = s.threads.length := by omega
    subst hlast
    rw [List.getElem?_append_right le_rfl, Nat.sub_self] at hi'
    obtain rfl := Option.some.inj hi'
    exact ⟨rfl, rfl, rfl, rfl, rfl⟩
  | asked j old call k hold hprog hidle hrunning =>
    rw [List.length_set] at hlt
    exact absurd hlt (Nat.not_lt.mpr hi)
  | moved e j old new hold hmoves =>
    rw [List.length_set] at hlt
    exact absurd hlt (Nat.not_lt.mpr hi)

theorem thread_before (h : Change set s e s') {i : Nat} (hi' : s'.threads[i]? = some thread') :
    (∃ thread, s.threads[i]? = some thread ∧ ThreadStep s s' thread thread') ∨
      s.threads[i]? = none ∧ thread'.awaiting = none := by
  cases hi : s.threads[i]? with
  | none =>
    obtain ⟨-, -, hstart, -⟩ := start_of_change h hi hi'
    exact .inr ⟨rfl, by rw [hstart]; rfl⟩
  | some thread =>
    obtain ⟨thread'', hi'', hstep⟩ := thread_after h hi
    rw [hi'] at hi''
    cases hi''
    exact .inl ⟨thread, rfl, hstep⟩

/-- A thread that waits does so for the call it is at. -/
theorem Moves.awaiting (h : Moves s thread thread') {channel : Nat}
    (hawaiting : thread'.awaiting = some channel) : thread' = { thread with left := true } := by
  cases h with
  | gone => rfl
  | looked => cases hawaiting
  | refused => cases hawaiting
  | told => cases hawaiting

/-! ## What has been put into the queue -/

/-- What the loop has handled and what it still has to handle. -/
def State.sent (s : State σ) : List SvmRequest := s.received ++ s.svm.queue

/-- The request at the head of the queue is handled, or stops the loop and loses the rest. -/
theorem took_cases (set : Setting T σ) {r : SvmRequest} {queue : List SvmRequest}
    (hhead : s.svm.queue = r :: queue) :
    let s' := { s with svm := s.svm.take (LiteSVM.run set.bincode set.svm) r queue }
    (s'.svm.running = s.svm.running ∧ s'.received = s.received ++ [r] ∧ s'.svm.queue = queue ∧
        s'.sent = s.sent ∧ r ≠ terminateSvm) ∨
      s'.svm.running = false ∧ s'.received = s.received ∧ s'.svm.queue = [] := by
  intro s'
  cases hstops : (LiteSVM.run set.bincode set.svm).stops r with
  | true =>
    refine .inr ?_
    have hsvm : s'.svm = { s.svm with running := false, queue := [] } := Server.State.take_of_stops hstops
    simp [State.received, hsvm]
  | false =>
    refine .inl ?_
    have hsvm : s'.svm = _ := Server.State.take_of_not_stops hstops
    have hne : r ≠ terminateSvm := by
      rintro rfl
      cases hstops
    refine ⟨by rw [hsvm], by simp [State.received, hsvm], by rw [hsvm], ?_, hne⟩
    simp [State.sent, State.received, hsvm, hhead]

/-! ## What a method asks -/

theorem asks_result (call : Call) (answer : Except String SvmResult) :
    (Prog.ofExcept (answer.mapError internalError) >>= fun result =>
      Prog.ofExcept (result.mapError fun e => internalError (debugSvmError e)) >>= fun result =>
        Prog.ofExcept ((set.bincode.deserialize call.Result result).mapError internalError) :
      ExecuteProg (call.Result.Val T)).Asks fun _ => False :=
  (Prog.asks_ofExcept _).bind fun _ => (Prog.asks_ofExcept _).bind fun _ => Prog.asks_ofExcept _

/-- A question puts its call into the queue by its name, if anything. -/
theorem asks_lower (q : Question) {S : Sent → Prop}
    (hcall : ∀ call params, q = .execute call → S (.inl ⟨call.method, params⟩)) (hnow : S (.inr ())) :
    (q.lower set.bincode).Asks S := by
  cases q with
  | now => exact ⟨hnow, fun _ => trivial⟩
  | execute call =>
    refine Prog.Asks.left ((Prog.asks_ofExcept _).bind fun params => ⟨hcall call params rfl, ?_⟩)
    exact fun answer => (asks_result call answer).mono fun _ hfalse => hfalse.elim

/-- A thread is left with its method after what it has been told. -/
theorem dialogue_of_run {s₀ : σ} {ts : List (Step (State σ) Event)} {t : State σ}
    (h : Run (step set) (.init s₀) ts t) {i : Nat} (hi : t.threads[i]? = some thread) :
    Prog.Dialogue (set.method thread.request thread.orders) thread.told thread.prog := by
  refine (h.invariant (I := fun s => ∀ thread, s.threads[i]? = some thread →
    Prog.Dialogue (set.method thread.request thread.orders) thread.told thread.prog) ?_ ?_).1 thread hi
  · intro s e s' hstep hs thread' hi'
    have hchange := change_of_step hstep
    cases hi : s.threads[i]? with
    | none =>
      obtain ⟨-, -, hstart, -⟩ := start_of_change hchange hi hi'
      rw [hstart]
      exact .nil _
    | some thread =>
      obtain ⟨thread'', hi'', hthread⟩ := thread_after hchange hi
      obtain rfl : thread'' = thread' := Option.some.inj (hi''.symm.trans hi')
      have hdialogue := hs thread hi
      cases hthread with
      | same => exact hdialogue
      | asked => exact hdialogue
      | moved thread' hsvm hchannels hmoves =>
        cases hmoves with
        | gone => exact hdialogue
        | looked k millis hprog =>
          rw [hprog] at hdialogue
          exact hdialogue.snoc _
        | refused call k e hprog =>
          rw [hprog] at hdialogue
          exact hdialogue.snoc _
        | told call k channel r result hprog =>
          rw [hprog] at hdialogue
          exact hdialogue.snoc _
  · intro thread hi
    cases hi

end Steps

end MockSidecar

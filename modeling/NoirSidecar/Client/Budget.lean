-- SUMMARY: The retry budget of a request: what is left of it is what its earlier dequeues have not used.
import NoirSidecar.Client.Loop
import Mathlib.Data.List.Perm.Subperm

/-!
# Retry budgets

A request that finds no live connection goes back to the end of the queue behind
a `TryConnect`, with one retry less. The invariant is that every waiting request
has a channel of its own and that its budget and the number of its dequeues add
up to the initial budget.
-/

namespace Client

variable {P V : Type}

/-! ## Retry budgets -/

/-- The message a step takes off the queue. -/
def dequeued (x : Step (State P V) (Event P V)) : Option (Message P) :=
  match x.ev with
  | .dequeue => x.pre.queue.head?
  | _ => none

/-- The step takes the request with this channel off the queue. -/
def dequeues (call : Nat) (x : Step (State P V) (Event P V)) : Bool :=
  match dequeued x with
  | some (.request r) => r.response == call
  | _ => false

theorem dequeues_iff {x : Step (State P V) (Event P V)} {call : Nat} :
    dequeues call x ↔ ∃ r, dequeued x = some (.request r) ∧ r.response = call := by
  unfold dequeues
  split
  · next r hr => simp [hr]
  · next hnone => exact iff_of_false (by simp) fun h => h.elim fun r hr => hnone r hr.1

/-- How often the request with this channel has been taken off the queue. -/
def timesDequeued (call : Nat) (ts : List (Step (State P V) (Event P V))) : Nat :=
  ts.countP (dequeues call)

/-- The requests that are still to be taken off the queue: the one being put back
and those in the queue. -/
def State.waiting (s : State P V) : List (Request P) :=
  match s.phase with
  | .resubmitting r => r :: Message.requests s.queue
  | _ => Message.requests s.queue

/-- Every waiting request has its own channel, and its budget and the number of
times it has been dequeued add up to the initial budget. -/
structure Budget (ts : List (Step (State P V) (Event P V))) (s : State P V) : Prop where
  known : ∀ r ∈ s.waiting, r.response < s.calls
  nodup : (s.waiting.map Request.response).Nodup
  spent : ∀ r ∈ s.waiting, r.retry + timesDequeued r.response ts = initialRetry
  fresh : ∀ call, s.calls ≤ call → timesDequeued call ts = 0

theorem timesDequeued_snoc (call : Nat) (ts : List (Step (State P V) (Event P V)))
    (x : Step (State P V) (Event P V)) :
    timesDequeued call (ts ++ [x]) = timesDequeued call ts + if dequeues call x then 1 else 0 := by
  simp [timesDequeued, List.countP_append, List.countP_singleton]

theorem budget_init : Budget [] (State.init : State P V) := by
  constructor <;> simp [State.waiting, State.init, Message.requests, timesDequeued]

/-! ## What waits -/

/-- What a step does to the requests that wait: it leaves them alone, unless the task
ends, adds a new one, or takes one off the queue, which is put back with one retry less
if there is no live connection. -/
inductive WaitingStep (x : Step (State P V) (Event P V)) : Prop where
  | same (none : ∀ call, dequeues call x = false) (calls : x.pre.calls ≤ x.post.calls)
      (waiting : x.post.waiting.Perm x.pre.waiting ∨ x.post.waiting = [])
  | added (method : String) (params : P) (none : ∀ call, dequeues call x = false)
      (calls : x.post.calls = x.pre.calls + 1)
      (waiting : x.post.waiting = x.pre.waiting ++ [⟨method, params, x.pre.calls, initialRetry⟩])
  | taken (r : Request P) (rest : List (Request P)) (one : ∀ call, dequeues call x = (r.response == call))
      (calls : x.post.calls = x.pre.calls) (before : x.pre.waiting = r :: rest)
      (waiting : x.post.waiting =
        if r.retry ≠ 0 ∧ ¬ x.pre.connected then { r with retry := r.retry - 1 } :: rest else rest)

theorem waitingStep_submit (s : State P V) (method : String) (params : P) :
    WaitingStep ⟨s, .submit method params, s.submit method params⟩ := by
  by_cases hend : s.phase.Ended
  · have hw : (s.submit method params).waiting = s.waiting := by
      simp [State.submit, hend, State.waiting]
    exact .same (fun _ => rfl) (by simp [State.submit, hend]) (.inl (.of_eq hw))
  · refine .added method params (fun _ => rfl) (by simp [State.submit, hend]) ?_
    cases hp : s.phase <;>
      simp_all [State.submit, State.waiting, Message.requests, Phase.Ended]

/-- What waits while the task is about to take the message at the head. -/
theorem State.waiting_of_recv {s : State P V} {m : Message P} {queue : List (Message P)}
    (hp : s.phase = .recv) (hq : s.queue = m :: queue) :
    s.waiting = Message.requests (m :: queue) := by
  simp [State.waiting, hp, hq]

section Waiting

variable [ToString P] {installable : Bool}

/-- What is left waiting when a request is taken off the queue: it comes back with
one retry less if there is no live connection. -/
theorem State.handle_request_waiting (s : State P V) (r : Request P) :
    (s.handle (.request r)).waiting =
      if r.retry ≠ 0 ∧ ¬ s.connected then
        { r with retry := r.retry - 1 } :: Message.requests s.queue
      else Message.requests s.queue := by
  rw [State.handle_request]
  split_ifs <;>
    simp_all [State.waiting, State.respond, State.requeue, Message.requests]

@[simp] theorem State.handle_calls (s : State P V) (m : Message P) :
    (s.handle m).calls = s.calls := by
  cases m with
  | request r => rw [State.handle_request]; split_ifs <;> rfl
  | tryConnect => rfl

theorem waitingStep_dequeue {s : State P V} {m : Message P} {queue : List (Message P)}
    (hp : s.phase = .recv) (hq : s.queue = m :: queue) :
    WaitingStep ⟨s, .dequeue, State.handle { s with queue := queue, phase := .awaitSignal } m⟩ := by
  have hws : s.waiting = Message.requests (m :: queue) := State.waiting_of_recv hp hq
  cases m with
  | tryConnect =>
    refine .same (fun _ => by simp [dequeues, dequeued, hq]) (Nat.le_refl _) (.inl ?_)
    change (Message.requests queue).Perm s.waiting
    rw [hws]
    exact .refl _
  | request r =>
    refine .taken r (Message.requests queue) (fun call => ?_) (State.handle_calls _ _) hws
      (State.handle_request_waiting _ r)
    simp [dequeues, dequeued, hq]

theorem waiting_step {s s' : State P V} {e : Event P V} (hs : step installable s e = some s') :
    WaitingStep ⟨s, e, s'⟩ := by
  cases e with
  | submit method params =>
    obtain rfl := step_submit.mp hs
    exact waitingStep_submit s method params
  | cancel call =>
    obtain ⟨-, rfl⟩ := step_cancel.mp hs
    exact .same (fun _ => rfl) (Nat.le_refl _) (.inl (.refl _))
  | disconnect =>
    obtain ⟨-, rfl⟩ := step_disconnect.mp hs
    exact .same (fun _ => rfl) (Nat.le_refl _) (.inl (.refl _))
  | ctrlC =>
    obtain rfl := step_ctrlC.mp hs
    exact .same (fun _ => rfl) (Nat.le_refl _) (.inl (.refl _))
  | signalled =>
    obtain ⟨-, -, -, rfl⟩ := step_signalled.mp hs
    exact .same (fun _ => rfl) (Nat.le_refl _) (.inr rfl)
  | signalFailed =>
    obtain ⟨hp, -, rfl⟩ := step_signalFailed.mp hs
    exact .same (fun _ => rfl) (Nat.le_refl _) (.inl (by simp [State.waiting, hp]))
  | dequeue =>
    obtain ⟨m, queue, hp, hq, rfl⟩ := step_dequeue.mp hs
    exact waitingStep_dequeue hp hq
  | resubmit =>
    obtain ⟨r, hp, rfl⟩ := step_resubmit.mp hs
    -- the request waits in the queue instead of in the phase
    refine .same (fun _ => rfl) (Nat.le_refl _) (.inl ?_)
    simp [State.waiting, hp, Message.requests, List.perm_append_singleton]
  | answer response =>
    obtain ⟨r, hp, ⟨-, rfl⟩ | ⟨-, rfl⟩⟩ := step_answer.mp hs
    · exact .same (fun _ => rfl) (Nat.le_refl _) (.inr rfl)
    · exact .same (fun _ => rfl) (Nat.le_refl _) (.inl (by simp [State.waiting, State.respond, hp]))
  | connect result =>
    obtain ⟨hp, rfl⟩ := step_connect.mp hs
    exact .same (fun _ => rfl) (Nat.le_refl _) (.inl (by simp [State.waiting, hp]))

end Waiting

/-! ## The budgets add up -/

variable {ts : List (Step (State P V) (Event P V))} {x : Step (State P V) (Event P V)}

theorem timesDequeued_snoc_of_none (hx : ∀ call, dequeues call x = false) (call : Nat) :
    timesDequeued call (ts ++ [x]) = timesDequeued call ts := by
  rw [timesDequeued_snoc, hx call]
  rfl

/-- A step that leaves the waiting requests alone keeps the budgets. -/
theorem Budget.frame (h : Budget ts x.pre) (hx : ∀ call, dequeues call x = false)
    (hc : x.pre.calls ≤ x.post.calls)
    (hw : x.post.waiting.Perm x.pre.waiting ∨ x.post.waiting = []) : Budget (ts ++ [x]) x.post := by
  have htimes : ∀ call, timesDequeued call (ts ++ [x]) = timesDequeued call ts :=
    timesDequeued_snoc_of_none hx
  have hfresh : ∀ call, x.post.calls ≤ call → timesDequeued call (ts ++ [x]) = 0 := by
    intro call hcall
    rw [htimes]
    exact h.fresh call (by omega)
  rcases hw with hw | hw
  · refine ⟨fun r hr => ?_, ?_, fun r hr => ?_, hfresh⟩
    · exact Nat.lt_of_lt_of_le (h.known r (hw.mem_iff.mp hr)) hc
    · exact (hw.map _).nodup_iff.mpr h.nodup
    · rw [htimes]
      exact h.spent r (hw.mem_iff.mp hr)
  · exact ⟨by simp [hw], by simp [hw], by simp [hw], hfresh⟩

theorem Budget.added {method : String} {params : P} (h : Budget ts x.pre)
    (hx : ∀ call, dequeues call x = false) (hc : x.post.calls = x.pre.calls + 1)
    (hw : x.post.waiting = x.pre.waiting ++ [⟨method, params, x.pre.calls, initialRetry⟩]) :
    Budget (ts ++ [x]) x.post := by
  have htimes : ∀ call, timesDequeued call (ts ++ [x]) = timesDequeued call ts :=
    timesDequeued_snoc_of_none hx
  refine ⟨fun r hr => ?_, ?_, fun r hr => ?_, fun call hcall => ?_⟩
  · rw [hc]
    rcases List.mem_append.mp (hw ▸ hr) with hr | hr
    · exact Nat.lt_succ_of_lt (h.known r hr)
    · obtain rfl := List.mem_singleton.mp hr
      exact Nat.lt_succ_self _
  · -- the new channel is not among the known ones
    rw [hw, List.map_append, List.nodup_append]
    refine ⟨h.nodup, by simp, fun c hc' d hd => ?_⟩
    obtain ⟨r, hr, rfl⟩ := List.mem_map.mp hc'
    obtain rfl : d = x.pre.calls := by simpa using hd
    exact Nat.ne_of_lt (h.known r hr)
  · rw [htimes]
    rcases List.mem_append.mp (hw ▸ hr) with hr | hr
    · exact h.spent r hr
    · obtain rfl := List.mem_singleton.mp hr
      show initialRetry + timesDequeued x.pre.calls ts = initialRetry
      rw [h.fresh x.pre.calls (Nat.le_refl _), Nat.add_zero]
  · rw [htimes]
    exact h.fresh call (by omega)

theorem Budget.taken {r : Request P} {rest : List (Request P)} (h : Budget ts x.pre)
    (hx : ∀ call, dequeues call x = (r.response == call)) (hc : x.post.calls = x.pre.calls)
    (hpre : x.pre.waiting = r :: rest)
    (hw : x.post.waiting =
      if r.retry ≠ 0 ∧ ¬ x.pre.connected then { r with retry := r.retry - 1 } :: rest else rest) :
    Budget (ts ++ [x]) x.post := by
  have hr : r ∈ x.pre.waiting := by rw [hpre]; exact List.mem_cons_self
  have hknown := h.known r hr
  have hnodup := h.nodup
  rw [hpre, List.map_cons, List.nodup_cons] at hnodup
  have htimes : ∀ call, timesDequeued call (ts ++ [x]) =
      timesDequeued call ts + if r.response = call then 1 else 0 := by
    intro call
    rw [timesDequeued_snoc, hx call]
    simp
  -- the others have channels of their own, and keep their budget
  have hrest : ∀ r' ∈ rest, r' ∈ x.pre.waiting ∧ r.response ≠ r'.response := by
    intro r' hr'
    refine ⟨hpre ▸ List.mem_cons_of_mem r hr', fun heq => hnodup.1 ?_⟩
    exact heq ▸ List.mem_map_of_mem hr'
  have hspent : ∀ r' ∈ rest,
      r'.retry + timesDequeued r'.response (ts ++ [x]) = initialRetry := by
    intro r' hr'
    obtain ⟨hmem, hne⟩ := hrest r' hr'
    rw [htimes, if_neg hne]
    exact h.spent r' hmem
  have hfresh : ∀ call, x.post.calls ≤ call → timesDequeued call (ts ++ [x]) = 0 := by
    intro call hcall
    rw [htimes, h.fresh call (by omega), if_neg (by omega)]
  -- put back with one unit less, or no longer waiting
  by_cases hback : r.retry ≠ 0 ∧ ¬ x.pre.connected
  · rw [if_pos hback] at hw
    refine ⟨fun r' hr' => ?_, ?_, fun r' hr' => ?_, hfresh⟩
    · rw [hc]
      rcases List.mem_cons.mp (hw ▸ hr') with rfl | hr'
      · exact hknown
      · exact h.known r' (hrest r' hr').1
    · rw [hw, List.map_cons, List.nodup_cons]
      exact hnodup
    · rcases List.mem_cons.mp (hw ▸ hr') with rfl | hr'
      · have := h.spent r hr
        have := hback.1
        simp only [htimes, if_true]
        omega
      · exact hspent r' hr'
  · rw [if_neg hback] at hw
    refine ⟨fun r' hr' => ?_, ?_, fun r' hr' => hspent r' (hw ▸ hr'), hfresh⟩
    · rw [hc]
      exact h.known r' (hrest r' (hw ▸ hr')).1
    · rw [hw]
      exact hnodup.2

theorem Budget.step (h : Budget ts x.pre) (hx : WaitingStep x) : Budget (ts ++ [x]) x.post := by
  cases hx with
  | same none calls waiting => exact h.frame none calls waiting
  | added method params none calls waiting => exact h.added none calls waiting
  | taken r rest one calls before waiting => exact h.taken one calls before waiting

/-- The budgets add up after every run. -/
theorem budget_of_run [ToString P] {installable : Bool} {t : State P V}
    (h : Run (step installable) State.init ts t) : Budget ts t :=
  h.history_induction budget_init fun _ a e a' _ hb hs =>
    Budget.step (x := ⟨a, e, a'⟩) hb (waiting_step hs)

end Client

-- SUMMARY: The queue of the task drains: a weight for messages that every dequeue brings down.
import NoirSidecar.Client.Stall
import NoirSidecar.Client.Cancellation
import NoirSidecar.Client.Connection

/-!
# Draining the queue

Handling a message can put two into the queue, so its length is no measure. A request
weighs two for each retry it has left and one more, a `TryConnect` one: putting a request
back with its `TryConnect` costs one retry, which outweighs the pair by one.
-/

namespace Client

variable {P V : Type}

/-! ## Weights -/

def Request.weight (r : Request P) : Nat := 2 * r.retry + 1

def Message.weight : Message P → Nat
  | .request r => r.weight
  | .tryConnect => 1

def Message.isTryConnect : Message P → Bool
  | .request _ => false
  | .tryConnect => true

def weight : List (Message P) → Nat
  | [] => 0
  | m :: queue => m.weight + weight queue

/-- What the task is about to put into the queue. -/
def Phase.weight : Phase P → Nat
  | .resubmitting r => r.weight
  | _ => 0

def State.weight (s : State P V) : Nat := Client.weight s.queue + s.phase.weight

/-- How many steps the task takes, at most, to get to the next message. -/
def Phase.distance : Phase P → Nat
  | .resubmitting _ | .requesting _ | .connecting => 2
  | .awaitSignal => 1
  | .recv | .exited | .panicked => 0

def Event.isDequeue : Event P V → Bool
  | .dequeue => true
  | _ => false

@[simp] theorem weight_nil : weight ([] : List (Message P)) = 0 := rfl

@[simp] theorem weight_cons (m : Message P) (queue : List (Message P)) :
    weight (m :: queue) = m.weight + weight queue := rfl

@[simp] theorem weight_append (queue added : List (Message P)) :
    weight (queue ++ added) = weight queue + weight added := by
  induction queue with
  | nil => exact (Nat.zero_add _).symm
  | cons m queue ih => rw [List.cons_append, weight_cons, weight_cons, ih, Nat.add_assoc]

theorem Message.weight_pos (m : Message P) : 0 < m.weight := by
  cases m <;> simp [Message.weight, Request.weight]

theorem Phase.distance_le (p : Phase P) : p.distance ≤ 2 := by
  cases p <;> simp [Phase.distance]

theorem eq_nil_of_weight {queue : List (Message P)} (h : weight queue = 0) : queue = [] := by
  cases queue with
  | nil => rfl
  | cons m queue =>
    have := m.weight_pos
    rw [weight_cons] at h
    omega

/-- A request weighs seven at most. -/
theorem weight_le {queue : List (Message P)}
    (h : ∀ r ∈ Message.requests queue, r.retry ≤ initialRetry) :
    weight queue ≤ 7 * (Message.requests queue).length + queue.countP Message.isTryConnect := by
  induction queue with
  | nil => exact Nat.le_refl _
  | cons m queue ih =>
    cases m with
    | request r =>
      have hr : r.retry ≤ 3 := h r List.mem_cons_self
      have := ih fun r' hr' => h r' (List.mem_cons_of_mem r hr')
      have hweight : (Message.request r).weight = 2 * r.retry + 1 := rfl
      rw [weight_cons, Message.requests, List.length_cons,
        List.countP_cons_of_neg (by simp [Message.isTryConnect])]
      omega
    | tryConnect =>
      have := ih h
      have hweight : (Message.tryConnect (P := P)).weight = 1 := rfl
      rw [weight_cons, Message.requests, List.countP_cons_of_pos rfl]
      omega

/-! ## What a step does to the weight -/

variable [ToString P] {installable : Bool}

/-- Handling a message leaves less than the message weighed. -/
theorem State.handle_weight (s : State P V) (m : Message P) :
    (s.handle m).weight + 1 ≤ Client.weight s.queue + m.weight := by
  cases m with
  | tryConnect => exact Nat.le_refl _
  | request r =>
    have hweight : (Message.request r).weight = 2 * r.retry + 1 := rfl
    rw [State.handle_request, hweight]
    split_ifs with hretry hlive
    · have : (s.respond r.response (.error r.failed)).weight = Client.weight s.queue := rfl
      omega
    · show Client.weight s.queue + 0 + 1 ≤ _
      omega
    · have : (s.requeue r).weight =
          Client.weight (s.queue ++ [.tryConnect]) + (2 * (r.retry - 1) + 1) := rfl
      have htry : (Message.tryConnect (P := P)).weight = 1 := rfl
      rw [this, weight_append, weight_cons, weight_nil, htry]
      omega

/-- A dequeue takes off the weight, no other step adds to it, and each step the task takes
between two dequeues brings it closer to the second. -/
theorem drain_step {s s' : State P V} {e : Event P V} (hs : step installable s e = some s')
    (hsub : e.isSubmit = false) :
    (if e.isDequeue then 1 else 0) + s'.weight ≤ s.weight ∧
      (e.isDequeue = false → (if e.isTask then 1 else 0) + s'.phase.distance ≤ s.phase.distance) := by
  cases e with
  | submit method params => cases hsub
  | cancel call =>
    obtain ⟨-, rfl⟩ := step_cancel.mp hs
    simp [State.weight, Event.isDequeue, Event.isTask]
  | disconnect =>
    obtain ⟨-, rfl⟩ := step_disconnect.mp hs
    simp [State.weight, Event.isDequeue, Event.isTask]
  | ctrlC =>
    obtain rfl := step_ctrlC.mp hs
    simp [State.weight, Event.isDequeue, Event.isTask]
  | signalled =>
    obtain ⟨hp, -, -, rfl⟩ := step_signalled.mp hs
    simp [State.weight, State.finish, Event.isDequeue, Event.isTask, hp, Phase.weight, Phase.distance]
  | signalFailed =>
    obtain ⟨hp, -, rfl⟩ := step_signalFailed.mp hs
    simp [State.weight, Event.isDequeue, Event.isTask, hp, Phase.weight, Phase.distance]
  | dequeue =>
    obtain ⟨m, queue, hp, hq, rfl⟩ := step_dequeue.mp hs
    have hhandle := State.handle_weight { s with queue := queue, phase := .awaitSignal } m
    have hweight : s.weight = m.weight + Client.weight queue := by
      simp [State.weight, hq, hp, Phase.weight]
    refine ⟨?_, by simp [Event.isDequeue]⟩
    -- what is put back weighs less than what was taken off
    have hdeq : (Event.dequeue : Event P V).isDequeue = true := rfl
    rw [if_pos hdeq, Nat.add_comm, hweight, Nat.add_comm m.weight]
    exact hhandle
  | resubmit =>
    obtain ⟨r, hp, rfl⟩ := step_resubmit.mp hs
    simp [State.weight, Event.isDequeue, Event.isTask, hp, Phase.weight, Phase.distance, Message.weight]
  | answer response =>
    obtain ⟨r, hp, ⟨-, rfl⟩ | ⟨-, rfl⟩⟩ := step_answer.mp hs
    · simp [State.weight, State.finish, Event.isDequeue, Event.isTask, hp, Phase.weight, Phase.distance]
    · simp [State.weight, State.respond, Event.isDequeue, Event.isTask, hp, Phase.weight, Phase.distance]
  | connect result =>
    obtain ⟨hp, rfl⟩ := step_connect.mp hs
    simp [State.weight, Event.isDequeue, Event.isTask, hp, Phase.weight, Phase.distance]

variable {ts : List (Step (State P V) (Event P V))} {s t : State P V}

/-- What is dequeued and what is left weigh no more than what was there. -/
theorem dequeues_add_weight_le (h : Run (step installable) s ts t)
    (hsub : ∀ x ∈ ts, x.ev.isSubmit = false) :
    ts.countP (fun x => x.ev.isDequeue) + t.weight ≤ s.weight :=
  h.countP_add_le (fun _ hs hx => (drain_step hs hx).1) hsub

/-- The task takes up to three steps for each dequeue. -/
theorem task_steps_le (h : Run (step installable) s ts t)
    (hsub : ∀ x ∈ ts, x.ev.isSubmit = false) :
    ts.countP (fun x => x.ev.isTask) + (3 * t.weight + t.phase.distance) ≤
      3 * s.weight + s.phase.distance := by
  refine h.countP_add_le (μ := fun s => 3 * s.weight + s.phase.distance) (fun x hs hx => ?_) hsub
  obtain ⟨hweight, hdistance⟩ := drain_step hs hx
  cases hd : x.ev.isDequeue with
  | false =>
    have := hdistance hd
    rw [hd] at hweight
    simp only [Bool.false_eq_true, if_false] at hweight
    omega
  | true =>
    have := x.post.phase.distance_le
    rw [hd, if_pos rfl] at hweight
    split <;> omega

/-- A task that has ended has dropped its queue. -/
theorem empty_of_ended (h : Run (step installable) s ts t) (hs : s.phase.Ended → s.queue = []) :
    t.phase.Ended → t.queue = [] := by
  refine (h.invariant (I := fun s => s.phase.Ended → s.queue = []) (fun s e s' hstep ih => ?_) hs).1
  cases e with
  | submit method params =>
    obtain rfl := step_submit.mp hstep
    intro hended
    rw [State.submit_phase] at hended
    simp [State.submit, hended, ih hended]
  | cancel call =>
    obtain ⟨-, rfl⟩ := step_cancel.mp hstep
    exact ih
  | disconnect =>
    obtain ⟨-, rfl⟩ := step_disconnect.mp hstep
    exact ih
  | ctrlC =>
    obtain rfl := step_ctrlC.mp hstep
    exact ih
  | signalled =>
    obtain ⟨-, -, -, rfl⟩ := step_signalled.mp hstep
    exact fun _ => rfl
  | signalFailed =>
    obtain ⟨-, -, rfl⟩ := step_signalFailed.mp hstep
    exact fun hended => hended.elim
  | dequeue =>
    obtain ⟨m, queue, -, -, rfl⟩ := step_dequeue.mp hstep
    intro hended
    cases m with
    | tryConnect => exact hended.elim
    | request r =>
      rw [State.handle_request] at hended
      split_ifs at hended <;> exact hended.elim
  | resubmit =>
    obtain ⟨r, -, rfl⟩ := step_resubmit.mp hstep
    exact fun hended => hended.elim
  | answer response =>
    obtain ⟨r, -, ⟨-, rfl⟩ | ⟨-, rfl⟩⟩ := step_answer.mp hstep
    · exact fun _ => rfl
    · exact fun hended => hended.elim
  | connect result =>
    obtain ⟨-, rfl⟩ := step_connect.mp hstep
    exact fun hended => hended.elim

/-- The task comes to rest only with an empty queue, or where it waits for Ctrl-C. -/
theorem empty_of_rest (hended : t.phase.Ended → t.queue = [])
    (hrest : ∀ e, e.isTask → step installable t e = none) :
    t.queue = [] ∨ installable ∧ t.phase = .awaitSignal := by
  by_cases hbody : t.phase.Handling
  · have hprogress : ∃ e s', Event.isTask e ∧ step installable t e = some s' :=
      handling_progress hbody
    obtain ⟨e, s', htask, hstep⟩ := hprogress
    rw [hrest e htask] at hstep
    cases hstep
  · cases hp : t.phase with
    | awaitSignal =>
      cases hi : installable with
      | true => exact .inr ⟨rfl, rfl⟩
      | false =>
        have := hrest .signalFailed rfl
        simp [step, hp, hi] at this
    | recv =>
      cases hq : t.queue with
      | nil => exact .inl rfl
      | cons m queue =>
        have := hrest .dequeue rfl
        simp [step, hp, hq] at this
    | exited => exact .inl (hended (by rw [hp]; trivial))
    | panicked => exact .inl (hended (by rw [hp]; trivial))
    | _ => exact absurd (by rw [hp]; trivial) hbody

/-- From the head of the loop, with no further request submitted: the dequeues are at most
seven for each queued request and one for each `TryConnect`, and when that many have been
made the queue is empty; the task takes finitely many steps, and it is only at rest with an
empty queue, or where it waits for Ctrl-C. -/
theorem drains (h : Run (step installable) s ts t) (hs : s.phase = .awaitSignal ∨ s.phase = .recv)
    (hretry : ∀ r ∈ Message.requests s.queue, r.retry ≤ 3)
    (hsub : ∀ x ∈ ts, x.ev.isSubmit = false) :
    let bound := 7 * (Message.requests s.queue).length + s.queue.countP Message.isTryConnect
    ts.countP (fun x => x.ev.isDequeue) ≤ bound ∧
    (ts.countP (fun x => x.ev.isDequeue) = bound → t.queue = []) ∧
    ts.countP (fun x => x.ev.isTask) ≤ 3 * bound + 1 ∧
    ((∀ e, e.isTask → step installable t e = none) →
      t.queue = [] ∨ installable ∧ t.phase = .awaitSignal) := by
  intro bound
  have hbound : Client.weight s.queue ≤ bound := weight_le hretry
  have hweight : s.weight = Client.weight s.queue := by
    rcases hs with hp | hp <;> simp [State.weight, hp, Phase.weight]
  have hdistance : s.phase.distance ≤ 1 := by
    rcases hs with hp | hp <;> simp [hp, Phase.distance]
  have hdequeues := dequeues_add_weight_le h hsub
  have hsteps := task_steps_le h hsub
  refine ⟨by omega, fun hall => ?_, by omega, empty_of_rest (empty_of_ended h fun hended => ?_)⟩
  · apply eq_nil_of_weight
    have : t.weight = Client.weight t.queue + t.phase.weight := rfl
    omega
  · rcases hs with hp | hp <;> simp [hp, Phase.Ended] at hended

/-- A request and a `TryConnect` left over from another one, in front of a node that cannot
be reached. -/
def leftOver : State String String :=
  { State.init with calls := 1, queue := [.request ⟨"state_call", "[]", 0, 3⟩, .tryConnect] }

def refusedTurn : List (Event String String) := connectTurn (.error ⟨"connection refused"⟩)

def unreachable : List (Event String String) :=
  requeueTurn ++ refusedTurn ++ refusedTurn ++ requeueTurn ++ refusedTurn ++ requeueTurn ++
    refusedTurn ++ [.signalFailed, .dequeue]

/-- The bound is reached: eight dequeues empty the queue. -/
theorem drained_by_eight_dequeues :
    let ts := trace (step false) leftOver unreachable
    ts.countP (fun x => x.ev.isDequeue) = 8 ∧ (after leftOver ts).queue = [] := by
  intro ts
  have hcount : ts.countP (fun x => x.ev.isDequeue) = 8 := by decide
  have hrun : Run (step false) leftOver ts (after leftOver ts) := .of_trace leftOver unreachable
  have hall := drains hrun (.inl rfl) (by decide) (by decide)
  exact ⟨hcount, hall.2.1 hcount⟩

end Client

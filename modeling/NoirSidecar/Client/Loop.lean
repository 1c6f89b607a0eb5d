-- SUMMARY: The node client: messages, the task of `Client::run` as a machine, and what each step of it can do.
import NoirSidecar.Base.Machine

/-!
# The node client task

`Client::request` puts a `Message` with the sender of a oneshot channel into an
unbounded queue; the task spawned by `Client::run` takes the messages out one by
one and talks to the node. The task is a machine over its program point (`Phase`),
the queue and the optional connection. Callers, the remote end and the operator
act between any two of its steps, so an await point is a phase of its own.

The parameters of a request and the value of an answer are never looked at, so
both are type parameters.
-/

namespace Client

/-! ## Messages -/

/-- A failure of the websocket library. Only its debug text is ever used. -/
structure ClientError where
  text : String
  deriving DecidableEq, Repr

inductive Error where
  | clientError (e : ClientError)
  | invalidRequest (text : String)
  | parseError (text : String)
  | requestFailed (text : String)
  | unexpectedResponse (text : String)
  deriving DecidableEq, Repr

/-- What is sent back over the oneshot channel of a request. -/
abbrev Response (V : Type) := Except Error V

/-- `response` names the oneshot channel whose sender the request carries. -/
structure Request (P : Type) where
  method : String
  params : P
  response : Nat
  retry : Nat
  deriving DecidableEq, Repr

inductive Message (P : Type) where
  | request (r : Request P)
  | tryConnect
  deriving DecidableEq, Repr

/-- The requests among some messages. -/
def Message.requests {P : Type} : List (Message P) → List (Request P)
  | [] => []
  | .request r :: ms => r :: requests ms
  | .tryConnect :: ms => requests ms

/-- The retry budget `Client::request` gives a new request. -/
def initialRetry : Nat := 3

/-- The connection held by the task: `is_connected()` is all the loop asks of it. -/
structure WsClient where
  isConnected : Bool
  deriving DecidableEq, Repr

/-! ## States and events -/

/-- Where the task is. `awaitSignal` is the head of the loop. -/
inductive Phase (P : Type) where
  | awaitSignal
  | recv
  /-- `TryConnect` has been sent, the request not yet. Other callers may get in
  between the two sends. -/
  | resubmitting (r : Request P)
  | requesting (r : Request P)
  | connecting
  | exited
  | panicked
  deriving DecidableEq, Repr

/-- The task is inside the message-handling body. -/
def Phase.Handling {P : Type} : Phase P → Prop
  | .resubmitting _ | .requesting _ | .connecting => True
  | _ => False

/-- The task has ended; the receiver of the queue is gone with it. -/
def Phase.Ended {P : Type} : Phase P → Prop
  | .exited | .panicked => True
  | _ => False

instance {P : Type} (p : Phase P) : Decidable p.Handling := by
  cases p <;> unfold Phase.Handling <;> infer_instance

instance {P : Type} (p : Phase P) : Decidable p.Ended := by
  cases p <;> unfold Phase.Ended <;> infer_instance

/-- `calls` counts the channels made so far and names the next one; `gone` are
the channels whose receiver has been dropped. `sent`, `dropped` and `forwarded`
record what became of the senders: used for a response, dropped unused, kept
while the request is at the node. -/
structure State (P V : Type) where
  phase : Phase P
  queue : List (Message P)
  client : Option WsClient
  signal : Bool
  calls : Nat
  gone : List Nat
  sent : List (Nat × Response V)
  dropped : List Nat
  forwarded : List Nat
  deriving DecidableEq

variable {P V : Type}

def State.init : State P V where
  phase := .awaitSignal
  queue := []
  client := none
  signal := false
  calls := 0
  gone := []
  sent := []
  dropped := []
  forwarded := []

def State.connected (s : State P V) : Bool := s.client.any WsClient.isConnected

/-- Steps of the world around the task, then steps of the task. -/
inductive Event (P V : Type) where
  | submit (method : String) (params : P)
  | cancel (call : Nat)
  | disconnect
  | ctrlC
  | signalled
  | signalFailed
  | dequeue
  | resubmit
  | answer (response : Except ClientError V)
  | connect (result : Except ClientError Unit)
  deriving DecidableEq

def Event.isTask : Event P V → Bool
  | .submit .. | .cancel _ | .disconnect | .ctrlC => false
  | _ => true

/-! ## The loop -/

/-- `Client::request` up to its await: make a channel and send the request. The
send fails when the task has ended, and the caller is told at once. -/
def State.submit (s : State P V) (method : String) (params : P) : State P V :=
  if s.phase.Ended then
    { s with calls := s.calls + 1, dropped := s.dropped ++ [s.calls] }
  else
    { s with
      calls := s.calls + 1
      queue := s.queue ++ [.request ⟨method, params, s.calls, initialRetry⟩] }

/-- The task ends: the queue is dropped with every sender in it. -/
def State.finish (s : State P V) (phase : Phase P) : State P V :=
  { s with
    phase := phase
    queue := []
    dropped := s.dropped ++ (Message.requests s.queue).map Request.response }

/-- `res_tx.send(response)` together with the return to the head of the loop. -/
def State.respond (s : State P V) (call : Nat) (response : Response V) : State P V :=
  { s with phase := .awaitSignal, sent := s.sent ++ [(call, response)] }

/-- The branch of a request met while there is no live connection. -/
def State.requeue (s : State P V) (r : Request P) : State P V :=
  { s with
    phase := .resubmitting { r with retry := r.retry - 1 }
    queue := s.queue ++ [.tryConnect] }

def Request.failed [ToString P] (r : Request P) : Error :=
  .requestFailed s!"Request failed. method={r.method}, params={r.params}"

/-- The body of the loop up to its first await, for a message taken off the queue. -/
def State.handle [ToString P] (s : State P V) : Message P → State P V
  | .request r =>
    -- no attempt is left
    if r.retry = 0 then s.respond r.response (.error r.failed)
    else if let some client := s.client then
      if !client.isConnected then s.requeue r
      else { s with phase := .requesting r, forwarded := s.forwarded ++ [r.response] }
    else s.requeue r
  | .tryConnect => { s with phase := .connecting }

/-- One step of the world or of the task. `installable` says whether the Ctrl-C
handler can be installed: if so `ctrl_c().await` waits for the signal, otherwise
it fails at once. `recv` never sees a closed queue, the task holds a sender
itself. -/
def step [ToString P] (installable : Bool) (s : State P V) : Event P V → Option (State P V)
  | .submit method params => some (s.submit method params)
  | .cancel call =>
    if call < s.calls then some { s with gone := call :: s.gone } else none
  | .disconnect =>
    if s.connected then some { s with client := some ⟨false⟩ } else none
  | .ctrlC => some { s with signal := true }
  | .signalled =>
    match s.phase with
    | .awaitSignal => if installable && s.signal then some (s.finish .exited) else none
    | _ => none
  | .signalFailed =>
    match s.phase with
    | .awaitSignal => if !installable then some { s with phase := .recv } else none
    | _ => none
  | .dequeue =>
    match s.phase, s.queue with
    -- the body runs up to its next await in one step
    | .recv, m :: queue => some (State.handle { s with queue := queue, phase := .awaitSignal } m)
    | _, _ => none
  | .resubmit =>
    match s.phase with
    | .resubmitting r =>
      some { s with phase := .awaitSignal, queue := s.queue ++ [.request r] }
    | _ => none
  | .answer response =>
    match s.phase with
    | .requesting r =>
      if r.response ∈ s.gone then some (s.finish .panicked) -- `unwrap` of a failed send
      else some (s.respond r.response (response.mapError .clientError))
    | _ => none
  | .connect result =>
    match s.phase with
    | .connecting =>
      some { s with
        phase := .awaitSignal
        client := result.toOption.map fun _ => ⟨true⟩ }
    | _ => none

/-! ## What each step can do -/

@[simp] theorem State.submit_phase (s : State P V) (method : String) (params : P) :
    (s.submit method params).phase = s.phase := by
  unfold State.submit; split <;> rfl

@[simp] theorem State.submit_signal (s : State P V) (method : String) (params : P) :
    (s.submit method params).signal = s.signal := by
  unfold State.submit; split <;> rfl

@[simp] theorem State.submit_client (s : State P V) (method : String) (params : P) :
    (s.submit method params).client = s.client := by
  unfold State.submit; split <;> rfl

section Steps

variable [ToString P] {installable : Bool} {s s' : State P V}

@[simp] theorem step_submit {method : String} {params : P} :
    step installable s (.submit method params) = some s' ↔ s' = s.submit method params := by
  simp [step, @eq_comm _ s']

@[simp] theorem step_cancel {call : Nat} :
    step installable s (.cancel call) = some s' ↔
      call < s.calls ∧ s' = { s with gone := call :: s.gone } := by
  simp [step, @eq_comm _ s']

@[simp] theorem step_disconnect :
    step installable s .disconnect = some s' ↔
      s.connected ∧ s' = { s with client := some ⟨false⟩ } := by
  simp [step, @eq_comm _ s']

@[simp] theorem step_ctrlC :
    step installable s .ctrlC = some s' ↔ s' = { s with signal := true } := by
  simp [step, @eq_comm _ s']

@[simp] theorem step_signalled :
    step installable s .signalled = some s' ↔
      s.phase = .awaitSignal ∧ installable ∧ s.signal ∧ s' = s.finish .exited := by
  cases hp : s.phase <;> simp [step, hp, @eq_comm _ s', and_assoc]

@[simp] theorem step_signalFailed :
    step installable s .signalFailed = some s' ↔
      s.phase = .awaitSignal ∧ installable = false ∧ s' = { s with phase := .recv } := by
  cases hp : s.phase <;> simp [step, hp, @eq_comm _ s']

@[simp] theorem step_dequeue :
    step installable s .dequeue = some s' ↔
      ∃ m queue, s.phase = .recv ∧ s.queue = m :: queue ∧
        s' = State.handle { s with queue := queue, phase := .awaitSignal } m := by
  cases hp : s.phase <;> cases hq : s.queue <;> simp [step, hp, hq, @eq_comm _ s']

@[simp] theorem step_resubmit :
    step installable s .resubmit = some s' ↔
      ∃ r, s.phase = .resubmitting r ∧
        s' = { s with phase := .awaitSignal, queue := s.queue ++ [.request r] } := by
  cases hp : s.phase <;> simp [step, hp, @eq_comm _ s']

@[simp] theorem step_answer {response : Except ClientError V} :
    step installable s (.answer response) = some s' ↔
      ∃ r, s.phase = .requesting r ∧
        (r.response ∈ s.gone ∧ s' = s.finish .panicked ∨
          r.response ∉ s.gone ∧ s' = s.respond r.response (response.mapError .clientError)) := by
  cases hp : s.phase with
  | requesting r => by_cases hg : r.response ∈ s.gone <;> simp [step, hp, hg, @eq_comm _ s']
  | _ => simp [step, hp]

@[simp] theorem step_connect {result : Except ClientError Unit} :
    step installable s (.connect result) = some s' ↔
      s.phase = .connecting ∧
        s' = { s with phase := .awaitSignal, client := result.toOption.map fun _ => ⟨true⟩ } := by
  cases hp : s.phase <;> simp [step, hp, @eq_comm _ s']

/-- What goes on around the task does not move it. -/
theorem phase_of_world_step {e : Event P V} (h : step installable s e = some s')
    (he : e.isTask = false) : s'.phase = s.phase := by
  cases e with
  | submit method params =>
    obtain rfl := step_submit.mp h
    exact State.submit_phase s method params
  | cancel call =>
    obtain ⟨-, rfl⟩ := step_cancel.mp h
    rfl
  | disconnect =>
    obtain ⟨-, rfl⟩ := step_disconnect.mp h
    rfl
  | ctrlC =>
    obtain rfl := step_ctrlC.mp h
    rfl
  | _ => cases he

/-- A task that has ended takes no step. -/
theorem alive_of_task_step {e : Event P V} (h : step installable s e = some s') (he : e.isTask) :
    ¬ s.phase.Ended := by
  cases e with
  | signalled =>
    obtain ⟨hp, -⟩ := step_signalled.mp h
    simp [hp, Phase.Ended]
  | signalFailed =>
    obtain ⟨hp, -⟩ := step_signalFailed.mp h
    simp [hp, Phase.Ended]
  | dequeue =>
    obtain ⟨_, _, hp, -⟩ := step_dequeue.mp h
    simp [hp, Phase.Ended]
  | resubmit =>
    obtain ⟨_, hp, -⟩ := step_resubmit.mp h
    simp [hp, Phase.Ended]
  | answer response =>
    obtain ⟨_, hp, -⟩ := step_answer.mp h
    simp [hp, Phase.Ended]
  | connect result =>
    obtain ⟨hp, -⟩ := step_connect.mp h
    simp [hp, Phase.Ended]
  | _ => cases he

theorem ended_step {e : Event P V} (h : step installable s e = some s') (hs : s.phase.Ended) :
    s'.phase.Ended := by
  have he : e.isTask = false := Bool.eq_false_iff.mpr fun he => alive_of_task_step h he hs
  rwa [phase_of_world_step h he]

/-- A request is refused when its budget is used up, forwarded when there is a
live connection, and otherwise put back. -/
theorem State.handle_request (s : State P V) (r : Request P) :
    s.handle (.request r) =
      if r.retry = 0 then s.respond r.response (.error r.failed)
      else if s.connected then
        { s with phase := .requesting r, forwarded := s.forwarded ++ [r.response] }
      else s.requeue r := by
  unfold State.handle State.connected
  rcases s.client with - | ⟨_ | _⟩ <;> rfl

end Steps

@[simp] theorem Message.requests_append {P : Type} (ms ms' : List (Message P)) :
    requests (ms ++ ms') = requests ms ++ requests ms' := by
  induction ms with
  | nil => rfl
  | cons m ms ih => cases m <;> simp [requests, ih]

end Client

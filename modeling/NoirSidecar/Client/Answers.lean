-- SUMMARY: Where the sender of a request is at each point of a run: queued, with the task, or used for one response.
import NoirSidecar.Client.Connection
import Mathlib.Data.List.Nodup

/-!
# Answers

The task takes the sender of a request out of the queue together with the request.
While it handles the message it holds the sender itself: for as long as the node
takes to answer, the request is neither queued nor answered. Otherwise a sender is
where it was, so there is always exactly one, and what has been forwarded never gets
back into the queue.
-/

namespace Client

variable {P V : Type}

/-! ## Senders -/

/-- The senders in the queue. -/
def State.queued (s : State P V) : List Nat := (Message.requests s.queue).map Request.response

/-- The sender of the message the task is handling. -/
def State.held (s : State P V) : List Nat :=
  match s.phase with
  | .resubmitting r | .requesting r => [r.response]
  | _ => []

/-- The senders a response has been sent with. -/
def State.answered (s : State P V) : List Nat := s.sent.map Prod.fst

/-- The senders of all calls made so far. -/
def State.made (s : State P V) : List Nat := List.range s.calls

/-- As long as the task is alive the sender of every call made so far is in one place.
At most one request for it has gone to the node, and none is waiting then. -/
structure Conserved (s : State P V) : Prop where
  once : ¬ s.phase.Ended → ∀ call,
    s.queued.count call + s.held.count call + s.answered.count call = s.made.count call
  forwarded : ∀ call, s.forwarded.count call + (s.waiting.map Request.response).count call ≤
    s.made.count call

theorem conserved_init : Conserved (State.init : State P V) := by
  constructor <;> simp [State.init, State.queued, State.held, State.answered, State.waiting,
    State.made, Message.requests]

/-- When the task ends only what was forwarded is of interest. -/
theorem Conserved.finish {s : State P V} {phase : Phase P} (h : Conserved s)
    (hend : phase.Ended) : Conserved (s.finish phase) := by
  refine ⟨fun halive => absurd hend halive, fun call => ?_⟩
  have hforwarded := h.forwarded call
  have hwaiting : (s.finish phase).waiting = [] := by
    cases phase <;> simp_all [State.finish, State.waiting, Message.requests, Phase.Ended]
  rw [hwaiting]
  have hmade : (s.finish phase).made = s.made := rfl
  rw [hmade]
  simp only [State.finish, List.map_nil, List.count_nil]
  omega

theorem Conserved.submit {s : State P V} (h : Conserved s) (method : String) (params : P) :
    Conserved (s.submit method params) := by
  have hmade : ∀ call, (s.submit method params).made.count call =
      s.made.count call + [s.calls].count call := by
    intro call
    have hcalls : (s.submit method params).calls = s.calls + 1 := by
      unfold State.submit
      split <;> rfl
    rw [State.made, hcalls, List.range_succ, List.count_append]
    rfl
  by_cases hend : s.phase.Ended
  · refine ⟨fun halive => absurd (by simpa using hend) halive, fun call => ?_⟩
    have hforwarded := h.forwarded call
    have hcalls := hmade call
    have hwaiting : (s.submit method params).waiting = s.waiting := by
      simp [State.submit, hend, State.waiting]
    have hkept : (s.submit method params).forwarded = s.forwarded := by simp [State.submit, hend]
    rw [hwaiting, hkept]
    omega
  · have hsubmit : s.submit method params = { s with
        calls := s.calls + 1
        queue := s.queue ++ [.request ⟨method, params, s.calls, initialRetry⟩] } := if_neg hend
    have hwaiting : (s.submit method params).waiting =
        s.waiting ++ [⟨method, params, s.calls, initialRetry⟩] := by
      cases hp : s.phase <;> simp_all [State.waiting, Message.requests, Phase.Ended]
    refine ⟨fun _ call => ?_, fun call => ?_⟩
    · have honce := h.once hend call
      have hcalls := hmade call
      rw [hcalls, hsubmit]
      simp only [State.queued, State.held, State.answered, Message.requests_append,
        Message.requests, List.map_append, List.count_append, List.map_cons, List.map_nil] at honce ⊢
      omega
    · have hforwarded := h.forwarded call
      have hcalls := hmade call
      rw [hcalls, hwaiting, hsubmit]
      simp only [List.map_append, List.count_append, List.map_cons, List.map_nil]
      omega

variable [ToString P] {installable : Bool}

/-- What handling a message does with its sender. -/
theorem Conserved.dequeue {s : State P V} {m : Message P} {queue : List (Message P)}
    (h : Conserved s) (hp : s.phase = .recv) (hq : s.queue = m :: queue) :
    Conserved (State.handle { s with queue := queue, phase := .awaitSignal } m) := by
  have halive : ¬ s.phase.Ended := by simp [hp, Phase.Ended]
  cases m with
  | tryConnect =>
    refine ⟨fun _ call => ?_, fun call => ?_⟩
    · have honce := h.once halive call
      simpa [State.handle, State.queued, State.held, State.answered, State.made, hp, hq,
        Message.requests] using honce
    · have hforwarded := h.forwarded call
      simpa [State.handle, State.waiting, State.made, hp, hq, Message.requests] using hforwarded
  | request r =>
    have honce := h.once halive
    have hforwarded := h.forwarded
    simp only [State.queued, State.held, State.answered, State.waiting, State.made, hp, hq,
      Message.requests, List.map_cons, List.count_cons, List.count_nil, beq_iff_eq] at honce hforwarded
    rw [State.handle_request]
    by_cases hretry : r.retry = 0
    · rw [if_pos hretry]
      -- refused: the sender is used up for the response
      refine ⟨fun _ call => ?_, fun call => ?_⟩
      · have := honce call
        simp only [State.respond, State.queued, State.held, State.answered, State.made, List.map_append,
          List.map_cons, List.map_nil, List.count_append, List.count_singleton, List.count_nil,
          beq_iff_eq]
        omega
      · have := hforwarded call
        simp only [State.respond, State.waiting, State.made]
        omega
    · rw [if_neg hretry]
      by_cases hlive : State.connected { s with queue := queue, phase := .awaitSignal }
      · rw [if_pos hlive]
        -- forwarded: the task keeps the sender
        refine ⟨fun _ call => ?_, fun call => ?_⟩
        · have := honce call
          simp only [State.queued, State.held, State.answered, State.made, List.count_singleton,
            beq_iff_eq]
          omega
        · have := hforwarded call
          simp only [State.waiting, State.made, List.count_append, List.count_singleton, beq_iff_eq]
          omega
      · rw [if_neg hlive]
        -- put back: the task keeps the sender until it sends it on
        refine ⟨fun _ call => ?_, fun call => ?_⟩
        · have := honce call
          simp only [State.requeue, State.queued, State.held, State.answered, State.made,
            Message.requests_append, Message.requests, List.append_nil, List.count_singleton,
            beq_iff_eq]
          omega
        · have := hforwarded call
          simp only [State.requeue, State.waiting, State.made, Message.requests_append, Message.requests,
            List.append_nil, List.map_cons, List.count_cons, beq_iff_eq]
          omega

/-- Every step keeps the senders. -/
theorem conserved_step {s s' : State P V} {e : Event P V} (hs : step installable s e = some s')
    (h : Conserved s) : Conserved s' := by
  cases e with
  | submit method params =>
    obtain rfl := step_submit.mp hs
    exact h.submit method params
  | cancel call =>
    obtain ⟨-, rfl⟩ := step_cancel.mp hs
    exact ⟨h.once, h.forwarded⟩
  | disconnect =>
    obtain ⟨-, rfl⟩ := step_disconnect.mp hs
    exact ⟨h.once, h.forwarded⟩
  | ctrlC =>
    obtain rfl := step_ctrlC.mp hs
    exact ⟨h.once, h.forwarded⟩
  | signalled =>
    obtain ⟨-, -, -, rfl⟩ := step_signalled.mp hs
    exact h.finish trivial
  | signalFailed =>
    obtain ⟨hp, -, rfl⟩ := step_signalFailed.mp hs
    refine ⟨fun _ => ?_, ?_⟩
    · simpa [State.queued, State.held, State.answered, State.made, hp, Phase.Ended] using h.once
    · simpa [State.waiting, State.made, hp] using h.forwarded
  | dequeue =>
    obtain ⟨m, queue, hp, hq, rfl⟩ := step_dequeue.mp hs
    exact h.dequeue hp hq
  | resubmit =>
    obtain ⟨r, hp, rfl⟩ := step_resubmit.mp hs
    -- the sender goes from the phase back into the queue
    refine ⟨fun _ call => ?_, fun call => ?_⟩
    · have := h.once (by simp [hp, Phase.Ended]) call
      simp only [State.queued, State.held, State.answered, State.made, hp, Message.requests_append,
        Message.requests, List.map_append, List.map_cons, List.map_nil, List.count_append,
        List.count_nil] at this ⊢
      omega
    · have := h.forwarded call
      simp only [State.waiting, State.made, hp, Message.requests_append, Message.requests, List.map_append,
        List.map_cons, List.map_nil, List.count_append, List.count_cons, List.count_nil] at this ⊢
      omega
  | answer response =>
    obtain ⟨r, hp, ⟨-, rfl⟩ | ⟨-, rfl⟩⟩ := step_answer.mp hs
    -- the receiver is gone: the task ends with every sender it has
    · exact h.finish trivial
    · refine ⟨fun _ call => ?_, fun call => ?_⟩
      · have := h.once (by simp [hp, Phase.Ended]) call
        simp only [State.respond, State.queued, State.held, State.answered, State.made, hp, List.map_append,
          List.map_cons, List.map_nil, List.count_append, List.count_nil] at this ⊢
        omega
      · simpa [State.respond, State.waiting, State.made, hp] using h.forwarded call
  | connect result =>
    obtain ⟨hp, rfl⟩ := step_connect.mp hs
    refine ⟨fun _ => ?_, ?_⟩
    · simpa [State.queued, State.held, State.answered, State.made, hp, Phase.Ended] using h.once
    · simpa [State.waiting, State.made, hp] using h.forwarded

/-- What has been forwarded stays so. -/
theorem forwarded_step {s s' : State P V} {e : Event P V} (hs : step installable s e = some s') :
    s.forwarded <+: s'.forwarded := by
  cases e with
  | submit method params =>
    obtain rfl := step_submit.mp hs
    unfold State.submit
    split <;> exact List.prefix_rfl
  | cancel call =>
    obtain ⟨-, rfl⟩ := step_cancel.mp hs
    exact List.prefix_rfl
  | disconnect =>
    obtain ⟨-, rfl⟩ := step_disconnect.mp hs
    exact List.prefix_rfl
  | ctrlC =>
    obtain rfl := step_ctrlC.mp hs
    exact List.prefix_rfl
  | signalled =>
    obtain ⟨-, -, -, rfl⟩ := step_signalled.mp hs
    exact List.prefix_rfl
  | signalFailed =>
    obtain ⟨-, -, rfl⟩ := step_signalFailed.mp hs
    exact List.prefix_rfl
  | dequeue =>
    obtain ⟨m, queue, -, -, rfl⟩ := step_dequeue.mp hs
    cases m with
    | tryConnect => exact List.prefix_rfl
    | request r =>
      rw [State.handle_request]
      -- only a request that meets a live connection is forwarded
      split_ifs
      · exact List.prefix_rfl
      · exact List.prefix_append _ _
      · exact List.prefix_rfl
  | resubmit =>
    obtain ⟨r, -, rfl⟩ := step_resubmit.mp hs
    exact List.prefix_rfl
  | answer response =>
    obtain ⟨r, -, ⟨-, rfl⟩ | ⟨-, rfl⟩⟩ := step_answer.mp hs
    · exact List.prefix_rfl
    · exact List.prefix_rfl
  | connect result =>
    obtain ⟨-, rfl⟩ := step_connect.mp hs
    exact List.prefix_rfl

/-- A request is taken off the queue once for each unit of its budget, and once more
to be refused. -/
theorem timesDequeued_le {ts : List (Step (State P V) (Event P V))} {t : State P V}
    (h : Run (step installable) State.init ts t) (call : Nat) :
    timesDequeued call ts ≤ initialRetry + 1 := by
  refine h.history_induction (P := fun ts _ => timesDequeued call ts ≤ initialRetry + 1) ?_ ?_
  · exact Nat.zero_le _
  · intro as a e a' hrun ih hs
    rw [timesDequeued_snoc]
    by_cases hdeq : dequeues call ⟨a, e, a'⟩
    · rw [if_pos hdeq]
      obtain ⟨r, hr, hcall⟩ := dequeues_iff.mp hdeq
      have hspent := spent_of_dequeued hrun hs hr
      rw [hcall] at hspent
      omega
    · rw [if_neg hdeq]
      exact ih

/-- In every state a run reaches, for every call made in it: as long as the task is
alive, the sender is in one queued request, or with the task, which is then handling
the request, or has been used for the one response. It has been forwarded at most
once, is not put back in the queue after that, and has been dequeued at most four
times. -/
theorem answered_once {ts : List (Step (State P V) (Event P V))} {t : State P V}
    (h : Run (step installable) State.init ts t) {call : Nat} (hcall : call < t.calls) :
    (¬ t.phase.Ended →
      t.queued.count call + t.held.count call + t.answered.count call = 1 ∧
      (¬ t.phase.Handling → t.held.count call = 0)) ∧
    t.forwarded.count call ≤ 1 ∧
    (∀ u ∈ visited State.init ts, call ∈ u.forwarded → call ∉ t.waiting.map Request.response) ∧
    timesDequeued call ts ≤ 4 := by
  have hconserved : Conserved t := (h.invariant (fun _ _ _ => conserved_step) conserved_init).1
  have hmade : t.made.count call = 1 :=
    List.nodup_iff_count_eq_one.mp List.nodup_range call (List.mem_range.mpr hcall)
  have hforwarded := hconserved.forwarded call
  rw [hmade] at hforwarded
  refine ⟨fun halive => ⟨?_, fun hidle => ?_⟩, by omega, fun u hu hmem => ?_, timesDequeued_le h call⟩
  · rw [hconserved.once halive, hmade]
  · cases hp : t.phase <;> simp_all [State.held, Phase.Handling]
  · have hkept : u.forwarded <+: t.forwarded :=
      h.visited_le (R := fun u v => u.forwarded <+: v.forwarded) (fun _ => List.prefix_rfl)
        (fun _ _ _ => List.IsPrefix.trans) (fun _ _ _ => forwarded_step) u hu
    have hpos := List.count_pos_iff.mpr (hkept.subset hmem)
    apply List.count_eq_zero.mp
    omega

/-! ## A request at the node -/

/-- A connection is made and the request is sent over it. -/
def atTheNode : List (Event String String) :=
  .submit "state_call" "[]" :: (requeueTurn ++ connectTurn (.ok ()) ++ [.signalFailed, .dequeue])

/-- While the node has the request, its sender is neither queued nor answered. -/
theorem neither_queued_nor_answered : ¬ ∀ (installable : Bool)
    (ts : List (Step (State String String) (Event String String))) (t : State String String),
    Run (step installable) State.init ts t → ¬ t.phase.Ended → ∀ call < t.calls,
      t.queued.count call = 1 ∧ t.answered.count call = 0 ∨
        t.queued.count call = 0 ∧ t.answered.count call = 1 := by
  intro hall
  have hone := hall false _ _ (.of_trace State.init atTheNode) (by decide) 0 (by decide)
  revert hone
  decide

/-- The node answers. -/
theorem answered_once_by_node :
    let ts := trace (step false) State.init (atTheNode ++ [.answer (.ok "0x")])
    let t := after State.init ts
    (¬ t.phase.Ended →
      t.queued.count 0 + t.held.count 0 + t.answered.count 0 = 1 ∧
      (¬ t.phase.Handling → t.held.count 0 = 0)) ∧
    t.forwarded.count 0 ≤ 1 ∧
    (∀ u ∈ visited State.init ts, 0 ∈ u.forwarded → 0 ∉ t.waiting.map Request.response) ∧
    timesDequeued 0 ts ≤ 4 :=
  answered_once (.of_trace _ _) (by decide)

end Client

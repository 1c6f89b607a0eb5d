-- SUMMARY: Between two dequeues of one request the connect attempt it asked for is made.
import NoirSidecar.Base.Channel
import NoirSidecar.Client.Answers

/-!
# Retries

A request that finds no live connection asks for one before it goes back into the queue:
its `TryConnect` is ahead of it, wherever other callers and other requests put theirs. So
by the time it is dequeued again an attempt of its own has been made.
-/

namespace Client

variable {P V : Type} [ToString P] {installable : Bool}

/-! ## The queue of the task -/

/-- What a message does to the queue it has been taken off: at most a `TryConnect` is added. -/
theorem State.handle_queue (s : State P V) (m : Message P) :
    (s.handle m).queue = s.queue ∨ (s.handle m).queue = s.queue ++ [.tryConnect] := by
  cases m with
  | tryConnect => exact .inl rfl
  | request r =>
    rw [State.handle_request]
    split_ifs
    · exact .inl rfl
    · exact .inl rfl
    · exact .inr rfl

/-- What a step can do to the queue: messages are taken off at the head and added at the
end, until the task ends. -/
theorem queue_step {s s' : State P V} {e : Event P V} (hs : step installable s e = some s') :
    s'.phase.Ended ∨ (e ≠ .dequeue ∧ ∃ added, s'.queue = s.queue ++ added) ∨
      (e = .dequeue ∧ ∃ m queue added, s.queue = m :: queue ∧ s'.queue = queue ++ added) := by
  cases e with
  | submit method params =>
    obtain rfl := step_submit.mp hs
    refine .inr (.inl ⟨by simp, ?_⟩)
    unfold State.submit
    split
    · exact ⟨[], (List.append_nil _).symm⟩
    · exact ⟨_, rfl⟩
  | cancel call =>
    obtain ⟨-, rfl⟩ := step_cancel.mp hs
    exact .inr (.inl ⟨by simp, [], (List.append_nil _).symm⟩)
  | disconnect =>
    obtain ⟨-, rfl⟩ := step_disconnect.mp hs
    exact .inr (.inl ⟨by simp, [], (List.append_nil _).symm⟩)
  | ctrlC =>
    obtain rfl := step_ctrlC.mp hs
    exact .inr (.inl ⟨by simp, [], (List.append_nil _).symm⟩)
  | signalled =>
    obtain ⟨-, -, -, rfl⟩ := step_signalled.mp hs
    exact .inl trivial
  | signalFailed =>
    obtain ⟨-, -, rfl⟩ := step_signalFailed.mp hs
    exact .inr (.inl ⟨by simp, [], (List.append_nil _).symm⟩)
  | dequeue =>
    obtain ⟨m, queue, -, hq, rfl⟩ := step_dequeue.mp hs
    refine .inr (.inr ⟨rfl, m, queue, ?_⟩)
    -- at most one message is put in by the step that takes one off
    rcases State.handle_queue { s with queue := queue, phase := .awaitSignal } m with h | h
    · exact ⟨[], hq, h.trans (List.append_nil _).symm⟩
    · exact ⟨_, hq, h⟩
  | resubmit =>
    obtain ⟨r, -, rfl⟩ := step_resubmit.mp hs
    exact .inr (.inl ⟨by simp, _, rfl⟩)
  | answer response =>
    obtain ⟨r, -, ⟨-, rfl⟩ | ⟨-, rfl⟩⟩ := step_answer.mp hs
    · exact .inl trivial
    · exact .inr (.inl ⟨by simp, [], (List.append_nil _).symm⟩)
  | connect result =>
    obtain ⟨-, rfl⟩ := step_connect.mp hs
    exact .inr (.inl ⟨by simp, [], (List.append_nil _).symm⟩)

/-- The messages a step puts into the queue. -/
def sends (x : Step (State P V) (Event P V)) : List (Message P) :=
  match x.ev with
  | .dequeue => x.post.queue.drop (x.pre.queue.length - 1)
  | _ => x.post.queue.drop x.pre.queue.length

/-- The queue of the task, which exists as long as the task does. -/
def messages (P V : Type) [ToString P] (installable : Bool) :
    Channel (step (P := P) (V := V) installable) (Message P) where
  queue := State.queue
  live s := ¬ s.phase.Ended
  sends := sends
  takes := dequeued
  live_pre _ hs hlive hended := hlive (ended_step hs hended)
  conserves x hs hlive := by
    obtain ⟨s, e, s'⟩ := x
    change step installable s e = some s' at hs
    obtain hended | ⟨he, added, hq⟩ | ⟨rfl, m, queue, added, hq, hq'⟩ := queue_step hs
    · exact absurd hended hlive
    · have hsends : sends ⟨s, e, s'⟩ = added := by
        cases e <;> simp_all [sends]
      have htakes : dequeued ⟨s, e, s'⟩ = none := by
        cases e <;> simp_all [dequeued]
      rw [hsends, htakes]
      exact hq.symm
    · simp [sends, dequeued, hq, hq']

/-! ## Requests that come back -/

/-- The call has been made, and no request of it waits any more. -/
def State.Over (s : State P V) (call : Nat) : Prop :=
  call < s.calls ∧ call ∉ s.waiting.map Request.response

omit [ToString P] in
theorem State.Over.step {x : Step (State P V) (Event P V)} {call : Nat} (hx : WaitingStep x)
    (h : x.pre.Over call) : x.post.Over call ∧ dequeues call x = false := by
  obtain ⟨hmade, hnone⟩ := h
  cases hx with
  | same none calls waiting =>
    refine ⟨⟨Nat.lt_of_lt_of_le hmade calls, ?_⟩, none call⟩
    rcases waiting with hw | hw
    · rwa [(hw.map _).mem_iff]
    · simp [hw]
  | added method params none calls waiting =>
    refine ⟨⟨calls ▸ Nat.lt_succ_of_lt hmade, ?_⟩, none call⟩
    rw [waiting, List.map_append, List.mem_append, not_or]
    exact ⟨hnone, by simpa using Nat.ne_of_lt hmade⟩
  | taken r rest one calls before waiting =>
    rw [before, List.map_cons, List.mem_cons, not_or] at hnone
    refine ⟨⟨calls ▸ hmade, ?_⟩, by simpa [one] using Ne.symm hnone.1⟩
    rw [waiting]
    split_ifs
    · rw [List.map_cons, List.mem_cons, not_or]
      exact hnone
    · exact hnone.2

/-- A request that is dequeued again was put back the time before, for want of a connection. -/
theorem requeued_of_dequeued_again {before between later : List (Step (State P V) (Event P V))}
    {x y : Step (State P V) (Event P V)} {t : State P V} {call : Nat}
    (h : Run (step installable) State.init (before ++ x :: between ++ y :: later) t)
    (hx : dequeues call x) (hy : dequeues call y) :
    x.pre.connected = false ∧ ∃ r queue, r.response = call ∧ x.pre.phase = .recv ∧
      x.pre.queue = .request r :: queue ∧
      x.post = State.requeue { x.pre with queue := queue, phase := .awaitSignal } r := by
  obtain ⟨hpre, -, -⟩ := h.split
  obtain ⟨hbefore, hs, hbetween⟩ := hpre.split
  obtain ⟨-, hsy, -⟩ := h.split
  obtain ⟨r, htakes, hcall⟩ := dequeues_iff.mp hx
  obtain ⟨queue, hp, hq, hpost⟩ := step_of_dequeued hs htakes
  have hbudget := budget_of_run hbefore
  have hws : x.pre.waiting = r :: Message.requests queue := State.waiting_of_recv hp hq
  by_cases hback : r.retry ≠ 0 ∧ ¬ x.pre.connected
  · have hdead : x.pre.connected = false := by simpa using hback.2
    have hdead' : State.connected { x.pre with queue := queue, phase := .awaitSignal } = false := hdead
    refine ⟨hdead, r, queue, hcall, hp, hq, ?_⟩
    rw [hpost, State.handle_request, if_neg hback.1, hdead']
    rfl
  · -- otherwise nothing of the call waits, so it is not dequeued again
    have hnodup := hbudget.nodup
    rw [hws, List.map_cons, List.nodup_cons, hcall] at hnodup
    have hover : x.post.Over call := by
      refine ⟨?_, ?_⟩
      · rw [hpost, State.handle_calls]
        exact hcall ▸ hbudget.known r (hws ▸ List.mem_cons_self)
      · rw [hpost, State.handle_request_waiting]
        have hback' : ¬ (r.retry ≠ 0 ∧
          ¬ State.connected { x.pre with queue := queue, phase := .awaitSignal }) := hback
        rw [if_neg hback']
        exact hnodup.1
    have hkept : y.pre.Over call :=
      (hbetween.invariant (I := fun s => s.Over call)
        (fun _ _ _ hstep ho => (ho.step (waiting_step hstep)).1) hover).1
    rw [(hkept.step (waiting_step hsy)).2] at hy
    cases hy

/-! ## The attempt made in between -/

/-- Among the steps `since`, which follow the steps `before`, a `TryConnect` sent in them is
taken off the queue and its attempt is made. It is one of theirs because by then every
message sent before them has been taken. -/
def FreshAttempt (installable : Bool) (before since : List (Step (State P V) (Event P V))) : Prop :=
  ∃ a t b c d, since = a ++ t :: b ++ c :: d ∧ dequeued t = some .tryConnect ∧
    ((messages P V installable).sent before).length ≤
      ((messages P V installable).taken (before ++ a)).length ∧
    (∀ w ∈ b, w.ev ≠ .dequeue) ∧ ∃ result, c.ev = .connect result

theorem FreshAttempt.append {before since : List (Step (State P V) (Event P V))}
    (h : FreshAttempt installable before since) (more : List (Step (State P V) (Event P V))) :
    FreshAttempt installable before (since ++ more) := by
  obtain ⟨a, t, b, c, d, rfl, hrest⟩ := h
  exact ⟨a, t, b, c, d ++ more, by simp, hrest⟩

/-- How far the attempt has come that the request with this channel asked for when it was
put back: its `TryConnect` waits ahead of the request, is being processed, or has been. -/
inductive Asked (installable : Bool) (call : Nat) (before since : List (Step (State P V) (Event P V)))
    (s : State P V) : Prop where
  | queued (ahead behind : List (Message P)) (queue : s.queue = ahead ++ .tryConnect :: behind)
      (first : call ∉ (Message.requests ahead).map Request.response)
      (number : ((messages P V installable).taken (before ++ since)).length + ahead.length =
        ((messages P V installable).sent before).length)
  | attempting (a : List (Step (State P V) (Event P V))) (t : Step (State P V) (Event P V))
      (b : List (Step (State P V) (Event P V))) (split : since = a ++ t :: b)
      (takes : dequeued t = some .tryConnect)
      (number : ((messages P V installable).sent before).length ≤
        ((messages P V installable).taken (before ++ a)).length)
      (inside : ∀ w ∈ b, w.ev ≠ .dequeue) (phase : s.phase = .connecting)
  | made (fresh : FreshAttempt installable before since)
  | ended (phase : s.phase.Ended)

/-- An attempt lasts until its result is there. -/
theorem connecting_step {s s' : State P V} {e : Event P V} (hs : step installable s e = some s')
    (hp : s.phase = .connecting) :
    (∃ result, e = .connect result) ∨ (e ≠ .dequeue ∧ s'.phase = .connecting) := by
  cases htask : e.isTask with
  | false =>
    refine .inr ⟨?_, (phase_of_world_step hs htask).trans hp⟩
    rintro rfl
    cases htask
  | true =>
    cases e with
    | connect result => exact .inl ⟨result, rfl⟩
    | signalled => simp [hp] at hs
    | signalFailed => simp [hp] at hs
    | dequeue => simp [hp] at hs
    | resubmit => simp [hp] at hs
    | answer response => simp [hp] at hs
    | _ => cases htask

theorem Asked.step {call : Nat} {before since : List (Step (State P V) (Event P V))}
    {s s' : State P V} {e : Event P V} (hs : step installable s e = some s')
    (h : Asked installable call before since s) (hcall : dequeues call ⟨s, e, s'⟩ = false) :
    Asked installable call before (since ++ [⟨s, e, s'⟩]) s' := by
  cases h with
  | queued ahead behind queue first number =>
    obtain hended | ⟨he, added, hq'⟩ | ⟨rfl, m, rest, added, hq, hq'⟩ := queue_step hs
    · exact .ended hended
    · have htaken : dequeued ⟨s, e, s'⟩ = none := by cases e <;> simp_all [dequeued]
      refine .queued ahead (behind ++ added) (by simp [hq', queue]) first ?_
      rw [← List.append_assoc, Channel.taken_append, Channel.taken_singleton]
      simpa [messages, htaken] using number
    · have htaken : dequeued ⟨s, .dequeue, s'⟩ = some m := by simp [dequeued, hq]
      cases ahead with
      | nil =>
        obtain ⟨rfl, rfl⟩ := List.cons.inj (queue.symm.trans hq)
        obtain ⟨m', queue', -, hq'', rfl⟩ := step_dequeue.mp hs
        obtain ⟨rfl, rfl⟩ := List.cons.inj (hq''.symm.trans hq)
        exact .attempting since _ [] rfl htaken (Nat.le_of_eq number.symm) (by simp) rfl
      | cons m' ahead =>
        obtain ⟨rfl, rfl⟩ := List.cons.inj (queue.symm.trans hq)
        refine .queued ahead (behind ++ added) (by simp [hq']) ?_ ?_
        · cases m' <;> simp_all [Message.requests]
        · rw [← List.append_assoc, Channel.taken_append, Channel.taken_singleton]
          have hlength : (((messages P V installable).takes ⟨s, .dequeue, s'⟩).toList).length = 1 := by
            simp [messages, htaken]
          rw [List.length_append, hlength]
          rw [List.length_cons] at number
          omega
  | attempting a t b split takes number inside phase =>
    rcases connecting_step hs phase with ⟨result, rfl⟩ | ⟨he, hp⟩
    · exact .made ⟨a, t, b, ⟨s, .connect result, s'⟩, [], by rw [split], takes, number, inside,
        result, rfl⟩
    · refine .attempting a t (b ++ [⟨s, e, s'⟩]) (by simp [split]) takes number ?_ hp
      rw [List.forall_mem_append]
      exact ⟨inside, by simpa using he⟩
  | made fresh => exact .made (fresh.append _)
  | ended phase => exact .ended (ended_step hs phase)

/-- The `TryConnect` of a request that is put back is the one that all messages sent before
that have to be taken ahead of. -/
theorem asked_of_requeue {before : List (Step (State P V) (Event P V))}
    {x : Step (State P V) (Event P V)} {r : Request P} {queue : List (Message P)}
    (h : Run (step installable) State.init before x.pre) (hx : dequeued x = some (.request r))
    (hp : x.pre.phase = .recv) (hq : x.pre.queue = .request r :: queue)
    (hpost : x.post = State.requeue { x.pre with queue := queue, phase := .awaitSignal } r) :
    Asked installable r.response before [x] x.post := by
  have hnodup := (budget_of_run h).nodup
  have hws : x.pre.waiting = r :: Message.requests queue := State.waiting_of_recv hp hq
  rw [hws, List.map_cons, List.nodup_cons] at hnodup
  refine .queued queue [] (by rw [hpost]; rfl) hnodup.1 ?_
  have hlive : (messages P V installable).live x.pre := by
    change ¬ x.pre.phase.Ended
    rw [hp]
    exact id
  have hconserved := congrArg List.length ((messages P V installable).conservation h hlive)
  have htaken : ((messages P V installable).taken [x]).length = 1 := by
    rw [Channel.taken_singleton]
    simp [messages, hx]
  have hqueue : ((messages P V installable).queue x.pre).length = queue.length + 1 := by
    simp [messages, hq]
  have hempty : (messages P V installable).queue State.init = [] := rfl
  rw [hempty, List.nil_append, List.length_append, hqueue] at hconserved
  rw [Channel.taken_append, List.length_append, htaken]
  omega

/-- Until a request is dequeued again, the attempt it asked for comes closer. -/
theorem asked_run {before between : List (Step (State P V) (Event P V))}
    {x : Step (State P V) (Event P V)} {u : State P V} {call : Nat}
    (h : Run (step installable) x.post between u) (hx : Asked installable call before [x] x.post)
    (hnone : ∀ w ∈ between, ¬ dequeues call w) : Asked installable call before (x :: between) u := by
  refine h.history_induction (P := fun between u => (∀ w ∈ between, ¬ dequeues call w) →
    Asked installable call before (x :: between) u) (fun _ => hx) ?_ hnone
  intro as a e a' _ ih hs hnone
  rw [List.forall_mem_append] at hnone
  have hcall : dequeues call ⟨a, e, a'⟩ = false := by simpa using hnone.2 _ List.mem_cons_self
  exact (ih hnone.1).step hs hcall

/-- When the request is at the head of the queue, the attempt has been made. -/
theorem Asked.made_of_head {call : Nat} {before since : List (Step (State P V) (Event P V))}
    {s : State P V} {r : Request P} {queue : List (Message P)}
    (h : Asked installable call before since s) (hp : s.phase = .recv)
    (hq : s.queue = .request r :: queue) (hcall : r.response = call) :
    FreshAttempt installable before since := by
  cases h with
  | queued ahead behind queue' first number =>
    rw [hq] at queue'
    cases ahead with
    | nil => cases (List.cons.inj queue').1
    | cons m ahead =>
      obtain ⟨rfl, -⟩ := List.cons.inj queue'
      simp [Message.requests, hcall] at first
  | attempting a t b split takes number inside phase => cases hp.symm.trans phase
  | made fresh => exact fresh
  | ended phase =>
    rw [hp] at phase
    exact phase.elim

theorem freshAttempt_between {before between later : List (Step (State P V) (Event P V))}
    {x y : Step (State P V) (Event P V)} {t : State P V} {call : Nat}
    (h : Run (step installable) State.init (before ++ x :: between ++ y :: later) t)
    (hx : dequeues call x) (hy : dequeues call y) (hnone : ∀ w ∈ between, ¬ dequeues call w) :
    FreshAttempt installable before (x :: between) := by
  obtain ⟨-, r, queue, rfl, hp, hq, hpost⟩ := requeued_of_dequeued_again h hx hy
  obtain ⟨hpre, hsy, -⟩ := h.split
  obtain ⟨hbefore, hsx, hbetween⟩ := hpre.split
  have htakes : dequeued x = some (.request r) := by
    obtain ⟨r', hr', -⟩ := dequeues_iff.mp hx
    exact dequeued_eq_some.mpr ⟨(dequeued_eq_some.mp hr').1, queue, hq⟩
  obtain ⟨r', hr', hcall⟩ := dequeues_iff.mp hy
  obtain ⟨queue', hp', hq', -⟩ := step_of_dequeued hsy hr'
  exact (asked_run hbetween (asked_of_requeue hbefore htakes hp hq hpost) hnone).made_of_head
    hp' hq' hcall

/-! ## Requests the loop gives up -/

/-- The end of a connect attempt. -/
def attempts (x : Step (State P V) (Event P V)) : Bool :=
  match x.ev with
  | .connect _ => true
  | _ => false

/-- The step answers the call with a failure of the loop's own. -/
def GivesUp (call : Nat) (x : Step (State P V) (Event P V)) : Prop :=
  ∃ text, x.post.sent = x.pre.sent ++ [(call, .error (.requestFailed text))]

theorem FreshAttempt.attempts {before since : List (Step (State P V) (Event P V))}
    (h : FreshAttempt installable before since) : ∃ w ∈ since, attempts w := by
  obtain ⟨a, t, b, c, d, rfl, -, -, -, result, hc⟩ := h
  exact ⟨c, by simp, by simp [Client.attempts, hc]⟩

/-- Only a request without a retry left is given up. -/
theorem request_of_givesUp {x : Step (State P V) (Event P V)} {call : Nat}
    (hs : step installable x.pre x.ev = some x.post) (hx : GivesUp call x) :
    ∃ r, dequeued x = some (.request r) ∧ r.response = call ∧ r.retry = 0 := by
  obtain ⟨s, e, s'⟩ := x
  obtain ⟨text, hsent⟩ := hx
  change step installable s e = some s' at hs
  change s'.sent = s.sent ++ _ at hsent
  cases e with
  | submit method params =>
    obtain rfl := step_submit.mp hs
    unfold State.submit at hsent
    split at hsent <;> simp at hsent
  | cancel call =>
    obtain ⟨-, rfl⟩ := step_cancel.mp hs
    simp at hsent
  | disconnect =>
    obtain ⟨-, rfl⟩ := step_disconnect.mp hs
    simp at hsent
  | ctrlC =>
    obtain rfl := step_ctrlC.mp hs
    simp at hsent
  | signalled =>
    obtain ⟨-, -, -, rfl⟩ := step_signalled.mp hs
    simp [State.finish] at hsent
  | signalFailed =>
    obtain ⟨-, -, rfl⟩ := step_signalFailed.mp hs
    simp at hsent
  | dequeue =>
    obtain ⟨m, queue, -, hq, rfl⟩ := step_dequeue.mp hs
    cases m with
    | tryConnect => simp [State.handle] at hsent
    | request r =>
      rw [State.handle_request] at hsent
      split_ifs at hsent with hretry
      · refine ⟨r, by simp [dequeued, hq], ?_, hretry⟩
        simp only [State.respond, List.append_cancel_left_eq, List.cons.injEq, Prod.mk.injEq] at hsent
        exact hsent.1.1
      · simp at hsent
      · simp [State.requeue] at hsent
  | resubmit =>
    obtain ⟨r, -, rfl⟩ := step_resubmit.mp hs
    simp at hsent
  | answer response =>
    -- what comes from the node is never a `RequestFailed`
    obtain ⟨r, -, ⟨-, rfl⟩ | ⟨-, rfl⟩⟩ := step_answer.mp hs
    · simp [State.finish] at hsent
    · cases response <;> simp [State.respond, Except.mapError] at hsent
  | connect result =>
    obtain ⟨-, rfl⟩ := step_connect.mp hs
    simp at hsent

/-- A request that is given up has been found unconnected three times, and three connection
attempts have ended since it was first dequeued. -/
theorem attempts_before_giving_up {before later : List (Step (State P V) (Event P V))}
    {y : Step (State P V) (Event P V)} {t : State P V} {call : Nat}
    (h : Run (step installable) State.init (before ++ y :: later) t) (hy : GivesUp call y) :
    before.countP (fun x => dequeues call x && !x.pre.connected) = 3 ∧
    ∃ a x b, before = a ++ x :: b ∧ dequeues call x ∧ (∀ w ∈ a, ¬ dequeues call w) ∧
      3 ≤ b.countP attempts := by
  obtain ⟨hbefore, hs, -⟩ := h.split
  obtain ⟨r, hr, rfl, hretry⟩ := request_of_givesUp hs hy
  have hdeq : dequeues r.response y := by simp [dequeues, hr]
  have hspent := spent_of_dequeued hbefore hs hr
  rw [hretry, Nat.zero_add] at hspent
  refine ⟨?_, ?_⟩
  · rw [← show timesDequeued r.response before = 3 from hspent]
    refine List.countP_congr fun x hx => ?_
    rw [Bool.and_eq_true, and_iff_left_iff_imp]
    intro hxd
    obtain ⟨a, b, rfl⟩ := List.append_of_mem hx
    simp [(requeued_of_dequeued_again h hxd hdeq).1]
  · refine Separated.count_le (z := y) ?_ hdeq hspent
    rintro a x b z c hsplit hx hz hnone
    have hrun : Run (step installable) State.init (a ++ x :: b ++ z :: (c ++ later)) t := by
      have : a ++ x :: b ++ z :: (c ++ later) = before ++ y :: later := by
        simpa using (congrArg (· ++ later) hsplit).symm
      rwa [this]
    obtain ⟨w, hw, hatt⟩ := (freshAttempt_between hrun hx hz hnone).attempts
    rcases List.mem_cons.mp hw with rfl | hw
    · obtain ⟨r', hr', -⟩ := dequeues_iff.mp hx
      simp [attempts, (dequeued_eq_some.mp hr').1] at hatt
    · exact ⟨w, hw, hatt⟩

/-- Between two consecutive dequeues of a request a `TryConnect` sent after the first of them
is processed, so a request is given up only after it was found unconnected at three dequeues
and three connection attempts were made since its first. -/
theorem retried_after_attempt {ts : List (Step (State P V) (Event P V))} {t : State P V}
    (h : Run (step installable) State.init ts t) (call : Nat) :
    (∀ before x between y later, ts = before ++ x :: between ++ y :: later →
      dequeues call x → dequeues call y → (∀ w ∈ between, ¬ dequeues call w) →
      FreshAttempt installable before (x :: between)) ∧
    (∀ before y later, ts = before ++ y :: later → GivesUp call y →
      3 ≤ before.countP (fun x => dequeues call x && !x.pre.connected) ∧
      ∃ a x b, before = a ++ x :: b ∧ dequeues call x ∧ (∀ w ∈ a, ¬ dequeues call w) ∧
        3 ≤ b.countP attempts) := by
  constructor
  · rintro before x between y later rfl hx hy hnone
    exact freshAttempt_between h hx hy hnone
  · rintro before y later rfl hy
    obtain ⟨hthree, hattempts⟩ := attempts_before_giving_up h hy
    exact ⟨Nat.le_of_eq hthree.symm, hattempts⟩

/-- The run in which the third attempt succeeds: one attempt is made between the first two
dequeues of its request, three before the request is given up. -/
theorem retried_until_third_attempt :
    let ts := trace (step false) State.init thirdAttempt
    FreshAttempt false (ts.take 2) ((ts.drop 2).take 6) ∧
      3 ≤ (ts.take 20).countP (fun x => dequeues 0 x && !x.pre.connected) ∧
      ∃ a x b, ts.take 20 = a ++ x :: b ∧ dequeues 0 x ∧ (∀ w ∈ a, ¬ dequeues 0 w) ∧
        3 ≤ b.countP attempts := by
  intro ts
  have hrun : Run (step false) State.init ts (after State.init ts) := .of_trace _ thirdAttempt
  have hall := retried_after_attempt hrun 0
  refine ⟨?_, ?_⟩
  · exact hall.1 (ts.take 2) (ts.get ⟨2, by decide⟩) ((ts.drop 3).take 5) (ts.get ⟨8, by decide⟩)
      (ts.drop 9) rfl (by decide) (by decide) (by decide)
  · exact hall.2 (ts.take 20) (ts.get ⟨20, by decide⟩) [] rfl
      ⟨"Request failed. method=state_call, params=[]", by decide⟩

end Client

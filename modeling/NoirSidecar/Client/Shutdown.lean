-- SUMMARY: Once the task has ended, or has come to rest, no caller waits: each call is answered or has lost its sender.
import NoirSidecar.Client.Answers
import NoirSidecar.Client.Drain

/-!
# The end of the task

When the task ends its queue goes with it, and a caller whose sender is dropped is told so
by its channel. Calls made later find the queue closed. What is left to fear is a sender
that is neither used nor dropped: its caller would wait for ever.
-/

namespace Client

variable {P V : Type}

/-- As long as the task is alive it drops no sender. Once it has ended, the sender of every
call has been used or dropped, unless its receiver is gone; never more than once. -/
structure Settled (s : State P V) : Prop where
  once : ∀ call, s.answered.count call + s.dropped.count call ≤ s.made.count call
  kept : ¬ s.phase.Ended → s.dropped = []
  told : s.phase.Ended → ∀ call < s.calls, call ∉ s.gone → call ∈ s.answered ∨ call ∈ s.dropped

theorem settled_init : Settled (State.init : State P V) := by
  constructor <;> simp [State.init, State.answered, State.made, Phase.Ended]

section Keep

variable {s s' : State P V}

/-- A step that leaves the task alive drops nothing, and what it sends is accounted for. -/
theorem settled_of_alive (hkept : s.dropped = []) (hconserved : Conserved s)
    (halive : ¬ s.phase.Ended) : Settled s := by
  refine ⟨fun call => ?_, fun _ => hkept, fun hend => absurd hend halive⟩
  have honce := hconserved.once halive call
  rw [hkept, List.count_nil]
  omega

/-- The task ends while it handles nothing, or its hand-over of an answer has failed. -/
theorem settled_finish {phase : Phase P} (hkept : s.dropped = []) (hconserved : Conserved s)
    (halive : ¬ s.phase.Ended) (hend : phase.Ended) (hheld : ∀ call ∈ s.held, call ∈ s.gone) :
    Settled (s.finish phase) := by
  have hcount : ∀ call, s.answered.count call + (s.finish phase).dropped.count call +
      s.held.count call = s.made.count call := by
    intro call
    have honce := hconserved.once halive call
    have hdropped : (s.finish phase).dropped = s.queued := by
      simp [State.finish, hkept, State.queued]
    rw [hdropped]
    omega
  refine ⟨fun call => ?_, fun hnot => absurd hend hnot, fun _ call hcall hgone => ?_⟩
  · have hone := hcount call
    change s.answered.count call + (s.finish phase).dropped.count call ≤ s.made.count call
    omega
  · have hnone : s.held.count call = 0 :=
      List.count_eq_zero.mpr fun hmem => hgone (hheld call hmem)
    have hmade : s.made.count call = 1 :=
      List.nodup_iff_count_eq_one.mp List.nodup_range call (List.mem_range.mpr hcall)
    have hone := hcount call
    rw [hnone, hmade, Nat.add_zero] at hone
    by_cases hanswered : call ∈ s.answered
    · exact .inl hanswered
    · rw [List.count_eq_zero.mpr hanswered, Nat.zero_add] at hone
      exact .inr (List.count_pos_iff.mp (by omega))

/-- A call made after the end finds the queue closed. -/
theorem Settled.submit (h : Settled s) (hend : s.phase.Ended) (method : String) (params : P) :
    Settled (s.submit method params) := by
  have hsubmit : s.submit method params =
      { s with calls := s.calls + 1, dropped := s.dropped ++ [s.calls] } := if_pos hend
  rw [hsubmit]
  refine ⟨fun call => ?_, fun hnot => absurd hend hnot, fun _ call hcall hgone => ?_⟩
  · have hone := h.once call
    simp only [State.answered, State.made, List.count_append, List.range_succ] at hone ⊢
    omega
  · by_cases hold : call < s.calls
    · exact (h.told hend call hold hgone).imp id (List.mem_append_left _)
    · obtain rfl : call = s.calls := by
        dsimp only at hcall
        omega
      exact .inr (List.mem_append_right _ List.mem_cons_self)

theorem held_of_awaitSignal (hp : s.phase = .awaitSignal) : s.held = [] := by
  simp [State.held, hp]

theorem settled_step [ToString P] {installable : Bool} {e : Event P V}
    (hs : step installable s e = some s') (h : Settled s) (hconserved : Conserved s) :
    Settled s' := by
  have hconserved' : Conserved s' := conserved_step hs hconserved
  cases e with
  | submit method params =>
    obtain rfl := step_submit.mp hs
    by_cases hend : s.phase.Ended
    · exact h.submit hend method params
    · refine settled_of_alive ?_ hconserved' (by simpa using hend)
      simpa [State.submit, hend] using h.kept hend
  | cancel call =>
    obtain ⟨-, rfl⟩ := step_cancel.mp hs
    -- one receiver more is gone, the others are told as before
    refine ⟨h.once, h.kept, fun hend call' hcall hgone => ?_⟩
    exact h.told hend call' hcall fun hmem => hgone (List.mem_cons_of_mem _ hmem)
  | disconnect =>
    obtain ⟨-, rfl⟩ := step_disconnect.mp hs
    exact ⟨h.once, h.kept, h.told⟩
  | ctrlC =>
    obtain rfl := step_ctrlC.mp hs
    exact ⟨h.once, h.kept, h.told⟩
  | signalled =>
    -- Ctrl-C drops the queue with the senders in it
    obtain ⟨hp, -, -, rfl⟩ := step_signalled.mp hs
    have halive : ¬ s.phase.Ended := by simp [hp, Phase.Ended]
    refine settled_finish (h.kept halive) hconserved halive trivial ?_
    simp [held_of_awaitSignal hp]
  | answer response =>
    obtain ⟨r, hp, hanswer⟩ := step_answer.mp hs
    have halive : ¬ s.phase.Ended := by simp [hp, Phase.Ended]
    -- the send finds no receiver, and the panic drops the queue as well
    rcases hanswer with ⟨hgone, rfl⟩ | ⟨-, rfl⟩
    · refine settled_finish (h.kept halive) hconserved halive trivial ?_
      simpa [State.held, hp] using hgone
    · exact settled_of_alive (h.kept halive) hconserved' (by simp [State.respond, Phase.Ended])
  | signalFailed =>
    obtain ⟨hp, -, rfl⟩ := step_signalFailed.mp hs
    exact settled_of_alive (h.kept (by simp [hp, Phase.Ended])) hconserved' (by simp [Phase.Ended])
  | dequeue =>
    obtain ⟨m, queue, hp, hq, rfl⟩ := step_dequeue.mp hs
    have hkept : s.dropped = [] := h.kept (by simp [hp, Phase.Ended])
    cases m with
    | tryConnect => exact settled_of_alive hkept hconserved' (by simp [State.handle, Phase.Ended])
    | request r =>
      rw [State.handle_request] at hconserved' ⊢
      -- refused, forwarded, or kept for after the next connection attempt
      split_ifs at hconserved' ⊢
      · exact settled_of_alive hkept hconserved' (by simp [State.respond, Phase.Ended])
      · exact settled_of_alive hkept hconserved' (by simp [Phase.Ended])
      · exact settled_of_alive hkept hconserved' (by simp [State.requeue, Phase.Ended])
  | resubmit =>
    obtain ⟨r, hp, rfl⟩ := step_resubmit.mp hs
    exact settled_of_alive (h.kept (by simp [hp, Phase.Ended])) hconserved' (by simp [Phase.Ended])
  | connect result =>
    obtain ⟨hp, rfl⟩ := step_connect.mp hs
    exact settled_of_alive (h.kept (by simp [hp, Phase.Ended])) hconserved' (by simp [Phase.Ended])

end Keep

/-! ## Runs -/

section Runs

variable [ToString P] {installable : Bool} {ts : List (Step (State P V) (Event P V))}
  {t : State P V}

theorem settled_of_run (h : Run (step installable) State.init ts t) : Settled t :=
  (h.invariant (I := fun s => Settled s ∧ Conserved s)
    (fun _ _ _ hs hboth => ⟨settled_step hs hboth.1 hboth.2, conserved_step hs hboth.2⟩)
    ⟨settled_init, conserved_init⟩).1.1

/-- A live task has dropped no sender. Once the task has ended, by a signal or by a panic,
each call whose receiver is still there has had exactly one of the two: a response, or the
end of its channel; and no call whatsoever has had both. -/
theorem settled_when_ended (h : Run (step installable) State.init ts t) :
    (¬ t.phase.Ended → t.dropped = []) ∧
    (t.phase.Ended → ∀ call < t.calls, call ∉ t.gone →
      t.answered.count call + t.dropped.count call = 1) ∧
    ∀ call, t.answered.count call + t.dropped.count call ≤ 1 := by
  have hsettled := settled_of_run h
  have hmade : ∀ call, t.made.count call ≤ 1 :=
    fun call => List.nodup_iff_count_le_one.mp List.nodup_range call
  have hatMost : ∀ call, t.answered.count call + t.dropped.count call ≤ 1 :=
    fun call => Nat.le_trans (hsettled.once call) (hmade call)
  refine ⟨hsettled.kept, fun hend call hcall hgone => ?_, hatMost⟩
  have hone := hatMost call
  rcases hsettled.told hend call hcall hgone with hmem | hmem
  · have hpos := List.count_pos_iff.mpr hmem
    omega
  · have hpos := List.count_pos_iff.mpr hmem
    omega

end Runs

/-! ## The task at rest -/

section Rest

variable [ToString P] {installable : Bool} {s s' t : State P V} {e : Event P V}
  {ts : List (Step (State P V) (Event P V))}

omit [ToString P] in
theorem State.submit_gone (s : State P V) (method : String) (params : P) :
    (s.submit method params).gone = s.gone := by
  unfold State.submit
  split <;> rfl

theorem State.handle_around (s : State P V) (m : Message P) :
    (s.handle m).gone = s.gone ∧ (s.handle m).signal = s.signal := by
  cases m with
  | tryConnect => exact ⟨rfl, rfl⟩
  | request r =>
    rw [State.handle_request]
    split_ifs <;> exact ⟨rfl, rfl⟩

/-- Receivers go when calls are abandoned, and the signal stays. -/
theorem around_step (hs : step installable s e = some s') :
    (s'.gone = s.gone ∨ ∃ call, e = .cancel call ∧ call < s.calls ∧ s'.gone = call :: s.gone) ∧
      (s.signal → s'.signal) := by
  cases e with
  | submit method params =>
    obtain rfl := step_submit.mp hs
    exact ⟨.inl (s.submit_gone method params), by simp⟩
  | cancel call =>
    obtain ⟨hcall, rfl⟩ := step_cancel.mp hs
    exact ⟨.inr ⟨call, rfl, hcall, rfl⟩, id⟩
  | disconnect =>
    obtain ⟨-, rfl⟩ := step_disconnect.mp hs
    exact ⟨.inl rfl, id⟩
  | ctrlC =>
    obtain rfl := step_ctrlC.mp hs
    exact ⟨.inl rfl, fun _ => rfl⟩
  | signalled =>
    obtain ⟨-, -, -, rfl⟩ := step_signalled.mp hs
    exact ⟨.inl rfl, id⟩
  | signalFailed =>
    obtain ⟨-, -, rfl⟩ := step_signalFailed.mp hs
    exact ⟨.inl rfl, id⟩
  | dequeue =>
    obtain ⟨m, queue, -, -, rfl⟩ := step_dequeue.mp hs
    obtain ⟨hgone, hsignal⟩ :=
      State.handle_around { s with queue := queue, phase := .awaitSignal } m
    exact ⟨.inl hgone, fun h => hsignal.trans h⟩
  | resubmit =>
    obtain ⟨r, -, rfl⟩ := step_resubmit.mp hs
    exact ⟨.inl rfl, id⟩
  | answer response =>
    obtain ⟨r, -, ⟨-, rfl⟩ | ⟨-, rfl⟩⟩ := step_answer.mp hs
    · exact ⟨.inl rfl, id⟩
    · exact ⟨.inl rfl, id⟩
  | connect result =>
    obtain ⟨-, rfl⟩ := step_connect.mp hs
    exact ⟨.inl rfl, id⟩

/-- A step of the task brings it closer to rest. -/
theorem task_step_lt (hs : step installable s e = some s') (he : e.isTask) :
    3 * s'.weight + s'.phase.distance < 3 * s.weight + s.phase.distance := by
  have hsub : e.isSubmit = false := by cases e <;> first | rfl | cases he
  have hle := task_steps_le (Run.single hs) (List.forall_mem_singleton.mpr hsub)
  rw [List.countP_singleton, if_pos he] at hle
  omega

/-- A task that can be at rest, because Ctrl-C cannot be waited for or has been pressed, has
then told all callers. -/
theorem told_at_rest (h : Run (step installable) State.init ts t)
    (hrest : ∀ e, e.isTask → step installable t e = none)
    (hsignal : installable = false ∨ t.signal = true) :
    ∀ call < t.calls, call ∉ t.gone → call ∈ t.answered ∨ call ∈ t.dropped := by
  intro call hcall hgone
  by_cases hend : t.phase.Ended
  · exact (settled_of_run h).told hend call hcall hgone
  have hawait : ¬ (installable ∧ t.phase = .awaitSignal) := by
    rintro ⟨hi, hp⟩
    have hsignalled := hrest .signalled rfl
    rcases hsignal with hno | hs
    · rw [hno] at hi
      cases hi
    · simp [step, hp, hi, hs] at hsignalled
  have hqueue : t.queue = [] :=
    (empty_of_rest (empty_of_ended h (fun _ => rfl)) hrest).resolve_right hawait
  have hheld : t.held = [] := by
    by_cases hbody : t.phase.Handling
    · have hprogress : ∃ e s', Event.isTask e ∧ step installable t e = some s' :=
        handling_progress hbody
      obtain ⟨e, s', htask, hstep⟩ := hprogress
      rw [hrest e htask] at hstep
      cases hstep
    · cases hp : t.phase <;> simp_all [State.held, Phase.Handling]
  have honce := (h.invariant (fun _ _ _ hs => conserved_step hs) conserved_init).1.once hend call
  have hmade : t.made.count call = 1 :=
    List.nodup_iff_count_eq_one.mp List.nodup_range call (List.mem_range.mpr hcall)
  rw [State.queued, hqueue, hheld, hmade] at honce
  refine .inl (List.count_pos_iff.mp ?_)
  simp only [Message.requests, List.map_nil, List.count_nil] at honce
  omega

end Rest

/-- Two calls are in the queue and a third one is not yet made when the operator stops the
task. -/
def stopped : List (Event String String) :=
  [.submit "state_call" "[]", .submit "chain_getHeader" "[]", .ctrlC, .signalled,
    .submit "chain_getBlockHash" "[]"]

theorem settled_when_stopped :
    let t := after State.init (trace (step true) State.init stopped)
    (¬ t.phase.Ended → t.dropped = []) ∧
    (t.phase.Ended → ∀ call < t.calls, call ∉ t.gone →
      t.answered.count call + t.dropped.count call = 1) ∧
    ∀ call, t.answered.count call + t.dropped.count call ≤ 1 :=
  settled_when_ended (.of_trace State.init stopped)

end Client

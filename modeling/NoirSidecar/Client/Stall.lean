-- SUMMARY: When the client task can take the next message off its queue, and what the wait for Ctrl-C at the head of the loop does to it.
import NoirSidecar.Client.Loop

/-!
# The wait at the head of the loop

Each turn of the loop begins with `ctrl_c().await`. With a handler installed this
is the only place the task is ever parked at, so the queue is never read; without
one the task always gets to the next message.
-/

namespace Client

variable {P V : Type} [ToString P] {installable : Bool} {s t : State P V}

/-- Steps of the task alone lead to a state in which it takes the head message. -/
def CanDequeue (installable : Bool) (s : State P V) : Prop :=
  ∃ ts t t', Run (step installable) s ts t ∧ (∀ x ∈ ts, x.ev.isTask) ∧
    step installable t .dequeue = some t'

/-- A node request or a connect attempt is in flight. -/
def State.InFlight (s : State P V) : Prop :=
  s.phase = .connecting ∨ ∃ r, s.phase = .requesting r

/-- There is work, nothing is pending outside the task, and yet the task cannot
get to the work. -/
structure Stuck (installable : Bool) (s : State P V) : Prop where
  work : s.queue ≠ []
  quiet : s.signal = false
  idle : ¬ s.InFlight
  parked : ¬ CanDequeue installable s

/-! ## With a handler installed -/

/-- With a handler installed the task is at the head of the loop until it exits
on the signal. -/
def State.Parked (s : State P V) : Prop :=
  s.phase = .awaitSignal ∨ s.phase = .exited ∧ s.signal = true

/-- The only step of its own a parked task takes is the one that ends it. -/
theorem eq_signalled_of_parked {s s' : State P V} {e : Event P V}
    (h : step true s e = some s') (hs : s.Parked) (he : e.isTask) : e = .signalled := by
  have hrecv : s.phase ≠ .recv := by rcases hs with hp | ⟨hp, -⟩ <;> simp [hp]
  have hbody : ¬ s.phase.Handling := by rcases hs with hp | ⟨hp, -⟩ <;> simp [hp, Phase.Handling]
  cases e with
  | submit method params => cases he
  | cancel call => cases he
  | disconnect => cases he
  | ctrlC => cases he
  | signalled => rfl
  | signalFailed =>
    obtain ⟨-, hi, -⟩ := step_signalFailed.mp h
    cases hi
  | dequeue =>
    obtain ⟨_, _, hp, -⟩ := step_dequeue.mp h
    exact absurd hp hrecv
  | resubmit =>
    obtain ⟨_, hp, -⟩ := step_resubmit.mp h
    exact absurd (by rw [hp]; trivial) hbody
  | answer response =>
    obtain ⟨_, hp, -⟩ := step_answer.mp h
    exact absurd (by rw [hp]; trivial) hbody
  | connect result =>
    obtain ⟨hp, -⟩ := step_connect.mp h
    exact absurd (by rw [hp]; trivial) hbody

theorem parked_step {s s' : State P V} {e : Event P V} (h : step true s e = some s')
    (hs : s.Parked) : s'.Parked := by
  cases e with
  | submit method params =>
    obtain rfl := step_submit.mp h
    simpa [State.Parked] using hs
  | cancel call =>
    obtain ⟨-, rfl⟩ := step_cancel.mp h
    exact hs
  | disconnect =>
    obtain ⟨-, rfl⟩ := step_disconnect.mp h
    exact hs
  | ctrlC =>
    obtain rfl := step_ctrlC.mp h
    exact hs.imp id fun hx => ⟨hx.1, rfl⟩
  | signalled =>
    obtain ⟨-, -, hsig, rfl⟩ := step_signalled.mp h
    exact .inr ⟨rfl, hsig⟩
  | _ => cases eq_signalled_of_parked h hs rfl

/-- While the signal is awaited no step of the task is enabled. -/
theorem no_task_step {e : Event P V} (hp : s.phase = .awaitSignal) (hq : s.signal = false)
    (he : e.isTask) : step true s e = none := by
  cases h : step true s e with
  | none => rfl
  | some s' =>
    obtain rfl := eq_signalled_of_parked h (.inl hp) he
    obtain ⟨-, -, hsig, -⟩ := step_signalled.mp h
    rw [hq] at hsig
    cases hsig

theorem not_canDequeue (hp : s.phase = .awaitSignal) (hq : s.signal = false) :
    ¬ CanDequeue true s := by
  rintro ⟨ts, t, t', hrun, htask, hdeq⟩
  cases hrun with
  | nil =>
    rw [no_task_step hp hq rfl] at hdeq
    cases hdeq
  | cons hstep _ =>
    rw [no_task_step hp hq (htask _ List.mem_cons_self)] at hstep
    cases hstep

/-- A request submitted before the signal leaves the task stuck. -/
theorem stuck_of_submit {method : String} {params : P} (hs : s.Parked) (hq : s.signal = false) :
    Stuck true (s.submit method params) := by
  have hp : s.phase = .awaitSignal := hs.resolve_right fun h => by simp [hq] at h
  have hp' : (s.submit method params).phase = .awaitSignal := by rw [State.submit_phase, hp]
  have hq' : (s.submit method params).signal = false := by rw [State.submit_signal, hq]
  refine ⟨?_, hq', ?_, not_canDequeue hp' hq'⟩
  · simp [State.submit, hp, Phase.Ended]
  · simp [State.InFlight, hp]

def Event.isSubmit : Event P V → Bool
  | .submit .. => true
  | _ => false

/-- Nothing is queued before the signal. -/
structure State.Workless (s : State P V) : Prop where
  parked : s.Parked
  empty : s.signal = false → s.queue = []

/-- The queue stays empty as long as requests come only after the signal. -/
theorem workless_step {s s' : State P V} {e : Event P V} (h : step true s e = some s')
    (hsub : e.isSubmit → s.signal = true) (hs : s.Workless) : s'.Workless := by
  obtain ⟨hpark, hempty⟩ := hs
  refine ⟨parked_step h hpark, fun hq => ?_⟩
  cases e with
  | submit method params =>
    obtain rfl := step_submit.mp h
    rw [State.submit_signal, hsub rfl] at hq
    cases hq
  | cancel call =>
    obtain ⟨-, rfl⟩ := step_cancel.mp h
    exact hempty hq
  | disconnect =>
    obtain ⟨-, rfl⟩ := step_disconnect.mp h
    exact hempty hq
  | ctrlC =>
    obtain rfl := step_ctrlC.mp h
    cases hq
  | signalled =>
    obtain ⟨-, -, -, rfl⟩ := step_signalled.mp h
    rfl
  | _ => cases eq_signalled_of_parked h hpark rfl

/-- With a handler installed a run is never stuck exactly when every request is
submitted after Ctrl-C, that is when there is no work for the task to do. -/
theorem never_stuck_iff {ts : List (Step (State P V) (Event P V))}
    (h : Run (step true) State.init ts t) :
    (∀ u ∈ visited State.init ts, ¬ Stuck true u) ↔
      ∀ x ∈ ts, x.ev.isSubmit → x.pre.signal = true := by
  constructor
  · intro hfree x hx hsub
    by_contra hq
    simp only [Bool.not_eq_true] at hq
    have hpark : x.pre.Parked :=
      ((h.invariant (fun _ _ _ => parked_step) (.inl rfl)).2 x hx).1
    have hstep := h.mem_step hx
    apply hfree x.post (List.mem_cons_of_mem _ (List.mem_map.mpr ⟨x, hx, rfl⟩))
    cases hev : x.ev with
    | submit method params =>
      rw [hev, step_submit] at hstep
      exact hstep ▸ stuck_of_submit hpark hq
    | _ => simp [hev, Event.isSubmit] at hsub
  · intro hlate u hu hstuck
    have hu' : u.Workless :=
      h.visited_of (fun _ hx hG => workless_step hx hG) hlate ⟨.inl rfl, fun _ => rfl⟩ u hu
    exact hstuck.work (hu'.empty hstuck.quiet)

/-- One request, no Ctrl-C: the task never gets to it. -/
theorem stuck_after_submit :
    ∃ s : State String String,
      Run (step true) State.init [⟨State.init, .submit "state_call" "[]", s⟩] s ∧ Stuck true s :=
  ⟨_, .single (step_submit.mpr rfl), stuck_of_submit (.inl rfl) rfl⟩

/-- After Ctrl-C the task has ended, and a late request is refused. -/
theorem never_stuck_after_signal :
    let es : List (Event String String) := [.ctrlC, .signalled, .submit "state_call" "[]"]
    ∀ u ∈ visited State.init (trace (step true) State.init es), ¬ Stuck true u :=
  (never_stuck_iff (.of_trace _ _)).mpr (by decide)

/-! ## Without a handler -/

/-- Where `ctrl_c()` fails at once, the task gets to the next message from every
phase in which it waits for nothing outside itself. -/
theorem canDequeue_of_not_installable (hw : s.queue ≠ []) (hi : ¬ s.InFlight)
    (hend : ¬ s.phase.Ended) : CanDequeue false s := by
  obtain ⟨m, queue, hq⟩ := List.exists_cons_of_ne_nil hw
  cases hp : s.phase with
  | awaitSignal =>
    exact ⟨_, _, _, .single (step_signalFailed.mpr ⟨hp, rfl, rfl⟩), by simp [Event.isTask],
      step_dequeue.mpr ⟨m, queue, rfl, hq, rfl⟩⟩
  | recv =>
    exact ⟨[], s, _, .nil s, by simp, step_dequeue.mpr ⟨m, queue, hp, hq, rfl⟩⟩
  | resubmitting r =>
    have hresubmit : step false s .resubmit = some _ := step_resubmit.mpr ⟨r, hp, rfl⟩
    exact ⟨_, _, _, .cons hresubmit (.single (step_signalFailed.mpr ⟨rfl, rfl, rfl⟩)),
      by simp [Event.isTask], step_dequeue.mpr ⟨m, queue ++ [.request r], rfl, by simp [hq], rfl⟩⟩
  | requesting r => exact absurd (.inr ⟨r, hp⟩) hi
  | connecting => exact absurd (.inl hp) hi
  | exited => simp [hp, Phase.Ended] at hend
  | panicked => simp [hp, Phase.Ended] at hend

end Client

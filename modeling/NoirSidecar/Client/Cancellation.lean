-- SUMMARY: What a caller that goes away does to the client task: the only step that can end it is an answer for a vanished receiver.
import NoirSidecar.Client.Loop

/-!
# Callers that go away

The server drops the future of a call that times out, and with it the receiver of
its response. The loop ignores a failed send when it refuses a request, but
unwraps it when it passes on an answer of the node: that one send ends the task,
and every queued request with it.
-/

namespace Client

variable {P V : Type} [ToString P] {installable : Bool}

/-- A step after which the task goes on: it has not panicked, it stays in the
body or is back at the head of the loop and can go on from there, and no sender
has been dropped (unless the operator stopped the sidecar). -/
structure Survives (installable : Bool) (x : Step (State P V) (Event P V)) : Prop where
  alive : x.post.phase ≠ .panicked
  returns : x.pre.phase.Handling → x.post.phase.Handling ∨ x.post.phase = .awaitSignal
  progress : x.post.phase.Handling →
    ∃ e s, Event.isTask e ∧ step installable x.post e = some s
  kept : x.post.phase ≠ .exited → x.post.dropped = []

/-- If the step passes on an answer of the node, the caller is still waiting. -/
def CallerWaiting (x : Step (State P V) (Event P V)) : Prop :=
  match x.ev, x.pre.phase with
  | .answer _, .requesting r => r.response ∉ x.pre.gone
  | _, _ => True

instance (x : Step (State P V) (Event P V)) : Decidable (CallerWaiting x) := by
  unfold CallerWaiting; split <;> infer_instance

/-- What the two conditions on states amount to along a run that survives. -/
structure State.Intact (s : State P V) : Prop where
  alive : s.phase ≠ .panicked
  kept : s.phase ≠ .exited → s.dropped = []

@[simp] theorem State.handle_dropped (s : State P V) (m : Message P) :
    (s.handle m).dropped = s.dropped := by
  cases m with
  | request r => rw [State.handle_request]; split_ifs <;> rfl
  | tryConnect => rfl

/-- Handling a message ends at the head of the loop or at an await of the body. -/
theorem State.handle_phase (s : State P V) (m : Message P) :
    (s.handle m).phase.Handling ∨ (s.handle m).phase = .awaitSignal := by
  cases m with
  | request r =>
    rw [State.handle_request]
    split_ifs
    · exact .inr rfl
    · exact .inl trivial
    · exact .inl trivial
  | tryConnect => exact .inl trivial

/-- Whatever the task waits for inside the body, some outcome lets it go on. -/
theorem handling_progress {s : State P V} (h : s.phase.Handling) :
    ∃ e s', Event.isTask e ∧ step installable s e = some s' := by
  cases hp : s.phase with
  | resubmitting r => exact ⟨.resubmit, _, rfl, step_resubmit.mpr ⟨r, hp, rfl⟩⟩
  | requesting r =>
    refine ⟨.answer (.error ⟨"connection closed"⟩), ?_⟩
    by_cases hg : r.response ∈ s.gone
    · exact ⟨_, rfl, step_answer.mpr ⟨r, hp, .inl ⟨hg, rfl⟩⟩⟩
    · exact ⟨_, rfl, step_answer.mpr ⟨r, hp, .inr ⟨hg, rfl⟩⟩⟩
  | connecting =>
    exact ⟨.connect (.error ⟨"connection refused"⟩), _, rfl, step_connect.mpr ⟨hp, rfl⟩⟩
  | _ => simp [hp, Phase.Handling] at h

omit [ToString P] in
theorem submit_intact {s : State P V} (hs : s.Intact) (method : String) (params : P) :
    (s.submit method params).Intact := by
  refine ⟨by simpa using hs.alive, fun hp => ?_⟩
  rw [State.submit_phase] at hp
  have hend : ¬ s.phase.Ended := by
    cases h : s.phase <;> simp_all [Phase.Ended, hs.alive]
  simp [State.submit, hend, hs.kept hp]

/-- A step whose caller is waiting keeps the task going. -/
theorem survives_of_waiting {s s' : State P V} {e : Event P V}
    (h : step installable s e = some s') (hw : CallerWaiting ⟨s, e, s'⟩) (hs : s.Intact) :
    Survives installable ⟨s, e, s'⟩ := by
  have mk : (s.phase.Handling → s'.phase.Handling ∨ s'.phase = .awaitSignal) → s'.Intact →
      Survives installable ⟨s, e, s'⟩ :=
    fun hret hint => ⟨hint.alive, hret, handling_progress, hint.kept⟩
  cases e with
  | submit method params =>
    obtain rfl := step_submit.mp h
    exact mk (by simpa using Or.inl) (submit_intact hs method params)
  | cancel call =>
    obtain ⟨-, rfl⟩ := step_cancel.mp h
    exact mk .inl ⟨hs.alive, hs.kept⟩
  | disconnect =>
    obtain ⟨-, rfl⟩ := step_disconnect.mp h
    exact mk .inl ⟨hs.alive, hs.kept⟩
  | ctrlC =>
    obtain rfl := step_ctrlC.mp h
    exact mk .inl ⟨hs.alive, hs.kept⟩
  | signalled =>
    obtain ⟨hp, -, -, rfl⟩ := step_signalled.mp h
    exact mk (by simp [hp, Phase.Handling]) ⟨by simp [State.finish], by simp [State.finish]⟩
  | signalFailed =>
    obtain ⟨hp, -, rfl⟩ := step_signalFailed.mp h
    exact mk (by simp [hp, Phase.Handling]) ⟨by simp, fun _ => hs.kept (by simp [hp])⟩
  | dequeue =>
    obtain ⟨m, queue, hp, -, rfl⟩ := step_dequeue.mp h
    have hphase := State.handle_phase { s with queue := queue, phase := .awaitSignal } m
    refine mk (fun _ => hphase) ⟨?_, fun _ => ?_⟩
    · rcases hphase with hph | hph
      · intro hpanic; simp [hpanic, Phase.Handling] at hph
      · simp [hph]
    · simpa using hs.kept (by simp [hp])
  | resubmit =>
    obtain ⟨r, hp, rfl⟩ := step_resubmit.mp h
    exact mk (fun _ => .inr rfl) ⟨by simp, fun _ => hs.kept (by simp [hp])⟩
  | answer response =>
    obtain ⟨r, hp, ⟨hg, -⟩ | ⟨-, rfl⟩⟩ := step_answer.mp h
    -- the receiver is still there, so the send does not fail
    · simp only [CallerWaiting, hp] at hw
      exact absurd hg hw
    · exact mk (fun _ => .inr rfl) ⟨by simp [State.respond], fun _ => hs.kept (by simp [hp])⟩
  | connect result =>
    obtain ⟨hp, rfl⟩ := step_connect.mp h
    exact mk (fun _ => .inr rfl) ⟨by simp, fun _ => hs.kept (by simp [hp])⟩

/-- An answer that finds no receiver panics. -/
theorem waiting_of_alive {s s' : State P V} {e : Event P V}
    (h : step installable s e = some s') (ha : s'.phase ≠ .panicked) :
    CallerWaiting ⟨s, e, s'⟩ := by
  cases e with
  | answer response =>
    obtain ⟨r, hp, ⟨-, rfl⟩ | ⟨hg, -⟩⟩ := step_answer.mp h
    · exact absurd rfl ha
    · simpa [CallerWaiting, hp] using hg
  | _ => trivial

/-- A run survives all its cancellations exactly when every answer of the node
finds its caller still waiting. -/
theorem survives_iff {ts : List (Step (State P V) (Event P V))} {t : State P V}
    (h : Run (step installable) State.init ts t) :
    (∀ x ∈ ts, Survives installable x) ↔ ∀ x ∈ ts, CallerWaiting x := by
  constructor
  · intro hsurv x hx
    exact waiting_of_alive (h.mem_step hx) (hsurv x hx).alive
  · intro hwait x hx
    have keep : ∀ x : Step (State P V) (Event P V), step installable x.pre x.ev = some x.post →
        CallerWaiting x → x.pre.Intact → x.post.Intact := fun x hstep hw hpre =>
      have hsurv := survives_of_waiting hstep hw hpre
      ⟨hsurv.alive, hsurv.kept⟩
    have hpre := ((h.invariant_of keep hwait ⟨by simp [State.init], fun _ => rfl⟩).2 x hx).1
    exact survives_of_waiting (h.mem_step hx) (hwait x hx) hpre

/-- The events of two callers of which the first goes away while the node works
on its request. -/
def timeoutInFlight : List (Event String String) :=
  [.submit "state_call" "[]", .signalFailed, .dequeue, .resubmit,
   .signalFailed, .dequeue, .connect (.ok ()),
   .signalFailed, .dequeue, .submit "chain_getHeader" "[]", .cancel 0, .answer (.ok "0x00")]

/-- The answer for the first caller panics and the request of the second, made
while the answer was awaited, is lost. -/
theorem panics_after_timeout :
    ∃ ts t, Run (step false) State.init ts t ∧ ts.map Step.ev = timeoutInFlight ∧
      t.phase = .panicked ∧ t.dropped = [1] ∧ ¬ ∀ x ∈ ts, Survives false x := by
  refine ⟨_, _, .of_trace State.init timeoutInFlight, by decide, by decide, by decide, ?_⟩
  intro hall
  have hlast := hall _ (List.getLast_mem (by decide))
  exact hlast.alive (by decide)

/-- Both callers are still there when the node answers. -/
theorem survives_without_timeout :
    ∃ ts t, Run (step false) State.init ts t ∧ ts.map Step.ev = timeoutInFlight.erase (.cancel 0) ∧
      ∀ x ∈ ts, Survives false x := by
  refine ⟨_, _, .of_trace State.init (timeoutInFlight.erase (.cancel 0)), by decide, ?_⟩
  exact (survives_iff (.of_trace _ _)).mpr (by decide)

end Client

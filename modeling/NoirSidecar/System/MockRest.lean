-- SUMMARY: Without new requests the mock comes to rest with every caller told its outcome, and Ctrl-C stops its virtual machine.
import NoirSidecar.Base.Rest
import NoirSidecar.System.MockTurns

/-!
# The mock at rest

Nobody tells a caller that its result will not come: its receiver finds out when the queue is
dropped with the sender in it. So a caller could only wait for ever for a request that the
loop neither handles nor loses, and there is none once the loop has nothing to do.
-/

namespace MockSidecar

open LiteSVM MockSolana Solana

variable {T : Types} {σ : Type} {set : Setting T σ} {s s' t : State σ} {e : Event} {s₀ : σ}
  {ts : List (Step (State σ) Event)} {thread thread' : Thread}

/-- Everything but a new request. -/
def Event.Working : Event → Prop
  | .accept .. => False
  | _ => True

/-- What the loop and the threads do of their own accord. -/
def Event.Own : Event → Prop
  | .poll | .look .. | .ask _ | .reply _ => True
  | .signal | .accept .. | .leave _ => False

/-! ## The work there is -/

/-- A thread that is there puts its call into the queue, or goes on without. -/
def Moved (thread' thread : Thread) : Prop :=
  thread.left = false ∧
    ((∃ channel, thread.awaiting = none ∧ thread' = { thread with awaiting := some channel }) ∨
      ∃ (τ : Type) (s : State τ), Moves s thread thread')

theorem acc_moved (thread : Thread) : Acc Moved thread := by
  refine Runner.acc_of_goes (ε := fun _ => ErrorObject) (α := Request.Value) Thread.request
    (fun thread => ⟨thread.prog, thread.awaiting, thread.left⟩) (fun thread' thread hmoved => ?_) thread
  obtain ⟨present, ⟨channel, idle, rfl⟩ | ⟨τ, s, hmoves⟩⟩ := hmoved
  · exact ⟨_, .asked _ channel present idle, rfl⟩
  · cases hmoves with
    | gone => exact ⟨_, .gone _ present, rfl⟩
    | looked k millis hprog => exact ⟨_, .told _ (.inr ()) k millis present hprog, rfl⟩
    | refused call k e hprog =>
      exact ⟨_, .told _ (.inl call) k (Except.error e) present hprog, rfl⟩
    | told call k channel r result hprog =>
      exact ⟨_, .told _ (.inl call) k (Except.ok result) present hprog, rfl⟩

/-- First of all Ctrl-C is pressed, then threads move, and in between the loop empties its queue. -/
def Less : Nat × List Thread × Nat → Nat × List Thread × Nat → Prop :=
  Prod.Lex (· < ·) (Prod.Lex (OneLess Moved) (· < ·))

def State.work (s : State σ) : Nat × List Thread × Nat :=
  (if s.signal then 0 else 1, s.threads, s.svm.queue.length)

theorem acc_less (x : Nat × List Thread × Nat) : Acc Less x := by
  have hthreads : ∀ y : List Thread × Nat, Acc (Prod.Lex (OneLess Moved) (· < ·)) y := fun y =>
    Prod.lexAccessible (acc_oneLess fun thread _ => acc_moved thread) Nat.lt_wfRel.wf.apply y.2
  exact Prod.lexAccessible (Nat.lt_wfRel.wf.apply x.1) hthreads x.2

theorem work_step (h : step set s e = some s') (he : e.Working) : Less s'.work s.work := by
  cases change_of_step h with
  | signalled =>
    -- Ctrl-C is waited for only once
    cases hsignal : s.signal with
    | true => simp [step, hsignal] at h
    | false =>
      refine .left _ _ ?_
      simp [hsignal]
  | took r queue hrunning hhead =>
    refine .right _ (.right _ ?_)
    rw [hhead]
    obtain ⟨-, -, hqueue, -⟩ | ⟨-, -, hqueue⟩ := took_cases set hhead
    · rw [hqueue]
      exact Nat.lt_succ_self _
    · rw [hqueue]
      exact Nat.succ_pos _
  | accepted => cases he
  | asked i thread call k hi hprog hidle =>
    obtain ⟨hget, hpresent⟩ := present_eq_some hi
    exact .right _ (.left _ _ ⟨i, thread, _, hget, ⟨hpresent, .inl ⟨_, hidle, rfl⟩⟩, rfl⟩)
  | moved e i thread thread' hi hmoves =>
    obtain ⟨hget, hpresent⟩ := present_eq_some hi
    exact .right _ (.left _ _ ⟨i, thread, thread', hget, ⟨hpresent, .inr ⟨σ, s, hmoves⟩⟩, rfl⟩)

/-! ## Ctrl-C -/

/-- Where Ctrl-C has been pressed the loop has stopped, or is about to. -/
theorem terminated_change (h : Change set s e s')
    (hs : s.signal = true → s.svm.running = false ∨ terminateSvm ∈ s.svm.queue)
    (hsignal : s'.signal = true) : s'.svm.running = false ∨ terminateSvm ∈ s'.svm.queue := by
  cases h with
  | signalled =>
    by_cases hrunning : s.svm.running
    · simp [State.send, hrunning]
    · simp [State.send, hrunning]
  | took r queue hrunning hhead =>
    obtain ⟨-, -, hqueue, -, hne⟩ | ⟨hstopped, -⟩ := took_cases set hhead
    · rcases hs hsignal with hstopped | hmem
      · rw [hrunning] at hstopped
        cases hstopped
      · rw [hhead] at hmem
        rw [hqueue]
        exact .inr ((List.mem_cons.mp hmem).resolve_left fun heq => hne heq.symm)
    · exact .inl hstopped
  | accepted => exact hs hsignal
  | asked i thread call k hi hprog hidle hrunning =>
    rcases hs hsignal with hstopped | hmem
    · exact .inl hstopped
    · exact .inr (List.mem_append_left _ hmem)
  | moved => exact hs hsignal

theorem terminated_of_run (h : Run (step set) (.init s₀) ts t) (hsignal : t.signal = true) :
    t.svm.running = false ∨ terminateSvm ∈ t.svm.queue :=
  (h.invariant (I := fun s => s.signal = true → s.svm.running = false ∨ terminateSvm ∈ s.svm.queue)
    (fun _ _ _ hstep hs => terminated_change (change_of_step hstep) hs) (by simp [State.init])).1 hsignal

/-- No request is called what stops the loop. -/
theorem asks_others (r : Request) (orders : IterOrders) :
    (set.method r orders).Asks (Sum.elim (fun call => call.method ≠ "terminateSvm") fun _ => True) := by
  refine Prog.asks_through (fun q => asks_lower q (fun call params _ => ?_) trivial) _
  cases call <;> simp [Call.method]

/-- Nothing but Ctrl-C stops the loop. -/
theorem unsignalled_change (h : Change set s e s')
    (hothers : ∀ (i : Nat) (thread : Thread) (call : ExecuteCall) k, s.threads[i]? = some thread →
      thread.prog = .ask (.inl call) k → call.method ≠ "terminateSvm")
    (hs : s.signal = false → s.svm.running = true ∧ ∀ r ∈ s.svm.queue, r.method ≠ "terminateSvm")
    (hsignal : s'.signal = false) :
    s'.svm.running = true ∧ ∀ r ∈ s'.svm.queue, r.method ≠ "terminateSvm" := by
  cases h with
  | signalled => cases hsignal
  | took r queue hrunning hhead =>
    obtain ⟨-, hqueue⟩ := hs hsignal
    rw [hhead] at hqueue
    obtain ⟨hr, hqueue⟩ := List.forall_mem_cons.mp hqueue
    have hgoes : (LiteSVM.run set.bincode set.svm).stops r = false := beq_eq_false_iff_ne.mpr hr
    have hsvm : s.svm.take (LiteSVM.run set.bincode set.svm) r queue = _ :=
      Server.State.take_of_not_stops hgoes
    rw [hsvm]
    exact ⟨hrunning, hqueue⟩
  | accepted => exact hs hsignal
  | asked i thread call k hi hprog hidle hrunning =>
    refine ⟨hrunning, fun r hr => ?_⟩
    rcases List.mem_append.mp hr with hr | hr
    · exact (hs hsignal).2 r hr
    · rw [List.mem_singleton.mp hr]
      exact hothers i thread call k (present_eq_some hi).1 hprog
  | moved => exact hs hsignal

theorem running_of_run (h : Run (step set) (.init s₀) ts t) (hsignal : t.signal = false) :
    t.svm.running = true := by
  have hunsignalled : t.signal = false →
      t.svm.running = true ∧ ∀ r ∈ t.svm.queue, r.method ≠ "terminateSvm" := by
    refine h.history_induction (P := fun _ t => t.signal = false →
      t.svm.running = true ∧ ∀ r ∈ t.svm.queue, r.method ≠ "terminateSvm") ?_ ?_
    · simp [State.init, Server.State.init]
    · intro as a e a' hrun ih hstep
      refine unsignalled_change (change_of_step hstep) (fun i thread call k hi hprog => ?_) ih
      have hdialogue := dialogue_of_run hrun hi
      rw [hprog] at hdialogue
      exact (hdialogue.asks (asks_others thread.request thread.orders)).2.1
  exact (hunsignalled hsignal).1

/-! ## At rest -/

section Rest

variable (hrest : AtRest (step set) Event.Own t)

include hrest

theorem queue_of_rest (hrunning : t.svm.running = true) : t.svm.queue = [] := by
  cases hqueue : t.svm.queue with
  | nil => rfl
  | cons r queue =>
    have hpoll := hrest .poll trivial
    have hstep : Server.step (LiteSVM.run set.bincode set.svm) t.svm .poll = some _ :=
      Server.step_poll.mpr ⟨hrunning, .inr ⟨r, queue, hqueue, rfl⟩⟩
    simp [step, hqueue, hstep] at hpoll

/-- A thread that has a question can take a step, or the loop can. -/
theorem done_of_rest (h : Run (step set) (.init s₀) ts t) {i : Nat} (hi : t.present i = some thread) :
    ∃ o, thread.prog = .ofOutcome o := by
  cases hprog : thread.prog with
  | done a => exact ⟨.ok a, rfl⟩
  | fail e => exact ⟨.error e, rfl⟩
  | panic => exact ⟨.panicked, rfl⟩
  | ask q k =>
    exfalso
    cases q with
    | inr clock =>
      have hlook := hrest (.look i 0) trivial
      simp [step, hi, look, hprog] at hlook
    | inl call =>
      cases hawaiting : thread.awaiting with
      | none =>
        have hask := hrest (.ask i) trivial
        simp only [step, hi, ask, hprog, hawaiting, Option.bind_some, Option.map_eq_none_iff] at hask
        split at hask <;> cases hask
      | some channel =>
        have hreply := hrest (.reply i) trivial
        simp only [step, hi, reply, hprog, hawaiting, Option.bind_some, Option.map_eq_none_iff] at hreply
        split at hreply
        · cases hreply
        · next hnone =>
          split at hreply
          · next hrunning =>
            obtain ⟨call', k', -, -, hput⟩ :=
              (channels_of_run h).asking i thread channel (present_eq_some hi).1 hawaiting
            have hsent := hput hrunning
            rw [State.sent, queue_of_rest hrest hrunning, List.append_nil] at hsent
            obtain ⟨x, hx, hxput⟩ := List.mem_map.mp hsent
            simpa [hxput, put] using List.find?_eq_none.mp hnone x hx
          · cases hreply

end Rest

/-- Without new requests the mock does only so much, in whatever order, and when the loop and the
threads have nothing left to do every caller that is still there has its outcome, and the loop
has stopped if Ctrl-C was pressed, and only then. -/
theorem rests_with_outcomes (h : Run (step set) (.init s₀) ts t) :
    Acc (Works (step set) Event.Working) t ∧
      ∀ us t', Run (step set) t us t' → AtRest (step set) Event.Own t' →
        (t'.svm.running = false ↔ t'.signal = true) ∧
        ∀ i thread, t'.present i = some thread → ∃ o, thread.prog = .ofOutcome o := by
  have hdown : ∀ s e s', step set s e = some s' → e.Working → Less s'.work s.work :=
    fun s e s' => work_step
  refine ⟨acc_works_of_measure hdown (acc_less t.work), ?_⟩
  intro us t' hrun hrest
  have hwhole := h.append hrun
  refine ⟨⟨fun hstopped => ?_, fun hsignal => ?_⟩, fun _ _ hi => done_of_rest hrest hwhole hi⟩
  · by_contra hsignal
    have hrunning := running_of_run hwhole (by simpa using hsignal)
    rw [hstopped] at hrunning
    cases hrunning
  · rcases terminated_of_run hwhole hsignal with hstopped | hmem
    · exact hstopped
    · by_contra hrunning
      rw [queue_of_rest hrest (by simpa using hrunning)] at hmem
      cases hmem

/-- Ctrl-C is pressed between the calls of two callers. -/
def signalBetween : List Event :=
  [.accept (.read (.getLatestBlockhash none)) listedOrders, .look 0 1000, .ask 0, .signal,
    .accept (.read (.getLatestBlockhash none)) listedOrders, .look 1 2000, .ask 1]

theorem signal_between_rests :
    let t := after (.init [(.ofByte 7, 5)])
      (trace (step balancesSetting) (.init [(.ofByte 7, 5)]) signalBetween)
    Acc (Works (step balancesSetting) Event.Working) t ∧
      ∀ us t', Run (step balancesSetting) t us t' → AtRest (step balancesSetting) Event.Own t' →
        (t'.svm.running = false ↔ t'.signal = true) ∧
        ∀ i thread, t'.present i = some thread → ∃ o, thread.prog = .ofOutcome o :=
  rests_with_outcomes (.of_trace _ signalBetween)

end MockSidecar

-- SUMMARY: Whatever runs beside it, a thread is told what the node or the index says at some moment while it runs, or that its call failed.
import NoirSidecar.System.Machine

/-!
# Threads

The client task and the subscriber go through runs of their own machines, and a thread
through a dialogue: a history of answers and the rest of its program. An answer comes a
good while after its question, with other threads' requests in the queue and on the wire,
and the channel the thread waits at is all that makes it the thread's own.
-/

namespace Sidecar

open Chain Solana
open Client (Response)

variable {P V : Type}

/-! ## Answers -/

/-- The call has failed. -/
def Refused : Answered → Prop
  | ⟨.inl call, a⟩ => call.Failed a
  | ⟨.inr _, _⟩ => False

/-- The node has a request for the call. -/
def State.AtNode (set : Setting P V) (s : State P V) (call : NodeCall) : Prop :=
  ∃ r, s.client.phase = .requesting r ∧ r.method = call.method ∧ set.params call = .ok r.params

/-- The answer is what the node, which has a request for it, or the index, says at this
moment. -/
def State.Says (set : Setting P V) (s : State P V) : Answered → Prop
  | ⟨.inl call, a⟩ => a = nodeAt set.node (set.history.world s.time) call ∧ s.AtNode set call
  | ⟨.inr call, a⟩ => a = (set.engine.accountsIndex call s.store).1

/-- The call has failed, or the answer is right at one of these moments. -/
def Heard (set : Setting P V) (us : List (State P V)) (x : Answered) : Prop :=
  Refused x ∨ ∃ u ∈ us, u.Says set x

theorem Heard.mono {set : Setting P V} {us us' : List (State P V)} {x : Answered}
    (h : Heard set us x) (hsub : us ⊆ us') : Heard set us' x :=
  h.imp id fun ⟨u, hu, hsaid⟩ => ⟨u, hsub hu, hsaid⟩

theorem heard_refused (set : Setting P V) (us : List (State P V)) (call : NodeCall)
    (e : Client.Error) : Heard set us ⟨.inl call, call.failed e⟩ := .inl ⟨e, rfl⟩

/-- What a thread may know after these moments: its dialogue, and that the response it waits
for, should it come, will be right. -/
structure Explained (set : Setting P V) (us : List (State P V)) (s : State P V)
    (thread : Thread) : Prop where
  dialogue : Prog.Dialogue (thread.job.prog set) thread.told thread.prog
  heard : ∀ x ∈ thread.told, Heard set us x
  owned : ∀ channel call k, thread.awaiting = some channel → thread.prog = .ask (.inl call) k →
    ∃ params, set.params call = .ok params ∧ Client.Owned channel call.method params
      (fun response => Heard set us ⟨.inl call, set.receive call response⟩) s.client

theorem explained_start (set : Setting P V) (us : List (State P V)) (s : State P V) (job : Job) :
    Explained set us s (.start set job) where
  dialogue := .nil _
  heard _ hx := absurd hx List.not_mem_nil
  owned _ _ _ hawaiting := by cases hawaiting

section Steps

variable {set : Setting P V} {s s' : State P V} {us : List (State P V)} {thread thread' : Thread}

/-- What the node brings is its answer at that time, or a failure. -/
theorem heard_bring (hs : s ∈ us) (call : NodeCall) {r : Client.Request P}
    (hphase : s.client.phase = .requesting r) (hmethod : r.method = call.method)
    (hparams : set.params call = .ok r.params)
    (failure : Option Client.ClientError) :
    Heard set us ⟨.inl call, set.receive call ((set.bring s.time r failure).mapError .clientError)⟩ := by
  cases failure with
  | some e => exact heard_refused set us call _
  | none =>
    rw [Setting.bring, hmethod]
    cases hserve : set.serve (set.history.world s.time) call.method r.params with
    | error e => exact heard_refused set us call _
    | ok v => exact .inr ⟨s, hs, set.serves _ _ _ _ hparams hserve, r, hphase, hmethod, hparams⟩

/-- An answer that is given in a step is right before it. -/
theorem heard_of_answers {q : NodeCall ⊕ Index.Call}
    {a : Sum.elim NodeCall.Answer Index.Call.Answer q}
    {k : Sum.elim NodeCall.Answer Index.Call.Answer q →
      Index.IndexProg thread.job.Error thread.job.Reply}
    (h : Explained set us s thread) (hs : s ∈ us) (hprog : thread.prog = .ask q k)
    (hanswers : Answers set s thread s' q a) : Heard set us ⟨q, a⟩ := by
  cases hanswers with
  | refused call e => exact heard_refused set us call e
  | received call channel response hawaiting hsent =>
    obtain ⟨params, -, howned⟩ := h.owned channel call k hawaiting hprog
    exact howned.response response hsent
  | found call hstore => exact .inr ⟨s, hs, rfl⟩

variable [ToString P] {e : Event P V}

theorem known_step (h : step set s e = some s') (hknown : Client.Known s.client) :
    Client.Known s'.client := by
  rcases client_step h with hsame | ⟨ce, hstep, -⟩
  · rwa [hsame]
  · exact Client.Known.step (x := ⟨s.client, ce, s'.client⟩) hknown (Client.response_step hstep)

/-- The channel a thread waits at remains its own. -/
theorem owned_step (h : step set s e = some s') (hs : s ∈ us) {channel : Nat} {call : NodeCall}
    (howned : ∃ params, set.params call = .ok params ∧ Client.Owned channel call.method params
      (fun response => Heard set us ⟨.inl call, set.receive call response⟩) s.client) :
    ∃ params, set.params call = .ok params ∧ Client.Owned channel call.method params
      (fun response => Heard set (us ++ [s']) ⟨.inl call, set.receive call response⟩) s'.client := by
  obtain ⟨params, hwritten, howned⟩ := howned
  refine ⟨params, hwritten, ?_⟩
  have hmono : ∀ response, Heard set us ⟨.inl call, set.receive call response⟩ →
      Heard set (us ++ [s']) ⟨.inl call, set.receive call response⟩ :=
    fun response hheard => hheard.mono (List.subset_append_left us [s'])
  rcases client_step h with hsame | ⟨ce, hstep, hbring⟩
  · rw [hsame]
    exact ⟨howned.made, howned.request, fun response hmem => hmono _ (howned.response _ hmem)⟩
  · refine Client.Owned.step (x := ⟨s.client, ce, s'.client⟩) howned (Client.response_step hstep)
      hmono (heard_refused set _ call _) ?_
    intro r answer hev hphase hmethod hparams _
    obtain ⟨r', failure, hphase', rfl⟩ := hbring answer hev
    obtain rfl : r = r' := Client.Phase.requesting.inj (hphase.symm.trans hphase')
    rw [← hparams] at hwritten
    exact heard_bring (List.mem_append_left _ hs) call hphase hmethod hwritten failure

/-- One step. -/
theorem Explained.step (h : Explained set us s thread) (hstep : step set s e = some s')
    (hknown : Client.Known s.client) (hs : s ∈ us)
    (hthread : thread' = thread ∨ ThreadStep set s s' thread thread') :
    Explained set (us ++ [s']) s' thread' := by
  have hheard : ∀ x ∈ thread.told, Heard set (us ++ [s']) x :=
    fun x hx => (h.heard x hx).mono (List.subset_append_left us [s'])
  rcases hthread with rfl | hthread
  · exact ⟨h.dialogue, hheard, fun channel call k hawaiting hprog =>
      owned_step hstep hs (h.owned channel call k hawaiting hprog)⟩
  cases hthread with
  | gone => exact ⟨h.dialogue, hheard, fun channel call k hawaiting hprog =>
      owned_step hstep hs (h.owned channel call k hawaiting hprog)⟩
  | asked call k params hprog hidle halive hwritten hclient =>
    refine ⟨h.dialogue, hheard, fun channel call' k' hawaiting hprog' => ?_⟩
    cases hawaiting
    dsimp only at hprog'
    rw [hprog] at hprog'
    cases hprog'
    have hsubmit : Client.step set.installable s.client (.submit call.method params) =
        some s'.client := Client.step_submit.mpr hclient
    -- the channel is made with the call, and so is this call's
    refine ⟨params, hwritten, ?_⟩
    refine hknown.owned (x := ⟨s.client, _, s'.client⟩) (Client.response_step hsubmit) rfl ?_
    dsimp only
    rw [hclient, Client.State.submit_calls]
    exact Nat.lt_succ_self _
  | told q k a hprog hanswers =>
    refine ⟨?_, ?_, fun channel call k' hawaiting => by cases hawaiting⟩
    · have hdialogue := h.dialogue
      rw [hprog] at hdialogue
      exact hdialogue.snoc a
    · intro x hx
      rcases List.mem_append.mp hx with hx | hx
      · exact hheard x hx
      · obtain rfl := List.mem_singleton.mp hx
        exact (heard_of_answers h hs hprog hanswers).mono (List.subset_append_left us [s'])

end Steps

/-! ## Runs -/

section Runs

variable [ToString P] {set : Setting P V} {s t : State P V}
  {ts : List (Step (State P V) (Event P V))} {chain : List Block} {store : Index.Db}

/-- The client task goes through a run of its own. -/
theorem client_run (h : Run (step set) s ts t) :
    ∃ us, Run (Client.step set.installable) s.client us t.client ∧
      ∀ u, u ∈ visited s.client us ↔ u ∈ (visited s ts).map State.client :=
  h.project fun _ _ _ hstep => (client_step hstep).imp id fun ⟨ce, hce, _⟩ => ⟨ce, hce⟩

/-- So does the subscriber. -/
theorem subscriber_run (h : Run (step set) s ts t) :
    ∃ us, Run (EventSubscriber.step filters) s.subscriber us t.subscriber ∧
      ∀ u, u ∈ visited s.subscriber us ↔ u ∈ (visited s ts).map State.subscriber :=
  h.project fun _ _ _ hstep => subscriber_step hstep

theorem known_of_run (h : Run (step set) (.init chain store) ts t) : Client.Known t.client := by
  obtain ⟨us, hrun, -⟩ := client_run h
  exact Client.known_of_run hrun

/-- A thread in the rest of a run. -/
theorem explained_run {i : Nat} {thread : Thread} (h : Run (step set) s ts t)
    (hi : s.threads[i]? = some thread) (hknown : Client.Known s.client)
    (hthread : Explained set [s] s thread) :
    ∃ thread', t.threads[i]? = some thread' ∧ thread'.job = thread.job ∧
      Explained set (visited s ts) t thread' ∧ Client.Known t.client := by
  refine h.history_induction (P := fun ts t => ∃ thread', t.threads[i]? = some thread' ∧
    thread'.job = thread.job ∧ Explained set (visited s ts) t thread' ∧ Client.Known t.client) ?_ ?_
  · exact ⟨thread, hi, rfl, hthread, hknown⟩
  · intro as a e a' hrun ih hstep
    obtain ⟨old, hold, hjob, hexplained, hknown⟩ := ih
    obtain ⟨new, hnew, hone⟩ := thread_step hstep hold
    have hlast : a ∈ visited s as := hrun.end_mem_visited
    have hvisited : visited s (as ++ [⟨a, e, a'⟩]) = visited s as ++ [a'] := by
      simp [visited]
    have hsame : new.job = old.job := by
      rcases hone with rfl | hone
      · rfl
      · cases hone <;> rfl
    refine ⟨new, hnew, hsame.trans hjob, ?_, known_step hstep hknown⟩
    rw [hvisited]
    exact hexplained.step hstep hknown hlast hone

/-- Every thread began with a step of the run, and has since been told what was right at
some moment from there on, unless its call had failed. -/
theorem thread_of_run {i : Nat} {thread : Thread} (h : Run (step set) (.init chain store) ts t)
    (hi : t.threads[i]? = some thread) :
    ∃ before x later, ts = before ++ x :: later ∧ x.pre.threads[i]? = none ∧
      Begins set x.pre x.ev thread.job ∧ Explained set (visited x.post later) t thread := by
  have hbegin : ∃ before x later, ts = before ++ x :: later ∧ x.pre.threads[i]? = none ∧
      ∃ first, x.post.threads[i]? = some first := by
    refine h.history_induction (P := fun ts t => (∃ thread, t.threads[i]? = some thread) →
      ∃ before x later, ts = before ++ x :: later ∧ x.pre.threads[i]? = none ∧
        ∃ first, x.post.threads[i]? = some first) ?_ ?_ ⟨thread, hi⟩
    · rintro ⟨thread, hthread⟩
      cases hthread
    · rintro as a e a' - ih hstep ⟨thread, hthread⟩
      cases ha : a.threads[i]? with
      | none => exact ⟨as, _, [], rfl, ha, thread, hthread⟩
      | some old =>
        obtain ⟨before, x, later, rfl, hnone, hfirst⟩ := ih ⟨old, ha⟩
        exact ⟨before, x, later ++ [⟨a, e, a'⟩], by simp, hnone, hfirst⟩
  obtain ⟨before, x, later, rfl, hnone, first, hfirst⟩ := hbegin
  obtain ⟨hbefore, hx, hlater⟩ := h.split
  obtain ⟨hbegins, hstart⟩ := begins_of_step hx hnone hfirst
  have hexplained : Explained set [x.post] x.post first := by
    rw [hstart]
    exact explained_start set _ _ _
  obtain ⟨thread', hi', hjob, hthread, -⟩ :=
    explained_run hlater hfirst (known_step hx (known_of_run hbefore)) hexplained
  rw [hi] at hi'
  cases hi'
  exact ⟨before, x, later, rfl, hnone, hjob ▸ hbegins, hthread⟩

theorem dialogue_of_run {i : Nat} {thread : Thread} (h : Run (step set) (.init chain store) ts t)
    (hi : t.threads[i]? = some thread) :
    Prog.Dialogue (thread.job.prog set) thread.told thread.prog := by
  obtain ⟨_, _, _, -, -, -, hthread⟩ := thread_of_run h hi
  exact hthread.dialogue

end Runs

end Sidecar

-- SUMMARY: Whatever runs beside it, a request to the mock is answered as if the request loop took its calls one after another, with calls of others in between.
import NoirSidecar.System.MockMachine

/-!
# Requests in turn

The mock of a single caller was run against a loop that takes requests of others before each
of the caller's own. In the machine the others are other threads, which put their calls into
the same queue at any time, and a result finds its caller by the number of its channel. What
comes out for a request is what the single caller would have got.
-/

namespace MockSidecar

open LiteSVM MockSolana Solana

variable {T : Types} {σ : Type} {set : Setting T σ} {s s' t : State σ} {e : Event} {s₀ : σ}
  {ts : List (Step (State σ) Event)}

/-! ## The loop -/

/-- The loop takes a step of its own machine, or none. -/
theorem loop_change (h : Change set s e s') :
    s'.svm = s.svm ∨
      ∃ se, Server.step (LiteSVM.run set.bincode set.svm) s.svm se = some s'.svm := by
  cases h with
  | signalled => exact .inr ⟨.send terminateSvm, rfl⟩
  | took r queue hrunning hhead =>
    exact .inr ⟨.poll, Server.step_poll.mpr ⟨hrunning, .inr ⟨r, queue, hhead, rfl⟩⟩⟩
  | accepted => exact .inl rfl
  | asked i thread call k hi hprog hidle hrunning =>
    exact .inr ⟨.send (put call s.channels), Server.step_send.mpr (by rw [if_pos hrunning])⟩
  | moved => exact .inl rfl

/-- What has been handled has been answered as if one after another. -/
theorem answered_of_run (h : Run (step set) (.init s₀) ts t) :
    t.svm.answered = (LiteSVM.run set.bincode set.svm).answers s₀ t.received ∧
      t.svm.store = stateAfter set.bincode set.svm s₀ t.received := by
  obtain ⟨us, hrun, -⟩ := h.project (f := State.svm) fun _ _ _ hstep =>
    loop_change (change_of_step hstep)
  obtain ⟨hanswered, hstore⟩ := Server.answered_of_run hrun
  have hreceived : t.received = (LiteSVM.run set.bincode set.svm).received us := by
    rw [State.received, hanswered, Server.map_fst_answers]
  rw [hreceived, ← stateAfter_run]
  exact ⟨hanswered, hstore⟩

/-- A result is that of the state the requests before it lead to. -/
theorem result_of_run (h : Run (step set) (.init s₀) ts t) {before after : List (SvmRequest × SvmResult)}
    {r : SvmRequest} {result : SvmResult} (hlog : t.svm.answered = before ++ (r, result) :: after) :
    result = (handle set.bincode set.svm r
      (stateAfter set.bincode set.svm s₀ (before.map Prod.fst))).1 := by
  obtain ⟨hanswered, -⟩ := answered_of_run h
  have hreceived : t.received = before.map Prod.fst ++ r :: after.map Prod.fst := by
    simp [State.received, hlog]
  have hget := Server.answers_getElem? (LiteSVM.run set.bincode set.svm) s₀ t.received before.length
  rw [← hanswered, hlog, hreceived] at hget
  simp only [List.getElem?_append_right, List.length_map, le_refl, Nat.sub_self,
    List.getElem?_cons_zero, Option.map_some, Option.some.injEq, Prod.mk.injEq, true_and,
    List.take_left'] at hget
  rw [hget, stateAfter_run]
  rfl

/-! ## Channels -/

/-- A channel is one call's. As long as the loop runs, the call of a thread that waits has been
handled or is still to be. -/
structure Channels (s : State σ) : Prop where
  numbered : ∀ r ∈ s.sent, ∀ channel, r.response = some channel → channel < s.channels
  made : ∀ (i : Nat) (thread : Thread) channel, s.threads[i]? = some thread →
    thread.awaiting = some channel → channel < s.channels
  asking : ∀ (i : Nat) (thread : Thread) channel, s.threads[i]? = some thread →
    thread.awaiting = some channel → ∃ call k, thread.prog = .ask (.inl call) k ∧
      (∀ r ∈ s.sent, r.response = some channel → r = put call channel) ∧
      (s.svm.running = true → put call channel ∈ s.sent)

theorem channels_init (s₀ : σ) : Channels (State.init s₀) := by
  constructor <;> simp [State.init, State.sent, State.received, Server.State.init]

/-- Nothing is put into the queue but by a thread that makes a channel for it. -/
theorem sent_change (h : Change set s e s') :
    (∀ r ∈ s'.sent, r ∈ s.sent ∨ r = terminateSvm ∨
        r.response = some s.channels ∧ s'.channels = s.channels + 1) ∧
      s.channels ≤ s'.channels ∧
      (s'.svm.running = true → s.svm.running = true ∧ s.sent ⊆ s'.sent) := by
  cases h with
  | signalled =>
    refine ⟨fun r hr => ?_, le_rfl, fun hrunning => ?_⟩
    · by_cases hrunning : s.svm.running
      · simp only [State.sent, State.received, State.send, if_pos hrunning, ← List.append_assoc] at hr
        rcases List.mem_append.mp hr with hr | hr
        · exact .inl hr
        · exact .inr (.inl (List.mem_singleton.mp hr))
      · simp only [State.sent, State.received, State.send, if_neg hrunning] at hr
        exact .inl hr
    · by_cases hrunning' : s.svm.running
      · refine ⟨hrunning', ?_⟩
        simp only [State.sent, State.received, State.send, if_pos hrunning', ← List.append_assoc]
        exact List.subset_append_left _ _
      · simp [State.send, hrunning'] at hrunning
  | took r queue hrunning hhead =>
    -- handled or lost, it was in the queue before
    obtain ⟨-, -, -, hsent, -⟩ | ⟨hstopped, hreceived, hqueue⟩ := took_cases set hhead
    · refine ⟨fun r hr => .inl (hsent ▸ hr), le_rfl, fun _ => ⟨hrunning, ?_⟩⟩
      rw [hsent]
      exact List.Subset.refl _
    · refine ⟨fun r hr => .inl ?_, le_rfl, fun hlive => ?_⟩
      · rw [State.sent, hreceived, hqueue, List.append_nil] at hr
        exact List.mem_append_left _ hr
      · rw [hstopped] at hlive
        cases hlive
  | accepted => exact ⟨fun r hr => .inl hr, le_rfl, fun hrunning => ⟨hrunning, fun _ hr => hr⟩⟩
  | asked i thread call k hi hprog hidle hrunning =>
    refine ⟨fun r hr => ?_, Nat.le_succ _, fun _ => ⟨hrunning, ?_⟩⟩
    · simp only [State.sent, State.received, ← List.append_assoc] at hr
      rcases List.mem_append.mp hr with hr | hr
      · exact .inl hr
      · obtain rfl := List.mem_singleton.mp hr
        exact .inr (.inr ⟨rfl, rfl⟩)
    · simp only [State.sent, State.received, ← List.append_assoc]
      exact List.subset_append_left _ _
  | moved => exact ⟨fun r hr => .inl hr, le_rfl, fun hrunning => ⟨hrunning, fun _ hr => hr⟩⟩

theorem channels_change (h : Change set s e s') (hs : Channels s) : Channels s' := by
  obtain ⟨hsent, hle, hkept⟩ := sent_change h
  refine ⟨?_, ?_, ?_⟩
  · intro r hr channel hresponse
    rcases hsent r hr with hr | rfl | ⟨hnew, hchannels⟩
    · exact Nat.lt_of_lt_of_le (hs.numbered r hr channel hresponse) hle
    · cases hresponse
    · rw [hnew] at hresponse
      cases hresponse
      omega
  · intro i thread' channel hi' hawaiting
    obtain ⟨thread, hi, hstep⟩ | ⟨-, hnone⟩ := thread_before h hi'
    · cases hstep with
      | same => exact Nat.lt_of_lt_of_le (hs.made i _ channel hi hawaiting) hle
      | asked call k hprog hidle hrunning hsvm hchannels =>
        cases hawaiting
        omega
      | moved thread' hsvm hchannels hmoves =>
        obtain rfl := hmoves.awaiting hawaiting
        exact Nat.lt_of_lt_of_le (hs.made i thread channel hi hawaiting) hle
    · rw [hnone] at hawaiting
      cases hawaiting
  -- a thread that waited before has its call where it was, handled or queued
  · have hold : ∀ (i : Nat) (thread : Thread) channel, s.threads[i]? = some thread →
        thread.awaiting = some channel → ∃ call k, thread.prog = .ask (.inl call) k ∧
          (∀ r ∈ s'.sent, r.response = some channel → r = put call channel) ∧
          (s'.svm.running = true → put call channel ∈ s'.sent) := by
      intro i thread channel hi hawaiting
      obtain ⟨call, k, hprog, hown, hput⟩ := hs.asking i thread channel hi hawaiting
      refine ⟨call, k, hprog, fun r hr hresponse => ?_, fun hrunning => ?_⟩
      · rcases hsent r hr with hr | rfl | ⟨hnew, -⟩
        · exact hown r hr hresponse
        · cases hresponse
        · have hmade := hs.made i thread channel hi hawaiting
          rw [hnew] at hresponse
          cases hresponse
          exact absurd hmade (Nat.lt_irrefl _)
      · obtain ⟨hrunning, hsub⟩ := hkept hrunning
        exact hsub (hput hrunning)
    intro i thread' channel hi' hawaiting
    obtain ⟨thread, hi, hstep⟩ | ⟨-, hnone⟩ := thread_before h hi'
    · cases hstep with
      | same => exact hold i _ channel hi hawaiting
      | asked call k hprog hidle hrunning hsvm hchannels =>
        cases hawaiting
        have hsame : s'.sent = s.sent ++ [put call s.channels] := by
          simp [State.sent, State.received, hsvm]
        refine ⟨call, k, hprog, fun r hr hresponse => ?_, fun _ => by simp [hsame]⟩
        rw [hsame] at hr
        rcases List.mem_append.mp hr with hr | hr
        · exact absurd (hs.numbered r hr _ hresponse) (Nat.lt_irrefl _)
        · exact List.mem_singleton.mp hr
      | moved thread' hsvm hchannels hmoves =>
        obtain rfl := hmoves.awaiting hawaiting
        exact hold i thread channel hi hawaiting
    · rw [hnone] at hawaiting
      cases hawaiting

theorem channels_of_run (h : Run (step set) (.init s₀) ts t) : Channels t :=
  (h.invariant (fun _ _ _ hstep => channels_change (change_of_step hstep)) (channels_init s₀)).1

/-! ## Turns -/

/-- A call is lost. -/
def Lost : ∀ q : Sent, Sent.Answer q → Prop
  | .inl _, a => ∃ e, a = .error e
  | .inr _, _ => False

/-- The first values of a function. -/
def Begins {α : Type} (l : List α) (f : Nat → α) : Prop := ∀ i a, l[i]? = some a → f i = a

theorem Begins.of_append {α : Type} {l l' : List α} {f : Nat → α} (h : Begins (l ++ l') f) :
    Begins l f := by
  intro i a hi
  obtain ⟨hlt, -⟩ := List.getElem?_eq_some_iff.mp hi
  exact h i a (by rw [List.getElem?_append_left hlt, hi])

theorem Begins.last {α : Type} {l : List α} {a : α} {f : Nat → α} (h : Begins (l ++ [a]) f) :
    f l.length = a := h _ a (by simp)

/-- What a thread knows: it is where the single caller is, with the requests handled since it
began, up to the last of its own, in between; `done` has them with their results, `others` those
that are not its own. -/
structure Turn (set : Setting T σ) (s₀ : σ) (before done : List (SvmRequest × SvmResult))
    (others : List (List SvmRequest)) (clock : List UInt64) (thread : Thread) : Prop where
  between : others.flatten.Sublist (done.map Prod.fst)
  same : ∀ clock' others', Begins clock clock' → Begins others others' →
    (set.method thread.request thread.orders).exec (machine set.bincode set.svm clock' others')
        (stateAfter set.bincode set.svm s₀ (before.map Prod.fst), 0, 0) =
      thread.prog.exec (machine set.bincode set.svm clock' others')
        (stateAfter set.bincode set.svm s₀ ((before ++ done).map Prod.fst), clock.length, others.length)
  fresh : ∀ channel, thread.awaiting = some channel →
    ∀ x ∈ before ++ done, x.1.response ≠ some channel
  fails : thread.prog.FailsOn Lost

/-- A call of the thread was lost. -/
def Thread.HasLost (thread : Thread) : Prop := ∃ x ∈ thread.told, Lost x.1 x.2

/-- Where a thread is that began when `before` had been answered. -/
inductive InTurn (set : Setting T σ) (s₀ : σ) (before : List (SvmRequest × SvmResult))
    (s : State σ) (thread : Thread) : Prop where
  | refused (e : ErrorObject) (stopped : s.svm.running = false) (lost : thread.HasLost)
      (failed : thread.prog = .fail e) : InTurn set s₀ before s thread
  | turn (done after : List (SvmRequest × SvmResult)) (others : List (List SvmRequest))
      (clock : List UInt64) (answered : s.svm.answered = before ++ done ++ after)
      (turn : Turn set s₀ before done others clock thread) : InTurn set s₀ before s thread

/-- A method fails when a call of it is lost. -/
theorem failsOn_method (set : Setting T σ) (r : Request) (orders : IterOrders) :
    (set.method r orders).FailsOn Lost := by
  refine Prog.failsOn_through (fun q => ?_) _
  cases q with
  | now => exact fun millis => ⟨fun hlost => hlost.elim, trivial⟩
  | execute call =>
    refine Prog.FailsOn.left ((Prog.failsOn_ofExcept _).bind fun params => ?_)
    rintro (e | result)
    · exact ⟨fun _ => ⟨_, rfl⟩, trivial⟩
    · refine ⟨?_, Prog.FailsOn.bind (Prog.failsOn_done _) fun answer =>
        (Prog.failsOn_ofExcept _).bind fun result =>
          (Prog.failsOn_ofExcept _).bind fun _ => Prog.failsOn_ofExcept _⟩
      rintro ⟨e, he⟩
      cases he

theorem turn_start (set : Setting T σ) (s₀ : σ) (before : List (SvmRequest × SvmResult))
    (r : Request) (orders : IterOrders) :
    Turn set s₀ before [] [] [] (.start set r orders) where
  between := List.Sublist.refl _
  same clock' others' _ _ := by rw [List.append_nil]; rfl
  fresh channel hawaiting := by cases hawaiting
  fails := failsOn_method set r orders

theorem handle_put (call : ExecuteCall) (channel k : Nat) (s : σ) :
    handle set.bincode set.svm (put call channel) s =
      handle set.bincode set.svm ⟨call.method, call.params, some k⟩ s := rfl

theorem stateAfter_append (rs rs' : List SvmRequest) :
    stateAfter set.bincode set.svm s₀ (rs ++ rs') =
      stateAfter set.bincode set.svm (stateAfter set.bincode set.svm s₀ rs) rs' := by
  simp [stateAfter, List.filterMap_append, List.foldl_append]

theorem stateAfter_singleton (r : SvmRequest) (s : σ) :
    stateAfter set.bincode set.svm s [r] = (handle set.bincode set.svm r s).2 := by
  rw [← stateAfter_run]
  rfl

section Steps

variable {before done : List (SvmRequest × SvmResult)} {others : List (List SvmRequest)}
  {clock : List UInt64} {thread thread' : Thread}

/-- The thread looks at the clock. -/
theorem Turn.looked (h : Turn set s₀ before done others clock thread)
    {k : UInt64 → Prog Sent Sent.Answer ErrorObject thread.request.Value}
    (hprog : thread.prog = .ask (.inr ()) k) (millis : UInt64) :
    Turn set s₀ before done others (clock ++ [millis]) (thread.tell (q := .inr ()) k millis) where
  between := h.between
  same clock' others' hclock hothers := by
    have hlook : clock' clock.length = millis := hclock.last
    refine (h.same clock' others' hclock.of_append hothers).trans ?_
    rw [hprog, List.length_append, List.length_singleton]
    simp only [Prog.exec, machine, hlook]
    rfl
  fresh channel hawaiting := by cases hawaiting
  fails := by
    have hfails := h.fails
    rw [hprog] at hfails
    exact (hfails millis).2

/-- The thread gets a result, which comes after some of others. -/
theorem Turn.told (h : Turn set s₀ before done others clock thread) {call : ExecuteCall}
    {k : Except String SvmResult → Prog Sent Sent.Answer ErrorObject thread.request.Value}
    (hprog : thread.prog = .ask (.inl call) k) {channel : Nat} {result : SvmResult}
    (between : List (SvmRequest × SvmResult))
    (hresult : result = (handle set.bincode set.svm (put call channel)
      (stateAfter set.bincode set.svm s₀ ((before ++ done ++ between).map Prod.fst))).1) :
    Turn set s₀ before (done ++ between ++ [(put call channel, result)])
      (others ++ [between.map Prod.fst]) clock (thread.tell (q := .inl call) k (.ok result)) where
  between := by
    rw [List.flatten_append, List.map_append, List.map_append]
    refine List.Sublist.trans ?_ (List.sublist_append_left _ _)
    exact h.between.append (by simp)
  same clock' others' hclock hothers := by
    have hothers' : others' others.length = between.map Prod.fst := hothers.last
    refine (h.same clock' others' hclock hothers.of_append).trans ?_
    have hstate : (before ++ (done ++ between ++ [(put call channel, result)])).map Prod.fst =
        ((before ++ done).map Prod.fst ++ between.map Prod.fst) ++ [put call channel] := by simp
    rw [hprog, hstate, stateAfter_append _ [_], stateAfter_append, stateAfter_singleton,
      List.length_append, List.length_singleton]
    rw [List.map_append, stateAfter_append] at hresult
    simp only [Prog.exec, machine, hothers', ← handle_put call channel, ← hresult]
    rfl
  fresh channel hawaiting := by cases hawaiting
  fails := by
    have hfails := h.fails
    rw [hprog] at hfails
    exact (hfails (.ok result)).2

/-- Answers are only added. -/
theorem answered_change (h : Change set s e s') : ∃ new, s'.svm.answered = s.svm.answered ++ new := by
  have hsame : s'.svm.answered = s.svm.answered → ∃ new, s'.svm.answered = s.svm.answered ++ new :=
    fun heq => ⟨[], by rw [heq, List.append_nil]⟩
  cases h with
  | signalled =>
    refine hsame ?_
    simp only [State.send]
    split <;> rfl
  | took r queue hrunning hhead =>
    cases hstops : (LiteSVM.run set.bincode set.svm).stops r with
    | true => exact hsame (by rw [Server.State.take_of_stops hstops])
    | false => exact ⟨_, by rw [Server.State.take_of_not_stops hstops]⟩
  | accepted => exact hsame rfl
  | asked => exact hsame rfl
  | moved => exact hsame rfl

theorem Moves.told_subset (h : Moves s thread thread') : thread.told ⊆ thread'.told := by
  cases h with
  | gone => exact List.Subset.refl _
  | looked => exact List.subset_append_left _ _
  | refused => exact List.subset_append_left _ _
  | told => exact List.subset_append_left _ _

/-- What a thread has lost it does not get later. -/
theorem ThreadStep.hasLost (h : ThreadStep s s' thread thread') (hlost : thread.HasLost) :
    thread'.HasLost := by
  obtain ⟨x, hx, hlost⟩ := hlost
  cases h with
  | same => exact ⟨x, hx, hlost⟩
  | asked => exact ⟨x, hx, hlost⟩
  | moved thread' hsvm hchannels hmoves => exact ⟨x, hmoves.told_subset hx, hlost⟩

/-- A thread that has failed stays so. -/
theorem ThreadStep.failed (h : ThreadStep s s' thread thread') {e : ErrorObject}
    (hfailed : thread.prog = .fail e) : thread'.prog = .fail e := by
  cases h with
  | same => exact hfailed
  | asked call k hprog =>
    rw [hprog] at hfailed
    cases hfailed
  | moved thread' hsvm hchannels hmoves =>
    cases hmoves with
    | gone => exact hfailed
    | looked k millis hprog =>
      rw [hprog] at hfailed
      cases hfailed
    | refused call k e hprog =>
      rw [hprog] at hfailed
      cases hfailed
    | told call k channel r result hprog =>
      rw [hprog] at hfailed
      cases hfailed

/-- A result at the thread's channel is later than all it has had. -/
theorem Turn.exists_between (h : Turn set s₀ before done others clock thread)
    {after : List (SvmRequest × SvmResult)} {r : SvmRequest} {result : SvmResult} {channel : Nat}
    (hmem : (r, result) ∈ before ++ done ++ after) (hawaiting : thread.awaiting = some channel)
    (hresponse : r.response = some channel) : ∃ between rest, after = between ++ (r, result) :: rest := by
  have hafter : (r, result) ∈ after :=
    (List.mem_append.mp hmem).resolve_left fun hx => h.fresh channel hawaiting _ hx hresponse
  exact List.append_of_mem hafter

theorem stopped_change (h : Change set s e s') (hstopped : s.svm.running = false) :
    s'.svm.running = false := by
  by_contra hrunning
  have hlive := ((sent_change h).2.2 (by simpa using hrunning)).1
  rw [hstopped] at hlive
  cases hlive

theorem InTurn.step (h : InTurn set s₀ before s thread) (hrun : Run (step set) (.init s₀) ts s)
    (hchange : Change set s e s') {i : Nat} (hi : s.threads[i]? = some thread)
    (hthread : ThreadStep s s' thread thread') : InTurn set s₀ before s' thread' := by
  have hchannels := channels_of_run hrun
  cases h with
  | refused e hstopped hlost hfailed =>
    exact .refused e (stopped_change hchange hstopped) (hthread.hasLost hlost)
      (hthread.failed hfailed)
  | turn done after others clock hanswered hturn =>
    obtain ⟨new, hnew⟩ := answered_change hchange
    have hanswered' : s'.svm.answered = before ++ done ++ (after ++ new) := by
      rw [hnew, hanswered, List.append_assoc]
    cases hthread with
    | same => exact .turn done (after ++ new) others clock hanswered' hturn
    | asked call k hprog hidle hrunning hsvm =>
      refine .turn done (after ++ new) others clock hanswered'
        ⟨hturn.between, hturn.same, fun channel hawaiting x hx hresponse => ?_, hturn.fails⟩
      cases hawaiting
      -- the channel is new, so no answer has its number
      have hsent : x.1 ∈ s.sent := by
        refine List.mem_append_left _ (List.mem_map_of_mem ?_)
        rw [hanswered]
        exact List.mem_append_left _ hx
      exact Nat.lt_irrefl _ (hchannels.numbered _ hsent _ hresponse)
    | moved thread' hsvm hsame hmoves =>
      cases hmoves with
      | gone =>
        exact .turn done (after ++ new) others clock hanswered'
          ⟨hturn.between, hturn.same, hturn.fresh, hturn.fails⟩
      | looked k millis hprog =>
        exact .turn done (after ++ new) others _ hanswered' (hturn.looked hprog millis)
      | refused call k e hprog hstopped =>
        have hfails := hturn.fails
        rw [hprog] at hfails
        -- a method fails with the first call it loses
        obtain ⟨e', he'⟩ := (hfails (.error e)).1 ⟨e, rfl⟩
        have hlost : (thread.tell (q := .inl call) k (.error e)).HasLost :=
          ⟨⟨.inl call, .error e⟩, List.mem_append_right _ (List.mem_singleton.mpr rfl), e, rfl⟩
        exact .refused e' (hsvm ▸ hstopped) hlost he'
      | told call k channel r result hprog hawaiting hmem hresponse =>
        obtain ⟨call', k', hprog', hown, -⟩ := hchannels.asking i thread channel hi hawaiting
        rw [hprog] at hprog'
        cases hprog'
        obtain rfl := hown r (List.mem_append_left _ (List.mem_map_of_mem hmem)) hresponse
        rw [hanswered] at hmem
        obtain ⟨between, rest, rfl⟩ := hturn.exists_between hmem hawaiting hresponse
        have hlog : s.svm.answered =
            (before ++ done ++ between) ++ (put call channel, result) :: rest := by simp [hanswered]
        have hresult := result_of_run hrun hlog
        refine .turn (done ++ between ++ [(put call channel, result)]) (rest ++ new) _ clock ?_
          (hturn.told hprog between hresult)
        simp [hanswered']

end Steps

/-! ## Runs -/

theorem ThreadStep.same_request {thread thread' : Thread} (h : ThreadStep s s' thread thread') :
    Event.accept thread'.request thread'.orders = .accept thread.request thread.orders := by
  cases h with
  | same => rfl
  | asked => rfl
  | moved thread' svm channels moves => cases moves <;> rfl

/-- Every thread began with its request, and is where the single caller would be. -/
theorem inTurn_of_run (h : Run (step set) (.init s₀) ts t) {i : Nat} {thread : Thread}
    (hi : t.threads[i]? = some thread) :
    ∃ first x later, ts = first ++ x :: later ∧ x.ev = .accept thread.request thread.orders ∧
      x.pre.threads.length = i ∧ InTurn set s₀ x.pre.svm.answered t thread := by
  refine h.history_induction (P := fun ts t => ∀ thread, t.threads[i]? = some thread →
    ∃ first x later, ts = first ++ x :: later ∧ x.ev = .accept thread.request thread.orders ∧
      x.pre.threads.length = i ∧ InTurn set s₀ x.pre.svm.answered t thread) ?_ ?_ thread hi
  · intro thread hi
    cases hi
  · intro as a e a' hrun ih hstep thread hi
    have hchange := change_of_step hstep
    cases ha : a.threads[i]? with
    | none =>
      obtain ⟨he, hlast, hstart, hsvm, -⟩ := start_of_change hchange ha hi
      refine ⟨as, ⟨a, e, a'⟩, [], rfl, he, hlast.symm, ?_⟩
      rw [hstart]
      exact .turn [] [] [] [] (by simp [hsvm]) (turn_start set s₀ _ _ _)
    | some old =>
      obtain ⟨first, x, later, rfl, he, hlast, hturn⟩ := ih old ha
      obtain ⟨thread', hi', hthread⟩ := thread_after hchange ha
      obtain rfl : thread' = thread := Option.some.inj (hi'.symm.trans hi)
      refine ⟨first, x, later ++ [⟨a, e, a'⟩], by simp, ?_, hlast, hturn.step hrun hchange ha hthread⟩
      rw [he, hthread.same_request]

theorem begins_getD {α : Type} (l : List α) (a : α) : Begins l fun i => l.getD i a := by
  intro i b hi
  simp [List.getD, hi]

theorem flatMap_getD {α : Type} (l : List (List α)) :
    (List.range l.length).flatMap (fun i => l.getD i []) = l.flatten := by
  rw [List.flatMap_def]
  congr 1
  refine List.ext_getElem (by simp) fun i hi hi' => ?_
  simp [List.getD, hi']

/-- The outcome is what the method comes to when it alone runs on the loop from the state the
virtual machine was in when the request came, with requests of others between its own that the
loop has handled since then. -/
def AsIfAlone (set : Setting T σ) (ts : List (Step (State σ) Event)) (t : State σ) (i : Nat)
    (thread : Thread) (o : Outcome ErrorObject thread.request.Value) : Prop :=
  ∃ first x later done rest, ts = first ++ x :: later ∧
    x.ev = .accept thread.request thread.orders ∧ x.pre.threads.length = i ∧
    t.received = x.pre.received ++ done ++ rest ∧
    ∃ clock others n k, ((List.range k).flatMap others).Sublist done ∧
      (set.method thread.request thread.orders).exec (machine set.bincode set.svm clock others)
          (x.pre.svm.store, 0, 0) =
        (o, (stateAfter set.bincode set.svm x.pre.svm.store done, n, k))

/-- In every interleaved run of the mock a request that has an outcome has failed because the
request loop has stopped and lost a call of it, or has been answered as if alone. -/
theorem answered_in_turn (h : Run (step set) (.init s₀) ts t) {i : Nat} {thread : Thread}
    {o : Outcome ErrorObject thread.request.Value} (hi : t.threads[i]? = some thread)
    (hdone : thread.prog = .ofOutcome o) :
    (t.svm.running = false ∧ thread.HasLost ∧ ∃ e, o = .error e) ∨
      AsIfAlone set ts t i thread o := by
  obtain ⟨first, x, later, rfl, he, hlast, hturn⟩ := inTurn_of_run h hi
  obtain ⟨hbefore, -⟩ := h.split
  cases hturn with
  | refused e hstopped hlost hfailed =>
    rw [hdone] at hfailed
    refine .inl ⟨hstopped, hlost, e, ?_⟩
    cases o with
    | error e' => cases hfailed; rfl
    | ok a => cases hfailed
    | panicked => cases hfailed
  | turn done rest others clock hanswered hturn =>
    refine .inr ⟨first, x, later, done.map Prod.fst, rest.map Prod.fst, rfl, he, hlast, ?_,
      fun i => clock.getD i 0, fun i => others.getD i [], clock.length, others.length, ?_, ?_⟩
    · simp [State.received, hanswered]
    · rw [flatMap_getD]
      exact hturn.between
    · have hstore : x.pre.svm.store = stateAfter set.bincode set.svm s₀
          (x.pre.svm.answered.map Prod.fst) := (answered_of_run hbefore).2
      rw [hstore, hturn.same _ _ (begins_getD clock 0) (begins_getD others []), hdone,
        Prog.exec_ofOutcome, List.map_append, stateAfter_append]

/-! ### Two blockhashes -/

def balancesSetting : Setting types (List (Pubkey × UInt64)) where
  bincode := readBincode
  svm := balances
  lib := tokenDecoder
  txLib := nullTransactionLib
  results := noResults

/-- Two callers ask for the latest blockhash, and the second is told first. -/
def twoBlockhashes : List Event :=
  [.accept (.read (.getLatestBlockhash none)) listedOrders, .look 0 1000, .ask 0,
    .accept (.read (.getLatestBlockhash none)) listedOrders, .look 1 2000, .ask 1,
    .poll, .poll, .reply 1, .reply 0]

/-- The second caller's answer, by its own look at the clock. -/
def secondBlockhash : RpcResponse RpcBlockhash where
  context := { slot := 2000 }
  value := { blockhash := "11111111111111111111111111111111", lastValidBlockHeight := 362000 }

theorem second_in_turn :
    let ts := trace (step balancesSetting) (.init [(.ofByte 7, 5)]) twoBlockhashes
    let t := after (.init [(.ofByte 7, 5)]) ts
    ∃ told, let thread : Thread :=
        ⟨.read (.getLatestBlockhash none), listedOrders, .done secondBlockhash, none, told, false⟩
      t.threads[1]? = some thread ∧ AsIfAlone balancesSetting ts t 1 thread (.ok secondBlockhash) := by
  intro ts t
  have hrun : Run (step balancesSetting) (.init [(.ofByte 7, 5)]) ts t := .of_trace _ twoBlockhashes
  refine ⟨_, rfl, (answered_in_turn hrun (i := 1) rfl rfl).resolve_left ?_⟩
  rintro ⟨-, -, e, herror⟩
  cases herror

end MockSidecar

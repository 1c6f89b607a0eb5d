-- SUMMARY: The response a caller gets is to its own request, whatever other requests share the queue with it.
import NoirSidecar.Client.Answers

/-!
# Routing

All callers share one queue and one task, and a request is told from the others only by
the sender it carries. The task takes requests apart and puts them together again when it
puts them back; what must stay together is the sender with the method and the parameters
it was made for.
-/

namespace Client

variable {P V : Type}

/-! ## Unanswered requests -/

/-- The requests the task has not answered: in its hands or in the queue. -/
def State.unanswered (s : State P V) : List (Request P) :=
  match s.phase with
  | .resubmitting r | .requesting r => r :: Message.requests s.queue
  | _ => Message.requests s.queue

/-- The two requests ask for the same and are answered over the same channel. -/
structure Request.Alike (r r' : Request P) : Prop where
  method : r.method = r'.method
  params : r.params = r'.params
  response : r.response = r'.response

theorem Request.Alike.refl (r : Request P) : r.Alike r := ⟨rfl, rfl, rfl⟩

theorem Request.Alike.failed [ToString P] {r r' : Request P} (h : r.Alike r') :
    r.failed = r'.failed := by
  rw [Request.failed, Request.failed, h.method, h.params]

/-- What a step does to the unanswered requests and the responses: it may put a request
back, lose some as the task ends, add the request of a new call, or answer one. -/
inductive ResponseStep [ToString P] (x : Step (State P V) (Event P V)) : Prop where
  | kept (calls : x.pre.calls ≤ x.post.calls) (sent : x.post.sent = x.pre.sent)
      (requests : ∀ r ∈ x.post.unanswered, ∃ r' ∈ x.pre.unanswered, r.Alike r')
  | added (method : String) (params : P) (ev : x.ev = .submit method params)
      (calls : x.post.calls = x.pre.calls + 1) (sent : x.post.sent = x.pre.sent)
      (requests : ∀ r ∈ x.post.unanswered,
        r ∈ x.pre.unanswered ∨ r = ⟨method, params, x.pre.calls, initialRetry⟩)
  | answered (r : Request P) (response : Response V) (unanswered : r ∈ x.pre.unanswered)
      (calls : x.post.calls = x.pre.calls) (sent : x.post.sent = x.pre.sent ++ [(r.response, response)])
      (requests : ∀ r' ∈ x.post.unanswered, r' ∈ x.pre.unanswered)
      (origin : response = .error r.failed ∨ ∃ answer, x.ev = .answer answer ∧
        x.pre.phase = .requesting r ∧ response = answer.mapError .clientError)

section Steps

variable [ToString P] {installable : Bool} {s s' : State P V}

theorem responseStep_submit (s : State P V) (method : String) (params : P) :
    ResponseStep ⟨s, .submit method params, s.submit method params⟩ := by
  by_cases hend : s.phase.Ended
  · have hsubmit : s.submit method params =
        { s with calls := s.calls + 1, dropped := s.dropped ++ [s.calls] } := if_pos hend
    rw [hsubmit]
    exact .kept (Nat.le_succ _) rfl fun r hr => ⟨r, hr, .refl r⟩
  · have hsubmit : s.submit method params = { s with
        calls := s.calls + 1
        queue := s.queue ++ [.request ⟨method, params, s.calls, initialRetry⟩] } := if_neg hend
    rw [hsubmit]
    refine .added method params rfl rfl rfl fun r hr => ?_
    cases hp : s.phase <;>
      simp_all [State.unanswered, Message.requests, or_assoc]

theorem responseStep_finish (s : State P V) (e : Event P V) {phase : Phase P} (hend : phase.Ended) :
    ResponseStep ⟨s, e, s.finish phase⟩ := by
  refine .kept (Nat.le_refl _) rfl fun r hr => ?_
  cases phase <;> simp_all [State.unanswered, State.finish, Message.requests, Phase.Ended]

theorem responseStep_dequeue {m : Message P} {queue : List (Message P)} (hp : s.phase = .recv)
    (hq : s.queue = m :: queue) :
    ResponseStep ⟨s, .dequeue, State.handle { s with queue := queue, phase := .awaitSignal } m⟩ := by
  have hpre : s.unanswered = Message.requests (m :: queue) := by simp [State.unanswered, hp, hq]
  cases m with
  | tryConnect =>
    refine .kept (Nat.le_refl _) rfl fun r hr => ⟨r, ?_, .refl r⟩
    dsimp only
    rwa [hpre]
  | request r =>
    rw [State.handle_request]
    -- a request without budget is answered with an error at once
    by_cases hretry : r.retry = 0
    · rw [if_pos hretry]
      refine .answered r (.error r.failed) ?_ rfl rfl (fun r' hr' => ?_) (.inl rfl)
      · dsimp only
        rw [hpre]
        exact List.mem_cons_self
      · dsimp only
        rw [hpre]
        exact List.mem_cons_of_mem r hr'
    · rw [if_neg hretry]
      by_cases hlive : State.connected { s with queue := queue, phase := .awaitSignal }
      -- forwarded, and still without an answer
      · rw [if_pos hlive]
        refine .kept (Nat.le_refl _) rfl fun r' hr' => ⟨r', ?_, .refl r'⟩
        dsimp only
        rwa [hpre]
      · -- put back with one retry less
        rw [if_neg hlive]
        refine .kept (Nat.le_refl _) rfl fun r' hr' => ?_
        simp only [State.unanswered, State.requeue, Message.requests_append, Message.requests,
          List.append_nil, List.mem_cons] at hr'
        dsimp only
        rw [hpre]
        rcases hr' with rfl | hr'
        · exact ⟨r, List.mem_cons_self, rfl, rfl, rfl⟩
        · exact ⟨r', List.mem_cons_of_mem r hr', .refl r'⟩

theorem response_step {e : Event P V} (hs : step installable s e = some s') :
    ResponseStep ⟨s, e, s'⟩ := by
  cases e with
  | submit method params =>
    obtain rfl := step_submit.mp hs
    exact responseStep_submit s method params
  | cancel call =>
    obtain ⟨-, rfl⟩ := step_cancel.mp hs
    exact .kept (Nat.le_refl _) rfl fun r hr => ⟨r, hr, .refl r⟩
  | disconnect =>
    obtain ⟨-, rfl⟩ := step_disconnect.mp hs
    exact .kept (Nat.le_refl _) rfl fun r hr => ⟨r, hr, .refl r⟩
  | ctrlC =>
    obtain rfl := step_ctrlC.mp hs
    exact .kept (Nat.le_refl _) rfl fun r hr => ⟨r, hr, .refl r⟩
  | signalled =>
    obtain ⟨-, -, -, rfl⟩ := step_signalled.mp hs
    exact responseStep_finish s _ trivial
  | signalFailed =>
    obtain ⟨hp, -, rfl⟩ := step_signalFailed.mp hs
    refine .kept (Nat.le_refl _) rfl fun r hr => ⟨r, ?_, .refl r⟩
    simpa [State.unanswered, hp] using hr
  | dequeue =>
    obtain ⟨m, queue, hp, hq, rfl⟩ := step_dequeue.mp hs
    exact responseStep_dequeue hp hq
  | resubmit =>
    obtain ⟨r, hp, rfl⟩ := step_resubmit.mp hs
    refine .kept (Nat.le_refl _) rfl fun r' hr' => ⟨r', ?_, .refl r'⟩
    simpa [State.unanswered, hp, Message.requests, or_comm] using hr'
  | answer response =>
    obtain ⟨r, hp, ⟨-, rfl⟩ | ⟨-, rfl⟩⟩ := step_answer.mp hs
    · exact responseStep_finish s _ trivial
    · refine .answered r _ ?_ rfl rfl (fun r' hr' => ?_) (.inr ⟨response, rfl, hp, rfl⟩)
      · simp [State.unanswered, hp]
      · simpa [State.unanswered, State.respond, hp] using .inr hr'
  | connect result =>
    obtain ⟨hp, rfl⟩ := step_connect.mp hs
    refine .kept (Nat.le_refl _) rfl fun r hr => ⟨r, ?_, .refl r⟩
    simpa [State.unanswered, hp] using hr

end Steps

/-! ## Calls and their requests -/

theorem State.submit_calls (s : State P V) (method : String) (params : P) :
    (s.submit method params).calls = s.calls + 1 := by
  unfold State.submit
  split <;> rfl

/-- Everything the task holds belongs to a call that has been made. -/
structure Known (s : State P V) : Prop where
  requests : ∀ r ∈ s.unanswered, r.response < s.calls
  sent : ∀ x ∈ s.sent, x.1 < s.calls

theorem known_init : Known (State.init : State P V) := by
  constructor <;> simp [State.init, State.unanswered, Message.requests]

/-- The call was made for this method and these parameters: so its request says, as long as
it is unanswered, and the responses sent for it are `good`. -/
structure Owned (call : Nat) (method : String) (params : P) (good : Response V → Prop)
    (s : State P V) : Prop where
  made : call < s.calls
  request : ∀ r ∈ s.unanswered, r.response = call → r.method = method ∧ r.params = params
  response : ∀ response, (call, response) ∈ s.sent → good response

section Keep

variable [ToString P] {x : Step (State P V) (Event P V)}

theorem Known.step (h : Known x.pre) (hx : ResponseStep x) : Known x.post := by
  cases hx with
  | kept calls sent requests =>
    refine ⟨fun r hr => ?_, fun y hy => ?_⟩
    · obtain ⟨r', hr', halike⟩ := requests r hr
      rw [halike.response]
      exact Nat.lt_of_lt_of_le (h.requests r' hr') calls
    · rw [sent] at hy
      exact Nat.lt_of_lt_of_le (h.sent y hy) calls
  | added method params ev calls sent requests =>
    refine ⟨fun r hr => ?_, fun y hy => ?_⟩
    · rw [calls]
      rcases requests r hr with hr | rfl
      · exact Nat.lt_succ_of_lt (h.requests r hr)
      · exact Nat.lt_succ_self _
    · rw [sent] at hy
      rw [calls]
      exact Nat.lt_succ_of_lt (h.sent y hy)
  | answered r response unanswered calls sent requests origin =>
    refine ⟨fun r' hr' => ?_, fun y hy => ?_⟩
    · rw [calls]
      exact h.requests r' (requests r' hr')
    · rw [calls]
      rw [sent] at hy
      rcases List.mem_append.mp hy with hy | hy
      · exact h.sent y hy
      · obtain rfl := List.mem_singleton.mp hy
        exact h.requests r unanswered

variable {call : Nat} {method : String} {params : P} {good good' : Response V → Prop}

/-- A call that has just been made owns nothing but its request. -/
theorem Known.owned (h : Known x.pre) (hx : ResponseStep x) (hev : x.ev = .submit method params)
    (hcalls : x.pre.calls < x.post.calls) : Owned x.pre.calls method params good x.post := by
  have hold : ∀ r ∈ x.pre.unanswered, r.response ≠ x.pre.calls :=
    fun r hr => Nat.ne_of_lt (h.requests r hr)
  have hnone : ∀ response, (x.pre.calls, response) ∉ x.pre.sent :=
    fun response hmem => Nat.lt_irrefl _ (h.sent _ hmem)
  cases hx with
  | kept calls sent requests =>
    refine ⟨hcalls, fun r hr hcall => ?_, fun response hmem => ?_⟩
    · obtain ⟨r', hr', halike⟩ := requests r hr
      exact absurd (halike.response ▸ hcall) (hold r' hr')
    · rw [sent] at hmem
      exact absurd hmem (hnone response)
  | added method' params' ev calls sent requests =>
    obtain ⟨rfl, rfl⟩ := Event.submit.inj (hev.symm.trans ev)
    refine ⟨hcalls, fun r hr hcall => ?_, fun response hmem => ?_⟩
    · rcases requests r hr with hr | rfl
      · exact absurd hcall (hold r hr)
      · exact ⟨rfl, rfl⟩
    · rw [sent] at hmem
      exact absurd hmem (hnone response)
  | answered r response unanswered calls sent requests origin =>
    rw [calls] at hcalls
    exact absurd hcalls (Nat.lt_irrefl _)

/-- The call keeps its own: what it is answered with is its refusal, or the node's answer to
the request that asks for this. -/
theorem Owned.step (h : Owned call method params good x.pre) (hx : ResponseStep x)
    (hmono : ∀ response, good response → good' response)
    (hrefused : good' (.error (Request.failed ⟨method, params, call, 0⟩)))
    (hanswered : ∀ r answer, x.ev = .answer answer → x.pre.phase = .requesting r →
      r.method = method → r.params = params → r.response = call →
      good' (answer.mapError .clientError)) : Owned call method params good' x.post := by
  cases hx with
  | kept calls sent requests =>
    refine ⟨Nat.lt_of_lt_of_le h.made calls, fun r hr hcall => ?_, fun response hmem => ?_⟩
    · obtain ⟨r', hr', halike⟩ := requests r hr
      rw [halike.method, halike.params]
      exact h.request r' hr' (halike.response ▸ hcall)
    · rw [sent] at hmem
      exact hmono _ (h.response response hmem)
  | added method' params' ev calls sent requests =>
    refine ⟨calls ▸ Nat.lt_succ_of_lt h.made, fun r hr hcall => ?_, fun response hmem => ?_⟩
    · rcases requests r hr with hr | rfl
      · exact h.request r hr hcall
      · exact absurd h.made (hcall ▸ Nat.lt_irrefl _)
    · rw [sent] at hmem
      exact hmono _ (h.response response hmem)
  | answered r response unanswered calls sent requests origin =>
    refine ⟨calls ▸ h.made, fun r' hr' => h.request r' (requests r' hr'), fun response' hmem => ?_⟩
    rw [sent] at hmem
    rcases List.mem_append.mp hmem with hmem | hmem
    · exact hmono _ (h.response response' hmem)
    · obtain ⟨hcall, rfl⟩ := Prod.mk.inj (List.mem_singleton.mp hmem)
      obtain ⟨hmethod, hparams⟩ := h.request r unanswered hcall.symm
      rcases origin with rfl | ⟨answer, hev, hphase, rfl⟩
      · have halike : r.Alike ⟨method, params, call, 0⟩ := ⟨hmethod, hparams, hcall.symm⟩
        rw [halike.failed]
        exact hrefused
      · exact hanswered r answer hev hphase hmethod hparams hcall.symm

end Keep

/-! ## Responses -/

section Runs

variable [ToString P] {installable : Bool} {ts : List (Step (State P V) (Event P V))}
  {t : State P V}

theorem known_of_run (h : Run (step installable) State.init ts t) : Known t :=
  (h.invariant (fun s e s' hs hknown => Known.step (x := ⟨s, e, s'⟩) hknown (response_step hs))
    known_init).1

/-- Only submitting a request makes a call. -/
theorem calls_step {s s' : State P V} {e : Event P V} (hs : step installable s e = some s') :
    s'.calls = s.calls ∨ ∃ method params, e = .submit method params ∧ s'.calls = s.calls + 1 := by
  cases e with
  | submit method params =>
    obtain rfl := step_submit.mp hs
    exact .inr ⟨method, params, rfl, s.submit_calls method params⟩
  | cancel call =>
    obtain ⟨-, rfl⟩ := step_cancel.mp hs
    exact .inl rfl
  | disconnect =>
    obtain ⟨-, rfl⟩ := step_disconnect.mp hs
    exact .inl rfl
  | ctrlC =>
    obtain rfl := step_ctrlC.mp hs
    exact .inl rfl
  | signalled =>
    obtain ⟨-, -, -, rfl⟩ := step_signalled.mp hs
    exact .inl rfl
  | signalFailed =>
    obtain ⟨-, -, rfl⟩ := step_signalFailed.mp hs
    exact .inl rfl
  | dequeue =>
    obtain ⟨m, queue, -, -, rfl⟩ := step_dequeue.mp hs
    exact .inl (State.handle_calls _ m)
  | resubmit =>
    obtain ⟨r, -, rfl⟩ := step_resubmit.mp hs
    exact .inl rfl
  | answer response =>
    obtain ⟨r, -, ⟨-, rfl⟩ | ⟨-, rfl⟩⟩ := step_answer.mp hs
    · exact .inl rfl
    · exact .inl rfl
  | connect result =>
    obtain ⟨-, rfl⟩ := step_connect.mp hs
    exact .inl rfl

/-- Every call was made by one step of the run. -/
theorem exists_submit (h : Run (step installable) State.init ts t) {call : Nat}
    (hcall : call < t.calls) : ∃ before x later method params, ts = before ++ x :: later ∧
      x.ev = .submit method params ∧ x.pre.calls = call := by
  refine h.history_induction (P := fun ts t => call < t.calls → ∃ before x later method params,
    ts = before ++ x :: later ∧ x.ev = .submit method params ∧ x.pre.calls = call) ?_ ?_ hcall
  · exact fun hcall => absurd hcall (Nat.not_lt_zero call)
  · intro as a e a' _ ih hs hcall
    by_cases hold : call < a.calls
    · obtain ⟨before, x, later, method, params, rfl, hev, hx⟩ := ih hold
      exact ⟨before, x, later ++ [⟨a, e, a'⟩], method, params, by simp, hev, hx⟩
    · rcases calls_step hs with hcalls | ⟨method, params, rfl, hcalls⟩
      · exact absurd (hcalls ▸ hcall) hold
      · refine ⟨as, _, [], method, params, rfl, rfl, ?_⟩
        dsimp only
        omega

/-- One of these steps brings the node's answer to a request with this method, these
parameters and this channel. -/
def AnsweredBy (ts : List (Step (State P V) (Event P V))) (call : Nat) (method : String)
    (params : P) (response : Response V) : Prop :=
  ∃ y ∈ ts, ∃ r answer, y.ev = .answer answer ∧ y.pre.phase = .requesting r ∧ r.method = method ∧
    r.params = params ∧ r.response = call ∧ response = answer.mapError .clientError

/-- A call owns its responses for the rest of a run. -/
theorem owned_run {call : Nat} {method : String} {params : P} {s : State P V}
    (h : Run (step installable) s ts t) (hs : Owned call method params (fun _ => False) s) :
    Owned call method params (fun response =>
      response = .error (Request.failed ⟨method, params, call, 0⟩) ∨
        AnsweredBy ts call method params response) t := by
  refine h.history_induction (P := fun ts t => Owned call method params (fun response =>
    response = .error (Request.failed ⟨method, params, call, 0⟩) ∨
      AnsweredBy ts call method params response) t) ?_ ?_
  · exact ⟨hs.made, hs.request, fun response hmem => (hs.response response hmem).elim⟩
  · intro as a e a' _ ih hstep
    refine Owned.step (x := ⟨a, e, a'⟩) ih (response_step hstep) ?_ (.inl rfl) ?_
    · rintro response (hrefused | ⟨y, hy, hanswer⟩)
      · exact .inl hrefused
      · exact .inr ⟨y, List.mem_append_left _ hy, hanswer⟩
    · intro r answer hev hphase hmethod hparams hcall
      exact .inr ⟨_, List.mem_append_right _ List.mem_cons_self, r, answer, hev, hphase, hmethod,
        hparams, hcall, rfl⟩

/-- A response sent for a call is to the request that was submitted under it: the loop's
refusal of this request, or an answer of the node that came while the node had it. -/
theorem response_to_own_request (h : Run (step installable) State.init ts t) {call : Nat}
    {response : Response V} (hsent : (call, response) ∈ t.sent) :
    ∃ before x later method params, ts = before ++ x :: later ∧ x.ev = .submit method params ∧
      x.pre.calls = call ∧ (response = .error (Request.failed ⟨method, params, call, 0⟩) ∨
        AnsweredBy later call method params response) := by
  obtain ⟨before, x, later, method, params, rfl, hev, rfl⟩ :=
    exists_submit h ((known_of_run h).sent _ hsent)
  obtain ⟨hbefore, hx, hlater⟩ := h.split
  have hcalls : x.pre.calls < x.post.calls := by
    rw [hev] at hx
    obtain hpost := step_submit.mp hx
    rw [hpost, State.submit_calls]
    exact Nat.lt_succ_self _
  have howned : Owned x.pre.calls method params (fun _ => False) x.post :=
    (known_of_run hbefore).owned (response_step hx) hev hcalls
  exact ⟨before, x, later, method, params, rfl, hev, rfl, (owned_run hlater howned).response _ hsent⟩

end Runs

/-! ## A request among others -/

/-- Two callers: the first request waits for a connection while the second one is submitted. -/
def twoCallers : List (Event String String) :=
  .submit "state_call" "[0]" :: (requeueTurn ++ .submit "chain_getHeader" "[1]" ::
    connectTurn (.ok ()) ++ [.signalFailed, .dequeue, .answer (.ok "0x00")])

/-- The node's answer goes to the caller whose request it had. -/
theorem answer_to_first_caller :
    let ts := trace (step false) State.init twoCallers
    ∃ before x later method params, ts = before ++ x :: later ∧ x.ev = .submit method params ∧
      x.pre.calls = 0 ∧
      ((.ok "0x00" : Response String) = .error (Request.failed ⟨method, params, 0, 0⟩) ∨
        AnsweredBy later 0 method params (.ok "0x00")) :=
  response_to_own_request (.of_trace State.init twoCallers) (by decide)

end Client

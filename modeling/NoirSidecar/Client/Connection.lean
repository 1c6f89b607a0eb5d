-- SUMMARY: Requests that meet a live connection, and what a left-over connect attempt does to the connection.
import NoirSidecar.Client.Budget

/-!
# Requests and the connection

A request that is taken off the queue for the fourth time is refused before the
connection is looked at. A `TryConnect` replaces the connection whether or not
there is one, so an attempt left over from another request can lose it.
-/

namespace Client

variable {P V : Type} [ToString P] {installable : Bool}

/-! ## Requests that meet a live connection -/

/-- The step takes `r` off the queue while there is a live connection. -/
structure MeetsConnection (x : Step (State P V) (Event P V)) (r : Request P) : Prop where
  takes : dequeued x = some (.request r)
  live : x.pre.connected

/-- The step sends `r` to the node, and the loop answers nothing itself. -/
structure Forwards (x : Step (State P V) (Event P V)) (r : Request P) : Prop where
  phase : x.post.phase = .requesting r
  forwarded : x.post.forwarded = x.pre.forwarded ++ [r.response]
  sent : x.post.sent = x.pre.sent

omit [ToString P] in
theorem dequeued_eq_some {x : Step (State P V) (Event P V)} {m : Message P} :
    dequeued x = some m ↔ x.ev = .dequeue ∧ ∃ queue, x.pre.queue = m :: queue := by
  unfold dequeued
  split
  · next hev => simp [hev, List.head?_eq_some_iff]
  · next hev => exact iff_of_false (by simp) fun hx => hev hx.1

/-- What taking a message off the queue does. -/
theorem step_of_dequeued {x : Step (State P V) (Event P V)} {m : Message P}
    (hs : step installable x.pre x.ev = some x.post) (hx : dequeued x = some m) :
    ∃ queue, x.pre.phase = .recv ∧ x.pre.queue = m :: queue ∧
      x.post = State.handle { x.pre with queue := queue, phase := .awaitSignal } m := by
  obtain ⟨hev, queue, hq⟩ := dequeued_eq_some.mp hx
  rw [hev] at hs
  obtain ⟨m', queue', hp, hq', hpost⟩ := step_dequeue.mp hs
  obtain ⟨rfl, rfl⟩ := List.cons.inj (hq.symm.trans hq')
  exact ⟨queue, hp, hq, hpost⟩

/-- The budget of a request that is dequeued is what its earlier dequeues have left. -/
theorem spent_of_dequeued {before : List (Step (State P V) (Event P V))}
    {x : Step (State P V) (Event P V)} {r : Request P}
    (h : Run (step installable) State.init before x.pre)
    (hs : step installable x.pre x.ev = some x.post) (hx : dequeued x = some (.request r)) :
    r.retry + timesDequeued r.response before = initialRetry := by
  obtain ⟨queue, hp, hq, -⟩ := step_of_dequeued hs hx
  apply (budget_of_run h).spent r
  rw [State.waiting_of_recv hp hq]
  exact List.mem_cons_self

/-- A live connection forwards what still has a retry left. -/
theorem forwards_iff {x : Step (State P V) (Event P V)} {r : Request P}
    (hs : step installable x.pre x.ev = some x.post) (hx : MeetsConnection x r) :
    Forwards x r ↔ r.retry ≠ 0 := by
  obtain ⟨queue, -, -, hpost⟩ := step_of_dequeued hs hx.takes
  have hlive : State.connected { x.pre with queue := queue, phase := .awaitSignal } = true := hx.live
  by_cases hr : r.retry = 0
  · refine iff_of_false (fun hf => ?_) (by simp [hr])
    have := hf.phase
    simp [hpost, State.handle_request, hr, State.respond] at this
  · refine iff_of_true ?_ hr
    constructor <;> simp [hpost, State.handle_request, hr, hlive]

/-- Every request that meets a live connection is forwarded exactly when none of
them is being taken off the queue for the fourth time. -/
theorem forwarded_iff {ts : List (Step (State P V) (Event P V))} {t : State P V}
    (h : Run (step installable) State.init ts t) :
    (∀ x ∈ ts, ∀ r, MeetsConnection x r → Forwards x r) ↔
      ∀ before x later r, ts = before ++ x :: later → MeetsConnection x r →
        timesDequeued r.response before < initialRetry := by
  have hspent : ∀ before x later r, ts = before ++ x :: later → MeetsConnection x r →
      step installable x.pre x.ev = some x.post ∧
        r.retry + timesDequeued r.response before = initialRetry := by
    rintro before x later r rfl hx
    obtain ⟨hrun, hs, -⟩ := h.split
    exact ⟨hs, spent_of_dequeued hrun hs hx.takes⟩
  constructor
  · intro hall before x later r hts hx
    obtain ⟨hs, hsum⟩ := hspent before x later r hts hx
    have := (forwards_iff hs hx).mp (hall x (by simp [hts]) r hx)
    omega
  · intro hall x hx r hmeet
    obtain ⟨before, later, hts⟩ := List.append_of_mem hx
    obtain ⟨hs, hsum⟩ := hspent before x later r hts hmeet
    have := hall before x later r hts hmeet
    exact (forwards_iff hs hmeet).mpr (by omega)

/-- One turn of the loop that puts the request at the head back, and one that
tries to connect. -/
def requeueTurn : List (Event String String) := [.signalFailed, .dequeue, .resubmit]

def connectTurn (result : Except ClientError Unit) : List (Event String String) :=
  [.signalFailed, .dequeue, .connect result]

/-- Two connect attempts fail, the third one succeeds. -/
def thirdAttempt : List (Event String String) :=
  .submit "state_call" "[]" ::
    (requeueTurn ++ connectTurn (.error ⟨"connection refused"⟩) ++
      requeueTurn ++ connectTurn (.error ⟨"connection refused"⟩) ++
      requeueTurn ++ connectTurn (.ok ()) ++ [.signalFailed, .dequeue])

/-- The request the third attempt was made for is refused by a connected client. -/
theorem refused_while_connected :
    ∃ ts t, Run (step false) State.init ts t ∧ ts.map Step.ev = thirdAttempt ∧
      t.connected ∧ t.sent.map Prod.fst = [0] ∧ t.forwarded = [] ∧
      ¬ ∀ x ∈ ts, ∀ r, MeetsConnection x r → Forwards x r := by
  refine ⟨_, _, .of_trace State.init thirdAttempt, by decide, by decide, by decide, by decide,
    fun hall => ?_⟩
  have hlast := hall _ (List.getLast_mem (by decide)) ⟨"state_call", "[]", 0, 0⟩
    ⟨by decide, by decide⟩
  exact absurd hlast.forwarded (by decide)

/-- The theorem at that run: its last step is the fourth dequeue of the request. -/
theorem not_forwarded_at_fourth_dequeue :
    ¬ ∀ x ∈ trace (step false) State.init thirdAttempt, ∀ r, MeetsConnection x r → Forwards x r := by
  intro hall
  have hts := (List.dropLast_append_getLast
    (by decide : trace (step false) State.init thirdAttempt ≠ [])).symm
  have hthree := (forwarded_iff (.of_trace State.init thirdAttempt)).mp hall _ _ []
    ⟨"state_call", "[]", 0, 0⟩ hts ⟨by decide, by decide⟩
  exact absurd hthree (by decide)

/-! ## Losing a connection -/

/-- The steps from the dequeue of one message to the return to the head of the loop. -/
structure HandlesMessage (d : Step (State P V) (Event P V))
    (rest : List (Step (State P V) (Event P V))) : Prop where
  takes : d.ev = .dequeue
  inside : ∀ x ∈ (d :: rest).dropLast, x.post.phase.Handling
  returns : (after d.pre (d :: rest)).phase = .awaitSignal

/-- Handling a message that finds a live connection leaves it live, unless the
remote end drops it meanwhile. -/
def KeepsConnection (ts : List (Step (State P V) (Event P V))) : Prop :=
  ∀ before d rest later, ts = before ++ (d :: rest) ++ later → HandlesMessage d rest →
    d.pre.connected → (∀ x ∈ d :: rest, x.ev ≠ .disconnect) →
    (after d.pre (d :: rest)).connected

/-- If the step ends a connect attempt without success, no live connection is held. -/
def FailsUnconnected (x : Step (State P V) (Event P V)) : Prop :=
  match x.ev with
  | .connect (.error _) => x.pre.connected = false
  | _ => True

instance : (x : Step (State P V) (Event P V)) → Decidable (FailsUnconnected x)
  | ⟨pre, .connect (.error _), _⟩ => instDecidableEqBool pre.connected false
  | ⟨_, .connect (.ok _), _⟩ | ⟨_, .submit .., _⟩ | ⟨_, .cancel _, _⟩ | ⟨_, .disconnect, _⟩
  | ⟨_, .ctrlC, _⟩ | ⟨_, .signalled, _⟩ | ⟨_, .signalFailed, _⟩ | ⟨_, .dequeue, _⟩
  | ⟨_, .resubmit, _⟩ | ⟨_, .answer _, _⟩ => instDecidableTrue

@[simp] theorem State.handle_client (s : State P V) (m : Message P) :
    (s.handle m).client = s.client := by
  cases m with
  | request r => rw [State.handle_request]; split_ifs <;> rfl
  | tryConnect => rfl

/-- Only the remote end and a failed connect attempt take a live connection away. -/
theorem connected_step {s s' : State P V} {e : Event P V} (h : step installable s e = some s')
    (hd : e ≠ .disconnect) (hf : FailsUnconnected ⟨s, e, s'⟩) (hc : s.connected) :
    s'.connected := by
  cases e with
  | submit method params =>
    obtain rfl := step_submit.mp h
    simpa [State.connected] using hc
  | cancel call =>
    obtain ⟨-, rfl⟩ := step_cancel.mp h
    exact hc
  | disconnect => exact absurd rfl hd
  | ctrlC =>
    obtain rfl := step_ctrlC.mp h
    exact hc
  | signalled =>
    obtain ⟨-, -, -, rfl⟩ := step_signalled.mp h
    exact hc
  | signalFailed =>
    obtain ⟨-, -, rfl⟩ := step_signalFailed.mp h
    exact hc
  | dequeue =>
    obtain ⟨m, queue, -, -, rfl⟩ := step_dequeue.mp h
    simpa [State.connected] using hc
  | resubmit =>
    obtain ⟨r, -, rfl⟩ := step_resubmit.mp h
    exact hc
  | answer response =>
    obtain ⟨r, -, ⟨-, rfl⟩ | ⟨-, rfl⟩⟩ := step_answer.mp h <;> exact hc
  | connect result =>
    obtain ⟨-, rfl⟩ := step_connect.mp h
    cases result with
    | ok _ => rfl
    | error e =>
      -- an attempt that fails was made without a connection
      rw [show s.connected = false from hf] at hc
      cases hc

/-- A step within the body, other than the one that leaves it, is taken by the
world around the task; if the connection is live after it, it was so before. -/
theorem handling_step {s s' : State P V} {e : Event P V} (h : step installable s e = some s')
    (he : e ≠ .dequeue) (hp : s'.phase.Handling) :
    s.phase.Handling ∧ (s'.connected → s.connected ∧ e ≠ .disconnect) := by
  cases e with
  | submit method params =>
    obtain rfl := step_submit.mp h
    simp_all [State.connected]
  | cancel call =>
    obtain ⟨-, rfl⟩ := step_cancel.mp h
    exact ⟨hp, fun hc => ⟨hc, by simp⟩⟩
  | disconnect =>
    obtain ⟨-, rfl⟩ := step_disconnect.mp h
    exact ⟨hp, fun hc => by simp [State.connected] at hc⟩
  | ctrlC =>
    obtain rfl := step_ctrlC.mp h
    exact ⟨hp, fun hc => ⟨hc, by simp⟩⟩
  | signalled =>
    obtain ⟨-, -, -, rfl⟩ := step_signalled.mp h
    exact hp.elim
  | signalFailed =>
    obtain ⟨-, -, rfl⟩ := step_signalFailed.mp h
    exact hp.elim
  | dequeue => exact absurd rfl he
  | resubmit =>
    obtain ⟨r, -, rfl⟩ := step_resubmit.mp h
    exact hp.elim
  | answer response =>
    obtain ⟨r, -, ⟨-, rfl⟩ | ⟨-, rfl⟩⟩ := step_answer.mp h <;> exact hp.elim
  | connect result =>
    obtain ⟨-, rfl⟩ := step_connect.mp h
    exact hp.elim

/-- If the task is inside the body, it got there by a dequeue, and a connection
that is live now has been live since. -/
def SinceDequeue (ts : List (Step (State P V) (Event P V))) (t : State P V) : Prop :=
  t.phase.Handling → ∃ before d rest, ts = before ++ d :: rest ∧ d.ev = .dequeue ∧
    (∀ x ∈ d :: rest, x.post.phase.Handling) ∧
    (t.connected → d.pre.connected ∧ ∀ x ∈ d :: rest, x.ev ≠ .disconnect)

theorem sinceDequeue_snoc {as : List (Step (State P V) (Event P V))} {s s' : State P V}
    {e : Event P V} (ih : SinceDequeue as s) (hs : step installable s e = some s') :
    SinceDequeue (as ++ [⟨s, e, s'⟩]) s' := by
  intro hp
  by_cases he : e = .dequeue
  · subst he
    refine ⟨as, ⟨s, .dequeue, s'⟩, [], rfl, rfl, by simpa using hp, fun hc => ⟨?_, by simp⟩⟩
    obtain ⟨m, queue, -, -, rfl⟩ := step_dequeue.mp hs
    simpa [State.connected] using hc
  · obtain ⟨hp', hconn⟩ := handling_step hs he hp
    obtain ⟨before, d, rest, rfl, hd, hin, hlive⟩ := ih hp'
    refine ⟨before, d, rest ++ [⟨s, e, s'⟩], by simp, hd, ?_, fun hc => ?_⟩
    · rw [← List.cons_append, List.forall_mem_append]
      exact ⟨hin, by simpa using hp⟩
    · obtain ⟨hc', hne⟩ := hconn hc
      obtain ⟨hdc, hnone⟩ := hlive hc'
      rw [← List.cons_append, List.forall_mem_append]
      exact ⟨hdc, hnone, by simpa using hne⟩

theorem sinceDequeue_of_run {ts : List (Step (State P V) (Event P V))} {t : State P V}
    (h : Run (step installable) State.init ts t) : SinceDequeue ts t :=
  h.history_induction (fun hp => hp.elim) fun _ _ _ _ _ ih hs => sinceDequeue_snoc ih hs

omit [ToString P] in
theorem not_failsUnconnected {x : Step (State P V) (Event P V)} :
    ¬ FailsUnconnected x ↔ ∃ err, x.ev = .connect (.error err) ∧ x.pre.connected := by
  unfold FailsUnconnected
  split
  · next err hev => simp [hev]
  · next hne => exact iff_of_false (by simp) fun ⟨err, hev, _⟩ => hne err hev

/-- Handling messages never loses a live connection exactly when no connect
attempt fails while one is held. -/
theorem keepsConnection_iff {ts : List (Step (State P V) (Event P V))} {t : State P V}
    (h : Run (step installable) State.init ts t) :
    KeepsConnection ts ↔ ∀ x ∈ ts, FailsUnconnected x := by
  constructor
  · intro hkeep x hx
    by_contra hfail
    obtain ⟨err, hev, hc⟩ := not_failsUnconnected.mp hfail
    obtain ⟨as, later, rfl⟩ := List.append_of_mem hx
    obtain ⟨hrun, hs, -⟩ := h.split
    rw [hev] at hs
    obtain ⟨hp, hpost⟩ := step_connect.mp hs
    -- the message of the failed attempt is handled from its dequeue to this step
    obtain ⟨before, d, rest, rfl, hd, hin, hlive⟩ :=
      sinceDequeue_of_run hrun (by rw [hp]; trivial)
    obtain ⟨hdc, hnone⟩ := hlive hc
    have hafter : after d.pre (d :: (rest ++ [x])) = x.post := Run.after_snoc d.pre (d :: rest) x
    have hmsg : HandlesMessage d (rest ++ [x]) := by
      refine ⟨hd, ?_, by rw [hafter, hpost]⟩
      rwa [← List.cons_append, List.dropLast_concat]
    have hconn := hkeep before d (rest ++ [x]) later (by simp) hmsg hdc (by
      rw [← List.cons_append, List.forall_mem_append]
      exact ⟨hnone, by simp [hev]⟩)
    rw [hafter, hpost] at hconn
    cases hconn
  · rintro hall before d rest later rfl - hdc hnone
    obtain ⟨v, hv, -⟩ := Run.append_iff.mp h
    obtain ⟨u, -, hseg⟩ := Run.append_iff.mp hv
    obtain ⟨rfl, -, -⟩ := Run.cons_iff.mp hseg
    rw [hseg.after_eq]
    have hG : ∀ x ∈ d :: rest, x.ev ≠ .disconnect ∧ FailsUnconnected x := fun x hx =>
      ⟨hnone x hx, hall x (by simp only [List.mem_append]; exact .inl (.inr hx))⟩
    exact (hseg.invariant_of (I := fun s => s.connected = true)
      (fun x hx hG => connected_step hx hG.1 hG.2) hG hdc).1

/-- Two requests are put back before the first connect attempt succeeds; the
attempt left over from the second one fails. -/
def leftOverAttempt : List (Event String String) :=
  [.submit "state_call" "[]", .submit "chain_getHeader" "[]"] ++
    requeueTurn ++ requeueTurn ++ connectTurn (.ok ()) ++
    [.signalFailed, .dequeue, .answer (.ok "0x00")] ++
    connectTurn (.error ⟨"request timeout"⟩)

theorem connection_lost_to_left_over :
    ∃ ts t, Run (step false) State.init ts t ∧ ts.map Step.ev = leftOverAttempt ∧
      t.connected = false ∧ ¬ KeepsConnection ts := by
  refine ⟨_, _, .of_trace State.init leftOverAttempt, by decide, by decide, fun hkeep => ?_⟩
  let ts := trace (step false) State.init leftOverAttempt
  have hlost := hkeep (ts.take 15) (ts.get ⟨15, by decide⟩) (ts.drop 16) [] (by rfl)
    ⟨by decide, by decide, by decide⟩ (by decide) (by decide)
  exact absurd hlost (by decide)

/-- When the left-over attempt succeeds too, the connection is only replaced. -/
theorem connection_kept_by_success :
    KeepsConnection (trace (step false) State.init
      (leftOverAttempt.dropLast ++ [.connect (.ok ())])) :=
  (keepsConnection_iff (.of_trace _ _)).mpr (by decide)

end Client

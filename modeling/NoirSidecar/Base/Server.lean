-- SUMMARY: A server that takes requests off a queue one at a time, and the sequential run its answers are those of.
import NoirSidecar.Base.Channel

/-!
# Servers

Requests are put into a queue at any time. The server takes them off one by one and
answers each from a state of its own, until it meets a request that makes it stop.
Whatever the interleaving, its answers are those of the requests handled one after another.
-/

structure Server (σ R A : Type*) where
  handle : R → σ → A × σ
  stops : R → Bool

namespace Server

variable {σ R A O : Type*}

/-- `answered` are the requests answered so far with their answers. -/
structure State (σ R A : Type*) where
  store : σ
  queue : List R
  running : Bool
  answered : List (R × A)

inductive Event (R : Type*) where
  | send (r : R)
  | poll

def State.init (s : σ) : State σ R A where
  store := s
  queue := []
  running := true
  answered := []

variable (server : Server σ R A)

/-- The request at the head of the queue, taken off it. -/
def State.take (s : State σ R A) (r : R) (queue : List R) : State σ R A :=
  if server.stops r then { s with running := false, queue := [] }
  else
    { s with
      store := (server.handle r s.store).2
      queue := queue
      answered := s.answered ++ [(r, (server.handle r s.store).1)] }

/-- A request sent to a server that has stopped is lost. A server that finds no request
waits. -/
def step (s : State σ R A) : Event R → Option (State σ R A)
  | .send r => some (if s.running then { s with queue := s.queue ++ [r] } else s)
  | .poll =>
    if s.running then
      match s.queue with
      | [] => some s
      | r :: queue => some (s.take server r queue)
    else none

/-! ## Handling requests one after another -/

def stateAfter (s : σ) (rs : List R) : σ := rs.foldl (fun s r => (server.handle r s).2) s

def answers (s : σ) : List R → List (R × A)
  | [] => []
  | r :: rs => (r, (server.handle r s).1) :: answers (server.handle r s).2 rs

theorem answers_append (s : σ) (rs rs' : List R) :
    server.answers s (rs ++ rs') =
      server.answers s rs ++ server.answers (server.stateAfter s rs) rs' := by
  induction rs generalizing s with
  | nil => rfl
  | cons r rs ih => exact congrArg _ (ih _)

theorem map_fst_answers (s : σ) (rs : List R) : (server.answers s rs).map Prod.fst = rs := by
  induction rs generalizing s with
  | nil => rfl
  | cons r rs ih => exact congrArg _ (ih _)

/-- A request is answered from the state its predecessors lead to. -/
theorem answers_getElem? (s : σ) (rs : List R) (i : Nat) :
    (server.answers s rs)[i]? =
      rs[i]?.map fun r => (r, (server.handle r (server.stateAfter s (rs.take i))).1) := by
  induction rs generalizing s i with
  | nil => rfl
  | cons r rs ih =>
    cases i with
    | zero => rfl
    | succ i => exact ih _ i

/-- Where a request changes the state only by an operation it may stand for, the requests lead
where their operations do. -/
theorem stateAfter_eq_foldl {operation : R → Option O} {perform : σ → O → σ}
    (h : ∀ r s, (server.handle r s).2 = (operation r).elim s (perform s)) (s : σ) (rs : List R) :
    server.stateAfter s rs = (rs.filterMap operation).foldl perform s := by
  induction rs generalizing s with
  | nil => rfl
  | cons r rs ih =>
    have hcons : server.stateAfter s (r :: rs) =
      server.stateAfter ((operation r).elim s (perform s)) rs := by rw [← h]; rfl
    rw [hcons, ih]
    cases ho : operation r with
    | none => rw [List.filterMap_cons_none ho]; rfl
    | some o => rw [List.filterMap_cons_some ho]; rfl

/-! ## Runs of a server -/

section Steps

variable {server : Server σ R A} {s s' : State σ R A}

theorem step_send {r : R} :
    step server s (.send r) = some s' ↔
      s' = if s.running then { s with queue := s.queue ++ [r] } else s := by
  simp [step, @eq_comm _ s']

theorem step_poll :
    step server s .poll = some s' ↔
      s.running = true ∧ (s.queue = [] ∧ s' = s ∨
        ∃ r queue, s.queue = r :: queue ∧ s' = s.take server r queue) := by
  cases hr : s.running <;> cases hq : s.queue <;> simp [step, hr, hq, @eq_comm _ s']

theorem State.take_of_stops {r : R} {queue : List R} (h : server.stops r = true) :
    s.take server r queue = { s with running := false, queue := [] } := by
  simp [State.take, h]

theorem State.take_of_not_stops {r : R} {queue : List R} (h : server.stops r = false) :
    s.take server r queue =
      { s with
        store := (server.handle r s.store).2
        queue := queue
        answered := s.answered ++ [(r, (server.handle r s.store).1)] } := by
  simp [State.take, h]

end Steps

/-- The queue of a server, which is gone when the server has stopped. -/
def requests : Channel (step server) R where
  queue := State.queue
  live s := s.running = true
  sends x :=
    match x.ev with
    | .send r => if x.pre.running then [r] else []
    | .poll => []
  takes x :=
    match x.ev with
    | .send _ => none
    | .poll => x.pre.queue.head?
  live_pre x hs hlive := by
    obtain ⟨s, e, s'⟩ := x
    cases e with
    | send r =>
      have hs' := step_send.mp hs
      cases hr : s.running with
      | true => rfl
      | false => simp_all
    | poll => exact (step_poll.mp hs).1
  conserves x hs hlive := by
    obtain ⟨s, e, s'⟩ := x
    cases e with
    | send r =>
      have hs' : s' = _ := step_send.mp hs
      dsimp only
      rw [hs']
      split_ifs <;> simp
    | poll =>
      change step server s .poll = some s' at hs
      obtain ⟨-, ⟨hq, rfl⟩ | ⟨r, queue, hq, rfl⟩⟩ := step_poll.mp hs
      · simp [hq]
      -- a server that still runs has not met the request that stops it
      · cases hstop : server.stops r with
        | true => simp [State.take_of_stops hstop] at hlive
        | false => simp [State.take_of_not_stops hstop, hq]

/-- The requests taken off the queue, the one that stops the server left out. -/
def received (ts : List (Step (State σ R A) (Event R))) : List R :=
  (server.requests.taken ts).filter fun r => !server.stops r

variable {server}

theorem received_snoc (ts : List (Step (State σ R A) (Event R))) (x : Step (State σ R A) (Event R)) :
    server.received (ts ++ [x]) =
      server.received ts ++ (server.requests.takes x).toList.filter fun r => !server.stops r := by
  rw [received, Channel.taken_append, List.filter_append, Channel.taken_singleton]
  rfl

/-- In every run the requests received have been answered as if one after another. -/
theorem answered_of_run {s : σ} {ts : List (Step (State σ R A) (Event R))} {t : State σ R A}
    (h : Run (step server) (.init s) ts t) :
    t.answered = server.answers s (server.received ts) ∧
      t.store = server.stateAfter s (server.received ts) := by
  refine h.history_induction (P := fun ts t => t.answered = server.answers s (server.received ts) ∧
    t.store = server.stateAfter s (server.received ts)) ⟨rfl, rfl⟩ ?_
  rintro as a e a' - ⟨hanswered, hstore⟩ hs
  rw [received_snoc]
  cases e with
  | send r =>
    have hs' := step_send.mp hs
    have htakes : server.requests.takes ⟨a, .send r, a'⟩ = none := rfl
    rw [htakes, Option.toList_none, List.filter_nil, List.append_nil, hs']
    split_ifs
    · exact ⟨hanswered, hstore⟩
    · exact ⟨hanswered, hstore⟩
  | poll =>
    have htakes : server.requests.takes ⟨a, .poll, a'⟩ = a.queue.head? := rfl
    obtain ⟨-, ⟨hq, rfl⟩ | ⟨r, queue, hq, rfl⟩⟩ := step_poll.mp hs
    · rw [htakes, hq]
      simpa using ⟨hanswered, hstore⟩
    · rw [htakes, hq]
      cases hstop : server.stops r with
      | true =>
        rw [State.take_of_stops hstop]
        simpa [hstop] using ⟨hanswered, hstore⟩
      | false =>
        rw [State.take_of_not_stops hstop, answers_append, ← hstore, hanswered]
        simp [hstop, answers, stateAfter, hstore]

/-- A server that runs has not met a request that stops it. -/
theorem taken_of_running {s : σ} {ts : List (Step (State σ R A) (Event R))} {t : State σ R A}
    (h : Run (step server) (.init s) ts t) (ht : t.running = true) :
    server.requests.taken ts = server.received ts := by
  refine h.history_induction (P := fun ts t => t.running = true →
    server.requests.taken ts = server.received ts) (fun _ => rfl) ?_ ht
  intro as a e a' _ ih hs hlive
  have hpre : a.running = true := server.requests.live_pre ⟨a, e, a'⟩ hs hlive
  rw [received_snoc, Channel.taken_append, Channel.taken_singleton, ih hpre]
  congr 1
  cases e with
  | send r => rfl
  | poll =>
    have htakes : server.requests.takes ⟨a, .poll, a'⟩ = a.queue.head? := rfl
    obtain ⟨-, ⟨hq, rfl⟩ | ⟨r, queue, hq, rfl⟩⟩ := step_poll.mp hs
    · rw [htakes, hq]
      rfl
    · cases hstop : server.stops r with
      | true =>
        rw [State.take_of_stops hstop] at hlive
        cases hlive
      | false =>
        rw [htakes, hq]
        simp [hstop]

/-- As long as the server runs, what was sent is what it has received and what waits. -/
theorem sent_eq {s : σ} {ts : List (Step (State σ R A) (Event R))} {t : State σ R A}
    (h : Run (step server) (.init s) ts t) (ht : t.running = true) :
    server.requests.sent ts = server.received ts ++ t.queue := by
  rw [← taken_of_running h ht]
  exact server.requests.conservation h ht

/-- When the server has stopped, it has received all that was sent before the request that
stopped it. -/
theorem sent_eq_of_stopped {s : σ} {ts : List (Step (State σ R A) (Event R))} {t : State σ R A}
    (h : Run (step server) (.init s) ts t) (ht : t.running = false) :
    ∃ r rest, server.stops r = true ∧
      server.requests.sent ts = server.received ts ++ r :: rest := by
  refine h.history_induction (P := fun ts t => t.running = false → ∃ r rest, server.stops r = true ∧
    server.requests.sent ts = server.received ts ++ r :: rest) (fun hinit => by cases hinit) ?_ ht
  intro as a e a' hrun ih hs hstopped
  rw [received_snoc, Channel.sent_append, Channel.sent_singleton]
  cases e with
  | send r =>
    have hs' := step_send.mp hs
    have hpre : a.running = false := by
      rw [hs'] at hstopped
      split_ifs at hstopped with hlive
      · exact hstopped
      · simpa using hlive
    have hsends : server.requests.sends ⟨a, .send r, a'⟩ = [] := by simp [requests, hpre]
    have htakes : server.requests.takes ⟨a, .send r, a'⟩ = none := rfl
    rw [hsends, htakes]
    simpa using ih hpre
  | poll =>
    have hsends : server.requests.sends ⟨a, .poll, a'⟩ = [] := rfl
    have htakes : server.requests.takes ⟨a, .poll, a'⟩ = a.queue.head? := rfl
    obtain ⟨hlive, ⟨hq, rfl⟩ | ⟨r, queue, hq, rfl⟩⟩ := step_poll.mp hs
    · cases hlive.symm.trans hstopped
    · cases hstop : server.stops r with
      | true =>
        refine ⟨r, queue, hstop, ?_⟩
        rw [hsends, htakes, sent_eq hrun hlive, hq]
        simp [hstop]
      | false =>
        rw [State.take_of_not_stops hstop] at hstopped
        cases hlive.symm.trans hstopped

end Server

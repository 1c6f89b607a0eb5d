-- SUMMARY: Queues inside a machine: what is taken off one is what was put into it, in the same order.
import NoirSidecar.Base.Machine

/-!
# Channels

A machine may hold a queue that some of its steps put messages into and others take
messages off. As long as the queue exists, no message is lost, made up or overtaken, so
messages are known by their number: the one taken next has as many sent before it as have
been taken already.
-/

/-- A queue held by a machine: its content, what a step adds at its end and takes off its
head, and the states in which it exists. -/
structure Channel {σ ε : Type*} (step : σ → ε → Option σ) (M : Type*) where
  queue : σ → List M
  live : σ → Prop
  sends : Step σ ε → List M
  takes : Step σ ε → Option M
  live_pre : ∀ x : Step σ ε, step x.pre x.ev = some x.post → live x.post → live x.pre
  conserves : ∀ x : Step σ ε, step x.pre x.ev = some x.post → live x.post →
    queue x.pre ++ sends x = (takes x).toList ++ queue x.post

namespace Channel

variable {σ ε M : Type*} {step : σ → ε → Option σ} (c : Channel step M)

/-- The messages put in by some steps, in order. -/
def sent (ts : List (Step σ ε)) : List M := ts.flatMap c.sends

/-- The messages taken off by some steps, in order. -/
def taken (ts : List (Step σ ε)) : List M := ts.filterMap c.takes

@[simp] theorem sent_append (ts us : List (Step σ ε)) : c.sent (ts ++ us) = c.sent ts ++ c.sent us :=
  List.flatMap_append

@[simp] theorem taken_append (ts us : List (Step σ ε)) :
    c.taken (ts ++ us) = c.taken ts ++ c.taken us := List.filterMap_append

theorem sent_singleton (x : Step σ ε) : c.sent [x] = c.sends x := List.flatMap_singleton ..

theorem taken_singleton (x : Step σ ε) : c.taken [x] = (c.takes x).toList := by
  unfold taken
  cases h : c.takes x <;> simp [h]

/-- What was there and what is put in is what is taken off and what is left. -/
theorem conservation {s t : σ} {ts : List (Step σ ε)} (h : Run step s ts t) (ht : c.live t) :
    c.queue s ++ c.sent ts = c.taken ts ++ c.queue t := by
  refine h.history_induction (P := fun ts t => c.live t →
    c.queue s ++ c.sent ts = c.taken ts ++ c.queue t) ?_ ?_ ht
  · intro _
    exact List.append_nil _
  · intro as a e a' _ ih hs hlive
    have hpre := ih (c.live_pre ⟨a, e, a'⟩ hs hlive)
    have hone := c.conserves ⟨a, e, a'⟩ hs hlive
    calc c.queue s ++ c.sent (as ++ [⟨a, e, a'⟩])
      _ = (c.queue s ++ c.sent as) ++ c.sends ⟨a, e, a'⟩ := by
        rw [sent_append, sent_singleton, List.append_assoc]
      _ = c.taken as ++ (c.queue a ++ c.sends ⟨a, e, a'⟩) := by rw [hpre, List.append_assoc]
      _ = c.taken (as ++ [⟨a, e, a'⟩]) ++ c.queue a' := by
        rw [hone, taken_append, taken_singleton, List.append_assoc]

end Channel

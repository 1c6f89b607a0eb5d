-- SUMMARY: Programs whose questions are answered by other programs, and what carries over from one level to the other.
import NoirSidecar.Base.Dialogue

/-!
# Lowering

A program at one level becomes a program at the level below when each of its questions is
replaced by a program that works out the answer there. If these programs find what the level
above answers, the whole program cannot tell the levels apart.
-/

namespace Prog

variable {Q R : Type} {A : Q → Type} {B : R → Type} {ε α σ τ : Type}

/-- Every question is answered by a program of its own. -/
def through (f : ∀ q, Prog R B ε (A q)) : Prog Q A ε α → Prog R B ε α
  | .done a => .done a
  | .fail e => .fail e
  | .panic => .panic
  | .ask q k => f q >>= fun a => (k a).through f

/-- Only the programs that stand for questions ask. -/
theorem Asks.through {p : Prog Q A ε α} {P : Q → Prop} (hp : p.Asks P)
    {f : ∀ q, Prog R B ε (A q)} {S : R → Prop} (h : ∀ q, P q → (f q).Asks S) :
    (p.through f).Asks S := by
  induction p with
  | done a => trivial
  | fail e => trivial
  | panic => trivial
  | ask q k ih => exact (h q hp.1).bind fun a => ih a (hp.2 a)

theorem asks_through {f : ∀ q, Prog R B ε (A q)} {S : R → Prop} (h : ∀ q, (f q).Asks S)
    (p : Prog Q A ε α) : (p.through f).Asks S :=
  (asks_of_forall (fun _ => trivial) p).through (P := fun _ => True) fun q _ => h q

theorem failsOn_through {f : ∀ q, Prog R B ε (A q)} {bad : ∀ r, B r → Prop}
    (h : ∀ q, (f q).FailsOn bad) (p : Prog Q A ε α) : (p.through f).FailsOn bad := by
  induction p with
  | done a => trivial
  | fail e => trivial
  | panic => trivial
  | ask q k ih => exact (h q).bind ih

/-! ## Errors as values -/

variable {ε' : Type}

/-- The program ends well where this one fails, with the error as its value. -/
def attempt : Prog Q A ε α → Prog Q A ε' (Except ε α)
  | .done a => .done (.ok a)
  | .fail e => .done (.error e)
  | .panic => .panic
  | .ask q k => .ask q fun a => (k a).attempt

/-! ## Environments with states -/

/-- Each question of a run is put in a state that suits it. -/
def Meets (S : Q → σ → Prop) (handler : ∀ q, σ → A q × σ) : Prog Q A ε α → σ → Prop
  | .ask q k, s => S q s ∧ (k (handler q s).1).Meets S handler (handler q s).2
  | _, _ => True

theorem Meets.of_forall {S : Q → σ → Prop} (h : ∀ q s, S q s) {handler : ∀ q, σ → A q × σ}
    (p : Prog Q A ε α) (s : σ) : p.Meets S handler s := by
  induction p generalizing s with
  | done a => trivial
  | fail e => trivial
  | panic => trivial
  | ask q k ih => exact ⟨h q s, ih _ _⟩

/-- If from related states the programs below find the answers above, and end in related
states, then so does the whole program. -/
theorem exec_through {f : ∀ q, Prog R B ε (A q)} {S : Q → σ → Prop}
    {handler : ∀ q, σ → A q × σ} {handler' : ∀ r, τ → B r × τ} {I : σ → τ → Prop}
    (h : ∀ q s t, I s t → S q s →
      ∃ t', (f q).exec handler' t = (.ok (handler q s).1, t') ∧ I (handler q s).2 t')
    {p : Prog Q A ε α} {s : σ} {t : τ} (hI : I s t) (hp : p.Meets S handler s) :
    ∃ t', (p.through f).exec handler' t = ((p.exec handler s).1, t') ∧
      I (p.exec handler s).2 t' := by
  induction p generalizing s t with
  | done a => exact ⟨t, rfl, hI⟩
  | fail e => exact ⟨t, rfl, hI⟩
  | panic => exact ⟨t, rfl, hI⟩
  | ask q k ih =>
    obtain ⟨hS, hrest⟩ := hp
    obtain ⟨t₁, hfirst, hI₁⟩ := h q s t hI hS
    obtain ⟨t₂, hsecond, hI₂⟩ := ih _ hI₁ hrest
    refine ⟨t₂, ?_, hI₂⟩
    rw [through, exec_bind, hfirst]
    exact hsecond

/-- If the programs below answer each question as it is answered above, with the same effect,
then nothing changes. -/
theorem exec_through_eq {f : ∀ q, Prog R B ε (A q)} {handler : ∀ q, σ → A q × σ}
    {handler' : ∀ r, σ → B r × σ}
    (h : ∀ q s, (f q).exec handler' s = (.ok (handler q s).1, (handler q s).2))
    (p : Prog Q A ε α) (s : σ) : (p.through f).exec handler' s = p.exec handler s := by
  have hsim : ∀ q (s t : σ), t = s → True →
      ∃ t', (f q).exec handler' t = (.ok (handler q s).1, t') ∧ t' = (handler q s).2 := by
    rintro q _ s rfl -
    exact ⟨_, h q s, rfl⟩
  obtain ⟨t', hexec, rfl⟩ := exec_through hsim (t := s) rfl (Meets.of_forall (fun _ _ => trivial) p s)
  exact hexec

theorem exec_attempt {handler : ∀ q, σ → A q × σ} {p : Prog Q A ε α} {s s' : σ} {r : Except ε α}
    (h : p.exec handler s = (.ofExcept r, s')) :
    (p.attempt : Prog Q A ε' (Except ε α)).exec handler s = (.ok r, s') := by
  induction p generalizing s with
  | done a =>
    cases r with
    | ok b => cases h; rfl
    | error e => cases h
  | fail e =>
    cases r with
    | ok b => cases h
    | error e => cases h; rfl
  | panic => cases r <;> cases h
  | ask q k ih => exact ih _ h

end Prog

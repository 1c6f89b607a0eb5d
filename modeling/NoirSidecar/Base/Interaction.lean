-- SUMMARY: Programs that ask an environment for answers, and their runs against an environment with or without state.
import Mathlib.Logic.Basic

/-!
# Interaction

A program is a tree: it ends with a result, with an error or in a panic, or it
asks its environment something and goes on with the answer. What the environment
answers is left open until the program is run, either against a function from
questions to answers or against a handler with a state of its own.
-/

/-- How a computation ends. -/
inductive Outcome (ε α : Type) where
  | ok (value : α)
  | error (e : ε)
  | panicked
  deriving DecidableEq, Repr

namespace Outcome

variable {ε ε' α β : Type}

def bind : Outcome ε α → (α → Outcome ε β) → Outcome ε β
  | .ok a, f => f a
  | .error e, _ => .error e
  | .panicked, _ => .panicked

instance : Monad (Outcome ε) where
  pure := .ok
  bind := Outcome.bind

def ofExcept : Except ε α → Outcome ε α
  | .ok a => .ok a
  | .error e => .error e

def mapError (g : ε → ε') : Outcome ε α → Outcome ε' α
  | .ok a => .ok a
  | .error e => .error (g e)
  | .panicked => .panicked

/-- The computation ended with a result. -/
def Succeeds (o : Outcome ε α) : Prop := ∃ a, o = .ok a

@[simp] theorem pure_eq (a : α) : (pure a : Outcome ε α) = .ok a := rfl
@[simp] theorem ok_bind (a : α) (f : α → Outcome ε β) : (Outcome.ok a >>= f) = f a := rfl
@[simp] theorem error_bind (e : ε) (f : α → Outcome ε β) : (Outcome.error e >>= f) = .error e := rfl
@[simp] theorem panicked_bind (f : α → Outcome ε β) : (Outcome.panicked >>= f) = .panicked := rfl
@[simp] theorem map_ok (f : α → β) (a : α) : (f <$> (Outcome.ok a : Outcome ε α)) = .ok (f a) := rfl
@[simp] theorem map_error (f : α → β) (e : ε) : (f <$> (Outcome.error e : Outcome ε α)) = .error e := rfl
@[simp] theorem map_panicked (f : α → β) : (f <$> (Outcome.panicked : Outcome ε α)) = .panicked := rfl
@[simp] theorem mapError_ok (g : ε → ε') (a : α) : (Outcome.ok a).mapError g = .ok a := rfl
@[simp] theorem mapError_error (g : ε → ε') (e : ε) :
    (Outcome.error e : Outcome ε α).mapError g = .error (g e) := rfl
@[simp] theorem mapError_panicked (g : ε → ε') :
    (Outcome.panicked : Outcome ε α).mapError g = .panicked := rfl
@[simp] theorem ofExcept_ok (a : α) : ofExcept (.ok a : Except ε α) = .ok a := rfl
@[simp] theorem ofExcept_error (e : ε) : ofExcept (.error e : Except ε α) = .error e := rfl

theorem bind_eq_ok_iff {o : Outcome ε α} {f : α → Outcome ε β} {b : β} :
    (o >>= f) = .ok b ↔ ∃ a, o = .ok a ∧ f a = .ok b := by
  cases o <;> simp

theorem ofExcept_eq_ok_iff {r : Except ε α} {a : α} : ofExcept r = .ok a ↔ r = .ok a := by
  cases r <;> simp

theorem bind_congr {o : Outcome ε α} {f g : α → Outcome ε β} (h : ∀ a, f a = g a) :
    (o >>= f) = (o >>= g) := congrArg (o >>= ·) (funext h)

@[simp] theorem mapError_eq_ok_iff {g : ε → ε'} {o : Outcome ε α} {a : α} :
    o.mapError g = .ok a ↔ o = .ok a := by
  cases o <;> simp

@[simp] theorem succeeds_ok (a : α) : (Outcome.ok a : Outcome ε α).Succeeds := ⟨a, rfl⟩

@[simp] theorem not_succeeds_error (e : ε) : ¬ (Outcome.error e : Outcome ε α).Succeeds := by
  rintro ⟨a, h⟩
  cases h

@[simp] theorem not_succeeds_panicked : ¬ (Outcome.panicked : Outcome ε α).Succeeds := by
  rintro ⟨a, h⟩
  cases h

end Outcome

/-- A program that puts questions `q : Q` to its environment, each answered by an
`A q`. -/
inductive Prog (Q : Type) (A : Q → Type) (ε α : Type) where
  | done (value : α)
  | fail (e : ε)
  | panic
  | ask (q : Q) (k : A q → Prog Q A ε α)

namespace Prog

variable {Q : Type} {A : Q → Type} {ε ε' α β σ : Type}

def bind : Prog Q A ε α → (α → Prog Q A ε β) → Prog Q A ε β
  | .done a, f => f a
  | .fail e, _ => .fail e
  | .panic, _ => .panic
  | .ask q k, f => .ask q fun a => (k a).bind f

instance : Monad (Prog Q A ε) where
  pure := .done
  bind := Prog.bind

instance : LawfulMonad (Prog Q A ε) := LawfulMonad.mk' _
  (fun x => by
    induction x with
    | ask q k ih => exact congrArg (Prog.ask q) (funext ih)
    | _ => rfl)
  (fun _ _ => rfl)
  (fun x f g => by
    induction x with
    | ask q k ih => exact congrArg (Prog.ask q) (funext ih)
    | _ => rfl)

/-- Put one question. -/
def query (q : Q) : Prog Q A ε (A q) := .ask q .done

def ofExcept : Except ε α → Prog Q A ε α
  | .ok a => .done a
  | .error e => .fail e

@[simp] theorem ofExcept_ok_bind (a : α) (f : α → Prog Q A ε β) :
    (ofExcept (.ok a) >>= f) = f a := rfl

@[simp] theorem ofExcept_error_bind (e : ε) (f : α → Prog Q A ε β) :
    (ofExcept (.error e) >>= f) = .fail e := rfl

@[simp] theorem ofExcept_bind_ofExcept (r : Except ε α) (f : α → Except ε β) :
    (ofExcept r >>= fun a => (ofExcept (f a) : Prog Q A ε β)) = ofExcept (r >>= f) := by
  cases r <;> rfl

theorem bind_congr {p : Prog Q A ε α} {f g : α → Prog Q A ε β} (h : ∀ a, f a = g a) :
    (p >>= f) = (p >>= g) := congrArg (p >>= ·) (funext h)

def ofOutcome : Outcome ε α → Prog Q A ε α
  | .ok a => .done a
  | .error e => .fail e
  | .panicked => .panic

def mapError (g : ε → ε') : Prog Q A ε α → Prog Q A ε' α
  | .done a => .done a
  | .fail e => .fail (g e)
  | .panic => .panic
  | .ask q k => .ask q fun a => (k a).mapError g

theorem mapError_bind (g : ε → ε') (p : Prog Q A ε α) (f : α → Prog Q A ε β) :
    (p >>= f).mapError g = p.mapError g >>= fun a => (f a).mapError g := by
  induction p with
  | done a => rfl
  | fail e => rfl
  | panic => rfl
  | ask q k ih => exact congrArg (ask q) (funext ih)

/-! ## Runs against a fixed environment -/

/-- The outcome when every question `q` is answered by `env q`. -/
def run (env : ∀ q, A q) : Prog Q A ε α → Outcome ε α
  | .done a => .ok a
  | .fail e => .error e
  | .panic => .panicked
  | .ask q k => (k (env q)).run env

variable {env : ∀ q, A q}

@[simp] theorem run_done (a : α) : (done a : Prog Q A ε α).run env = .ok a := rfl
@[simp] theorem run_fail (e : ε) : (fail e : Prog Q A ε α).run env = .error e := rfl
@[simp] theorem run_panic : (panic : Prog Q A ε α).run env = .panicked := rfl
@[simp] theorem run_pure (a : α) : (pure a : Prog Q A ε α).run env = .ok a := rfl
@[simp] theorem run_query (q : Q) : (query q : Prog Q A ε (A q)).run env = .ok (env q) := rfl

@[simp] theorem run_bind (p : Prog Q A ε α) (f : α → Prog Q A ε β) :
    (p >>= f).run env = p.run env >>= fun a => (f a).run env := by
  induction p with
  | done a => rfl
  | fail e => rfl
  | panic => rfl
  | ask q k ih => exact ih (env q)

@[simp] theorem run_map (f : α → β) (p : Prog Q A ε α) : (f <$> p).run env = f <$> p.run env :=
  run_bind p _

@[simp] theorem run_mapError (g : ε → ε') (p : Prog Q A ε α) :
    (p.mapError g).run env = (p.run env).mapError g := by
  induction p with
  | done a => rfl
  | fail e => rfl
  | panic => rfl
  | ask q k ih => exact ih (env q)

@[simp] theorem run_ofExcept (r : Except ε α) :
    (ofExcept r : Prog Q A ε α).run env = Outcome.ofExcept r := by
  cases r <;> rfl

@[simp] theorem run_ofOutcome (o : Outcome ε α) : (ofOutcome o : Prog Q A ε α).run env = o := by
  cases o <;> rfl

/-! ## Runs against an environment with a state -/

/-- The outcome and the last state when questions are answered by `handler`. -/
def exec (handler : ∀ q, σ → A q × σ) : Prog Q A ε α → σ → Outcome ε α × σ
  | .done a, s => (.ok a, s)
  | .fail e, s => (.error e, s)
  | .panic, s => (.panicked, s)
  | .ask q k, s => (k (handler q s).1).exec handler (handler q s).2

variable {handler : ∀ q, σ → A q × σ}

@[simp] theorem exec_query (q : Q) (s : σ) :
    (query q : Prog Q A ε (A q)).exec handler s = (.ok (handler q s).1, (handler q s).2) := rfl

@[simp] theorem exec_ofOutcome (o : Outcome ε α) (s : σ) :
    (ofOutcome o : Prog Q A ε α).exec handler s = (o, s) := by
  cases o <;> rfl

@[simp] theorem exec_ofExcept (r : Except ε α) (s : σ) :
    (ofExcept r : Prog Q A ε α).exec handler s = (Outcome.ofExcept r, s) := by
  cases r <;> rfl

/-- A sequence of two programs: the second starts where the first one ended, if
that one ended well. -/
theorem exec_bind (p : Prog Q A ε α) (f : α → Prog Q A ε β) (s : σ) :
    (p >>= f).exec handler s =
      match p.exec handler s with
      | (.ok a, s') => (f a).exec handler s'
      | (.error e, s') => (.error e, s')
      | (.panicked, s') => (.panicked, s') := by
  induction p generalizing s with
  | done a => rfl
  | fail e => rfl
  | panic => rfl
  | ask q k ih => exact ih _ _

theorem exec_bind_of_eq {p : Prog Q A ε α} {f : α → Prog Q A ε β} {s s' : σ} {a : α}
    (h : p.exec handler s = (.ok a, s')) :
    (p >>= f).exec handler s = (f a).exec handler s' := by
  rw [exec_bind, h]

/-- A sequence ends well if both programs do. -/
theorem exec_bind_eq {p : Prog Q A ε α} {f : α → Prog Q A ε β} {s s'' : σ} {b : β} :
    (p >>= f).exec handler s = (.ok b, s'') ↔
      ∃ a s', p.exec handler s = (.ok a, s') ∧ (f a).exec handler s' = (.ok b, s'') := by
  rw [exec_bind]
  cases p.exec handler s with
  | mk o s' => cases o <;> simp [and_assoc]

theorem exec_bind_eq_ok {p : Prog Q A ε α} {f : α → Prog Q A ε β} {s : σ} {b : β} :
    ((p >>= f).exec handler s).1 = .ok b ↔
      ∃ a s', p.exec handler s = (.ok a, s') ∧ ((f a).exec handler s').1 = .ok b := by
  rw [exec_bind]
  cases p.exec handler s with
  | mk o s' => cases o <;> simp [and_assoc]

@[simp] theorem exec_done (a : α) (s : σ) :
    (done a : Prog Q A ε α).exec handler s = (.ok a, s) := rfl

@[simp] theorem exec_fail (e : ε) (s : σ) :
    (fail e : Prog Q A ε α).exec handler s = (.error e, s) := rfl

@[simp] theorem exec_pure (a : α) (s : σ) :
    (pure a : Prog Q A ε α).exec handler s = (.ok a, s) := rfl

theorem exec_mapError (g : ε → ε') (p : Prog Q A ε α) (s : σ) :
    (p.mapError g).exec handler s = ((p.exec handler s).1.mapError g, (p.exec handler s).2) := by
  induction p generalizing s with
  | done a => rfl
  | fail e => rfl
  | panic => rfl
  | ask q k ih => exact ih _ _

theorem exec_ofExcept_bind_eq_ok {r : Except ε α} {f : α → Prog Q A ε β} {s : σ} {b : β} :
    ((ofExcept r >>= f).exec handler s).1 = .ok b ↔
      ∃ a, r = .ok a ∧ ((f a).exec handler s).1 = .ok b := by
  cases r <;> simp

/-! ## Which questions a program asks -/

/-- Every question the program may ask satisfies `S`. -/
def Asks (S : Q → Prop) : Prog Q A ε α → Prop
  | .ask q k => S q ∧ ∀ a, (k a).Asks S
  | _ => True

/-- The program asks `q` before anything else, and then only what satisfies `S`. -/
def Opens (q : Q) (S : Q → Prop) : Prog Q A ε α → Prop
  | .ask q' k => q' = q ∧ ∀ a, (k a).Asks S
  | _ => True

section Asks

variable {S : Q → Prop} {q : Q}

@[simp] theorem asks_pure (a : α) : (pure a : Prog Q A ε α).Asks S := trivial
@[simp] theorem asks_done (a : α) : (done a : Prog Q A ε α).Asks S := trivial
@[simp] theorem asks_fail (e : ε) : (fail e : Prog Q A ε α).Asks S := trivial

@[simp] theorem asks_ofExcept (r : Except ε α) : (ofExcept r : Prog Q A ε α).Asks S := by
  cases r <;> trivial

@[simp] theorem asks_ofOutcome (o : Outcome ε α) : (ofOutcome o : Prog Q A ε α).Asks S := by
  cases o <;> trivial

theorem Asks.bind {p : Prog Q A ε α} {f : α → Prog Q A ε β} (hp : p.Asks S)
    (hf : ∀ a, (f a).Asks S) : (p >>= f).Asks S := by
  induction p with
  | done a => exact hf a
  | fail e => trivial
  | panic => trivial
  | ask q k ih => exact ⟨hp.1, fun a => ih a (hp.2 a)⟩

theorem Asks.mono {S' : Q → Prop} {p : Prog Q A ε α} (hp : p.Asks S) (h : ∀ q, S q → S' q) :
    p.Asks S' := by
  induction p with
  | done a => trivial
  | fail e => trivial
  | panic => trivial
  | ask q k ih => exact ⟨h q hp.1, fun a => ih a (hp.2 a)⟩

theorem asks_of_forall (h : ∀ q, S q) (p : Prog Q A ε α) : p.Asks S := by
  induction p with
  | done a => trivial
  | fail e => trivial
  | panic => trivial
  | ask q k ih => exact ⟨h q, ih⟩

theorem Asks.mapError {p : Prog Q A ε α} (hp : p.Asks S) (g : ε → ε') : (p.mapError g).Asks S := by
  induction p with
  | done a => trivial
  | fail e => trivial
  | panic => trivial
  | ask q k ih => exact ⟨hp.1, fun a => ih a (hp.2 a)⟩

/-- What comes before the first question asks none. -/
theorem opens_ofExcept_bind {r : Except ε α} {f : α → Prog Q A ε β}
    (hf : ∀ a, (f a).Opens q S) : (ofExcept r >>= f).Opens q S := by
  cases r with
  | error e => trivial
  | ok a => exact hf a

theorem Opens.bind {p : Prog Q A ε α} {f : α → Prog Q A ε β} (hp : p.Opens q S)
    (hdone : ∀ a, p ≠ .done a) (hf : ∀ a, (f a).Asks S) : (p >>= f).Opens q S := by
  cases p with
  | done a => exact absurd rfl (hdone a)
  | fail e => trivial
  | panic => trivial
  | ask q k => exact ⟨hp.1, fun a => (hp.2 a).bind hf⟩

theorem Opens.asks {S' : Q → Prop} {p : Prog Q A ε α} (hp : p.Opens q S) (hq : S' q)
    (h : ∀ q, S q → S' q) : p.Asks S' := by
  cases p with
  | done a => trivial
  | fail e => trivial
  | panic => trivial
  | ask q' k => exact ⟨hp.1 ▸ hq, fun a => (hp.2 a).mono h⟩

variable {s : σ}

/-- A program whose questions have the same answers at every time cannot tell that
its environment has a state. -/
theorem exec_eq_run_of_asks (h : ∀ q, S q → ∀ s, (handler q s).1 = env q) {p : Prog Q A ε α}
    (hp : p.Asks S) (s : σ) : (p.exec handler s).1 = p.run env := by
  induction p generalizing s with
  | done a => rfl
  | fail e => rfl
  | panic => rfl
  | ask q k ih =>
    have hq : (handler q s).1 = env q := h q hp.1 s
    simp only [exec, run, hq]
    exact ih _ (hp.2 _) _

/-- The same if only the answer to the first question depends on the time. -/
theorem exec_eq_run_of_opens (hq : (handler q s).1 = env q)
    (h : ∀ q, S q → ∀ s, (handler q s).1 = env q) {p : Prog Q A ε α} (hp : p.Opens q S) :
    (p.exec handler s).1 = p.run env := by
  cases p with
  | done a => rfl
  | fail e => rfl
  | panic => rfl
  | ask q' k =>
    obtain ⟨rfl, hk⟩ := hp
    simp only [exec, run, hq]
    exact exec_eq_run_of_asks h (hk _) _

end Asks

/-! ## The log of a run -/

/-- The questions asked in a run, in order. -/
def asked (handler : ∀ q, σ → A q × σ) : Prog Q A ε α → σ → List Q
  | .ask q k, s => q :: (k (handler q s).1).asked handler (handler q s).2
  | _, _ => []

@[simp] theorem asked_ofExcept (r : Except ε α) (s : σ) :
    (ofExcept r : Prog Q A ε α).asked handler s = [] := by
  cases r <;> rfl

@[simp] theorem asked_mapError (g : ε → ε') (p : Prog Q A ε α) (s : σ) :
    (p.mapError g).asked handler s = p.asked handler s := by
  induction p generalizing s with
  | done a => rfl
  | fail e => rfl
  | panic => rfl
  | ask q k ih => exact congrArg (q :: ·) (ih _ _)

theorem asked_bind (p : Prog Q A ε α) (f : α → Prog Q A ε β) (s : σ) :
    (p >>= f).asked handler s = p.asked handler s ++
      match p.exec handler s with
      | (.ok a, s') => (f a).asked handler s'
      | _ => [] := by
  induction p generalizing s with
  | done a => rfl
  | fail e => rfl
  | panic => rfl
  | ask q k ih => exact congrArg (q :: ·) (ih _ _)

theorem mem_asked_bind {p : Prog Q A ε α} {f : α → Prog Q A ε β} {s : σ} {q : Q} :
    q ∈ (p >>= f).asked handler s ↔ q ∈ p.asked handler s ∨
      ∃ a s', p.exec handler s = (.ok a, s') ∧ q ∈ (f a).asked handler s' := by
  rw [asked_bind, List.mem_append]
  cases p.exec handler s with
  | mk o s' => cases o <;> simp [and_assoc]

/-- Only what a program may ask is in the log of its runs. -/
theorem mem_asked {S : Q → Prop} {p : Prog Q A ε α} (hp : p.Asks S) {q : Q} {s : σ}
    (hq : q ∈ p.asked handler s) : S q := by
  induction p generalizing s with
  | done a => cases hq
  | fail e => cases hq
  | panic => cases hq
  | ask q' k ih =>
    rcases List.mem_cons.mp hq with rfl | hq
    · exact hp.1
    · exact ih _ (hp.2 _) hq

/-! ## Answers that end a run -/

/-- An environment without a state, as a handler. -/
def answering (env : ∀ q, A q) (q : Q) (u : Unit) : A q × Unit := (env q, u)

@[simp] theorem exec_answering (p : Prog Q A ε α) : p.exec (answering env) () = (p.run env, ()) := by
  induction p with
  | done a => rfl
  | fail e => rfl
  | panic => rfl
  | ask q k ih => exact ih (env q)

/-- A run in which one of the `bad` questions is asked ends with an error. -/
def Heeds (env : ∀ q, A q) (bad : Q → Prop) (p : Prog Q A ε α) : Prop :=
  ∀ q ∈ p.asked (answering env) (), bad q → ∃ e, p.run env = .error e

section Heeds

variable {bad : Q → Prop}

theorem heeds_of_asks {p : Prog Q A ε α} (hp : p.Asks (¬ bad ·)) : p.Heeds env bad :=
  fun _ hq hbad => absurd hbad (mem_asked hp hq)

@[simp] theorem heeds_pure (a : α) : (pure a : Prog Q A ε α).Heeds env bad := nofun
@[simp] theorem heeds_fail (e : ε) : (fail e : Prog Q A ε α).Heeds env bad := nofun

@[simp] theorem heeds_ofExcept (r : Except ε α) : (ofExcept r : Prog Q A ε α).Heeds env bad :=
  heeds_of_asks (asks_ofExcept r)

theorem Heeds.mapError {p : Prog Q A ε α} (hp : p.Heeds env bad) (g : ε → ε') :
    (p.mapError g).Heeds env bad := by
  intro q hq hbad
  rw [asked_mapError] at hq
  obtain ⟨e, he⟩ := hp q hq hbad
  exact ⟨g e, by rw [run_mapError, he]; rfl⟩

theorem Heeds.bind {p : Prog Q A ε α} {f : α → Prog Q A ε β} (hp : p.Heeds env bad)
    (hf : ∀ a, (f a).Heeds env bad) : (p >>= f).Heeds env bad := by
  intro q hq hbad
  rw [run_bind]
  rcases mem_asked_bind.mp hq with hq | ⟨a, s', hexec, hq⟩
  · obtain ⟨e, he⟩ := hp q hq hbad
    exact ⟨e, by rw [he, Outcome.error_bind]⟩
  · rw [exec_answering, Prod.mk.injEq] at hexec
    obtain ⟨e, he⟩ := hf a q hq hbad
    exact ⟨e, by rw [hexec.1, Outcome.ok_bind, he]⟩

end Heeds

/-! ## Two environments side by side -/

variable {R : Type} {B : R → Type}

/-- A program that only questions the first of two environments. -/
def left : Prog Q A ε α → Prog (Q ⊕ R) (Sum.elim A B) ε α
  | .done a => .done a
  | .fail e => .fail e
  | .panic => .panic
  | .ask q k => .ask (.inl q) fun a => (k a).left

@[simp] theorem left_pure (a : α) :
    ((pure a : Prog Q A ε α).left : Prog (Q ⊕ R) (Sum.elim A B) ε α) = pure a := rfl

@[simp] theorem left_fail (e : ε) :
    ((fail e : Prog Q A ε α).left : Prog (Q ⊕ R) (Sum.elim A B) ε α) = .fail e := rfl

@[simp] theorem left_ofExcept (r : Except ε α) :
    ((ofExcept r : Prog Q A ε α).left : Prog (Q ⊕ R) (Sum.elim A B) ε α) = ofExcept r := by
  cases r <;> rfl

@[simp] theorem left_bind (p : Prog Q A ε α) (f : α → Prog Q A ε β) :
    ((p >>= f).left : Prog (Q ⊕ R) (Sum.elim A B) ε β) = p.left >>= fun a => (f a).left := by
  induction p with
  | done a => rfl
  | fail e => rfl
  | panic => rfl
  | ask q k ih => exact congrArg (ask (Sum.inl q)) (funext ih)

/-- The first environment is fixed, the second has a state. -/
def beside (env : ∀ q, A q) (handler : ∀ r, σ → B r × σ) :
    ∀ q : Q ⊕ R, σ → Sum.elim A B q × σ
  | .inl q, s => (env q, s)
  | .inr r, s => handler r s

@[simp] theorem exec_left {handler : ∀ r, σ → B r × σ} (p : Prog Q A ε α) (s : σ) :
    (p.left : Prog (Q ⊕ R) (Sum.elim A B) ε α).exec (beside env handler) s = (p.run env, s) := by
  induction p with
  | done a => rfl
  | fail e => rfl
  | panic => rfl
  | ask q k ih => exact ih (env q)

theorem exec_left_bind_eq_ok {handler : ∀ r, σ → B r × σ} {p : Prog Q A ε α}
    {f : α → Prog (Q ⊕ R) (Sum.elim A B) ε β} {s : σ} {b : β} :
    ((p.left >>= f).exec (beside env handler) s).1 = .ok b ↔
      ∃ a, p.run env = .ok a ∧ ((f a).exec (beside env handler) s).1 = .ok b := by
  rw [exec_bind_eq_ok]
  simp only [exec_left, Prod.mk.injEq]
  constructor
  · rintro ⟨a, _, ⟨hp, rfl⟩, hf⟩
    exact ⟨a, hp, hf⟩
  · rintro ⟨a, hp, hf⟩
    exact ⟨a, s, ⟨hp, rfl⟩, hf⟩

/-! ## Runs that do not panic -/

/-- Whatever its state is, the environment does not make the program panic. -/
def Returns (handler : ∀ q, σ → A q × σ) (p : Prog Q A ε α) : Prop :=
  ∀ s, (p.exec handler s).1 ≠ .panicked

section Returns

variable {handler : ∀ q, σ → A q × σ}

@[simp] theorem returns_pure (a : α) : (pure a : Prog Q A ε α).Returns handler := nofun
@[simp] theorem returns_fail (e : ε) : (fail e : Prog Q A ε α).Returns handler := nofun

@[simp] theorem returns_ofExcept (r : Except ε α) :
    (ofExcept r : Prog Q A ε α).Returns handler := by
  cases r <;> exact nofun

theorem returns_ask {q : Q} {k : A q → Prog Q A ε α} (h : ∀ a, (k a).Returns handler) :
    (ask q k).Returns handler := fun _ => h _ _

theorem Returns.bind {p : Prog Q A ε α} {f : α → Prog Q A ε β} (hp : p.Returns handler)
    (hf : ∀ a, (f a).Returns handler) : (p >>= f).Returns handler := by
  intro s
  have hps := hp s
  rw [exec_bind]
  cases hexec : p.exec handler s with
  | mk o s' =>
    cases o with
    | ok a => exact hf a s'
    | error e => exact nofun
    | panicked => exact absurd (by rw [hexec]) hps

theorem returns_left {handler : ∀ r, σ → B r × σ} {p : Prog Q A ε α} (h : p.run env ≠ .panicked) :
    (p.left : Prog (Q ⊕ R) (Sum.elim A B) ε α).Returns (beside env handler) := by
  intro s
  rw [exec_left]
  exact h

end Returns

end Prog

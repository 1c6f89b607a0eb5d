-- SUMMARY: A database connection with transactions, and commands on it that may fail.
import NoirSidecar.Base.Machine

/-!
# Transactions

A connection sees what is committed or, while it has a transaction open, that
transaction's own version of it. What the statements of a language do to the content is
a parameter. A statement that fails has no effect of its own, but the backend may roll the
open transaction back together with it.
-/

structure Connection (C : Type) where
  committed : C
  transaction : Option C
  deriving DecidableEq, Repr

/-- Transaction control, and the statements of the language. -/
inductive Command (S : Type) where
  | begin
  | commit
  | run (s : S)
  deriving DecidableEq, Repr

structure Failure where
  text : String
  rollsBack : Bool
  deriving DecidableEq, Repr

namespace Connection

variable {C S : Type}

/-- What a query on the connection sees. -/
def content (c : Connection C) : C := c.transaction.getD c.committed

def write (c : Connection C) (v : C) : Connection C :=
  match c.transaction with
  | none => { c with committed := v }
  | some _ => { c with transaction := some v }

def rollback (c : Connection C) : Connection C := { c with transaction := none }

/-- What a failed command leaves behind. -/
def afterFailure (c : Connection C) (failure : Failure) : Connection C :=
  if failure.rollsBack then c.rollback else c

section Commands

variable (effect : S → C → Except String C)

/-- A command that meets no fault. It may still be refused. -/
def apply (c : Connection C) : Command S → Except String (Connection C)
  | .begin =>
    match c.transaction with
    | none => .ok { c with transaction := some c.committed }
    | some _ => .error "cannot start a transaction within a transaction"
  | .commit =>
    match c.transaction with
    | none => .error "cannot commit - no transaction is active"
    | some v => .ok { committed := v, transaction := none }
  | .run s => (effect s c.content).map c.write

def perform (fault : Option Failure) (command : Command S) (c : Connection C) :
    Except String Unit × Connection C :=
  match fault with
  | some failure => (.error failure.text, c.afterFailure failure)
  | none =>
    match c.apply effect command with
    | .error text => (.error text, c)
    | .ok c' => (.ok (), c')

/-- Commands one after the other, up to the first that fails. -/
def batch (faults : Command S → Option Failure) :
    List (Command S) → Connection C → Except String Unit × Connection C
  | [], c => (.ok (), c)
  | command :: commands, c =>
    match c.perform effect (faults command) command with
    | (.ok (), c') => batch faults commands c'
    | (.error text, c') => (.error text, c')

end Commands

/-- The first of some commands to meet a fault. -/
def firstFault (faults : Command S → Option Failure) :
    List (Command S) → Option (Command S × Failure)
  | [] => none
  | command :: commands =>
    match faults command with
    | some failure => some (command, failure)
    | none => firstFault faults commands

theorem rollback_eq_self {c : Connection C} (h : c.transaction = none) : c.rollback = c := by
  cases c
  exact congrArg _ h.symm

/-- Without a transaction open there is nothing to roll back. -/
theorem afterFailure_eq_self {c : Connection C} (h : c.transaction = none) (failure : Failure) :
    c.afterFailure failure = c := by
  unfold afterFailure
  rw [rollback_eq_self h, ite_self]

theorem afterFailure_cases (c : Connection C) (failure : Failure) :
    c.afterFailure failure = c ∨ c.afterFailure failure = c.rollback := by
  unfold afterFailure
  split_ifs
  · exact .inr rfl
  · exact .inl rfl

section Batches

variable {effect : S → C → Except String C}

/-- Commands as the events of a machine, those it refuses not being enabled. -/
def commandStep (effect : S → C → Except String C) (c : Connection C) (command : Command S) :
    Option (Connection C) := (c.apply effect command).toOption

/-- A batch whose commands can all be carried out ends where they lead, or with the first of
them that meets a fault, after those before it. -/
theorem batch_of_run (faults : Command S → Option Failure) {c c' : Connection C}
    {ts : List (Step (Connection C) (Command S))} (h : Run (commandStep effect) c ts c') :
    firstFault faults (ts.map Step.ev) = none ∧
        c.batch effect faults (ts.map Step.ev) = (.ok (), c') ∨
      ∃ x ∈ ts, ∃ failure, firstFault faults (ts.map Step.ev) = some (x.ev, failure) ∧
        c.batch effect faults (ts.map Step.ev) =
          (.error failure.text, x.pre.afterFailure failure) := by
  induction h with
  | nil c => exact .inl ⟨rfl, rfl⟩
  | @cons c c₁ c' command ts hstep _ ih =>
    have happly : c.apply effect command = .ok c₁ := by
      unfold commandStep at hstep
      cases happly : c.apply effect command with
      | error text => simp [happly, Except.toOption] at hstep
      | ok c₂ => simpa [happly, Except.toOption] using hstep
    rw [List.map_cons, firstFault, batch]
    cases hf : faults command with
    | some failure =>
      exact .inr ⟨⟨c, command, c₁⟩, List.mem_cons_self, failure, rfl, rfl⟩
    | none =>
      simp only [perform, happly]
      rcases ih with h | ⟨x, hx, failure, h⟩
      · exact .inl h
      · exact .inr ⟨x, List.mem_cons_of_mem _ hx, failure, h⟩

end Batches

end Connection

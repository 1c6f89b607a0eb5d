-- SUMMARY: The event subscriber: the task of `EventSubscriber::run` as a machine over the finalized chain.
import NoirSidecar.Base.Machine
import NoirSidecar.Solana.Account

/-!
# The event subscriber

The task keeps a client, subscribes to the finalized blocks, fetches the events of
each block it is handed and sends the payloads of those that match a filter. A
subscription hands out the finalized blocks one after another, from the head at the
time it is made; it may end at any moment, and the task makes another.

`first` and `processed` record where the first subscription started and which
blocks have been dealt with since, with whether their events could be fetched.
-/

structure EventFilter where
  palletName : String
  eventName : String
  deriving DecidableEq, Repr

structure EventDetails where
  palletName : String
  variantName : String
  fieldBytes : Bytes
  deriving DecidableEq, Repr

/-- The events of a block. Those that do not decode are passed over. -/
structure Block where
  events : List (Except String EventDetails)

def EventFilter.accepts (filter : EventFilter) (event : EventDetails) : Bool :=
  event.palletName == filter.palletName && event.variantName == filter.eventName

/-- `events.iter().flatten()` -/
def Block.decoded (block : Block) : List EventDetails := block.events.filterMap Except.toOption

/-- The payloads of a block that are meant for a filter. -/
def EventFilter.payloads (filter : EventFilter) (block : Block) : List Bytes :=
  (block.decoded.filter filter.accepts).map EventDetails.fieldBytes

namespace EventSubscriber

/-! ## States and events -/

/-- Where the task is: at the head of its loop, waiting for the next block of a
subscription, or for the events of a block. A block is named by its position in
the chain. -/
inductive Phase where
  | head
  | streaming (position : Nat)
  | fetching (position : Nat)
  deriving DecidableEq, Repr

/-- A block the task is done with. -/
structure Processed where
  position : Nat
  fetched : Bool
  deriving DecidableEq, Repr

/-- `chain` holds the finalized blocks, oldest first. `pushed` is the log of what was
sent, each payload with the position of its filter. -/
structure State where
  chain : List Block
  connected : Bool
  phase : Phase
  first : Option Nat
  processed : List Processed
  pushed : List (Nat × Bytes)

def State.init (chain : List Block) : State where
  chain := chain
  connected := false
  phase := .head
  first := none
  processed := []
  pushed := []

/-- Finalization of a block, then the awaits of the task with how they end. -/
inductive Event where
  | finalize (block : Block)
  | connect (ok : Bool)
  | subscribe (ok : Bool)
  | deliver
  | streamEnd
  | fetch (ok : Bool)

/-! ## The loop -/

/-- The nested loops over the events of a block and the filters. -/
def pushes (filters : List EventFilter) (block : Block) : List (Nat × Bytes) :=
  block.decoded.flatMap fun event =>
    filters.zipIdx.filterMap fun (filter, i) =>
      if filter.accepts event then some (i, event.fieldBytes) else none

/-- The rest of an iteration over the stream once the events are there or not. -/
def State.process (s : State) (filters : List EventFilter) (position : Nat) (ok : Bool) : State :=
  { s with
    phase := .streaming (position + 1)
    processed := s.processed ++ [⟨position, ok⟩]
    pushed := s.pushed ++ if ok then (s.chain[position]?.elim [] (pushes filters)) else [] }

def step (filters : List EventFilter) (s : State) : Event → Option State
  | .finalize block => some { s with chain := s.chain ++ [block] }
  | .connect ok =>
    match s.phase with
    | .head => if s.connected then none else some { s with connected := ok }
    | _ => none
  | .subscribe ok =>
    match s.phase with
    | .head =>
      if !s.connected then none
      else if !ok then some { s with connected := false }
      else
        -- the stream begins at the head, whatever came before
        let head := s.chain.length - 1
        some { s with phase := .streaming head, first := s.first.or (some head) }
    | _ => none
  | .deliver =>
    match s.phase with
    | .streaming position =>
      if position < s.chain.length then some { s with phase := .fetching position } else none
    | _ => none
  | .streamEnd =>
    match s.phase with
    | .streaming _ => some { s with phase := .head }
    | _ => none
  | .fetch ok =>
    match s.phase with
    | .fetching position => some (s.process filters position ok)
    | _ => none

/-! ## What each step does -/

variable {filters : List EventFilter} {s s' : State}

@[simp] theorem step_finalize {block : Block} :
    step filters s (.finalize block) = some s' ↔ s' = { s with chain := s.chain ++ [block] } := by
  simp [step, eq_comm]

@[simp] theorem step_connect {ok : Bool} :
    step filters s (.connect ok) = some s' ↔
      s.phase = .head ∧ s.connected = false ∧ s' = { s with connected := ok } := by
  cases hp : s.phase <;> cases hc : s.connected <;> simp [step, hp, hc, @eq_comm _ s']

@[simp] theorem step_subscribe {ok : Bool} :
    step filters s (.subscribe ok) = some s' ↔
      s.phase = .head ∧ s.connected = true ∧
        ((ok = false ∧ s' = { s with connected := false }) ∨
          (ok = true ∧ s' = { s with
            phase := .streaming (s.chain.length - 1)
            first := s.first.or (some (s.chain.length - 1)) })) := by
  cases hp : s.phase <;> cases hc : s.connected <;> cases ok <;> simp [step, hp, hc, @eq_comm _ s']

@[simp] theorem step_deliver :
    step filters s .deliver = some s' ↔
      ∃ position, s.phase = .streaming position ∧ position < s.chain.length ∧
        s' = { s with phase := .fetching position } := by
  cases hp : s.phase <;> simp [step, hp, @eq_comm _ s']

@[simp] theorem step_streamEnd :
    step filters s .streamEnd = some s' ↔
      (∃ position, s.phase = .streaming position) ∧ s' = { s with phase := .head } := by
  cases hp : s.phase <;> simp [step, hp, @eq_comm _ s']

@[simp] theorem step_fetch {ok : Bool} :
    step filters s (.fetch ok) = some s' ↔
      ∃ position, s.phase = .fetching position ∧ s' = s.process filters position ok := by
  cases hp : s.phase <;> simp [step, hp, @eq_comm _ s']

end EventSubscriber

-- SUMMARY: A growing tree of blocks with its two heads, the node as a function of block and query, and runs while the chain moves.
import NoirSidecar.Client.Node

/-!
# The chain

Blocks are produced and finalized while a request is being answered. What the node
says about a given block does not change; the heads do, and with them whatever the
node is asked without a block hash.
-/

namespace Chain

/-! ## Blocks and heads -/

/-- `b` is `a` or lies above it in a tree given by the parents of its blocks. -/
inductive Descends (parents : List (Hash × Hash)) (a : Hash) : Hash → Prop where
  | refl : Descends parents a a
  | child {b c : Hash} : Descends parents a b → (c, b) ∈ parents → Descends parents a c

/-- The chain at one moment. Every block but the genesis has one parent, and the best
block is on the chain of the finalized one. -/
structure World where
  genesis : Hash
  parents : List (Hash × Hash)
  nodup : (parents.map Prod.fst).Nodup
  root : genesis ∉ parents.map Prod.fst
  best : Hash
  finalized : Hash
  finalized_rooted : Descends parents genesis finalized
  best_above : Descends parents finalized best

/-- The chain at a later moment: blocks are only added, and only blocks above the
finalized one are finalized. The best block may be another one at any time. -/
structure World.Grows (w w' : World) : Prop where
  genesis : w'.genesis = w.genesis
  parents : w.parents ⊆ w'.parents
  finalized : Descends w'.parents w.finalized w'.finalized

theorem World.Grows.refl (w : World) : w.Grows w := ⟨rfl, fun _ h => h, .refl⟩

/-- A chain that consists of one block. -/
def World.single (hash : Hash) : World where
  genesis := hash
  parents := []
  nodup := .nil
  root := List.not_mem_nil
  best := hash
  finalized := hash
  finalized_rooted := .refl
  best_above := .refl

/-- A finalized block and a best block on it. -/
def World.pair (finalized best : Hash) (h : finalized ≠ best) : World where
  genesis := finalized
  parents := [(best, finalized)]
  nodup := List.nodup_singleton best
  root := fun hmem => h (List.mem_singleton.mp hmem)
  best := best
  finalized := finalized
  finalized_rooted := .refl
  best_above := .child .refl List.mem_cons_self

/-- The chain as the node calls of a request find it, one world for each call. -/
structure History where
  world : Nat → World
  grows : ∀ n, (world n).Grows (world (n + 1))

/-- The chain stands still. -/
def History.still (w : World) : History where
  world := fun _ => w
  grows := fun _ => .refl w

/-- Nothing but this block ever exists. -/
def History.frozen (hash : Hash) : History := .still (.single hash)

/-- A block is produced after the first call. -/
def History.produce (finalized best : Hash) (h : finalized ≠ best) : History where
  world
    | 0 => .single finalized
    | _ + 1 => .pair finalized best h
  grows
    | 0 => ⟨rfl, List.nil_subset _, .refl⟩
    | _ + 1 => .refl _

/-! ## The node -/

/-- The node at one moment: what it says about a block is given by `node`, what it says
without one depends on the heads. -/
def nodeAt (node : Node) (w : World) : Node
  | .chainGetBlockHash => .ok w.best
  | .chainGetGenesisHash => .ok w.genesis
  | .chainGetFinalizedHead => .ok w.finalized
  | .runtime call none => node (.runtime call (some w.best))
  | call => node call

/-- Each call takes the chain one step further. -/
def History.handler (H : History) (node : Node) (call : NodeCall) (n : Nat) : call.Answer × Nat :=
  (nodeAt node (H.world n) call, n + 1)

/-- The call is about a block it names. -/
def Pinned : NodeCall → Prop
  | .runtime _ hash => hash.isSome
  | .stateGetStorage .. | .chainGetHeader _ => True
  | .chainGetBlockHash | .chainGetGenesisHash | .chainGetFinalizedHead => False
  | .authorSubmitExtrinsic _ => False

/-- The call looks up accounts or storage of a block it names. -/
def LooksUp : NodeCall → Prop
  | .runtime (.getAccountInfo _) hash | .runtime (.getMultipleAccounts _) hash => hash.isSome
  | .stateGetStorage .. => True
  | _ => False

theorem LooksUp.pinned (call : NodeCall) (h : LooksUp call) : Pinned call := by
  cases call with
  | runtime call hash => cases call <;> first | exact h | cases h
  | stateGetStorage key hash => trivial
  | _ => cases h

/-- A node that knows nothing but that slot, time and number of every block are zero. -/
def steadyNode : Node
  | .chainGetHeader _ => .ok 0
  | call => Node.atEpoch call

/-- A call about a block it names is answered alike at all times. -/
theorem nodeAt_pinned {call : NodeCall} (h : Pinned call) (node : Node) (w : World) :
    nodeAt node w call = node call := by
  cases call with
  | runtime call hash =>
    cases hash with
    | none => cases h
    | some hash => rfl
  | stateGetStorage key hash => rfl
  | chainGetHeader hash => rfl
  | chainGetBlockHash => cases h
  | chainGetGenesisHash => cases h
  | chainGetFinalizedHead => cases h
  | authorSubmitExtrinsic transaction => cases h

end Chain

/-! ## Readers that name their block -/

namespace Client

open Chain

theorem asks_runtimeCall (call : RuntimeCall) (hash : Hash) :
    (runtimeCall call (some hash)).Asks Pinned :=
  ⟨rfl, fun _ => Prog.asks_ofExcept _⟩

theorem asks_getLastValidBlockHeight (hash : Hash) :
    (getLastValidBlockHeight hash).Asks Pinned :=
  ⟨trivial, fun _ => Prog.asks_ofExcept _⟩

theorem looksUp_getAccount (pubkey : Pubkey) (hash : Hash) :
    (getAccount pubkey (some hash)).Asks LooksUp :=
  ⟨rfl, fun _ => Prog.asks_ofExcept _⟩

theorem looksUp_getAccounts (pubkeys : List Pubkey) (hash : Hash) :
    (getAccounts pubkeys (some hash)).Asks LooksUp := by
  refine Prog.Asks.bind ⟨rfl, fun _ => Prog.asks_ofExcept _⟩ fun accounts => ?_
  split <;> trivial

theorem looksUp_getTimestamp (hash : Hash) : (getTimestamp hash).Asks LooksUp :=
  Prog.Asks.bind ⟨trivial, fun _ => Prog.asks_ofOutcome _⟩ fun _ => trivial

theorem looksUp_getSlot (hash : Hash) : (getSlot hash).Asks LooksUp :=
  ⟨trivial, fun _ => Prog.asks_ofOutcome _⟩

end Client

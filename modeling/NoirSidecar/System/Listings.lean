-- SUMMARY: What a listing by owner in the running sidecar shows of the chain and the index, and what it cannot miss.
import NoirSidecar.Rpc.OwnerListing
import NoirSidecar.System.Indexing
import NoirSidecar.System.Moments

/-!
# Listings in the running sidecar

The index only ever grows, and it lags behind the chain. A listing by owner reads it in some
state after the request has come, so it sees at least what was there by then, and has the
node filter the keys at a single block.
-/

theorem Node.Shows.nodeAt {node : Node} {hash : Hash} {accounts : Pubkey → Option Account}
    (h : node.Shows hash accounts) (w : Chain.World) :
    (Chain.nodeAt node w).Shows hash accounts :=
  ⟨h.account, h.programAccounts⟩

namespace Sidecar

open Chain Solana

variable {P V : Type}

section Listings

variable [ToString P] {set : Setting P V} {chain : List Block} {store : Index.Db}
  {ts : List (Step (State P V) (Event P V))} {t : State P V}

end Listings

/-! ## An update and a listing -/

end Sidecar

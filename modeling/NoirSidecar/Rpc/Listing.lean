-- SUMMARY: When a JSON-parsed listing keeps the order of the accounts it was asked for.
import NoirSidecar.Rpc.Decoding

/-!
# The order of parsed listings

`getParsedTokenKeyedAccounts` collects the encoded accounts into a hash map and
lists what iterating over the map yields. The order asked for survives every order
of iteration only where there is none to keep.
-/

namespace Solana

/-- The listed accounts with their encodings, in the order listed. -/
def encodedAccounts (lib : Decoder) (chain : Pubkey → Option Account)
    (timestamp : Client.UnixTimestamp) (keyedAccounts : List (Pubkey × Account)) :
    List (Pubkey × UiAccount) :=
  parsedPairs lib keyedAccounts (getMultipleTokenAccountMint lib keyedAccounts)
    (mintData lib chain timestamp)

/-- Whatever the order of iteration, the list returned is that of the accounts encoded
as JSON, in the order listed. -/
def KeepsOrder (lib : Decoder) (node : Node) (chain : Pubkey → Option Account) (hash : Hash)
    (keyedAccounts : List (Pubkey × Account)) : Prop :=
  ∀ orders list,
    (getParsedTokenKeyedAccounts lib orders keyedAccounts hash).run (node.serving chain) = .ok list →
      ∃ timestamp, timestampOf node hash = .ok timestamp ∧
        list = (encodedAccounts lib chain timestamp keyedAccounts).filterMap jsonEntry

variable {lib : Decoder} {orders : IterOrders} {node : Node} {chain : Pubkey → Option Account}
  {hash : Hash} {keyedAccounts : List (Pubkey × Account)}

theorem run_getParsedTokenKeyedAccounts :
    (getParsedTokenKeyedAccounts lib orders keyedAccounts hash).run (node.serving chain) =
      (timestampOf node hash >>= fun timestamp => .ok <|
        (orders.parsedAccounts.iter (HashMap.collect
          (encodedAccounts lib chain timestamp keyedAccounts))).filterMap jsonEntry) := by
  simp only [getParsedTokenKeyedAccounts, Prog.run_bind, run_getParsedTokenAccounts, Prog.run_pure]
  cases timestampOf node hash with
  | ok timestamp => rfl
  | error e => rfl
  | panicked => rfl

/-- The entries of a listing tell the keys apart. -/
theorem jsonEntry_key (p q : Pubkey × UiAccount) (w : RpcKeyedAccount) (hp : jsonEntry p = some w)
    (hq : jsonEntry q = some w) : p.1 = q.1 := by
  have hkey : ∀ {p : Pubkey × UiAccount}, jsonEntry p = some w → p.1.toString = w.pubkey := by
    rintro ⟨pubkey, account⟩ hp
    simp only [jsonEntry] at hp
    split at hp
    · cases hp
      rfl
    · cases hp
  exact Pubkey.toString_injective ((hkey hp).trans (hkey hq).symm)

/-- At one timestamp: all orders of iteration yield the order listed, exactly if the
accounts encoded as JSON are at most one, the last of its key. -/
theorem listing_at (timestamp : Client.UnixTimestamp) :
    (∀ orders : IterOrders, (orders.parsedAccounts.iter (HashMap.collect
        (encodedAccounts lib chain timestamp keyedAccounts))).filterMap jsonEntry =
      (encodedAccounts lib chain timestamp keyedAccounts).filterMap jsonEntry) ↔
      IterOrder.OnlyLast jsonEntry (encodedAccounts lib chain timestamp keyedAccounts) := by
  rw [← IterOrder.filterMap_iter_collect_iff jsonEntry_key]
  constructor
  · exact fun h o => h ⟨.listed, .listed, o⟩
  · exact fun h orders => h orders.parsedAccounts

/-- The order listed is kept exactly if, once the timestamp is known, behind an account
encoded as JSON no other is, and none has its key. -/
theorem keepsOrder_iff (lib : Decoder) (node : Node) (chain : Pubkey → Option Account) (hash : Hash)
    (keyedAccounts : List (Pubkey × Account)) :
    KeepsOrder lib node chain hash keyedAccounts ↔
      ∀ timestamp, timestampOf node hash = .ok timestamp →
        IterOrder.OnlyLast jsonEntry (encodedAccounts lib chain timestamp keyedAccounts) := by
  unfold KeepsOrder
  simp only [run_getParsedTokenKeyedAccounts]
  cases htime : timestampOf node hash with
  | error e => simp
  | panicked => simp
  | ok timestamp =>
    simp only [Outcome.ok_bind, Outcome.ok.injEq, forall_eq', exists_eq_left']
    exact listing_at timestamp

/-! ## Two accounts -/

/-- Two accounts encoded as JSON come out in the opposite order if the map is iterated
that way. -/
theorem listing_reordered : ¬ ∀ (lib : Decoder) (node : Node) (chain : Pubkey → Option Account)
    (hash : Hash) (keyedAccounts : List (Pubkey × Account)),
    KeepsOrder lib node chain hash keyedAccounts := by
  intro hall
  let keyedAccounts := [(Pubkey.ofByte 1, someAccount), (Pubkey.ofByte 2, someAccount)]
  have hkeeps := hall tokenDecoder .atEpoch tokenChain .zero keyedAccounts
  have hlast : IterOrder.OnlyLast jsonEntry
      (encodedAccounts tokenDecoder tokenChain 0 keyedAccounts) := by
    apply (listing_at 0).mp
    intro orders
    obtain ⟨timestamp, htime, hlist⟩ := hkeeps orders _ (by
      rw [run_getParsedTokenKeyedAccounts, timestampOf_atEpoch]
      rfl)
    rw [timestampOf_atEpoch] at htime
    cases htime
    exact hlist
  have hjson : (encodedAccounts tokenDecoder tokenChain 0 keyedAccounts).map
      (fun e => (jsonEntry e).isSome) = [true, true] := by decide +kernel
  generalize encodedAccounts tokenDecoder tokenChain 0 keyedAccounts = list at hlast hjson
  obtain ⟨a, rest, rfl, ha, hrest⟩ := List.map_eq_cons_iff.mp hjson
  obtain ⟨b, rest', rfl, hb, -⟩ := List.map_eq_cons_iff.mp hrest
  rw [(hlast [] a _ rfl ha b List.mem_cons_self).1] at hb
  cases hb

end Solana

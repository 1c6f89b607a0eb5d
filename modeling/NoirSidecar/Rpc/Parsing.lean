-- SUMMARY: Parsing many token accounts gives each what parsing it alone gives, once the timestamp of the block can be read.
import NoirSidecar.Rpc.Agreement
import NoirSidecar.Rpc.Listing

/-!
# Parsing token accounts in bulk

Parsing many token accounts joins three hash maps: from the accounts to their mints, from
the mints to their accounts, and from these to their data. What an account is given in
the end is the data of its own mint. The timestamp, which only the data of a mint needs,
is read once and before anything is known of the mints.
-/

namespace Solana

variable {lib : Decoder} {orders : IterOrders} {node : Node} {chain : Pubkey → Option Account}
  {hash : Hash} {timestamp : Client.UnixTimestamp} {keyedAccounts : List (Pubkey × Account)}
  {pubkey : Pubkey} {account : Account}

/-- Where the keys are distinct, a key has one account. -/
theorem mem_iff_of_nodup (hnodup : (keyedAccounts.map Prod.fst).Nodup)
    (hmem : (pubkey, account) ∈ keyedAccounts) (a : Account) :
    (pubkey, a) ∈ keyedAccounts ↔ a = account := by
  constructor
  · intro ha
    exact congrArg Prod.snd (List.inj_on_of_nodup_map hnodup ha hmem rfl)
  · rintro rfl
    exact hmem

/-- The join gives an account the data of its own mint, whatever else is in the list. -/
theorem lookup_parsedPairs_of_nodup (lib : Decoder) (chain : Pubkey → Option Account)
    (timestamp : Client.UnixTimestamp) (hnodup : (keyedAccounts.map Prod.fst).Nodup)
    (hmem : (pubkey, account) ∈ keyedAccounts) :
    (HashMap.collect (parsedPairs lib keyedAccounts (getMultipleTokenAccountMint lib keyedAccounts)
      (mintData lib chain timestamp))).lookup pubkey =
        some (encodeAs lib chain none true timestamp pubkey account) := by
  have haccount := mem_iff_of_nodup hnodup hmem
  have hlast : (HashMap.collect keyedAccounts).lookup pubkey = some account := by
    apply HashMap.lookup_collect
    intro a
    rw [haccount, Option.some.injEq, eq_comm]
  rw [lookup_parsedPairs, hlast, lookup_getMultipleTokenAccountMint haccount]
  rfl

/-- Parsed alone, an account is given the data of its mint, or the parsing fails. -/
theorem encodeAs_of_getParsedTokenAccount (htime : timestampOf node hash = .ok timestamp)
    {uiAccount : UiAccount}
    (h : (getParsedTokenAccount lib pubkey account hash).run (node.serving chain) = .ok uiAccount) :
    uiAccount = encodeAs lib chain none true timestamp pubkey account := by
  rw [run_getParsedTokenAccount] at h
  rw [encodeAs, if_pos rfl, mintDataOf_eq]
  cases hmint : mintAccountOf lib chain account with
  | none =>
    rw [hmint] at h
    cases h
    rfl
  | some mintAccount =>
    rw [hmint] at h
    dsimp only at h
    rw [htime, Outcome.ok_bind] at h
    obtain ⟨data, hdata, h⟩ := Outcome.bind_eq_ok_iff.mp h
    cases h
    rw [Option.bind_some, Outcome.ofExcept_eq_ok_iff.mp hdata]
    rfl

/-- Parsing the accounts of the list succeeds, and gives every account what its own key,
data and mint determine, and what parsing it alone gives if that succeeds. -/
def ParsesEach (lib : Decoder) (orders : IterOrders) (node : Node) (chain : Pubkey → Option Account)
    (hash : Hash) (keyedAccounts : List (Pubkey × Account)) (encode : Pubkey → Account → UiAccount) :
    Prop :=
  ∃ parsed, (getParsedTokenAccounts lib orders keyedAccounts hash none).run (node.serving chain) =
      .ok parsed ∧
    ∀ pubkey account, (pubkey, account) ∈ keyedAccounts →
      parsed.lookup pubkey = some (encode pubkey account) ∧
      ∀ uiAccount, (getParsedTokenAccount lib pubkey account hash).run (node.serving chain) =
        .ok uiAccount → parsed.lookup pubkey = some uiAccount

/-- Once the timestamp can be read, every list of accounts with distinct keys is parsed as
its accounts are alone: each as if it were the only one, and the same in all orders of
iteration. Without the timestamp no list is parsed. -/
theorem parsed_accounts_agree (lib : Decoder) (node : Node) (chain : Pubkey → Option Account)
    (hash : Hash) :
    (∀ timestamp, timestampOf node hash = .ok timestamp →
      ∃ encode : Pubkey → Account → UiAccount, ∀ orders keyedAccounts,
        (keyedAccounts.map Prod.fst).Nodup →
          ParsesEach lib orders node chain hash keyedAccounts encode) ∧
    (¬ (timestampOf node hash).Succeeds → ∀ orders keyedAccounts,
      ¬ ((getParsedTokenAccounts lib orders keyedAccounts hash none).run
        (node.serving chain)).Succeeds) := by
  constructor
  · intro timestamp htime
    refine ⟨encodeAs lib chain none true timestamp, fun orders keyedAccounts hnodup => ?_⟩
    refine ⟨_, by rw [run_getParsedTokenAccounts, htime, Outcome.ok_bind], fun p a hmem => ?_⟩
    have hlookup := lookup_parsedPairs_of_nodup lib chain timestamp hnodup hmem
    refine ⟨hlookup, fun uiAccount hsingle => ?_⟩
    rw [hlookup, encodeAs_of_getParsedTokenAccount htime hsingle]
  · rintro hnot orders keyedAccounts ⟨parsed, hparsed⟩
    rw [run_getParsedTokenAccounts] at hparsed
    obtain ⟨timestamp, htime, -⟩ := Outcome.bind_eq_ok_iff.mp hparsed
    exact hnot ⟨timestamp, htime⟩

/-- Two accounts that share a mint. -/
theorem parsed_accounts_agree_shared : ∃ encode : Pubkey → Account → UiAccount,
    ParsesEach tokenDecoder ⟨.listed, .reversed, .listed⟩ .atEpoch tokenChain .zero
      [(.ofByte 5, someAccount), (.ofByte 6, someAccount)] encode := by
  obtain ⟨encode, hencode⟩ := (parsed_accounts_agree tokenDecoder .atEpoch tokenChain .zero).1 0
    timestampOf_atEpoch
  exact ⟨encode, hencode _ _ (by decide)⟩

/-! ## A block without a timestamp -/

/-- A node at a block before which no timestamp has been set. -/
def untimedNode : Node
  | .stateGetStorage .. => .ok none
  | call => Node.dead call

/-- Without a timestamp an account that names no mint is parsed alone and not in a list. -/
theorem parsed_accounts_disagree : ¬ ∀ (lib : Decoder) (orders : IterOrders) (node : Node)
    (chain : Pubkey → Option Account) (hash : Hash) (keyedAccounts : List (Pubkey × Account)),
    (keyedAccounts.map Prod.fst).Nodup → ∀ pubkey account, (pubkey, account) ∈ keyedAccounts →
      ∀ uiAccount, (getParsedTokenAccount lib pubkey account hash).run (node.serving chain) =
          .ok uiAccount →
        ∃ parsed, (getParsedTokenAccounts lib orders keyedAccounts hash none).run
          (node.serving chain) = .ok parsed ∧ parsed.lookup pubkey = some uiAccount := by
  intro hall
  let keyedAccounts := [(someMint, mintAccount)]
  obtain ⟨parsed, hparsed, -⟩ := hall tokenDecoder ⟨.listed, .listed, .listed⟩ untimedNode tokenChain
    .zero keyedAccounts (by decide) _ _ List.mem_cons_self _ (by
      rw [run_getParsedTokenAccount]
      rfl)
  rw [run_getParsedTokenAccounts] at hparsed
  cases hparsed

end Solana

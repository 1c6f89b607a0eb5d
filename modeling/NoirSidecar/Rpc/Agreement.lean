-- SUMMARY: When reading many accounts with JSON parsing agrees with reading each of them alone.
import NoirSidecar.Rpc.Decoding

/-!
# Batch and single account reads

A single read treats an account as a token account if its owner is a token program,
a batch read if its own key is one. A batch needs the timestamp of the block in any
case and passes over mints that do not unpack; a single read needs the timestamp only
to describe a mint, and fails on a mint that does not unpack.
-/

namespace Solana

variable (lib : Decoder) (orders : IterOrders) (node : Node) (chain : Pubkey → Option Account)
  (hash : Hash) (dataSlice : Option UiDataSliceConfig)

/-- The read of one account at a block. -/
def single (pubkey : Pubkey) : Outcome ErrorObject (Option UiAccount) :=
  (getEncodedAccount lib pubkey .jsonParsed dataSlice hash).run (node.serving chain)

/-- The read of many accounts at a block. -/
def batch (pubkeys : List Pubkey) : Outcome ErrorObject (List (Option UiAccount)) :=
  (getEncodedAccounts lib orders pubkeys .jsonParsed dataSlice hash none).run (node.serving chain)

/-- A batch succeeds with what the single reads return if all of these succeed, and
fails if one of them does. -/
structure BatchAgrees (pubkeys : List Pubkey) : Prop where
  entries : (∀ p ∈ pubkeys, (single lib node chain hash dataSlice p).Succeeds) →
    ∃ result, batch lib orders node chain hash dataSlice pubkeys = .ok result ∧
      pubkeys.map (single lib node chain hash dataSlice) = result.map .ok
  failures : ∀ p ∈ pubkeys, ¬ (single lib node chain hash dataSlice p).Succeeds →
    ¬ (batch lib orders node chain hash dataSlice pubkeys).Succeeds

/-! ## What the two reads return -/

/-- The mint account of an account, if it names a mint and the mint is there. -/
def mintAccountOf (account : Account) : Option Account :=
  (lib.getTokenAccountMint account.data).bind chain

/-- If the account has a mint account, it unpacks. -/
def MintDecodes (account : Account) : Prop :=
  ∀ mintAccount, mintAccountOf lib chain account = some mintAccount →
    ∃ mint, lib.unpackMint mintAccount.data = .ok mint

/-- The account has no mint account that unpacks. -/
def NoMintData (account : Account) : Prop :=
  ∀ mintAccount, mintAccountOf lib chain account = some mintAccount →
    ∀ mint, lib.unpackMint mintAccount.data ≠ .ok mint

/-- The single read of the key looks at the timestamp. -/
def NeedsTimestamp (pubkey : Pubkey) : Prop :=
  ∃ account, chain pubkey = some account ∧ isKnownSplTokenId account.owner ∧
    (mintAccountOf lib chain account).isSome

/-- The data of the mint of an account. -/
def mintDataOf (timestamp : Client.UnixTimestamp) (account : Account) :
    Option AccountAdditionalDataV2 :=
  (lib.getTokenAccountMint account.data).bind (mintData lib chain timestamp)

/-- An account as a token account or as any other. -/
def encodeAs (token : Bool) (timestamp : Client.UnixTimestamp) (pubkey : Pubkey)
    (account : Account) : UiAccount :=
  if token then
    lib.encodeUiAccount pubkey account .jsonParsed (mintDataOf lib chain timestamp account) none
  else lib.encodeUiAccount pubkey account .jsonParsed none dataSlice

variable {lib orders node chain hash dataSlice} {pubkey : Pubkey} {account : Account}
  {timestamp : Client.UnixTimestamp}

theorem mintDataOf_eq (timestamp : Client.UnixTimestamp) (account : Account) :
    mintDataOf lib chain timestamp account =
      (mintAccountOf lib chain account).bind fun mintAccount =>
        (getAdditionalMintData lib mintAccount.data timestamp).toOption.map fun data =>
          ⟨some data⟩ := by
  unfold mintDataOf mintAccountOf
  rw [Option.bind_assoc]
  rfl

theorem getAdditionalMintData_cases (lib : Decoder) (data : Bytes) (timestamp : Client.UnixTimestamp) :
    (∃ mint additional, lib.unpackMint data = .ok mint ∧
      getAdditionalMintData lib data timestamp = .ok additional) ∨
    (∃ e e', lib.unpackMint data = .error e ∧
      getAdditionalMintData lib data timestamp = .error e') := by
  unfold getAdditionalMintData
  cases lib.unpackMint data with
  | ok mint => exact .inl ⟨mint, _, rfl, rfl⟩
  | error e => exact .inr ⟨e, _, rfl, rfl⟩

theorem mintDataOf_eq_none_iff (timestamp : Client.UnixTimestamp) :
    mintDataOf lib chain timestamp account = none ↔ NoMintData lib chain account := by
  rw [mintDataOf_eq]
  unfold NoMintData
  cases mintAccountOf lib chain account with
  | none => simp
  | some mintAccount =>
    obtain ⟨mint, additional, hmint, hdata⟩ | ⟨e, e', hmint, hdata⟩ :=
      getAdditionalMintData_cases lib mintAccount.data timestamp
    · simp [hmint, hdata, Except.toOption]
    · simp [hmint, hdata, Except.toOption]

theorem single_of_none (h : chain pubkey = none) :
    single lib node chain hash dataSlice pubkey = .ok none := by
  simp [single, getEncodedAccount, h]

theorem single_of_not_known (timestamp : Client.UnixTimestamp) (h : chain pubkey = some account)
    (hknown : isKnownSplTokenId account.owner = false) :
    single lib node chain hash dataSlice pubkey =
      .ok (some (encodeAs lib chain dataSlice false timestamp pubkey account)) := by
  have hencode : encodeAccount lib account pubkey .jsonParsed dataSlice =
      .ok (lib.encodeUiAccount pubkey account .jsonParsed none dataSlice) := by
    simp [encodeAccount]
  simp [single, getEncodedAccount, h, hknown, hencode, encodeAs]

/-- Parsing one token account: only one with a mint account needs the timestamp, and it fails
if the mint does not unpack. -/
theorem run_getParsedTokenAccount (pubkey : Pubkey) (account : Account) :
    (getParsedTokenAccount lib pubkey account hash).run (node.serving chain) =
      match mintAccountOf lib chain account with
      | none => .ok (lib.encodeUiAccount pubkey account .jsonParsed none none)
      | some mintAccount => timestampOf node hash >>= fun timestamp =>
          Outcome.ofExcept (getAdditionalMintData lib mintAccount.data timestamp) >>= fun data =>
            .ok (lib.encodeUiAccount pubkey account .jsonParsed (some ⟨some data⟩) none) := by
  unfold mintAccountOf
  cases hmint : lib.getTokenAccountMint account.data with
  | none => simp [getParsedTokenAccount, hmint]
  | some mintPubkey =>
    cases hchain : chain mintPubkey with
    | none => simp [getParsedTokenAccount, hmint, hchain]
    | some mintAccount =>
      simp only [timestampOf, getParsedTokenAccount, hmint, hchain, Option.bind_some, Prog.run_bind,
        run_callNode, Client.getAccount_serving, Client.getTimestamp_serving, Outcome.mapError_ok,
        Outcome.ok_bind]
      cases (Client.getTimestamp hash).run node with
      | error e => rfl
      | panicked => rfl
      | ok timestamp =>
        simp only [Outcome.mapError_ok, Outcome.ok_bind, Prog.run_ofExcept]
        cases getAdditionalMintData lib mintAccount.data timestamp with
        | error e => rfl
        | ok data => rfl

/-- The single read of a token account. -/
theorem single_of_known (h : chain pubkey = some account)
    (hknown : isKnownSplTokenId account.owner = true) :
    single lib node chain hash dataSlice pubkey =
      match mintAccountOf lib chain account with
      | none => .ok (some (lib.encodeUiAccount pubkey account .jsonParsed none none))
      | some mintAccount => timestampOf node hash >>= fun timestamp =>
          Outcome.ofExcept (getAdditionalMintData lib mintAccount.data timestamp) >>= fun data =>
            .ok (some (lib.encodeUiAccount pubkey account .jsonParsed (some ⟨some data⟩) none)) := by
  simp only [single, getEncodedAccount, Prog.run_bind, run_callNode, Client.getAccount_serving, h,
    hknown, Outcome.mapError_ok, Outcome.ok_bind, and_self, if_true, run_getParsedTokenAccount]
  cases mintAccountOf lib chain account with
  | none => rfl
  | some mintAccount =>
    cases timestampOf node hash with
    | error e => rfl
    | panicked => rfl
    | ok timestamp =>
      simp only [Outcome.ok_bind]
      cases getAdditionalMintData lib mintAccount.data timestamp with
      | error e => rfl
      | ok data => rfl

theorem single_ok (htime : timestampOf node hash = .ok timestamp) (h : chain pubkey = some account)
    (hdecodes : isKnownSplTokenId account.owner = true → MintDecodes lib chain account) :
    single lib node chain hash dataSlice pubkey = .ok (some
      (encodeAs lib chain dataSlice (isKnownSplTokenId account.owner) timestamp pubkey account)) := by
  cases hknown : isKnownSplTokenId account.owner with
  | false => exact single_of_not_known timestamp h hknown
  | true =>
    have hdecodes := hdecodes hknown
    rw [single_of_known h hknown]
    unfold encodeAs
    rw [if_pos rfl, mintDataOf_eq]
    unfold MintDecodes at hdecodes
    cases hmint : mintAccountOf lib chain account with
    | none => rfl
    | some mintAccount =>
      obtain ⟨mint, hmint⟩ := hdecodes mintAccount hmint
      simp [htime, getAdditionalMintData, hmint, Except.toOption]

theorem single_fails (htime : timestampOf node hash = .ok timestamp)
    (h : chain pubkey = some account) (hknown : isKnownSplTokenId account.owner = true)
    (hdecodes : ¬ MintDecodes lib chain account) :
    ¬ (single lib node chain hash dataSlice pubkey).Succeeds := by
  rw [single_of_known h hknown]
  unfold MintDecodes at hdecodes
  push Not at hdecodes
  obtain ⟨mintAccount, hmint, hunpack⟩ := hdecodes
  cases hres : lib.unpackMint mintAccount.data with
  | ok mint => exact absurd hres (hunpack mint)
  | error e => simp [hmint, htime, getAdditionalMintData, hres]

/-- Without a timestamp the single reads that look at it fail, and only these. -/
theorem single_unreadable (htime : ¬ (timestampOf node hash).Succeeds) :
    (single lib node chain hash dataSlice pubkey).Succeeds ↔ ¬ NeedsTimestamp lib chain pubkey := by
  cases h : chain pubkey with
  | none => simp [single_of_none h, NeedsTimestamp, h]
  | some account =>
    cases hknown : isKnownSplTokenId account.owner with
    | false =>
      rw [single_of_not_known 0 h hknown]
      simp [NeedsTimestamp, h, hknown]
    | true =>
      rw [single_of_known h hknown]
      cases hmint : mintAccountOf lib chain account with
      | none => simp [NeedsTimestamp, h, hknown, hmint]
      | some mintAccount =>
        cases hres : timestampOf node hash with
        | ok timestamp => exact absurd ⟨timestamp, hres⟩ htime
        | error e => simp [NeedsTimestamp, h, hknown, hmint]
        | panicked => simp [NeedsTimestamp, h, hknown, hmint]

/-! ## The batch -/

theorem mem_splTokens {pubkeys : List Pubkey} {a : Account} :
    (pubkey, a) ∈ (filterKnownSplTokens (pubkeys.map fun p => (p, chain p))).1 ↔
      pubkey ∈ pubkeys ∧ isKnownSplTokenId pubkey = true ∧ chain pubkey = some a := by
  simp only [filterKnownSplTokens, List.partition_eq_filter_filter, List.mem_filterMap,
    List.mem_filter, List.mem_map, Option.map_eq_some_iff, Bool.and_eq_true]
  constructor
  · rintro ⟨⟨p, o⟩, ⟨⟨q, hq, heq⟩, hknown, -⟩, b, hb, hpair⟩
    obtain ⟨rfl, rfl⟩ := Prod.mk.inj heq
    obtain ⟨rfl, rfl⟩ := Prod.mk.inj hpair
    exact ⟨hq, hknown, hb⟩
  · rintro ⟨hmem, hknown, hchain⟩
    exact ⟨(pubkey, chain pubkey), ⟨⟨pubkey, hmem, rfl⟩, hknown, by simp [hchain]⟩, a, hchain, rfl⟩

theorem mem_nonSplTokens {pubkeys : List Pubkey} {o : Option Account} :
    (pubkey, o) ∈ (filterKnownSplTokens (pubkeys.map fun p => (p, chain p))).2 ↔
      pubkey ∈ pubkeys ∧ o = chain pubkey ∧ ¬ (isKnownSplTokenId pubkey = true ∧ (chain pubkey).isSome) := by
  simp only [filterKnownSplTokens, List.partition_eq_filter_filter, List.mem_filter, List.mem_map,
    Function.comp_apply, Bool.not_eq_true', Bool.and_eq_false_iff]
  constructor
  · rintro ⟨⟨q, hq, heq⟩, hnot⟩
    obtain ⟨rfl, rfl⟩ := Prod.mk.inj heq
    refine ⟨hq, rfl, fun ⟨hknown, hsome⟩ => ?_⟩
    simp [hknown, hsome] at hnot
  · rintro ⟨hmem, rfl, hnot⟩
    refine ⟨⟨pubkey, hmem, rfl⟩, ?_⟩
    cases hknown : isKnownSplTokenId pubkey with
    | false => simp
    | true => simpa [hknown] using hnot

/-- The mint a batch finds for a key is that of its account. -/
theorem lookup_mint {pubkeys : List Pubkey} (hmem : pubkey ∈ pubkeys)
    (hknown : isKnownSplTokenId pubkey = true) (hchain : chain pubkey = some account) :
    (getMultipleTokenAccountMint lib
      (filterKnownSplTokens (pubkeys.map fun p => (p, chain p))).1).lookup pubkey =
        lib.getTokenAccountMint account.data := by
  apply lookup_getMultipleTokenAccountMint
  intro b
  rw [mem_splTokens]
  simp [hmem, hknown, hchain, eq_comm]

/-- The parsed account a batch holds for a key. -/
theorem lookup_splTokens {pubkeys : List Pubkey} (dataSlice : Option UiDataSliceConfig)
    (timestamp : Client.UnixTimestamp) (hmem : pubkey ∈ pubkeys) :
    (HashMap.collect (parsedPairs lib (filterKnownSplTokens (pubkeys.map fun p => (p, chain p))).1
        (getMultipleTokenAccountMint lib (filterKnownSplTokens (pubkeys.map fun p => (p, chain p))).1)
        (mintData lib chain timestamp))).lookup pubkey =
      if isKnownSplTokenId pubkey then
        (chain pubkey).map (encodeAs lib chain dataSlice true timestamp pubkey)
      else none := by
  apply HashMap.lookup_collect
  intro u
  simp only [parsedPairs, List.mem_map, Prod.mk.injEq]
  constructor
  · rintro ⟨⟨p, a⟩, hpair, rfl, rfl⟩
    obtain ⟨-, hknown, hchain⟩ := mem_splTokens.mp hpair
    simp [hknown, hchain, encodeAs, mintDataOf, lookup_mint hmem hknown hchain]
  · intro h
    split at h
    · next hknown =>
      obtain ⟨a, hchain, rfl⟩ := Option.map_eq_some_iff.mp h
      refine ⟨(pubkey, a), mem_splTokens.mpr ⟨hmem, hknown, hchain⟩, rfl, ?_⟩
      simp [encodeAs, mintDataOf, lookup_mint hmem hknown hchain]
    · cases h

/-- The other account a batch holds for a key. -/
theorem lookup_nonSplTokens {pubkeys : List Pubkey} (timestamp : Client.UnixTimestamp)
    (hmem : pubkey ∈ pubkeys)
    (hnot : ¬ (isKnownSplTokenId pubkey = true ∧ (chain pubkey).isSome)) :
    (HashMap.collect ((filterKnownSplTokens (pubkeys.map fun p => (p, chain p))).2.map
      fun (pubkey, account) => (pubkey, account.map fun account =>
        lib.encodeUiAccount pubkey account .jsonParsed none dataSlice))).lookup pubkey =
      some ((chain pubkey).map (encodeAs lib chain dataSlice false timestamp pubkey)) := by
  apply HashMap.lookup_collect
  intro u
  simp only [List.mem_map, Prod.mk.injEq, Option.some.injEq]
  constructor
  · rintro ⟨⟨p, o⟩, hpair, rfl, rfl⟩
    obtain ⟨-, rfl, -⟩ := mem_nonSplTokens.mp hpair
    rfl
  · rintro rfl
    exact ⟨(pubkey, chain pubkey), mem_nonSplTokens.mpr ⟨hmem, rfl, hnot⟩, rfl, rfl⟩

/-- Reading many accounts to be parsed takes the timestamp of the block, and encodes each
account by what its key is. -/
theorem run_getEncodedAccounts_parsed {accounts : Pubkey → Option Account}
    (h : KeyByKey node hash (.ok accounts)) (pubkeys : List Pubkey)
    (overwriteAccounts : Option (HashMap Pubkey Account)) :
    (getEncodedAccounts lib orders pubkeys .jsonParsed dataSlice hash overwriteAccounts).run node =
      (timestampOf node hash >>= fun timestamp => .ok (pubkeys.map fun p =>
        (overlay overwriteAccounts accounts p).map (encodeAs lib (overlay overwriteAccounts accounts)
          dataSlice (isKnownSplTokenId p) timestamp p))) := by
  simp only [getEncodedAccounts, Prog.run_bind, run_getAccountsFromOverwritesOrNode h, accountsOf,
    Outcome.ofExcept_ok, Outcome.mapError_ok, Outcome.ok_bind, if_true,
    run_getParsedTokenAccounts_of h, Prog.run_pure]
  cases timestampOf node hash with
  | error e => rfl
  | panicked => rfl
  | ok timestamp =>
    simp only [Outcome.ok_bind, Outcome.ok.injEq]
    apply List.map_congr_left
    intro p hp
    rw [lookup_splTokens dataSlice timestamp hp]
    by_cases h : isKnownSplTokenId p = true ∧ (overlay overwriteAccounts accounts p).isSome
    · obtain ⟨account, haccount⟩ := Option.isSome_iff_exists.mp h.2
      simp [h.1, haccount]
    · rw [lookup_nonSplTokens timestamp hp h]
      cases hknown : isKnownSplTokenId p with
      | false => simp
      | true =>
        have hnone : overlay overwriteAccounts accounts p = none := by simpa [hknown] using h
        simp [hnone]

theorem batch_eq (pubkeys : List Pubkey) :
    batch lib orders node chain hash dataSlice pubkeys =
      (timestampOf node hash >>= fun timestamp => .ok (pubkeys.map fun p =>
        (chain p).map (encodeAs lib chain dataSlice (isKnownSplTokenId p) timestamp p))) := by
  rw [batch, run_getEncodedAccounts_parsed keyByKey_serving, timestampOf, Client.getTimestamp_serving]
  rfl

/-! ## Agreement -/

/-- The accounts of the keys are such that a batch treats them as single reads do. -/
structure Uniform (lib : Decoder) (node : Node) (chain : Pubkey → Option Account) (hash : Hash)
    (dataSlice : Option UiDataSliceConfig) (pubkeys : List Pubkey) : Prop where
  /-- With a timestamp: no token account has a mint that does not unpack, and where key
  and owner are not both those of token programs, or neither, it makes no difference. -/
  readable : (timestampOf node hash).Succeeds →
    ∀ p ∈ pubkeys, ∀ account, chain p = some account →
      (isKnownSplTokenId account.owner = true → MintDecodes lib chain account) ∧
      (isKnownSplTokenId p = isKnownSplTokenId account.owner ∨
        dataSlice = none ∧ NoMintData lib chain account)
  /-- Without one: some single read needs it. -/
  unreadable : ¬ (timestampOf node hash).Succeeds → ∃ p ∈ pubkeys, NeedsTimestamp lib chain p

/-- The library with another encoder. -/
def Decoder.encodingWith (lib : Decoder) (encode : EncodeUiAccount) : Decoder :=
  { lib with encodeUiAccount := encode }

/-- Encoders tell apart the data and the slice they are given. -/
theorem args_eq_of_encode {pubkey : Pubkey} {account account' : Account}
    {d d' : Option AccountAdditionalDataV2} {s s' : Option UiDataSliceConfig}
    (h : ∀ encode : EncodeUiAccount,
      encode pubkey account .jsonParsed d s = encode pubkey account' .jsonParsed d' s') :
    d = d' ∧ s = s' := by
  have hcmp := h fun _ _ _ d'' s'' => {
    lamports := 0
    data := .json (if d'' = d ∧ s'' = s then "same" else "")
    owner := ""
    executable := false
    rentEpoch := 0
    space := none }
  simp only [and_self, if_true, UiAccount.mk.injEq, UiAccountData.json.injEq, true_and, and_true] at hcmp
  split at hcmp
  · next heq => exact ⟨heq.1.symm, heq.2.symm⟩
  · exact absurd hcmp (by decide)

theorem encodeAs_encodingWith (encode : EncodeUiAccount) (token : Bool)
    (timestamp : Client.UnixTimestamp) (pubkey : Pubkey) (account : Account) :
    encodeAs (lib.encodingWith encode) chain dataSlice token timestamp pubkey account =
      if token then encode pubkey account .jsonParsed (mintDataOf lib chain timestamp account) none
      else encode pubkey account .jsonParsed none dataSlice := rfl

/-- For every encoder it is all the same whether an account counts as a token account,
exactly if there is neither a slice nor mint data. -/
theorem encodeAs_eq_iff {token token' : Bool} (timestamp : Client.UnixTimestamp) :
    (∀ encode, encodeAs (lib.encodingWith encode) chain dataSlice token timestamp pubkey account =
      encodeAs (lib.encodingWith encode) chain dataSlice token' timestamp pubkey account) ↔
      token' = token ∨ dataSlice = none ∧ NoMintData lib chain account := by
  have hiff : (∀ encode : EncodeUiAccount,
      encode pubkey account .jsonParsed (mintDataOf lib chain timestamp account) none =
        encode pubkey account .jsonParsed none dataSlice) ↔
      dataSlice = none ∧ NoMintData lib chain account := by
    rw [← mintDataOf_eq_none_iff timestamp]
    constructor
    · intro h
      obtain ⟨hd, hs⟩ := args_eq_of_encode h
      exact ⟨hs.symm, hd⟩
    · rintro ⟨rfl, hd⟩ encode
      rw [hd]
  simp only [encodeAs_encodingWith]
  cases token with
  | true =>
    cases token' with
    | true => simp
    | false => simpa using hiff
  | false =>
    cases token' with
    | false => simp
    | true => simpa [eq_comm] using hiff

theorem batchAgrees_of_timestamp {pubkeys : List Pubkey}
    (htime : timestampOf node hash = .ok timestamp) :
    BatchAgrees lib orders node chain hash dataSlice pubkeys ↔
      ∀ p ∈ pubkeys, ∀ account, chain p = some account →
        (isKnownSplTokenId account.owner = true → MintDecodes lib chain account) ∧
        encodeAs lib chain dataSlice (isKnownSplTokenId account.owner) timestamp p account =
          encodeAs lib chain dataSlice (isKnownSplTokenId p) timestamp p account := by
  have hbatch : batch lib orders node chain hash dataSlice pubkeys = _ := batch_eq pubkeys
  rw [htime, Outcome.ok_bind] at hbatch
  constructor
  · intro h
    have hdecodes : ∀ p ∈ pubkeys, ∀ account, chain p = some account →
        isKnownSplTokenId account.owner = true → MintDecodes lib chain account := by
      intro p hp account hchain hknown
      by_contra hnot
      exact h.failures p hp (single_fails htime hchain hknown hnot) ⟨_, hbatch⟩
    -- with its mint decoded, every look-up on its own succeeds
    have hsucceeds : ∀ p ∈ pubkeys, (single lib node chain hash dataSlice p).Succeeds := by
      intro p hp
      cases hchain : chain p with
      | none => exact ⟨_, single_of_none hchain⟩
      | some account => exact ⟨_, single_ok htime hchain (hdecodes p hp account hchain)⟩
    obtain ⟨result, hresult, hentries⟩ := h.entries hsucceeds
    rw [hbatch] at hresult
    obtain rfl := Outcome.ok.inj hresult
    rw [List.map_map, List.map_inj_left] at hentries
    intro p hp account hchain
    refine ⟨hdecodes p hp account hchain, ?_⟩
    have hentry := hentries p hp
    rw [single_ok htime hchain (hdecodes p hp account hchain)] at hentry
    simpa [hchain] using hentry
  · intro h
    have hsingle : ∀ p ∈ pubkeys, single lib node chain hash dataSlice p =
        .ok ((chain p).map (encodeAs lib chain dataSlice (isKnownSplTokenId p) timestamp p)) := by
      intro p hp
      cases hchain : chain p with
      | none => exact single_of_none hchain
      | some account =>
        obtain ⟨hdecodes, heq⟩ := h p hp account hchain
        rw [single_ok htime hchain hdecodes, heq]
        rfl
    refine ⟨fun _ => ⟨_, hbatch, ?_⟩, fun p hp hfails => absurd ⟨_, hsingle p hp⟩ hfails⟩
    rw [List.map_map]
    exact List.map_congr_left hsingle

theorem batchAgrees_of_no_timestamp {pubkeys : List Pubkey}
    (htime : ¬ (timestampOf node hash).Succeeds) :
    BatchAgrees lib orders node chain hash dataSlice pubkeys ↔
      ∃ p ∈ pubkeys, NeedsTimestamp lib chain p := by
  have hfails : ¬ (batch lib orders node chain hash dataSlice pubkeys).Succeeds := by
    rintro ⟨result, hresult⟩
    rw [batch_eq] at hresult
    obtain ⟨timestamp, h, -⟩ := Outcome.bind_eq_ok_iff.mp hresult
    exact htime ⟨timestamp, h⟩
  constructor
  · intro h
    by_contra hnone
    have hsucceeds : ∀ p ∈ pubkeys, (single lib node chain hash dataSlice p).Succeeds :=
      fun p hp => (single_unreadable htime).mpr fun hneeds => hnone ⟨p, hp, hneeds⟩
    obtain ⟨result, hresult, -⟩ := h.entries hsucceeds
    exact hfails ⟨result, hresult⟩
  · rintro ⟨p, hp, hneeds⟩
    refine ⟨fun hall => ?_, fun _ _ _ => hfails⟩
    exact absurd hneeds ((single_unreadable htime).mp (hall p hp))

/-- A batch read agrees with the single reads, whatever the encoder, exactly if the
accounts are uniform. -/
theorem batchAgrees_iff (lib : Decoder) (orders : IterOrders) (node : Node)
    (chain : Pubkey → Option Account) (hash : Hash) (dataSlice : Option UiDataSliceConfig)
    (pubkeys : List Pubkey) :
    (∀ encode, BatchAgrees (lib.encodingWith encode) orders node chain hash dataSlice pubkeys) ↔
      Uniform lib node chain hash dataSlice pubkeys := by
  by_cases htime : (timestampOf node hash).Succeeds
  · obtain ⟨timestamp, ht⟩ := htime
    have hdecodes : ∀ encode account, MintDecodes (lib.encodingWith encode) chain account ↔
        MintDecodes lib chain account := fun _ _ => Iff.rfl
    simp only [batchAgrees_of_timestamp ht, hdecodes]
    constructor
    · intro h
      refine ⟨fun _ p hp account hchain => ?_, fun hnot => absurd ⟨timestamp, ht⟩ hnot⟩
      exact ⟨(h lib.encodeUiAccount p hp account hchain).1,
        (encodeAs_eq_iff timestamp).mp fun encode => (h encode p hp account hchain).2⟩
    · intro h encode p hp account hchain
      obtain ⟨hmint, hsame⟩ := h.readable ⟨timestamp, ht⟩ p hp account hchain
      exact ⟨hmint, (encodeAs_eq_iff timestamp).mpr hsame encode⟩
  · have hneeds : ∀ encode p, NeedsTimestamp (lib.encodingWith encode) chain p ↔
        NeedsTimestamp lib chain p := fun _ _ => Iff.rfl
    simp only [batchAgrees_of_no_timestamp htime, hneeds]
    exact ⟨fun h => ⟨fun hnot => absurd hnot htime, fun _ => h lib.encodeUiAccount⟩,
      fun h _ => h.unreadable htime⟩

/-! ## A token account under a key of its own -/

/-- The account of an ordinary key is owned by the token program. Read alone it is
parsed with its mint, read in a batch without. -/
theorem batch_disagrees : ¬ ∀ (lib : Decoder) (orders : IterOrders) (node : Node)
    (chain : Pubkey → Option Account) (hash : Hash) (dataSlice : Option UiDataSliceConfig)
    (pubkeys : List Pubkey), BatchAgrees lib orders node chain hash dataSlice pubkeys := by
  intro hall
  have hagrees := hall tokenDecoder ⟨.listed, .listed, .listed⟩ .atEpoch tokenChain .zero none
    [.ofByte 1]
  rw [batchAgrees_of_timestamp timestampOf_atEpoch] at hagrees
  have hsame := (hagrees (.ofByte 1) List.mem_cons_self _ rfl).2
  revert hsame
  decide +kernel

end Solana

-- SUMMARY: Which filter lists are routed to the owner and mint indexes, and which token accounts those indexes hold.
import NoirSidecar.Index.Update

/-!
# Index routing

A filter list that asks for token accounts with a given owner or mint is answered
from the index. What counts as a token account here is decided by the filters: by
the length of the data, by the account type behind it or by the state. The index
itself holds what `unpack` accepts.
-/

namespace Solana

/-! ## Routing -/

/-- What the loop over the filters has found so far. -/
structure FilterScan where
  dataSize : Option UInt64
  memcmp : Option Bytes
  key : Option Pubkey
  tokenAccountState : Bool
  deriving DecidableEq, Repr

def FilterScan.init : FilterScan := ⟨none, none, none, false⟩

/-- `TokenAccount::get_packed_len()` of both token programs. -/
def accountPackedLen : Nat := SplToken.Account.len

/-- One round of the loop, for the key at `offset`. -/
def FilterScan.note (programId : Pubkey) (offset : Nat) (scan : FilterScan) :
    RpcFilterType → FilterScan
  | .dataSize size => { scan with dataSize := some size }
  | .memcmp memcmp =>
    match memcmp.rawBytesAsRef with
    | none => scan
    | some bytes =>
      if memcmp.offset = accountPackedLen ∧ programId = Token2022.id then
        { scan with memcmp := some bytes }
      else if memcmp.offset = offset ∧ bytes.length = pubkeyBytes then
        { scan with key := Pubkey.tryFrom bytes }
      else scan
  | .tokenAccountState => { scan with tokenAccountState := true }

/-- The key at `offset` the filters ask for, if they ask for token accounts. -/
def splTokenKeyFilter (offset : Nat) (programId : Pubkey) (filters : List RpcFilterType) :
    Option Pubkey :=
  if !isKnownSplTokenId programId then none
  else
    let scan := filters.foldl (FilterScan.note programId offset) .init
    if scan.dataSize = some (UInt64.ofNat accountPackedLen) ∨
        scan.memcmp = some [Token2022.accountTypeAccount] ∨ scan.tokenAccountState then
      scan.key
    else none

def getSplTokenOwnerFilter : Pubkey → List RpcFilterType → Option Pubkey :=
  splTokenKeyFilter SplToken.Account.ownerOffset

def getSplTokenMintFilter : Pubkey → List RpcFilterType → Option Pubkey :=
  splTokenKeyFilter SplToken.Account.mintOffset

/-! ## What the loop has found -/

/-- Each thing found stands for a filter of the list. -/
structure FilterScan.Backed (programId : Pubkey) (offset : Nat) (filters : List RpcFilterType)
    (scan : FilterScan) : Prop where
  dataSize : ∀ size, scan.dataSize = some size → .dataSize size ∈ filters
  memcmp : ∀ bytes, scan.memcmp = some bytes → programId = Token2022.id ∧
    ∃ compare, .memcmp compare ∈ filters ∧ compare.offset = accountPackedLen ∧
      compare.rawBytesAsRef = some bytes
  key : ∀ key, scan.key = some key → ∃ compare, .memcmp compare ∈ filters ∧
    compare.offset = offset ∧ compare.rawBytesAsRef = some key.bytes
  tokenAccountState : scan.tokenAccountState → .tokenAccountState ∈ filters

namespace FilterScan

variable {programId : Pubkey} {offset : Nat} {filters filters' : List RpcFilterType}
  {scan : FilterScan}

theorem Backed.mono (h : Backed programId offset filters scan) (hsub : filters ⊆ filters') :
    Backed programId offset filters' scan where
  dataSize size hsize := hsub (h.dataSize size hsize)
  memcmp bytes hbytes := by
    obtain ⟨hprogram, compare, hmem, hcompare⟩ := h.memcmp bytes hbytes
    exact ⟨hprogram, compare, hsub hmem, hcompare⟩
  key key hkey := by
    obtain ⟨compare, hmem, hcompare⟩ := h.key key hkey
    exact ⟨compare, hsub hmem, hcompare⟩
  tokenAccountState hstate := hsub (h.tokenAccountState hstate)

/-- One round of the loop: what it replaces is backed by the filter it looks at. -/
theorem Backed.note {filter : RpcFilterType} (h : Backed programId offset filters scan)
    (hmem : filter ∈ filters) : Backed programId offset filters (scan.note programId offset filter) := by
  cases filter with
  | dataSize size =>
    refine { h with dataSize := fun size' hsize => ?_ }
    cases hsize
    exact hmem
  | tokenAccountState => exact { h with tokenAccountState := fun _ => hmem }
  | memcmp compare =>
    simp only [FilterScan.note]
    split
    · exact h
    · next bytes hraw =>
      split
      · next hat =>
        refine { h with memcmp := fun bytes' hbytes => ?_ }
        cases hbytes
        exact ⟨hat.2, compare, hmem, hat.1, hraw⟩
      · split
        · next hat =>
          refine { h with key := fun key hkey => ?_ }
          rw [Pubkey.tryFrom_eq_some.mp hkey] at hraw
          exact ⟨compare, hmem, hat.1, hraw⟩
        · exact h

theorem backed_init : Backed programId offset filters init := ⟨nofun, nofun, nofun, nofun⟩

/-- After the loop all that has been found is backed, whatever has been overwritten. -/
theorem backed_foldl (programId : Pubkey) (offset : Nat) (filters : List RpcFilterType) :
    Backed programId offset filters (filters.foldl (note programId offset) init) := by
  induction filters using List.reverseRecOn with
  | nil => exact backed_init
  | append_singleton filters filter ih =>
    rw [List.foldl_concat]
    exact (ih.mono (List.subset_append_left _ _)).note (List.mem_append_right _ List.mem_cons_self)

end FilterScan

section

variable {programId : Pubkey} {offset : Nat} {filters : List RpcFilterType} {key : Pubkey}

/-- A routed list is one for a token program, with a filter on the key and one on what a
token account is. -/
theorem splTokenKeyFilter_eq_some (h : splTokenKeyFilter offset programId filters = some key) :
    isKnownSplTokenId programId ∧
      (∃ compare, .memcmp compare ∈ filters ∧ compare.offset = offset ∧
        compare.rawBytesAsRef = some key.bytes) ∧
      (.dataSize (UInt64.ofNat accountPackedLen) ∈ filters ∨
        (programId = Token2022.id ∧ ∃ compare, .memcmp compare ∈ filters ∧
          compare.offset = accountPackedLen ∧
          compare.rawBytesAsRef = some [Token2022.accountTypeAccount]) ∨
        .tokenAccountState ∈ filters) := by
  have hbacked := FilterScan.backed_foldl programId offset filters
  unfold splTokenKeyFilter at h
  split at h
  · cases h
  · next hknown =>
    dsimp only at h
    split at h
    · next hfound =>
      refine ⟨by simpa using hknown, hbacked.key key h, ?_⟩
      rcases hfound with hsize | htype | hstate
      · exact .inl (hbacked.dataSize _ hsize)
      · exact .inr (.inl (hbacked.memcmp _ htype))
      · exact .inr (.inr (hbacked.tokenAccountState hstate))
    · cases h

/-- An account that passes a routed filter list has the key at the offset. -/
theorem field_of_splTokenKeyFilter {account : Account}
    (h : splTokenKeyFilter offset programId filters = some key)
    (hpass : ∀ filter ∈ filters, filterAllows filter account) :
    account.data.field offset 32 = key.bytes := by
  obtain ⟨-, ⟨compare, hmem, rfl, hraw⟩, -⟩ := splTokenKeyFilter_eq_some h
  have hlen : key.bytes.length = 32 := key.length_eq
  have hfield := Memcmp.field_of_bytesMatch hraw (hpass _ hmem)
  rwa [hlen] at hfield

end

/-! ## What the index holds of a token account -/

open Index

/-- The table after one update of an empty index. -/
def indexOf (engine : Engine) (node : Node) (pubkey : Pubkey) : Db :=
  (update engine.accountsIndex node [pubkey] (.empty [])).2

/-- Index and router agree on the account: it is indexed under program, owner and
mint, and every filter list it passes that is routed to an index finds it there. -/
structure Agree (engine : Engine) (db : Db) (pubkey : Pubkey) (account : Account)
    (token : SplToken.Account) : Prop where
  indexed : ∀ e ∈ tokenEntries account.owner token pubkey, engine.Lists db e
  byOwner : ∀ filters key, getSplTokenOwnerFilter account.owner filters = some key →
    (∀ filter ∈ filters, filterAllows filter account) →
      engine.Lists db ⟨.splTokenOwner, key, pubkey⟩
  byMint : ∀ filters key, getSplTokenMintFilter account.owner filters = some key →
    (∀ filter ∈ filters, filterAllows filter account) →
      engine.Lists db ⟨.splTokenMint, key, pubkey⟩

/-- What may follow the packed record in the data of an account: for Token-2022 the
account type and extensions. -/
def ValidSuffix (programId : Pubkey) (suffix : Bytes) : Prop :=
  suffix = [] ∨
    programId = Token2022.id ∧ ∃ extensions, suffix = Token2022.accountTypeAccount :: extensions

theorem holds_indexOf {engine : Engine} {node : Node} {pubkey : Pubkey} {account : Account}
    (hread : (Client.getAccounts [pubkey] none).run node = .ok [(pubkey, some account)]) (e : Entry) :
    engine.Lists (indexOf engine node pubkey) e ↔ e ∈ accountEntries (pubkey, account) := by
  have hentries : entriesOf [(pubkey, some account)] = accountEntries (pubkey, account) := by
    simp [entriesOf, existing]
  have hindex : indexOf engine node pubkey =
      (insertEntries engine.accountsIndex (accountEntries (pubkey, account)) (.empty [])).2 := by
    simp only [indexOf, update_eq, hread, hentries]
  have hcalm : (insertEntries engine.accountsIndex (accountEntries (pubkey, account))
      (.empty [])).2.Calm := (insertEntries_calm engine Db.calm_empty).2.1
  rw [hindex, engine.lists_iff hcalm, holds_insertEntries engine Db.calm_empty,
    Batch.admitted_of_new (nodup_accountEntries _) fun e _ => Db.not_holds_empty _ e]
  simp

/-- Index and router agree on a token account exactly if nothing follows its packed
record. -/
theorem agree_iff (engine : Engine) {node : Node} {pubkey programId : Pubkey} {base suffix : Bytes}
    {account : Account} {token : SplToken.Account} (hknown : isKnownSplTokenId programId)
    (hbase : SplToken.Account.unpack base = .ok token)
    (howner : account.owner = programId) (hdata : account.data = base ++ suffix)
    (hread : (Client.getAccounts [pubkey] none).run node = .ok [(pubkey, some account)]) :
    Agree engine (indexOf engine node pubkey) pubkey account token ↔ suffix = [] := by
  constructor
  · intro hagree
    have hlists := hagree.indexed ⟨.programId, account.owner, pubkey⟩ (by simp [tokenEntries])
    rw [holds_indexOf hread] at hlists
    by_contra hne
    -- an account with a suffix is not indexed as a token account
    have hlen : account.data.length ≠ SplToken.Account.len := by
      rw [hdata, List.length_append, SplToken.Account.length_of_unpack hbase]
      have := List.length_pos_iff.mpr hne
      omega
    have hnone : accountEntries (pubkey, account) = [] := by
      apply accountEntries_of_not_readsAs
      intro t hreads
      exact hlen (SplToken.Account.length_of_unpack hreads.2)
    rw [hnone] at hlists
    cases hlists
  · rintro rfl
    rw [List.append_nil] at hdata
    have hreads : ReadsAs account token := ⟨by rwa [howner], by rwa [hdata]⟩
    have hentries : accountEntries (pubkey, account) = _ := accountEntries_of_readsAs hreads
    obtain ⟨hmint, hownerKey⟩ := SplToken.Account.keys_of_unpack hreads.2
    refine ⟨fun e he => ?_, fun filters key hroute hpass => ?_, fun filters key hroute hpass => ?_⟩
    · rwa [holds_indexOf hread, hentries]
    · have hkey := field_of_splTokenKeyFilter hroute hpass
      rw [hownerKey] at hkey
      rw [holds_indexOf hread, hentries, ← Pubkey.ext hkey]
      simp [tokenEntries]
    · have hkey := field_of_splTokenKeyFilter hroute hpass
      rw [hmint] at hkey
      rw [holds_indexOf hread, hentries, ← Pubkey.ext hkey]
      simp [tokenEntries]

/-! ## An account with extensions -/

/-- A new Token-2022 account followed by some bytes. -/
def extendedAccount (suffix : Bytes) : Account where
  lamports := 0
  data := SplToken.Account.packNew (.ofByte 3) (.ofByte 4) ++ suffix
  owner := Token2022.id
  executable := false
  rentEpoch := 0

def extendedChain (suffix : Bytes) : Pubkey → Option Account := fun _ => some (extendedAccount suffix)

/-- The filters of a client that asks for the Token-2022 accounts of an owner. -/
def ownerFilters : List RpcFilterType :=
  [.memcmp (.newRawBytes accountPackedLen [Token2022.accountTypeAccount]),
    .memcmp (.newRawBytes SplToken.Account.ownerOffset (Pubkey.ofByte 4).bytes)]

/-- An account with the account type behind its record passes filters that are routed
to the owner index, which does not hold it. -/
theorem extended_account_not_indexed : ¬ ∀ (engine : Engine) (node : Node)
    (pubkey programId : Pubkey) (base suffix : Bytes) (account : Account) (token : SplToken.Account),
    isKnownSplTokenId programId → SplToken.Account.unpack base = .ok token →
    ValidSuffix programId suffix → account.owner = programId → account.data = base ++ suffix →
    (Client.getAccounts [pubkey] none).run node = .ok [(pubkey, some account)] →
      Agree engine (indexOf engine node pubkey) pubkey account token := by
  intro hall
  have hread : (Client.getAccounts [.ofByte 1] none).run
      (Node.dead.serving (extendedChain [Token2022.accountTypeAccount])) =
      .ok [(.ofByte 1, some (extendedAccount [Token2022.accountTypeAccount]))] :=
    Client.getAccounts_serving
  have hagree := hall sqliteEngine _ _ Token2022.id _ [Token2022.accountTypeAccount] _ _
    isKnownSplTokenId_token2022 (SplToken.Account.unpack_packNew (.ofByte 3) (.ofByte 4))
    (.inr ⟨rfl, [], rfl⟩) rfl rfl hread
  have hroute : getSplTokenOwnerFilter Token2022.id ownerFilters = some (.ofByte 4) := by
    decide +kernel
  have hpass : ∀ filter ∈ ownerFilters,
      filterAllows filter (extendedAccount [Token2022.accountTypeAccount]) := by
    decide +kernel
  have hlists := hagree.byOwner ownerFilters (.ofByte 4) hroute hpass
  rw [holds_indexOf hread] at hlists
  revert hlists
  decide +kernel

/-- An account without extensions. -/
theorem plain_account_indexed :
    Agree sqliteEngine (indexOf sqliteEngine (Node.dead.serving (extendedChain [])) (.ofByte 1))
      (.ofByte 1) (extendedAccount []) (.new (.ofByte 3) (.ofByte 4)) :=
  (agree_iff sqliteEngine isKnownSplTokenId_token2022
    (SplToken.Account.unpack_packNew (.ofByte 3) (.ofByte 4)) rfl rfl
    Client.getAccounts_serving).mpr rfl

end Solana

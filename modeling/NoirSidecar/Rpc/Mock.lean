-- SUMMARY: The listings of the mock server, and which accounts the filters it adds take away.
import NoirSidecar.Rpc.Indexed

/-!
# The mock server

The mock keeps its index in memory, looks accounts up one by one and applies the filters
itself. Like the server it adds filters to a list that is routed to an index: on the
state of the account and on the key. These are meant to be redundant.
-/

namespace MockSolana

open Solana

/-! ## Listings -/

/-- The one request to the virtual machine that listings make. -/
inductive SvmCall where
  | getAccount (pubkey : Pubkey)
  deriving DecidableEq, Repr

@[reducible] def SvmCall.Answer : SvmCall → Type
  | .getAccount _ => Except ErrorObject (Option Account)

abbrev Svm := ∀ call : SvmCall, call.Answer

abbrev MockProg := Prog SvmCall SvmCall.Answer ErrorObject

def getAccount (pubkey : Pubkey) : MockProg (Option Account) := .ask (.getAccount pubkey) .ofExcept

/-- The account belongs to the program and passes the filters. -/
def passes (programId : Pubkey) (filters : List RpcFilterType) (account : Account) : Bool :=
  account.owner = programId && filters.all (filterAllows · account)

/-- One round of the loop over the keys. -/
def visit (programId : Pubkey) (filters : List RpcFilterType) (accounts : List (Pubkey × Account))
    (indexKey : Pubkey) : MockProg (List (Pubkey × Account)) := do
  let account ← getAccount indexKey
  match account with
  | some account =>
    if passes programId filters account then return accounts ++ [(indexKey, account)]
    else return accounts
  | none => return accounts

def getFilteredIndexedAccounts (programId : Pubkey) (indexedKeys : List Pubkey)
    (filters : List RpcFilterType) : MockProg (List (Pubkey × Account)) :=
  indexedKeys.foldlM (visit programId (optimizeFilters filters)) []

/-- The index: the keys listed for an index key. -/
abbrev AccountsIndex := AccountIndex → Pubkey → Option (List Pubkey)

variable (accountsIndex : AccountsIndex)

def getIndexedKeys (index : AccountIndex) (indexKey : Pubkey) : List Pubkey :=
  (accountsIndex index indexKey).getD []

def getFilteredSplTokenAccounts (index : AccountIndex) (offset : Nat) (programId key : Pubkey)
    (filters : List RpcFilterType) : MockProg (List (Pubkey × Account)) :=
  getFilteredIndexedAccounts programId (getIndexedKeys accountsIndex index key)
    (filters ++ redundantFilters offset key)

def getFilteredSplTokenAccountsByOwner :=
  getFilteredSplTokenAccounts accountsIndex .splTokenOwner SplToken.Account.ownerOffset

def getFilteredSplTokenAccountsByMint :=
  getFilteredSplTokenAccounts accountsIndex .splTokenMint SplToken.Account.mintOffset

/-- The accounts `getProgramAccounts` finds for optimized filters. -/
def programAccounts (programId : Pubkey) (filters : List RpcFilterType) :
    MockProg (List (Pubkey × Account)) :=
  match getSplTokenOwnerFilter programId filters with
  | some owner => getFilteredSplTokenAccountsByOwner accountsIndex programId owner filters
  | none =>
    match getSplTokenMintFilter programId filters with
    | some mint => getFilteredSplTokenAccountsByMint accountsIndex programId mint filters
    | none =>
      getFilteredIndexedAccounts programId (getIndexedKeys accountsIndex .programId programId) filters

/-! ## What a listing finds -/

variable {accountsIndex} {svm : Svm} {programId key : Pubkey} {filters filters' : List RpcFilterType}

/-- The accounts of the keys, up to the first look-up that fails. -/
def accountsOf (svm : Svm) (keys : List Pubkey) : Except ErrorObject (List (Pubkey × Option Account)) :=
  keys.mapM fun p => (svm (.getAccount p)).map fun account => (p, account)

/-- The accounts that are there and pass. -/
def passing (programId : Pubkey) (filters : List RpcFilterType)
    (found : List (Pubkey × Option Account)) : List (Pubkey × Account) :=
  (Index.existing found).filter fun p => passes programId filters p.2

theorem passing_cons (programId : Pubkey) (filters : List RpcFilterType)
    (p : Pubkey × Option Account) (found : List (Pubkey × Option Account)) :
    passing programId filters (p :: found) =
      passing programId filters [p] ++ passing programId filters found := by
  rw [passing, passing, passing, ← List.filter_append, Index.existing, Index.existing,
    Index.existing, ← List.filterMap_append, List.singleton_append]

theorem run_visit (accounts : List (Pubkey × Account)) (p : Pubkey) :
    (visit programId filters accounts p).run svm = .ofExcept ((svm (.getAccount p)).map
      fun account => accounts ++ passing programId filters [(p, account)]) := by
  have haccount : (getAccount p).run svm = .ofExcept (svm (.getAccount p)) := Prog.run_ofExcept _
  rw [visit, Prog.run_bind, haccount]
  cases svm (.getAccount p) with
  | error e => rfl
  | ok account =>
    cases account with
    | none => simp [Except.map, passing, Index.existing]
    | some account =>
      by_cases hpass : passes programId filters account <;>
        simp [Except.map, passing, Index.existing, hpass]

/-- The loop finds the accounts that pass, in the order of the keys. -/
theorem run_foldlM_visit (keys : List Pubkey) (accounts : List (Pubkey × Account)) :
    (keys.foldlM (visit programId filters) accounts).run svm =
      .ofExcept ((accountsOf svm keys).map fun found =>
        accounts ++ passing programId filters found) := by
  induction keys generalizing accounts with
  | nil => simp [accountsOf, passing, Index.existing, Except.map, pure, Except.pure]
  | cons p keys ih =>
    have hcons : accountsOf svm (p :: keys) = do
        let account ← svm (.getAccount p)
        let rest ← accountsOf svm keys
        return (p, account) :: rest := by
      rw [accountsOf, List.mapM_cons]
      cases svm (.getAccount p) <;> rfl
    rw [List.foldlM_cons, Prog.run_bind, run_visit, hcons]
    cases svm (.getAccount p) with
    | error e => rfl
    | ok account =>
      simp only [Except.map, Outcome.ofExcept_ok, Outcome.ok_bind, ih]
      cases accountsOf svm keys with
      | error e => rfl
      | ok found =>
        have hpassing := passing_cons programId filters (p, account) found
        simp only [bind, Except.bind, pure, Except.pure, Outcome.ofExcept_ok, hpassing,
          List.append_assoc]

theorem passes_optimizeFilters :
    passes programId (optimizeFilters filters) = passes programId filters := by
  funext account
  rw [passes, allows_optimizeFilters, passes]

theorem run_getFilteredIndexedAccounts (keys : List Pubkey) :
    (getFilteredIndexedAccounts programId keys filters).run svm =
      .ofExcept ((accountsOf svm keys).map (passing programId filters)) := by
  rw [getFilteredIndexedAccounts, run_foldlM_visit]
  simp only [List.nil_append]
  unfold passing
  rw [passes_optimizeFilters]

theorem accountsOf_cases (svm : Svm) (keys : List Pubkey) :
    (∃ e p, accountsOf svm keys = .error e ∧ p ∈ keys ∧ svm (.getAccount p) = .error e) ∨
      ∃ found, accountsOf svm keys = .ok found ∧ (∀ p ∈ keys, ∃ a, svm (.getAccount p) = .ok a) ∧
        ∀ p a, (p, a) ∈ found ↔ p ∈ keys ∧ svm (.getAccount p) = .ok a := by
  induction keys with
  | nil => exact .inr ⟨[], rfl, by simp, by simp⟩
  | cons p keys ih =>
    rw [accountsOf, List.mapM_cons]
    cases hp : svm (.getAccount p) with
    | error e => exact .inl ⟨e, p, rfl, List.mem_cons_self, hp⟩
    | ok account =>
      obtain ⟨e, q, hkeys, hq, he⟩ | ⟨found, hkeys, hall, hmem⟩ := ih
      · refine .inl ⟨e, q, ?_, List.mem_cons_of_mem _ hq, he⟩
        change (accountsOf svm keys >>= _) = _
        rw [hkeys]
        rfl
      · refine .inr ⟨(p, account) :: found, ?_, ?_, ?_⟩
        · change (accountsOf svm keys >>= _) = _
          rw [hkeys]
          rfl
        · simpa [hp] using hall
        · intro q a
          simp only [List.mem_cons, hmem, Prod.mk.injEq]
          constructor
          · rintro (⟨rfl, rfl⟩ | ⟨hq, ha⟩)
            · exact ⟨.inl rfl, hp⟩
            · exact ⟨.inr hq, ha⟩
          · rintro ⟨rfl | hq, ha⟩
            · rw [hp] at ha
              cases ha
              exact .inl ⟨rfl, rfl⟩
            · exact .inr ⟨hq, ha⟩

/-! ## Redundant filters -/

/-- The index a filter list is routed to, with the offset of its key and the key. -/
def route (programId : Pubkey) (filters : List RpcFilterType) : Option (AccountIndex × Nat × Pubkey) :=
  match getSplTokenOwnerFilter programId filters with
  | some owner => some (.splTokenOwner, SplToken.Account.ownerOffset, owner)
  | none => (getSplTokenMintFilter programId filters).map fun mint =>
      (.splTokenMint, SplToken.Account.mintOffset, mint)

/-- The data is that of an initialized token account of the program: the packed record
alone, or for Token-2022 with the account type behind it. -/
def IsTokenAccount (programId : Pubkey) (data : Bytes) : Prop :=
  data.length = SplToken.Account.len ∧ SplToken.isInitializedAccount data ∨
    programId = Token2022.id ∧ data.length > SplToken.Account.len ∧
      data[SplToken.Account.len]? = some Token2022.accountTypeAccount

variable {index : AccountIndex} {offset : Nat}

theorem splTokenKeyFilter_of_route (h : route programId filters = some (index, offset, key)) :
    splTokenKeyFilter offset programId filters = some key := by
  unfold route at h
  split at h
  · next owner howner =>
    cases h
    exact howner
  · obtain ⟨mint, hmint, h⟩ := Option.map_eq_some_iff.mp h
    cases h
    exact hmint

theorem programAccounts_of_route (h : route programId filters = some (index, offset, key)) :
    programAccounts accountsIndex programId filters =
      getFilteredSplTokenAccounts accountsIndex index offset programId key filters := by
  cases howner : getSplTokenOwnerFilter programId filters with
  | some owner =>
    rw [route, howner] at h
    cases h
    simp only [programAccounts, howner]
    rfl
  | none =>
    rw [route, howner] at h
    obtain ⟨mint, hmint, h⟩ := Option.map_eq_some_iff.mp h
    cases h
    simp only [programAccounts, howner, hmint]
    rfl

/-- Of the filters that are added only the one on the state can take an account away. -/
theorem passes_redundantFilters (h : route programId filters = some (index, offset, key))
    (account : Account) :
    passes programId (filters ++ redundantFilters offset key) account =
      (passes programId filters account && SplToken.validAccountData account.data) := by
  rw [Bool.eq_iff_iff]
  simp only [passes, List.all_append, redundantFilters, List.all_cons, List.all_nil, filterAllows,
    Memcmp.bytesMatch_key, Bool.and_eq_true, decide_eq_true_eq, List.all_eq_true, beq_iff_eq,
    and_true]
  constructor
  · rintro ⟨howner, hpass, hstate, -⟩
    exact ⟨⟨howner, hpass⟩, hstate⟩
  · rintro ⟨⟨howner, hpass⟩, hstate⟩
    exact ⟨howner, hpass, hstate, field_of_splTokenKeyFilter (splTokenKeyFilter_of_route h) hpass⟩

theorem validAccountData_iff {data : Bytes} (h : IsTokenAccount programId data) :
    SplToken.validAccountData data ↔ data.length = SplToken.Account.len := by
  rw [SplToken.validAccountData, Bool.and_eq_true, beq_iff_eq]
  obtain ⟨hlen, hstate⟩ | ⟨-, hlen, -⟩ := h
  · exact ⟨fun h => h.1, fun h => ⟨h, hstate⟩⟩
  · exact ⟨fun h => h.1, fun h => absurd h (Nat.ne_of_gt hlen)⟩

/-- The filters that are added take no account away, neither from one that passes the
others nor from a listing. -/
structure RemovesNothing (accountsIndex : AccountsIndex) (svm : Svm) (programId : Pubkey)
    (filters : List RpcFilterType) (index : AccountIndex) (offset : Nat) (key : Pubkey) : Prop where
  account : ∀ p ∈ getIndexedKeys accountsIndex index key, ∀ account,
    svm (.getAccount p) = .ok (some account) → account.owner = programId →
      ((∀ filter ∈ filters, filterAllows filter account) ↔
        ∀ filter ∈ filters ++ redundantFilters offset key, filterAllows filter account)
  listing : (programAccounts accountsIndex programId filters).run svm =
    (getFilteredIndexedAccounts programId (getIndexedKeys accountsIndex index key) filters).run svm

theorem passes_iff {account : Account} (h : account.owner = programId) :
    passes programId filters account ↔ ∀ filter ∈ filters, filterAllows filter account := by
  simp [passes, h]

/-- One account: it passes with the added filters as without them exactly if its data is
the packed record alone, or it does not pass anyway. -/
theorem passes_alike_iff (hroute : route programId filters = some (index, offset, key))
    {account : Account} (howner : account.owner = programId)
    (htoken : IsTokenAccount programId account.data) :
    ((∀ filter ∈ filters, filterAllows filter account) ↔
        ∀ filter ∈ filters ++ redundantFilters offset key, filterAllows filter account) ↔
      account.data.length = SplToken.Account.len ∨
        ∃ filter ∈ filters, ¬ filterAllows filter account := by
  rw [← passes_iff howner, ← passes_iff howner, passes_redundantFilters hroute, Bool.and_eq_true,
    validAccountData_iff htoken]
  have hfails : (∃ filter ∈ filters, ¬ filterAllows filter account) ↔
      ¬ passes programId filters account := by
    rw [passes_iff howner]
    push Not
    rfl
  rw [hfails]
  tauto

/-- The added filters take nothing away exactly if every account of the program that
passes the filters of the request is without extensions. -/
theorem removesNothing_iff (accountsIndex : AccountsIndex) (svm : Svm) (programId : Pubkey)
    (filters : List RpcFilterType) (index : AccountIndex) (offset : Nat) (key : Pubkey)
    (hroute : route programId filters = some (index, offset, key))
    (htoken : ∀ p ∈ getIndexedKeys accountsIndex index key, ∀ account,
      svm (.getAccount p) = .ok (some account) → account.owner = programId →
        IsTokenAccount programId account.data) :
    RemovesNothing accountsIndex svm programId filters index offset key ↔
      ∀ p ∈ getIndexedKeys accountsIndex index key, ∀ account,
        svm (.getAccount p) = .ok (some account) → account.owner = programId →
          account.data.length = SplToken.Account.len ∨
            ∃ filter ∈ filters, ¬ filterAllows filter account := by
  constructor
  · intro hremoves p hp account hread howner
    exact (passes_alike_iff hroute howner (htoken p hp account hread howner)).mp
      (hremoves.account p hp account hread howner)
  · intro hplain
    have halike : ∀ p ∈ getIndexedKeys accountsIndex index key, ∀ account,
        svm (.getAccount p) = .ok (some account) → account.owner = programId →
          ((∀ filter ∈ filters, filterAllows filter account) ↔
            ∀ filter ∈ filters ++ redundantFilters offset key, filterAllows filter account) :=
      fun p hp account hread howner =>
        (passes_alike_iff hroute howner (htoken p hp account hread howner)).mpr
          (hplain p hp account hread howner)
    refine ⟨halike, ?_⟩
    rw [programAccounts_of_route hroute, getFilteredSplTokenAccounts,
      run_getFilteredIndexedAccounts, run_getFilteredIndexedAccounts]
    obtain ⟨e, -, hfails, -⟩ | ⟨found, hfound, -, hmem⟩ :=
      accountsOf_cases svm (getIndexedKeys accountsIndex index key)
    -- a read that fails does so under either list of filters
    · rw [hfails]
      rfl
    · rw [hfound]
      refine congrArg Outcome.ok (List.filter_congr fun x hx => ?_)
      obtain ⟨hp, hread⟩ := (hmem _ _).mp (Index.mem_existing.mp hx)
      -- accounts of other owners pass neither list
      by_cases howner : x.2.owner = programId
      · rw [Bool.eq_iff_iff, passes_iff howner, passes_iff howner]
        exact (halike x.1 hp x.2 hread howner).symm
      · simp [passes, howner]

/-! ## An account with extensions -/

def oneKey : AccountsIndex := fun _ _ => some [.ofByte 1]

/-- A virtual machine where every account is a new Token-2022 account with a suffix. -/
def extendedSvm (suffix : Bytes) : Svm
  | .getAccount _ => .ok (some (extendedAccount suffix))

theorem route_ownerFilters : route Token2022.id ownerFilters =
    some (.splTokenOwner, SplToken.Account.ownerOffset, .ofByte 4) := by
  decide +kernel

theorem isTokenAccount_extended {suffix : Bytes}
    (h : suffix = [] ∨ suffix = [Token2022.accountTypeAccount]) :
    IsTokenAccount Token2022.id (extendedAccount suffix).data := by
  rcases h with rfl | rfl
  · exact .inl ⟨by decide +kernel, by decide +kernel⟩
  · exact .inr ⟨rfl, by decide +kernel, by decide +kernel⟩

/-- An account with the account type behind its record passes the filters of a request and
is taken away by those that are added. -/
theorem extended_account_removed : ¬ ∀ (accountsIndex : AccountsIndex) (svm : Svm)
    (programId : Pubkey) (filters : List RpcFilterType) (index : AccountIndex) (offset : Nat)
    (key : Pubkey), route programId filters = some (index, offset, key) →
    (∀ p ∈ getIndexedKeys accountsIndex index key, ∀ account,
      svm (.getAccount p) = .ok (some account) → account.owner = programId →
        IsTokenAccount programId account.data) →
      RemovesNothing accountsIndex svm programId filters index offset key := by
  intro hall
  let suffix := [Token2022.accountTypeAccount]
  have hremoves := hall oneKey (extendedSvm suffix) Token2022.id ownerFilters .splTokenOwner
    SplToken.Account.ownerOffset (.ofByte 4) route_ownerFilters fun p _ account hread _ => by
      cases hread
      exact isTokenAccount_extended (.inr rfl)
  have hpass := (hremoves.account (.ofByte 1) List.mem_cons_self (extendedAccount suffix) rfl
    rfl).mp (by decide +kernel)
  revert hpass
  decide +kernel

/-- An account without extensions stays. -/
theorem plain_account_kept : RemovesNothing oneKey (extendedSvm []) Token2022.id ownerFilters
    .splTokenOwner SplToken.Account.ownerOffset (.ofByte 4) :=
  (removesNothing_iff _ _ _ _ _ _ _ route_ownerFilters fun p _ account hread _ => by
      cases hread
      exact isTokenAccount_extended (.inl rfl)).mpr fun p _ account hread _ => by
    cases hread
    exact .inl (by decide +kernel)

end MockSolana

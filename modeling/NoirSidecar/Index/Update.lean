-- SUMMARY: `update_index` as a batch of inserts, and the task that feeds it from the event stream.
import NoirSidecar.Base.Machine
import NoirSidecar.Index.Store

/-!
# Updating the index

`updateIndex` reads the accounts of some keys and inserts three entries for each
token account among them, in the order of the keys. As a program it is the batch
of the entries of what it read; a batch ends at its first failed insert.
-/

namespace Index

abbrev IndexProg := Prog (NodeCall ⊕ Call) (Sum.elim NodeCall.Answer Call.Answer)

/-! ## AccountsIndex::update_index -/

def insertIndex (entry : Entry) : IndexProg Error Unit :=
  .ask (.inr (.insertIndex entry)) Prog.ofExcept

/-- The body of the loop over the accounts. -/
def indexAccount : Pubkey × Account → IndexProg Error Unit
  | (pubkey, account) => do
    if isKnownSplTokenId account.owner then
      if let .ok tokenAccount := SplToken.Account.unpack account.data then
        let ownerKey := tokenAccount.owner
        let mintKey := tokenAccount.mint
        let programId := account.owner
        insertIndex ⟨.programId, programId, pubkey⟩
        insertIndex ⟨.splTokenOwner, ownerKey, pubkey⟩
        insertIndex ⟨.splTokenMint, mintKey, pubkey⟩

/-- The accounts that exist, with their keys. -/
def existing (accounts : List (Pubkey × Option Account)) : List (Pubkey × Account) :=
  accounts.filterMap fun (pubkey, account) => account.map fun account => (pubkey, account)

def updateIndex (pubkeys : List Pubkey) : IndexProg Error Unit := do
  let accounts ← ((Client.getAccounts pubkeys none).mapError Error.clientError).left
  (existing accounts).forM indexAccount

/-! ## The batch of a read -/

/-- The three entries of a key whose account unpacks as a token account. -/
def tokenEntries (programId : Pubkey) (token : SplToken.Account) (pubkey : Pubkey) : List Entry :=
  [⟨.programId, programId, pubkey⟩, ⟨.splTokenOwner, token.owner, pubkey⟩,
    ⟨.splTokenMint, token.mint, pubkey⟩]

/-- The account is a token account of a program the sidecar knows. -/
def ReadsAs (account : Account) (token : SplToken.Account) : Prop :=
  isKnownSplTokenId account.owner ∧ SplToken.Account.unpack account.data = .ok token

def accountEntries : Pubkey × Account → List Entry
  | (pubkey, account) =>
    if isKnownSplTokenId account.owner then
      match SplToken.Account.unpack account.data with
      | .ok token => tokenEntries account.owner token pubkey
      | .error _ => []
    else []

/-- The entries of what was read, in the order they are inserted. -/
def entriesOf (accounts : List (Pubkey × Option Account)) : List Entry :=
  (existing accounts).flatMap accountEntries

theorem mem_existing {accounts : List (Pubkey × Option Account)} {p : Pubkey} {a : Account} :
    (p, a) ∈ existing accounts ↔ (p, some a) ∈ accounts := by
  simp only [existing, List.mem_filterMap, Option.map_eq_some_iff]
  constructor
  · rintro ⟨⟨q, b⟩, hmem, a', hb, heq⟩
    obtain ⟨rfl, rfl⟩ := Prod.mk.inj heq
    simp only at hb
    rwa [← hb]
  · intro hmem
    exact ⟨_, hmem, a, rfl, rfl⟩

theorem accountEntries_of_readsAs {pubkey : Pubkey} {account : Account} {token : SplToken.Account}
    (h : ReadsAs account token) :
    accountEntries (pubkey, account) = tokenEntries account.owner token pubkey := by
  obtain ⟨hknown, hunpack⟩ := h
  simp only [accountEntries, if_pos hknown, hunpack]

theorem accountEntries_of_not_readsAs {pubkey : Pubkey} {account : Account}
    (h : ∀ token, ¬ ReadsAs account token) : accountEntries (pubkey, account) = [] := by
  cases hknown : isKnownSplTokenId account.owner with
  | false => simp [accountEntries, hknown]
  | true =>
    cases hunpack : SplToken.Account.unpack account.data with
    | error e => simp [accountEntries, hunpack]
    | ok token => exact absurd ⟨hknown, hunpack⟩ (h token)

theorem nodup_accountEntries (p : Pubkey × Account) : (accountEntries p).Nodup := by
  by_cases h : ∃ token, ReadsAs p.2 token
  · obtain ⟨token, hreads⟩ := h
    rw [accountEntries_of_readsAs hreads]
    simp [tokenEntries]
  · rw [accountEntries_of_not_readsAs (not_exists.mp h)]
    exact List.nodup_nil

/-- Every entry of a batch comes from a token account that was read. -/
theorem mem_entriesOf {accounts : List (Pubkey × Option Account)} {e : Entry} :
    e ∈ entriesOf accounts ↔ ∃ pubkey account token, (pubkey, some account) ∈ accounts ∧
      ReadsAs account token ∧ e ∈ tokenEntries account.owner token pubkey := by
  simp only [entriesOf, List.mem_flatMap]
  constructor
  · rintro ⟨⟨pubkey, account⟩, hmem, he⟩
    by_cases h : ∃ token, ReadsAs account token
    · obtain ⟨token, hreads⟩ := h
      rw [accountEntries_of_readsAs hreads] at he
      exact ⟨pubkey, account, token, mem_existing.mp hmem, hreads, he⟩
    · rw [accountEntries_of_not_readsAs (not_exists.mp h)] at he
      cases he
  · rintro ⟨pubkey, account, token, hmem, hreads, he⟩
    exact ⟨_, mem_existing.mpr hmem, by rwa [accountEntries_of_readsAs hreads]⟩

theorem indexedKey_of_mem_tokenEntries {programId pubkey : Pubkey} {token : SplToken.Account}
    {e : Entry} (h : e ∈ tokenEntries programId token pubkey) : e.indexedKey = pubkey := by
  simp only [tokenEntries, List.mem_cons, List.not_mem_nil, or_false] at h
  rcases h with rfl | rfl | rfl <;> rfl

theorem indexedKey_of_mem_accountEntries {p : Pubkey × Account} {e : Entry}
    (h : e ∈ accountEntries p) : e.indexedKey = p.1 := by
  by_cases hreads : ∃ token, ReadsAs p.2 token
  · obtain ⟨token, hreads⟩ := hreads
    rw [accountEntries_of_readsAs hreads] at h
    exact indexedKey_of_mem_tokenEntries h
  · rw [accountEntries_of_not_readsAs (not_exists.mp hreads)] at h
    cases h

/-- Where no key is read twice no entry comes up twice. -/
theorem nodup_entriesOf {accounts : List (Pubkey × Option Account)}
    (h : (accounts.map Prod.fst).Nodup) : (entriesOf accounts).Nodup := by
  induction accounts with
  | nil => exact List.nodup_nil
  | cons p accounts ih =>
    obtain ⟨pubkey, account⟩ := p
    obtain ⟨hnew, hrest⟩ := List.nodup_cons.mp h
    cases account with
    | none => exact ih hrest
    | some account =>
      refine List.nodup_append.mpr ⟨nodup_accountEntries (pubkey, account), ih hrest, ?_⟩
      rintro e he _ he' rfl
      obtain ⟨q, a, token, hmem, -, hentry⟩ := mem_entriesOf.mp he'
      refine hnew (List.mem_map.mpr ⟨(q, some a), hmem, ?_⟩)
      exact (indexedKey_of_mem_tokenEntries hentry).symm.trans (indexedKey_of_mem_accountEntries he)

/-- The body of the loop inserts the entries of its account. -/
theorem indexAccount_eq (p : Pubkey × Account) :
    indexAccount p = (accountEntries p).forM insertIndex := by
  obtain ⟨pubkey, account⟩ := p
  cases hknown : isKnownSplTokenId account.owner with
  | false => simp [indexAccount, accountEntries, hknown]
  | true =>
    cases hunpack : SplToken.Account.unpack account.data with
    | error e => simp [indexAccount, accountEntries, hknown, hunpack]
    | ok token => simp [indexAccount, accountEntries, hknown, hunpack, tokenEntries]

theorem forM_indexAccount (accounts : List (Pubkey × Account)) :
    accounts.forM indexAccount = (accounts.flatMap accountEntries).forM insertIndex := by
  induction accounts with
  | nil => rfl
  | cons p accounts ih =>
    change (indexAccount p >>= fun _ => accounts.forM indexAccount) = _
    rw [List.flatMap_cons, ih, indexAccount_eq]
    exact (List.forM_append (f := insertIndex)).symm

/-! ## Runs -/

variable {σ : Type}

/-- Insert entries one after another, up to the first that fails. -/
def insertEntries (index : AccountsIndex σ) : List Entry → σ → Except Error Unit × σ
  | [], s => (.ok (), s)
  | e :: entries, s =>
    match index (.insertIndex e) s with
    | (.ok (), s) => insertEntries index entries s
    | (.error e, s) => (.error e, s)

theorem exec_forM_insertIndex (node : Node) (index : AccountsIndex σ) (entries : List Entry)
    (s : σ) : (entries.forM insertIndex).exec (Prog.beside node index) s =
      (.ofExcept (insertEntries index entries s).1, (insertEntries index entries s).2) := by
  induction entries generalizing s with
  | nil => rfl
  | cons e entries ih =>
    change (insertIndex e >>= fun _ => entries.forM insertIndex).exec _ s = _
    have hone : (insertIndex e).exec (Prog.beside node index) s =
        (.ofExcept (index (.insertIndex e) s).1, (index (.insertIndex e) s).2) :=
      Prog.exec_ofExcept _ _
    rw [Prog.exec_bind, hone]
    unfold insertEntries
    cases h : index (.insertIndex e) s with
    | mk result s' =>
      cases result with
      | error e => rfl
      | ok u => exact ih s'

/-- `update_index` against a node and a backend: the outcome and the backend's state. -/
def update (index : AccountsIndex σ) (node : Node) (pubkeys : List Pubkey) (s : σ) :
    Outcome Error Unit × σ :=
  (updateIndex pubkeys).exec (Prog.beside node index) s

/-- What `update_index` does once its read is known. -/
theorem update_eq (index : AccountsIndex σ) (node : Node) (pubkeys : List Pubkey) (s : σ) :
    update index node pubkeys s =
      match (Client.getAccounts pubkeys none).run node with
      | .ok accounts => (.ofExcept (insertEntries index (entriesOf accounts) s).1,
          (insertEntries index (entriesOf accounts) s).2)
      | .error e => (.error (.clientError e), s)
      | .panicked => (.panicked, s) := by
  unfold update updateIndex
  rw [Prog.exec_bind, Prog.exec_left, Prog.run_mapError]
  cases (Client.getAccounts pubkeys none).run node with
  | panicked => rfl
  | error e => rfl
  | ok accounts =>
    simp only [Outcome.mapError_ok]
    rw [forM_indexAccount, exec_forM_insertIndex]
    rfl

/-! ## Batches on the database -/

theorem insertEntries_cons (engine : Engine) (e : Entry) (entries : List Entry) (db : Db) :
    insertEntries engine.accountsIndex (e :: entries) db =
      match (engine.insertIndex e db).1 with
      | .ok () => insertEntries engine.accountsIndex entries (engine.insertIndex e db).2
      | .error err => (.error err, (engine.insertIndex e db).2) := by
  have hinsert : engine.accountsIndex (.insertIndex e) db = engine.insertIndex e db := rfl
  rw [insertEntries, hinsert]
  cases engine.insertIndex e db with
  | mk result db' => cases result <;> rfl

/-- A batch that meets no fault adds its entries up to the first one that is
already there, and succeeds if there is none such. -/
theorem insertEntries_calm (engine : Engine) {entries : List Entry} {db : Db} (h : db.Calm) :
    (insertEntries engine.accountsIndex entries db).2.table.rows =
        db.table.rows ++ (Batch.admitted db.Holds entries).map Entry.row ∧
      (insertEntries engine.accountsIndex entries db).2.Calm ∧
      ((insertEntries engine.accountsIndex entries db).1 = .ok () ↔
        Batch.admitted db.Holds entries = entries) := by
  induction entries generalizing db with
  | nil => exact ⟨by simp [insertEntries, Batch.admitted], h, by simp [insertEntries, Batch.admitted]⟩
  | cons e entries ih =>
    obtain ⟨hnone, hnext⟩ := h.next
    rw [insertEntries_cons]
    obtain ⟨⟨err, herr⟩, hdb, hpresent⟩ | ⟨hok, hrows, -, hnew, -⟩ :=
      engine.insertIndex_cases e db
    · have hpresent : db.Holds e := hpresent.resolve_right (not_not.mpr hnone)
      rw [Batch.admitted_cons_of_present hpresent, herr, hdb]
      exact ⟨by simp, hnext, by simp⟩
    · have hcalm : (engine.insertIndex e db).2.Calm := engine.calm_insertIndex e h
      have hholds : ∀ q, (engine.insertIndex e db).2.Holds q ↔ db.Holds q ∨ q = e := by
        intro q
        rw [engine.holds_insertIndex, and_iff_left hok]
      obtain ⟨hrows', hcalm', hok'⟩ := ih hcalm
      rw [Batch.admitted_congr hholds] at hrows' hok'
      rw [Batch.admitted_cons_of_not_present hnew, hok]
      refine ⟨?_, hcalm', ?_⟩
      · simp only [hrows', hrows, List.map_cons, List.append_assoc, List.singleton_append]
      · simp only [hok', List.cons.injEq, true_and]

theorem holds_insertEntries (engine : Engine) {entries : List Entry} {db : Db} (h : db.Calm)
    (e : Entry) : (insertEntries engine.accountsIndex entries db).2.Holds e ↔
      db.Holds e ∨ e ∈ Batch.admitted db.Holds entries :=
  Db.holds_of_rows_append (insertEntries_calm engine h).1 e

/-- A batch of distinct new entries succeeds. -/
theorem insertEntries_of_new (engine : Engine) {entries : List Entry} {db : Db} (h : db.Calm)
    (hnodup : entries.Nodup) (hnew : ∀ e ∈ entries, ¬ db.Holds e) :
    (insertEntries engine.accountsIndex entries db).1 = .ok () :=
  (insertEntries_calm engine h).2.2.mpr (Batch.admitted_of_new hnodup hnew)

/-- Whatever faults a batch meets: it appends the entries it begins with, which are all
new, up to the first that is already there or meets a fault. -/
theorem insertEntries_cases (engine : Engine) (entries : List Entry) (db : Db) :
    ∃ done rest, entries = done ++ rest ∧
      (insertEntries engine.accountsIndex entries db).2.table.rows =
        db.table.rows ++ done.map Entry.row ∧
      (∀ i < done.length, ¬ db.Faulty i) ∧ (∀ e ∈ done, ¬ db.Holds e) ∧ done.Nodup ∧
      (rest = [] ∧ (insertEntries engine.accountsIndex entries db).1 = .ok () ∧
          (∀ i, (insertEntries engine.accountsIndex entries db).2.Faulty i ↔
            db.Faulty (done.length + i)) ∨
        ∃ e after err, rest = e :: after ∧
          (insertEntries engine.accountsIndex entries db).1 = .error err ∧
          (db.Faulty done.length ∨ db.Holds e ∨ e ∈ done)) := by
  induction entries generalizing db with
  | nil => exact ⟨[], [], rfl, by simp [insertEntries], by simp, by simp, .nil, .inl ⟨rfl, rfl, by simp [insertEntries]⟩⟩
  | cons e entries ih =>
    rw [insertEntries_cons]
    obtain ⟨⟨err, herr⟩, hdb, hwhy⟩ | ⟨hok, hrows, -, hnew, hnone⟩ :=
      engine.insertIndex_cases e db
    -- the first entry fails, and the batch stops before it
    · rw [herr, hdb]
      refine ⟨[], e :: entries, rfl, by simp, by simp, by simp, .nil, .inr ⟨e, entries, err, rfl, rfl, ?_⟩⟩
      rw [ne_eq, Db.next_eq_none_iff, not_not] at hwhy
      exact hwhy.symm.imp id .inl
    · rw [hok]
      dsimp only
      -- otherwise the rest meets a table with one entry more
      have hholds : ∀ q, (engine.insertIndex e db).2.Holds q ↔ db.Holds q ∨ q = e := by
        intro q
        rw [engine.holds_insertIndex, and_iff_left hok]
      obtain ⟨done, rest, rfl, hrows', hclear, hfresh, hnodup, hend⟩ := ih (engine.insertIndex e db).2
      simp only [engine.faulty_insertIndex, hholds, not_or] at hclear hfresh hend
      refine ⟨e :: done, rest, rfl, by rw [hrows', hrows]; simp, ?_, ?_, ?_, ?_⟩
      · intro i hi
        cases i with
        | zero => exact Db.next_eq_none_iff.mp hnone
        | succ i => exact hclear i (by simpa using hi)
      · intro q hq
        rcases List.mem_cons.mp hq with rfl | hq
        · exact hnew
        · exact (hfresh q hq).1
      · exact List.nodup_cons.mpr ⟨fun he => (hfresh e he).2 rfl, hnodup⟩
      · rcases hend with ⟨hrest, hok', hfaults'⟩ | ⟨q, after, err, hrest, herr, hwhy⟩
        · refine .inl ⟨hrest, hok', fun i => ?_⟩
          rw [hfaults', List.length_cons, Nat.add_right_comm]
        · refine .inr ⟨q, after, err, hrest, herr, ?_⟩
          rw [List.length_cons, List.mem_cons]
          tauto

/-- A batch changes no row, and appends entries it begins with. -/
theorem insertEntries_rows (engine : Engine) (entries : List Entry) (db : Db) :
    ∃ done, done <+: entries ∧ (insertEntries engine.accountsIndex entries db).2.table.rows =
      db.table.rows ++ done.map Entry.row := by
  obtain ⟨done, rest, hentries, hrows, -⟩ := insertEntries_cases engine entries db
  exact ⟨done, ⟨rest, hentries.symm⟩, hrows⟩

/-- No insert takes an entry away. -/
theorem holds_mono (engine : Engine) {entries : List Entry} {db : Db} {e : Entry}
    (h : db.Holds e) : (insertEntries engine.accountsIndex entries db).2.Holds e := by
  obtain ⟨done, -, hrows⟩ := insertEntries_rows engine entries db
  exact (Db.holds_of_rows_append hrows e).mpr (.inl h)

/-- A batch without a failed insert is in the table. -/
theorem holds_of_insertEntries_ok (engine : Engine) {entries : List Entry} {db : Db}
    (h : (insertEntries engine.accountsIndex entries db).1 = .ok ()) :
    ∀ e ∈ entries, (insertEntries engine.accountsIndex entries db).2.Holds e := by
  induction entries generalizing db with
  | nil => simp
  | cons e entries ih =>
    rw [insertEntries_cons] at h ⊢
    cases hinsert : (engine.insertIndex e db).1 with
    | error err =>
      rw [hinsert] at h
      cases h
    | ok u =>
      rw [hinsert] at h
      have hone : (engine.insertIndex e db).2.Holds e :=
        (engine.holds_insertIndex e db e).mpr (.inr ⟨rfl, hinsert⟩)
      intro q hq
      rcases List.mem_cons.mp hq with rfl | hq
      · exact holds_mono engine hone
      · exact ih h q hq

end Index

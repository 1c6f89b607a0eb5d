-- SUMMARY: The accounts index: its calls, the SQL table behind it, and the two backends.
import NoirSidecar.Base.Table
import NoirSidecar.Client.Node
import Mathlib.Data.List.Sort
import Mathlib.Data.Set.List

/-!
# The accounts index store

Three indexes share one table of texts whose rows are unique. Both backends run
the same statements on it and differ in how they report what went wrong, in the
order a `SELECT` happens to list rows, and in how texts are ordered.

A call may meet a fault of the backend. The faults to come are part of the state
of the database, so that a result holds for any pattern of them.
-/

/-! ## Entries and calls -/

inductive AccountIndex where
  | programId
  | splTokenMint
  | splTokenOwner
  deriving DecidableEq, Repr

def getIndexName : AccountIndex → String
  | .programId => "program_id"
  | .splTokenMint => "spl_token_mint"
  | .splTokenOwner => "spl_token_owner"

theorem getIndexName_injective : Function.Injective getIndexName := by
  intro i j h
  cases i <;> cases j <;> first | rfl | exact absurd h (by decide)

namespace Index

inductive SqliteError where
  | failure (text : String)
  | statementChangedRows (n : Nat)
  deriving DecidableEq, Repr

inductive Error where
  | sqliteError (e : SqliteError)
  | postgresError (text : String)
  | parsePubkeyError (e : ParsePubkeyError)
  | unexpectedRowCount (n : Nat)
  | mutexError
  | poolError
  | clientError (e : Client.Error)
  | programError (e : ProgramError)
  deriving DecidableEq, Repr

/-- An indexed key under an index key of one of the indexes. -/
structure Entry where
  index : AccountIndex
  indexKey : Pubkey
  indexedKey : Pubkey
  deriving DecidableEq, Repr

/-- The calls of `traits::AccountsIndex` once the index has been created. -/
inductive Call where
  | getIndexedKeys (index : AccountIndex) (indexKey : Pubkey) (sortResults : Bool)
  | insertIndex (entry : Entry)
  deriving DecidableEq, Repr

@[reducible] def Call.Answer : Call → Type
  | .getIndexedKeys .. => Except Error (List Pubkey)
  | .insertIndex _ => Except Error Unit

end Index

/-- `traits::AccountsIndex`: a backend with states `σ`. -/
abbrev AccountsIndex (σ : Type) := ∀ call : Index.Call, σ → call.Answer × σ

namespace Index

/-! ## The database -/

/-- A row of the table `accounts_index`. -/
structure Row where
  indexName : String
  indexKey : String
  indexedKey : String
  deriving DecidableEq, Repr

def Entry.row (e : Entry) : Row where
  indexName := getIndexName e.index
  indexKey := e.indexKey.toString
  indexedKey := e.indexedKey.toString

theorem Entry.row_injective : Function.Injective Entry.row := by
  rintro ⟨i, k, p⟩ ⟨j, l, q⟩ h
  simp only [Entry.row, Row.mk.injEq] at h
  rw [getIndexName_injective h.1, Pubkey.toString_injective h.2.1,
    Pubkey.toString_injective h.2.2]

/-- No connection can be had, or a statement fails. -/
inductive Fault where
  | unavailable
  | statement (text : String)
  deriving DecidableEq, Repr

/-- Only `insertIndex` writes to the table, so every row is that of an entry.
`faults` says what the calls to come meet; after its end they meet nothing. -/
structure Db where
  table : Table Row
  written : ∀ r ∈ table.rows, ∃ e : Entry, e.row = r
  faults : List (Option Fault)

def Db.empty (faults : List (Option Fault)) : Db where
  table := .empty
  written := fun _ h => absurd h (List.not_mem_nil)
  faults := faults

/-- What the next call meets, and the database it finds. -/
def Db.next (db : Db) : Option Fault × Db :=
  match db.faults with
  | [] => (none, db)
  | fault :: faults => (fault, { db with faults := faults })

/-- The outcome of `INSERT INTO accounts_index`: the number of rows inserted, or
a violation of the UNIQUE constraint. -/
def Db.execute (db : Db) (e : Entry) : Option (Nat × Db) :=
  if h : e.row ∈ db.table.rows then none
  else some (1, {
    table := db.table.append e.row h
    written := by
      intro r hr
      rcases List.mem_append.mp hr with hr | hr
      · exact db.written r hr
      · exact ⟨e, (List.mem_singleton.mp hr).symm⟩
    faults := db.faults })

/-! ## The backends -/

/-- What the backends do not share. `scan` is the order of a `SELECT` without
`ORDER BY`, `le` the collation of one with it. -/
structure Engine where
  unavailable : Error
  statementFailed : String → Error
  unchanged : Nat → Error
  scan : List String → List String
  scan_perm : ∀ l, (scan l).Perm l
  le : String → String → Bool

def uniqueViolation : String :=
  "UNIQUE constraint failed: accounts_index.index_name, accounts_index.index_key, accounts_index.indexed_key"

/-- The loop over the rows of a result. -/
def readKeys : List String → Except Error (List Pubkey)
  | [] => .ok []
  | key :: rows =>
    match Pubkey.fromStr key with
    | .error e => .error (.parsePubkeyError e)
    | .ok pubkey => (readKeys rows).map (pubkey :: ·)

namespace Engine

variable (engine : Engine)

def fails : Fault → Error
  | .unavailable => engine.unavailable
  | .statement text => engine.statementFailed text

/-- The rows the query lists for an index key, as texts of the indexed keys. -/
def select (db : Db) (index : AccountIndex) (indexKey : Pubkey) (sortResults : Bool) :
    List String :=
  let keys := (db.table.rows.filter fun r =>
    r.indexName == getIndexName index && r.indexKey == indexKey.toString).map Row.indexedKey
  if sortResults then keys.mergeSort engine.le else engine.scan keys

def getIndexedKeys (index : AccountIndex) (indexKey : Pubkey) (sortResults : Bool) (db : Db) :
    Except Error (List Pubkey) × Db :=
  match db.next with
  | (some fault, db) => (.error (engine.fails fault), db)
  | (none, db) => (readKeys (engine.select db index indexKey sortResults), db)

def insertIndex (entry : Entry) (db : Db) : Except Error Unit × Db :=
  match db.next with
  | (some fault, db) => (.error (engine.fails fault), db)
  | (none, db) =>
    match db.execute entry with
    | none => (.error (engine.statementFailed uniqueViolation), db)
    | some (inserted, db) =>
      if inserted = 0 then (.error (engine.unchanged inserted), db) else (.ok (), db)

def accountsIndex : AccountsIndex Db
  | .getIndexedKeys index indexKey sortResults => engine.getIndexedKeys index indexKey sortResults
  | .insertIndex entry => engine.insertIndex entry

end Engine

/-- Texts are ordered by their bytes, which is SQLite's default. -/
def sqlite (scan : List String → List String) (scan_perm : ∀ l, (scan l).Perm l) : Engine where
  unavailable := .mutexError
  statementFailed := fun text => .sqliteError (.failure text)
  unchanged := fun n => .sqliteError (.statementChangedRows n)
  scan := scan
  scan_perm := scan_perm
  le := fun a b => decide (a ≤ b)

/-- The collation is the one the PostgreSQL database was created with. -/
def postgres (scan : List String → List String) (scan_perm : ∀ l, (scan l).Perm l)
    (le : String → String → Bool) : Engine where
  unavailable := .poolError
  statementFailed := .postgresError
  unchanged := .unexpectedRowCount
  scan := scan
  scan_perm := scan_perm
  le := le

/-- SQLite answers a query without `ORDER BY` from the UNIQUE index, whose rows are in
the order of their texts. -/
def sqliteEngine : Engine := sqlite (List.insertionSort (· ≤ ·)) (List.perm_insertionSort _)

/-! ## What the calls do -/

namespace Db

/-- The entries the table stands for. -/
def Holds (db : Db) (e : Entry) : Prop := e.row ∈ db.table.rows

instance (db : Db) (e : Entry) : Decidable (db.Holds e) :=
  inferInstanceAs (Decidable (_ ∈ _))

/-- No call to come meets a fault. -/
def Calm (db : Db) : Prop := ∀ fault ∈ db.faults, fault = none

/-- The call after the next `i` ones meets a fault. -/
def Faulty (db : Db) (i : Nat) : Prop := ∃ fault, db.faults[i]? = some (some fault)

theorem calm_empty : (Db.empty []).Calm := fun _ h => absurd h (List.not_mem_nil)

@[simp] theorem not_holds_empty (faults : List (Option Fault)) (e : Entry) :
    ¬ (Db.empty faults).Holds e := List.not_mem_nil

/-- A table to which the rows of some entries have been added. -/
theorem holds_of_rows_append {db db' : Db} {added : List Entry}
    (h : db'.table.rows = db.table.rows ++ added.map Entry.row) (e : Entry) :
    db'.Holds e ↔ db.Holds e ∨ e ∈ added := by
  simp only [Holds, h, List.mem_append, List.mem_map_of_injective Entry.row_injective]

@[simp] theorem table_next (db : Db) : db.next.2.table = db.table := by
  unfold next
  split <;> rfl

@[simp] theorem holds_next (db : Db) (e : Entry) : db.next.2.Holds e ↔ db.Holds e := by
  simp only [Holds, table_next]

@[simp] theorem faults_next (db : Db) : db.next.2.faults = db.faults.drop 1 := by
  unfold next
  split
  · next h => rw [h]; rfl
  · next h => rw [h]; rfl

theorem Calm.next {db : Db} (h : db.Calm) : db.next.1 = none ∧ db.next.2.Calm := by
  unfold Db.next
  split
  · exact ⟨rfl, h⟩
  · next fault faults heq =>
    unfold Calm at h ⊢
    rw [heq] at h
    exact ⟨h fault (by simp), fun f hf => h f (by simp [hf])⟩

theorem next_eq_none_iff {db : Db} : db.next.1 = none ↔ ¬ db.Faulty 0 := by
  unfold Db.next Faulty
  split <;> simp_all [Option.eq_none_iff_forall_ne_some]

end Db

theorem readKeys_map_toString (keys : List Pubkey) :
    readKeys (keys.map Pubkey.toString) = .ok keys := by
  induction keys with
  | nil => rfl
  | cons p keys ih => simp [readKeys, ih, Except.map]

namespace Engine

variable (engine : Engine)

theorem select_perm (db : Db) (index : AccountIndex) (indexKey : Pubkey) (sortResults : Bool) :
    (engine.select db index indexKey sortResults).Perm
      ((db.table.rows.filter fun r =>
        r.indexName == getIndexName index && r.indexKey == indexKey.toString).map
          Row.indexedKey) := by
  unfold select
  cases sortResults with
  | true => exact List.mergeSort_perm _ _
  | false => exact engine.scan_perm _

theorem mem_select {db : Db} {index : AccountIndex} {indexKey : Pubkey} {sortResults : Bool}
    {text : String} : text ∈ engine.select db index indexKey sortResults ↔
      (⟨getIndexName index, indexKey.toString, text⟩ : Row) ∈ db.table.rows := by
  rw [(engine.select_perm db index indexKey sortResults).mem_iff]
  simp only [List.mem_map, List.mem_filter, Bool.and_eq_true, beq_iff_eq]
  constructor
  · rintro ⟨⟨name, key, text⟩, ⟨hr, rfl, rfl⟩, rfl⟩
    exact hr
  · intro hr
    exact ⟨_, ⟨hr, rfl, rfl⟩, rfl⟩

theorem nodup_select (db : Db) (index : AccountIndex) (indexKey : Pubkey) (sortResults : Bool) :
    (engine.select db index indexKey sortResults).Nodup := by
  rw [(engine.select_perm db index indexKey sortResults).nodup_iff]
  refine List.Nodup.map_on ?_ (db.table.nodup.filter _)
  rintro ⟨n, k, t⟩ hr ⟨n', k', t'⟩ hr' ht
  simp only [List.mem_filter, Bool.and_eq_true, beq_iff_eq] at hr hr'
  rw [hr.2.1, hr.2.2, hr'.2.1, hr'.2.2]
  exact congrArg _ ht

/-- The rows listed for an index key are the texts of the keys held under it, each once. -/
theorem select_eq (db : Db) (index : AccountIndex) (indexKey : Pubkey) (sortResults : Bool) :
    ∃ keys : List Pubkey, engine.select db index indexKey sortResults = keys.map Pubkey.toString ∧
      keys.Nodup ∧ ∀ p, p ∈ keys ↔ db.Holds ⟨index, indexKey, p⟩ := by
  have htext : engine.select db index indexKey sortResults ∈
      Set.range (List.map Pubkey.toString) := by
    rw [Set.range_list_map]
    intro text htext
    obtain ⟨e, he⟩ := db.written _ (engine.mem_select.mp htext)
    exact ⟨e.indexedKey, congrArg Row.indexedKey he⟩
  obtain ⟨keys, hkeys⟩ := htext
  refine ⟨keys, hkeys.symm, ?_, fun p => ?_⟩
  · have hnodup := engine.nodup_select db index indexKey sortResults
    rw [← hkeys] at hnodup
    exact hnodup.of_map
  · rw [← List.mem_map_of_injective Pubkey.toString_injective, hkeys, engine.mem_select]
    rfl

/-- A read that meets no fault returns the keys held under the index key, each once. -/
theorem getIndexedKeys_ok {db : Db} (h : db.next.1 = none) (index : AccountIndex)
    (indexKey : Pubkey) (sortResults : Bool) : ∃ keys : List Pubkey,
      engine.getIndexedKeys index indexKey sortResults db = (.ok keys, db.next.2) ∧
      keys.Nodup ∧ ∀ p, p ∈ keys ↔ db.Holds ⟨index, indexKey, p⟩ := by
  obtain ⟨keys, hkeys, hnodup, hmem⟩ := engine.select_eq db.next.2 index indexKey sortResults
  refine ⟨keys, ?_, hnodup, fun p => by rw [hmem, Db.holds_next]⟩
  unfold getIndexedKeys
  split
  · next fault db' heq => simp [heq] at h
  · next db' heq =>
    rw [heq] at hkeys ⊢
    rw [hkeys, readKeys_map_toString]

@[simp] theorem select_next (db : Db) (index : AccountIndex) (indexKey : Pubkey)
    (sortResults : Bool) :
    engine.select db.next.2 index indexKey sortResults =
      engine.select db index indexKey sortResults := by
  simp only [select, Db.table_next]

/-- A read that succeeds returns the keys of the rows listed, in their order. -/
theorem select_of_getIndexedKeys {db : Db} {index : AccountIndex} {indexKey : Pubkey}
    {sortResults : Bool} {keys : List Pubkey}
    (h : (engine.getIndexedKeys index indexKey sortResults db).1 = .ok keys) :
    engine.select db index indexKey sortResults = keys.map Pubkey.toString := by
  obtain ⟨keys', hkeys, -, -⟩ := engine.select_eq db index indexKey sortResults
  unfold getIndexedKeys at h
  split at h
  · cases h
  · next db' heq =>
    have hread : readKeys (engine.select db.next.2 index indexKey sortResults) = .ok keys := by
      rwa [heq]
    rw [select_next, hkeys, readKeys_map_toString] at hread
    cases hread
    exact hkeys

/-- A read that succeeds returns the keys held under the index key, each once. -/
theorem nodup_getIndexedKeys {db : Db} {index : AccountIndex} {indexKey : Pubkey}
    {sortResults : Bool} {keys : List Pubkey}
    (h : (engine.getIndexedKeys index indexKey sortResults db).1 = .ok keys) :
    keys.Nodup ∧ ∀ p, p ∈ keys ↔ db.Holds ⟨index, indexKey, p⟩ := by
  obtain ⟨keys', hkeys, hnodup, hmem⟩ := engine.select_eq db index indexKey sortResults
  rw [engine.select_of_getIndexedKeys h] at hkeys
  rw [List.map_injective_iff.mpr Pubkey.toString_injective hkeys]
  exact ⟨hnodup, hmem⟩

/-- Every read of the index key returns the indexed key of the entry. -/
def Lists (db : Db) (e : Entry) : Prop :=
  ∀ sortResults, ∃ keys : List Pubkey,
    (engine.getIndexedKeys e.index e.indexKey sortResults db).1 = .ok keys ∧ e.indexedKey ∈ keys

theorem lists_iff {db : Db} (h : db.Calm) (e : Entry) : engine.Lists db e ↔ db.Holds e := by
  have hread := fun sortResults =>
    engine.getIndexedKeys_ok h.next.1 e.index e.indexKey sortResults
  constructor
  · intro hlists
    obtain ⟨keys, hkeys, hmem⟩ := hlists true
    obtain ⟨keys', heq, -, hiff⟩ := hread true
    rw [heq] at hkeys
    cases hkeys
    exact (hiff _).mp hmem
  · intro hholds sortResults
    obtain ⟨keys, heq, -, hiff⟩ := hread sortResults
    exact ⟨keys, by rw [heq], (hiff _).mpr hholds⟩

/-- What an insert can do: it fails and leaves the table alone, or it adds an entry
that was not there. -/
theorem insertIndex_cases (entry : Entry) (db : Db) :
    ((∃ e, (engine.insertIndex entry db).1 = .error e) ∧
      (engine.insertIndex entry db).2 = db.next.2 ∧ (db.Holds entry ∨ db.next.1 ≠ none)) ∨
    ((engine.insertIndex entry db).1 = .ok () ∧
      (engine.insertIndex entry db).2.table.rows = db.table.rows ++ [entry.row] ∧
      (engine.insertIndex entry db).2.faults = db.next.2.faults ∧
      ¬ db.Holds entry ∧ db.next.1 = none) := by
  unfold insertIndex
  split
  · next fault db' heq =>
    refine .inl ⟨⟨_, rfl⟩, ?_, .inr ?_⟩ <;> rw [heq]
    simp
  · next db' heq =>
    have hnext : db' = db.next.2 := by rw [heq]
    have hcalm : db.next.1 = none := by rw [heq]
    subst hnext
    by_cases hmem : db.next.2.Holds entry
    · have hexec : db.next.2.execute entry = none := dif_pos hmem
      rw [hexec]
      exact .inl ⟨⟨_, rfl⟩, rfl, .inl ((db.holds_next entry).mp hmem)⟩
    · have hexec : ∃ db', db.next.2.execute entry = some (1, db') ∧
          db'.table.rows = db.next.2.table.rows ++ [entry.row] ∧ db'.faults = db.next.2.faults :=
        ⟨_, dif_neg hmem, rfl, rfl⟩
      obtain ⟨db', hexec, hrows, hfaults⟩ := hexec
      rw [hexec]
      refine .inr ⟨rfl, ?_, hfaults, fun h => hmem ((db.holds_next entry).mpr h), hcalm⟩
      simpa using hrows

/-- One insert: its entry is held afterwards if it succeeded, and all else is as before. -/
theorem holds_insertIndex (entry : Entry) (db : Db) (e : Entry) :
    (engine.insertIndex entry db).2.Holds e ↔
      db.Holds e ∨ e = entry ∧ (engine.insertIndex entry db).1 = .ok () := by
  obtain ⟨⟨err, herr⟩, hdb, -⟩ | ⟨hok, hrows, -, -, -⟩ := engine.insertIndex_cases entry db
  · rw [herr, hdb, Db.holds_next]
    simp
  · have hheld := @Db.holds_of_rows_append db _ [entry] hrows e
    rw [hheld, List.mem_singleton, and_iff_left hok]

/-- One insert takes one fault, whether it is one or not. -/
theorem faults_insertIndex (entry : Entry) (db : Db) :
    (engine.insertIndex entry db).2.faults = db.faults.drop 1 := by
  obtain ⟨-, hdb, -⟩ | ⟨-, -, hfaults, -, -⟩ := engine.insertIndex_cases entry db
  · rw [hdb, Db.faults_next]
  · rw [hfaults, Db.faults_next]

theorem faulty_insertIndex (entry : Entry) (db : Db) (i : Nat) :
    (engine.insertIndex entry db).2.Faulty i ↔ db.Faulty (i + 1) := by
  simp only [Db.Faulty, engine.faults_insertIndex, List.getElem?_drop, Nat.add_comm 1 i]

theorem calm_insertIndex (entry : Entry) {db : Db} (h : db.Calm) :
    (engine.insertIndex entry db).2.Calm := by
  intro fault hfault
  rw [engine.faults_insertIndex] at hfault
  exact h fault (List.mem_of_mem_drop hfault)

end Engine

end Index

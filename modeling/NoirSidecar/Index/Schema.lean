-- SUMMARY: `create_index` of both backends, and what an attempt that stops half way makes of the next one.
import NoirSidecar.Base.Machine
import NoirSidecar.Base.Interaction
import NoirSidecar.Base.Transaction
import NoirSidecar.Index.Store

/-!
# Creating the index

Both backends look the table up and leave everything as it is when it is there. Otherwise
SQLite creates the table and its indexes within one transaction, PostgreSQL with a
statement each. Neither rolls anything back when a statement fails, so a later attempt may
find the table without the rest.
-/

namespace Index

/-! ## The schema -/

/-- All columns are `TEXT NOT NULL`. `unique` are the columns of the UNIQUE constraint. -/
structure TableDef where
  name : String
  columns : List String
  unique : List String
  deriving DecidableEq, Repr

structure IndexDef where
  name : String
  table : String
  columns : List String
  deriving DecidableEq, Repr

/-- What `sqlite_master` or `information_schema` lists. -/
structure Catalog where
  tables : List TableDef
  indexes : List IndexDef
  deriving DecidableEq, Repr

/-- `CREATE TABLE IF NOT EXISTS` and `CREATE INDEX`. -/
inductive Definition where
  | createTable (table : TableDef)
  | createIndex (index : IndexDef)
  deriving DecidableEq, Repr

def Catalog.hasTable (c : Catalog) (name : String) : Bool := c.tables.any (·.name == name)

inductive Backend where
  | sqlite
  | postgres
  deriving DecidableEq, Repr

/-- What the backends say of a table that is not there and of an index that is. -/
def Backend.noSuchTable : Backend → String → String
  | .sqlite => fun name => s!"no such table: main.{name}"
  | .postgres => fun name => s!"relation \"{name}\" does not exist"

def Backend.alreadyExists : Backend → String → String
  | .sqlite => fun name => s!"index {name} already exists"
  | .postgres => fun name => s!"relation \"{name}\" already exists"

def Definition.effect (b : Backend) : Definition → Catalog → Except String Catalog
  | .createTable table, c =>
    if c.hasTable table.name then .ok c else .ok { c with tables := c.tables ++ [table] }
  | .createIndex index, c =>
    if !c.hasTable index.table then .error (b.noSuchTable index.table)
    else if c.indexes.any (·.name == index.name) then .error (b.alreadyExists index.name)
    else .ok { c with indexes := c.indexes ++ [index] }

def accountsIndexTable : TableDef where
  name := "accounts_index"
  columns := ["index_name", "index_key", "indexed_key"]
  unique := ["index_name", "index_key", "indexed_key"]

def nameAndKeyIndex : IndexDef where
  name := "index_accounts_index_index_name_and_index_key"
  table := "accounts_index"
  columns := ["index_name", "index_key"]

def indexedKeyIndex : IndexDef where
  name := "index_accounts_index_indexed_key"
  table := "accounts_index"
  columns := ["indexed_key"]

def Catalog.empty : Catalog := ⟨[], []⟩

/-- The table and both secondary indexes. -/
def Catalog.complete : Catalog := ⟨[accountsIndexTable], [nameAndKeyIndex, indexedKeyIndex]⟩

/-! ## `create_index` -/

/-- What `create_index` asks of the database. -/
inductive SchemaCall where
  | acquire
  | prepare (sql : String)
  | tableExists (name : String)
  | execute (command : Command Definition)
  deriving DecidableEq, Repr

@[reducible] def SchemaCall.Answer : SchemaCall → Type
  | .tableExists _ => Except String Bool
  | _ => Except String Unit

/-- Statements one after the other, up to the first that fails. -/
def executeAll (failed : String → Error) :
    List (Command Definition) → Prog SchemaCall SchemaCall.Answer Error Unit
  | [] => return ()
  | command :: commands => do
    let executed ← Prog.query (SchemaCall.execute command)
    Prog.ofExcept (executed.mapError failed)
    executeAll failed commands

def createIndex (unavailable : Error) (failed : String → Error) (lookUp : String)
    (statements : List (Command Definition)) : Prog SchemaCall SchemaCall.Answer Error Unit := do
  let conn ← Prog.query SchemaCall.acquire
  Prog.ofExcept (conn.mapError fun _ => unavailable)
  let stmt ← Prog.query (SchemaCall.prepare lookUp)
  Prog.ofExcept (stmt.mapError failed)
  let rows ← Prog.query (SchemaCall.tableExists "accounts_index")
  let found ← Prog.ofExcept (rows.mapError failed)
  if found then return ()
  executeAll failed statements

namespace Backend

def unavailable : Backend → Error
  | .sqlite => .mutexError
  | .postgres => .poolError

def failed : Backend → String → Error
  | .sqlite => fun text => .sqliteError (.failure text)
  | .postgres => .postgresError

def lookUp : Backend → String
  | .sqlite => "SELECT name FROM sqlite_master WHERE type='table' AND name='accounts_index'"
  | .postgres => "SELECT table_name FROM information_schema.tables WHERE table_schema = 'public' AND table_name='accounts_index'"

/-- The batch of SQLite, and the three calls of `execute` of PostgreSQL. -/
def statements : Backend → List (Command Definition)
  | .sqlite =>
    [.begin, .run (.createTable accountsIndexTable), .run (.createIndex nameAndKeyIndex),
      .run (.createIndex indexedKeyIndex), .commit]
  | .postgres =>
    [.run (.createTable accountsIndexTable), .run (.createIndex nameAndKeyIndex),
      .run (.createIndex indexedKeyIndex)]

def createIndex (b : Backend) : Prog SchemaCall SchemaCall.Answer Error Unit :=
  Index.createIndex b.unavailable b.failed b.lookUp b.statements

end Backend

/-! ## Attempts -/

/-- What the calls of an attempt meet. -/
abbrev Faults := SchemaCall → Option Failure

def answer (b : Backend) (faults : Faults) :
    (call : SchemaCall) → Connection Catalog → call.Answer × Connection Catalog
  | .acquire, c =>
    match faults .acquire with
    | some failure => (.error failure.text, c)
    | none => (.ok (), c)
  | .prepare sql, c =>
    match faults (.prepare sql) with
    | some failure => (.error failure.text, c.afterFailure failure)
    | none => (.ok (), c)
  | .tableExists name, c =>
    match faults (.tableExists name) with
    | some failure => (.error failure.text, c.afterFailure failure)
    | none => (.ok (c.content.hasTable name), c)
  | .execute command, c => c.perform (Definition.effect b) (faults (.execute command)) command

def attempt (b : Backend) (faults : Faults) (c : Connection Catalog) :
    Outcome Error Unit × Connection Catalog :=
  b.createIndex.exec (answer b faults) c

/-- An attempt, or the program is started again: what was not committed is lost. -/
inductive SchemaEvent where
  | attempt (faults : Faults)
  | reopen

def schemaStep (b : Backend) (c : Connection Catalog) : SchemaEvent → Option (Connection Catalog)
  | .attempt faults => some (attempt b faults c).2
  | .reopen => some c.rollback

def emptyDatabase : Connection Catalog := ⟨.empty, none⟩

/-- The whole schema is there for good, and no transaction is open. -/
def Complete (c : Connection Catalog) : Prop := c = ⟨.complete, none⟩

theorem exec_executeAll (b : Backend) (failed : String → Error) (faults : Faults)
    (commands : List (Command Definition)) (c : Connection Catalog) :
    (executeAll failed commands).exec (answer b faults) c =
      let r := c.batch (Definition.effect b) (fun s => faults (.execute s)) commands
      (Outcome.ofExcept (r.1.mapError failed), r.2) := by
  induction commands generalizing c with
  | nil => rfl
  | cons command commands ih =>
    rw [executeAll, Prog.exec_bind, Prog.exec_query]
    dsimp only
    rw [Prog.exec_bind, Prog.exec_ofExcept]
    have hanswer : answer b faults (.execute command) c =
      c.perform (Definition.effect b) (faults (.execute command)) command := rfl
    rw [hanswer, Connection.batch]
    cases hp : c.perform (Definition.effect b) (faults (.execute command)) command with
    | mk r c' =>
      cases r with
      | error text => rfl
      | ok _ => exact ih c'

/-- No call up to the end of the look-up meets a fault. -/
structure LooksUp (b : Backend) (faults : Faults) : Prop where
  acquired : faults .acquire = none
  prepared : faults (.prepare b.lookUp) = none
  listed : faults (.tableExists "accounts_index") = none

section Attempts

variable {b : Backend} {faults : Faults} {c : Connection Catalog}

/-- An attempt that fails before it has looked the table up can only lose an open transaction. -/
theorem attempt_of_not_looksUp (h : ¬ LooksUp b faults) :
    ∃ e, (attempt b faults c).1 = .error e ∧
      ((attempt b faults c).2 = c ∨ (attempt b faults c).2 = c.rollback) := by
  unfold attempt Backend.createIndex createIndex
  simp only [Prog.exec_bind, Prog.exec_query, Prog.exec_ofExcept, answer]
  cases hacquire : faults .acquire with
  | some failure => exact ⟨_, rfl, .inl rfl⟩
  | none =>
    simp only [Except.mapError, Outcome.ofExcept_ok]
    cases hprepare : faults (.prepare b.lookUp) with
    | some failure => exact ⟨_, rfl, c.afterFailure_cases failure⟩
    | none =>
      simp only [Outcome.ofExcept_ok]
      cases hlist : faults (.tableExists "accounts_index") with
      | some failure => exact ⟨_, rfl, c.afterFailure_cases failure⟩
      | none => exact absurd ⟨hacquire, hprepare, hlist⟩ h

theorem attempt_of_looksUp (h : LooksUp b faults) :
    attempt b faults c =
      if c.content.hasTable "accounts_index" then (.ok (), c)
      else (executeAll b.failed b.statements).exec (answer b faults) c := by
  obtain ⟨hacquire, hprepare, hlist⟩ := h
  unfold attempt Backend.createIndex createIndex
  simp only [Prog.exec_bind, Prog.exec_query, Prog.exec_ofExcept, answer, hacquire, hprepare, hlist,
    Except.mapError, Outcome.ofExcept_ok]
  split_ifs <;> rfl

/-! ## Half-made schemas -/

/-- The schema is complete, or none of it is there and the table is not visible either. -/
def Settled (b : Backend) (c : Connection Catalog) : Prop :=
  Complete c ∨
    c.committed = .empty ∧ (c.transaction = none ∨ b = .sqlite ∧ c.transaction = some .empty)

/-- The look-up finds a table, but the schema is not complete. -/
structure HalfMade (c : Connection Catalog) : Prop where
  visible : c.content.hasTable "accounts_index"
  incomplete : ¬ Complete c
  confined : c.transaction = none ∨ c.committed = .empty

/-- The first statement to fail comes after the one that creates the table, and the backend
does not roll the table back with it. -/
def StopsHalfWay (b : Backend) (faults : Faults) : Prop :=
  ∃ statement failure,
    Connection.firstFault (fun s => faults (.execute s)) b.statements = some (statement, failure) ∧
    statement ≠ .begin ∧ statement ≠ .run (.createTable accountsIndexTable) ∧
    (b = .sqlite → failure.rollsBack = false)

/-- The step is an attempt that starts on the schema and stops half way. -/
def BreaksOff (b : Backend) (x : Step (Connection Catalog) SchemaEvent) : Prop :=
  match x.ev with
  | .attempt faults =>
    LooksUp b faults ∧ x.pre.content.hasTable "accounts_index" = false ∧
      x.pre.transaction = none ∧ StopsHalfWay b faults
  | .reopen => False

/-- Whatever the next attempt meets, it returns `Ok` only with the schema complete. -/
def Sound (b : Backend) (c : Connection Catalog) : Prop :=
  ∀ faults, (attempt b faults c).1 = .ok () → Complete (attempt b faults c).2

/-! ## What the statements leave behind -/

/-- The statements carried out one after the other on an empty database. -/
def statementSteps (b : Backend) : List (Step (Connection Catalog) (Command Definition)) :=
  trace (Connection.commandStep (Definition.effect b)) emptyDatabase b.statements

theorem statementSteps_ev : (statementSteps b).map Step.ev = b.statements := by
  cases b <;> decide

theorem after_statementSteps : after emptyDatabase (statementSteps b) = ⟨.complete, none⟩ := by
  cases b <;> decide

/-- Up to the statement that creates the table nothing is there. -/
theorem statementSteps_start : ∀ x ∈ statementSteps b,
    (x.ev = .begin ∨ x.ev = .run (.createTable accountsIndexTable)) →
    x.pre.committed = .empty ∧
      (x.pre.transaction = none ∨ b = .sqlite ∧ x.pre.transaction = some .empty) := by
  cases b <;> decide

/-- From then on the table is visible, in a transaction only for SQLite. -/
theorem statementSteps_rest : ∀ x ∈ statementSteps b,
    ¬ (x.ev = .begin ∨ x.ev = .run (.createTable accountsIndexTable)) →
    x.pre.content.hasTable "accounts_index" ∧ x.pre ≠ ⟨.complete, none⟩ ∧
      (b = .sqlite → x.pre.committed = .empty) ∧ (b = .postgres → x.pre.transaction = none) := by
  cases b <;> decide

theorem settled_empty : Settled b emptyDatabase := .inr ⟨rfl, .inl rfl⟩

theorem Settled.rollback (h : Settled b c) : Settled b c.rollback := by
  rcases h with h | ⟨hc, -⟩
  · rw [Connection.rollback_eq_self (by rw [h])]
    exact .inl h
  · exact .inr ⟨hc, .inl rfl⟩

theorem Settled.afterFailure (h : Settled b c) (failure : Failure) :
    Settled b (c.afterFailure failure) := by
  rcases c.afterFailure_cases failure with hc | hc
  · rwa [hc]
  · rw [hc]
    exact h.rollback

theorem stopsHalfWay_iff {s : Command Definition} {failure : Failure}
    (h : Connection.firstFault (fun s => faults (.execute s)) b.statements = some (s, failure)) :
    StopsHalfWay b faults ↔ ¬ (s = .begin ∨ s = .run (.createTable accountsIndexTable)) ∧
      (b = .sqlite → failure.rollsBack = false) := by
  unfold StopsHalfWay
  rw [h, not_or]
  constructor
  · rintro ⟨s', failure', hsome, hbegin, htable, hrolls⟩
    obtain ⟨rfl, rfl⟩ := Prod.mk.inj (Option.some.inj hsome)
    exact ⟨⟨hbegin, htable⟩, hrolls⟩
  · rintro ⟨⟨hbegin, htable⟩, hrolls⟩
    exact ⟨s, failure, rfl, hbegin, htable, hrolls⟩

/-- A failure after the table has been created leaves the table, unless SQLite rolls it back. -/
theorem afterFailure_rest {x : Step (Connection Catalog) (Command Definition)}
    (hx : x ∈ statementSteps b)
    (hrest : ¬ (x.ev = .begin ∨ x.ev = .run (.createTable accountsIndexTable))) (failure : Failure) :
    ((b = .sqlite → failure.rollsBack = false) → HalfMade (x.pre.afterFailure failure)) ∧
    (¬ (b = .sqlite → failure.rollsBack = false) → Settled b (x.pre.afterFailure failure)) := by
  obtain ⟨hvisible, hincomplete, hsqlite, hpostgres⟩ := statementSteps_rest x hx hrest
  constructor
  · intro hrolls
    cases b with
    | sqlite =>
      have hkept : x.pre.afterFailure failure = x.pre := by simp [Connection.afterFailure, hrolls rfl]
      rw [hkept]
      exact ⟨hvisible, hincomplete, .inr (hsqlite rfl)⟩
    | postgres =>
      rw [Connection.afterFailure_eq_self (hpostgres rfl)]
      exact ⟨hvisible, hincomplete, .inl (hpostgres rfl)⟩
  · intro hrolls
    obtain ⟨hb, hrolls⟩ := Classical.not_imp.mp hrolls
    have hlost : x.pre.afterFailure failure = x.pre.rollback := by
      simp [Connection.afterFailure, (Bool.not_eq_false _).mp hrolls]
    rw [hlost]
    exact .inr ⟨hsqlite hb, .inl rfl⟩

theorem attempt_of_missing (hl : LooksUp b faults)
    (hmissing : c.content.hasTable "accounts_index" = false) :
    let r := c.batch (Definition.effect b) (fun s => faults (.execute s)) b.statements
    attempt b faults c = (Outcome.ofExcept (r.1.mapError b.failed), r.2) := by
  intro r
  rw [attempt_of_looksUp hl, hmissing, exec_executeAll]
  rfl

/-- On an empty database the statements make the whole schema, stop half way, or leave
nothing behind. -/
theorem attempt_on_empty (hl : LooksUp b faults) :
    (StopsHalfWay b faults → HalfMade (attempt b faults emptyDatabase).2) ∧
    (¬ StopsHalfWay b faults → Settled b (attempt b faults emptyDatabase).2) ∧
    ((attempt b faults emptyDatabase).1 = .ok () → Complete (attempt b faults emptyDatabase).2) := by
  rw [attempt_of_missing hl rfl]
  have hrun : Run (Connection.commandStep (Definition.effect b)) emptyDatabase (statementSteps b)
      ⟨.complete, none⟩ := after_statementSteps (b := b) ▸ Run.of_trace emptyDatabase b.statements
  have hbatch := Connection.batch_of_run (fun s => faults (.execute s)) hrun
  rw [statementSteps_ev] at hbatch
  rcases hbatch with ⟨hnone, hbatch⟩ | ⟨x, hx, failure, hfault, hbatch⟩
  · rw [hbatch]
    refine ⟨?_, fun _ => .inl rfl, fun _ => rfl⟩
    rintro ⟨s, failure, hsome, -⟩
    rw [hnone] at hsome
    cases hsome
  · rw [hbatch, stopsHalfWay_iff hfault]
    by_cases hstart : x.ev = .begin ∨ x.ev = .run (.createTable accountsIndexTable)
    · refine ⟨fun hstops => absurd hstart hstops.1, fun _ => ?_, by simp [Except.mapError]⟩
      exact Settled.afterFailure (.inr (statementSteps_start x hx hstart)) failure
    · obtain ⟨hkept, hlost⟩ := afterFailure_rest hx hstart failure
      exact ⟨fun hstops => hkept hstops.2, fun hnot => hlost fun hrolls => hnot ⟨hstart, hrolls⟩,
        by simp [Except.mapError]⟩

/-- Once SQLite has a transaction open it refuses to begin another. -/
theorem attempt_on_open (hl : LooksUp .sqlite faults) :
    Settled .sqlite (attempt .sqlite faults ⟨.empty, some .empty⟩).2 ∧
      (attempt .sqlite faults ⟨.empty, some .empty⟩).1 ≠ .ok () := by
  have hopen : Settled .sqlite ⟨.empty, some .empty⟩ := .inr ⟨rfl, .inr ⟨rfl, rfl⟩⟩
  rw [attempt_of_missing hl rfl, Backend.statements, Connection.batch]
  cases hbegin : faults (.execute .begin) with
  | some failure => exact ⟨hopen.afterFailure failure, by simp [Connection.perform, Except.mapError]⟩
  | none => exact ⟨hopen, by simp [Connection.perform, Connection.apply, Except.mapError]⟩

/-! ## Runs of attempts -/

theorem attempt_settled (faults : Faults) (h : Settled b c) :
    (BreaksOff b ⟨c, .attempt faults, (attempt b faults c).2⟩ → HalfMade (attempt b faults c).2) ∧
    (¬ BreaksOff b ⟨c, .attempt faults, (attempt b faults c).2⟩ → Settled b (attempt b faults c).2) ∧
    ((attempt b faults c).1 = .ok () → Complete (attempt b faults c).2) := by
  by_cases hl : LooksUp b faults
  · obtain ⟨committed, transaction⟩ := c
    rcases h with hcomplete | ⟨hc, hnone | ⟨rfl, hopen⟩⟩
    · obtain ⟨rfl, rfl⟩ := Connection.mk.inj hcomplete
      have hfound :
          (⟨.complete, none⟩ : Connection Catalog).content.hasTable "accounts_index" = true := by
        decide
      rw [attempt_of_looksUp hl, if_pos hfound]
      refine ⟨?_, fun _ => .inl rfl, fun _ => rfl⟩
      rintro ⟨-, hmissing, -⟩
      cases hfound.symm.trans hmissing
    · cases hc
      cases hnone
      obtain ⟨hhalf, hsettled, hok⟩ := attempt_on_empty hl
      exact ⟨fun hx => hhalf hx.2.2.2, fun hx => hsettled fun hstops => hx ⟨hl, rfl, rfl, hstops⟩,
        hok⟩
    · cases hc
      cases hopen
      obtain ⟨hsettled, hfails⟩ := attempt_on_open hl
      exact ⟨fun hx => (by cases hx.2.2.1), fun _ => hsettled, fun hok => absurd hok hfails⟩
  · obtain ⟨e, herror, hafter⟩ := attempt_of_not_looksUp (c := c) hl
    refine ⟨fun hx => absurd hx.1 hl, fun _ => ?_, fun hok => ?_⟩
    · rcases hafter with hafter | hafter
      · rw [hafter]
        exact h
      · rw [hafter]
        exact h.rollback
    · rw [herror] at hok
      cases hok

theorem HalfMade.rollback (h : HalfMade c) : Settled b c.rollback ∨ HalfMade c.rollback := by
  rcases h.confined with hnone | hempty
  · rw [Connection.rollback_eq_self hnone]
    exact .inr h
  · exact .inl (.inr ⟨hempty, .inl rfl⟩)

/-- A schema is settled or half made after every step. -/
theorem schema_step {e : SchemaEvent} {c' : Connection Catalog} (hs : schemaStep b c e = some c')
    (h : Settled b c ∨ HalfMade c) : Settled b c' ∨ HalfMade c' := by
  cases e with
  | reopen =>
    cases hs
    rcases h with h | h
    · exact .inl h.rollback
    · exact h.rollback
  | attempt faults =>
    cases hs
    rcases h with h | h
    · obtain ⟨hhalf, hsettled, -⟩ := attempt_settled faults h
      exact (em _).symm.imp hsettled hhalf
    · by_cases hl : LooksUp b faults
      · rw [attempt_of_looksUp hl, if_pos h.visible]
        exact .inr h
      · obtain ⟨e, -, hafter⟩ := attempt_of_not_looksUp (c := c) hl
        rcases hafter with hafter | hafter
        · rw [hafter]
          exact .inr h
        · rw [hafter]
          exact h.rollback

theorem Settled.sound (h : Settled b c) : Sound b c := fun faults => (attempt_settled faults h).2.2

/-- The next attempt that meets no fault takes a half-made schema for a complete one. -/
theorem HalfMade.not_sound (h : HalfMade c) : ¬ Sound b c := by
  intro hsound
  have hcalm : attempt b (fun _ => none) c = (.ok (), c) := by
    rw [attempt_of_looksUp ⟨rfl, rfl, rfl⟩, if_pos h.visible]
  have hcomplete := hsound (fun _ => none)
  rw [hcalm] at hcomplete
  exact h.incomplete (hcomplete rfl)

/-- An attempt returns `Ok` only with the schema complete, in each state that attempts on an
empty database lead to, exactly if none of them breaks off between the table and the end. -/
theorem sound_iff {ts : List (Step (Connection Catalog) SchemaEvent)} {t : Connection Catalog}
    (h : Run (schemaStep b) emptyDatabase ts t) :
    (∀ c ∈ visited emptyDatabase ts, Sound b c) ↔ ∀ x ∈ ts, ¬ BreaksOff b x := by
  refine h.visited_iff (I := fun c => Settled b c ∨ HalfMade c) (fun _ _ _ => schema_step)
    (fun x hs hI hC => ?_) (.inl settled_empty) settled_empty.sound
  have hsettled : Settled b x.pre := hI.resolve_right fun hhalf => hhalf.not_sound hC
  obtain ⟨pre, e, post⟩ := x
  cases e with
  | reopen =>
    obtain rfl : pre.rollback = post := Option.some.inj hs
    exact iff_of_true hsettled.rollback.sound id
  | attempt faults =>
    obtain rfl : (attempt b faults pre).2 = post := Option.some.inj hs
    obtain ⟨hhalf, hkept, -⟩ := attempt_settled faults hsettled
    constructor
    · exact fun hsound hx => (hhalf hx).not_sound hsound
    · exact fun hx => (hkept hx).sound

end Attempts

/-! ### An index that cannot be created -/

/-- Only the first of the two indexes meets a fault. -/
def firstIndexFails (rollsBack : Bool) : Faults
  | .execute (.run (.createIndex index)) =>
    if index = nameAndKeyIndex then some ⟨"disk I/O error", rollsBack⟩ else none
  | _ => none

/-- The first attempt fails, the second one finds the table and returns `Ok`. -/
def failedThenCalm : List SchemaEvent :=
  [.attempt (firstIndexFails false), .attempt fun _ => none]

/-- Of SQLite nothing is committed then, of PostgreSQL the table without its indexes. -/
theorem ok_on_half_made_schema :
    (¬ ∀ ts t, Run (schemaStep .sqlite) emptyDatabase ts t → ∀ x ∈ ts, ∀ faults,
      x.ev = .attempt faults → (attempt .sqlite faults x.pre).1 = .ok () → Complete x.post) ∧
    (¬ ∀ ts t, Run (schemaStep .postgres) emptyDatabase ts t → ∀ x ∈ ts, ∀ faults,
      x.ev = .attempt faults → (attempt .postgres faults x.pre).1 = .ok () → Complete x.post) := by
  have hlast : ∀ b, ∃ x ∈ trace (schemaStep b) emptyDatabase failedThenCalm,
      x.ev = .attempt (fun _ => none) ∧ (attempt b (fun _ => none) x.pre).1 = .ok () ∧
        ¬ Complete x.post := by
    intro b
    refine ⟨(trace (schemaStep b) emptyDatabase failedThenCalm).get ⟨1, Nat.one_lt_two⟩,
      List.get_mem _ _, rfl, ?_, ?_⟩
    · cases b <;> decide
    · cases b <;> unfold Complete <;> decide
  constructor
  · intro hall
    obtain ⟨x, hx, hev, hok, hincomplete⟩ := hlast .sqlite
    exact hincomplete (hall _ _ (.of_trace _ _) x hx _ hev hok)
  · intro hall
    obtain ⟨x, hx, hev, hok, hincomplete⟩ := hlast .postgres
    exact hincomplete (hall _ _ (.of_trace _ _) x hx _ hev hok)

/-- The same fault is harmless where SQLite rolls the transaction back with it. -/
theorem sound_if_rolled_back :
    (¬ ∀ c ∈ visited emptyDatabase
      (trace (schemaStep .sqlite) emptyDatabase [.attempt (firstIndexFails false)]), Sound .sqlite c) ∧
    ∀ c ∈ visited emptyDatabase
      (trace (schemaStep .sqlite) emptyDatabase [.attempt (firstIndexFails true)]), Sound .sqlite c := by
  constructor
  · rw [sound_iff (.of_trace _ _)]
    intro hall
    refine hall _ List.mem_cons_self ⟨⟨rfl, rfl, rfl⟩, rfl, rfl, _, _, rfl, ?_, ?_, fun _ => rfl⟩
    · decide
    · decide
  · rw [sound_iff (.of_trace _ _)]
    intro x hx hbreaks
    obtain rfl := List.mem_singleton.mp hx
    have hstops := (stopsHalfWay_iff rfl).mp hbreaks.2.2.2
    cases hstops.2 rfl

end Index

-- SUMMARY: When the token accounts of a batch are in the index after the call that read them.
import NoirSidecar.Index.Update

/-!
# Completeness of the index

A run is a sequence of calls of `updateIndex` on an empty table. The inserts are
plain: an entry that is already there fails, and the rest of the batch, the other
two entries of that account included, is left out. A batch is therefore complete
exactly if nothing new stands behind an entry that is already there.
-/

namespace Index

/-- A call of `update_index` whose read succeeds. -/
structure Reading where
  pubkeys : List Pubkey
  node : Node
  accounts : List (Pubkey × Option Account)
  read : (Client.getAccounts pubkeys none).run node = .ok accounts

/-- The reading of some keys from an account map. -/
def Reading.of (node : Node) (chain : Pubkey → Option Account) (pubkeys : List Pubkey) : Reading where
  pubkeys := pubkeys
  node := node.serving chain
  accounts := pubkeys.map fun p => (p, chain p)
  read := Client.getAccounts_serving

namespace Completeness

def step (engine : Engine) (db : Db) (r : Reading) : Option Db :=
  some (update engine.accountsIndex r.node r.pubkeys db).2

/-- The index lists every token account of the batch under its program, its owner
and its mint. -/
def Complete (engine : Engine) (r : Reading) (db : Db) : Prop :=
  ∀ pubkey account token, (pubkey, some account) ∈ r.accounts → ReadsAs account token →
    engine.Lists db ⟨.programId, account.owner, pubkey⟩ ∧
    engine.Lists db ⟨.splTokenOwner, token.owner, pubkey⟩ ∧
    engine.Lists db ⟨.splTokenMint, token.mint, pubkey⟩

variable {engine : Engine}

theorem step_eq (db : Db) (r : Reading) :
    step engine db r = some (insertEntries engine.accountsIndex (entriesOf r.accounts) db).2 := by
  simp only [step, update_eq, r.read]

/-- A batch is complete if all its entries are there. -/
theorem complete_iff {r : Reading} {db : Db} (h : db.Calm) :
    Complete engine r db ↔ ∀ e ∈ entriesOf r.accounts, db.Holds e := by
  unfold Complete
  simp only [engine.lists_iff h]
  constructor
  · intro hall e he
    obtain ⟨pubkey, account, token, hmem, hreads, he⟩ := mem_entriesOf.mp he
    obtain ⟨hprogram, howner, hmint⟩ := hall pubkey account token hmem hreads
    simp only [tokenEntries, List.mem_cons, List.not_mem_nil, or_false] at he
    rcases he with rfl | rfl | rfl
    · exact hprogram
    · exact howner
    · exact hmint
  · intro hall pubkey account token hmem hreads
    have hentry : ∀ e ∈ tokenEntries account.owner token pubkey, db.Holds e := fun e he =>
      hall e (mem_entriesOf.mpr ⟨pubkey, account, token, hmem, hreads, he⟩)
    exact ⟨hentry _ (by simp [tokenEntries]), hentry _ (by simp [tokenEntries]),
      hentry _ (by simp [tokenEntries])⟩

theorem calm_of_step {db db' : Db} {r : Reading} (h : step engine db r = some db')
    (hdb : db.Calm) : db'.Calm := by
  rw [step_eq] at h
  cases h
  exact (insertEntries_calm engine hdb).2.1

/-- One call: its batch is complete exactly if nothing new was cut off. -/
theorem complete_step {db db' : Db} {r : Reading} (h : step engine db r = some db')
    (hdb : db.Calm) :
    Complete engine r db' ↔ Batch.NoneCutOff db.Holds (entriesOf r.accounts) := by
  rw [complete_iff (calm_of_step h hdb), ← Batch.all_present_iff]
  rw [step_eq] at h
  cases h
  simp only [holds_insertEntries engine hdb]

/-- After each call of a run its token accounts are in the index, exactly if in no
call anything new stands behind an entry that is already there. -/
theorem complete_run_iff {ts : List (Step Db Reading)} {db : Db}
    (hrun : Run (step engine) (.empty []) ts db) :
    (∀ x ∈ ts, Complete engine x.ev x.post) ↔
      ∀ x ∈ ts, Batch.NoneCutOff x.pre.Holds (entriesOf x.ev.accounts) :=
  hrun.forall_iff (I := Db.Calm) (fun _ _ _ h hdb => calm_of_step h hdb)
    (fun _ h hdb => complete_step h hdb) Db.calm_empty

/-! ## Runs that read every key once -/

theorem key_mem_of_read {r : Reading} {pubkey : Pubkey} {account : Option Account}
    (h : (pubkey, account) ∈ r.accounts) : pubkey ∈ r.pubkeys := by
  rw [← Client.keys_of_getAccounts r.read]
  exact List.mem_map.mpr ⟨_, h, rfl⟩

theorem indexedKey_mem_of_entriesOf {r : Reading} {e : Entry} (h : e ∈ entriesOf r.accounts) :
    e.indexedKey ∈ r.pubkeys := by
  obtain ⟨pubkey, account, token, hmem, -, he⟩ := mem_entriesOf.mp h
  rw [indexedKey_of_mem_tokenEntries he]
  exact key_mem_of_read hmem

/-- Where no key is read twice, there is one account read for a key. -/
theorem account_unique {ts : List (Step Db Reading)} {x y : Step Db Reading} {pubkey : Pubkey}
    {a b : Option Account} (hnodup : (ts.flatMap fun x => x.ev.pubkeys).Nodup) (hx : x ∈ ts)
    (hy : y ∈ ts) (ha : (pubkey, a) ∈ x.ev.accounts) (hb : (pubkey, b) ∈ y.ev.accounts) : a = b := by
  obtain ⟨hkeys, hdisjoint⟩ := List.nodup_flatMap.mp hnodup
  have hxy : x = y := by
    by_contra hne
    have hsymm : Std.Symm (Function.onFun List.Disjoint fun x : Step Db Reading => x.ev.pubkeys) :=
      ⟨fun _ _ h => List.Disjoint.symm h⟩
    exact hdisjoint.forall hx hy hne (key_mem_of_read ha) (key_mem_of_read hb)
  subst hxy
  have hmap : (x.ev.accounts.map Prod.fst).Nodup := by
    rw [Client.keys_of_getAccounts x.ev.read]
    exact hkeys x hx
  exact congrArg Prod.snd (List.inj_on_of_nodup_map hmap ha hb rfl)

/-- Where no key is read twice, the table holds the entries of all that was read. -/
theorem holds_iff_of_nodup {ts : List (Step Db Reading)} {db : Db}
    (hrun : Run (step engine) (.empty []) ts db) :
    db.Calm ∧ ((ts.flatMap fun x => x.ev.pubkeys).Nodup →
      ∀ e, db.Holds e ↔ ∃ x ∈ ts, e ∈ entriesOf x.ev.accounts) := by
  refine hrun.history_induction (P := fun ts db => db.Calm ∧
    ((ts.flatMap fun x => x.ev.pubkeys).Nodup →
      ∀ e, db.Holds e ↔ ∃ x ∈ ts, e ∈ entriesOf x.ev.accounts)) ?_ ?_
  · exact ⟨Db.calm_empty, fun _ e => by simp⟩
  intro ts db r db' _ hbefore hstep
  refine ⟨calm_of_step hstep hbefore.1, fun hnodup e => ?_⟩
  rw [List.flatMap_append, List.nodup_append] at hnodup
  obtain ⟨hnodup, hkeys, hdisjoint⟩ := hnodup
  rw [List.flatMap_singleton] at hkeys hdisjoint
  have hnew : ∀ e ∈ entriesOf r.accounts, ¬ db.Holds e := by
    intro e he hholds
    obtain ⟨x, hx, hxe⟩ := (hbefore.2 hnodup e).mp hholds
    exact hdisjoint _ (List.mem_flatMap.mpr ⟨x, hx, indexedKey_mem_of_entriesOf hxe⟩) _
      (indexedKey_mem_of_entriesOf he) rfl
  have hentries : (entriesOf r.accounts).Nodup := by
    apply nodup_entriesOf
    rwa [Client.keys_of_getAccounts r.read]
  rw [step_eq] at hstep
  cases hstep
  rw [holds_insertEntries engine hbefore.1, Batch.admitted_of_new hentries hnew,
    hbefore.2 hnodup e]
  simp only [List.mem_append, List.mem_singleton, or_and_right, exists_or, exists_eq_left]

/-! ## An account seen before -/

/-- Reads of a chain where every key is a token account with the same mint and owner. -/
def uniformReading (node : Node) (pubkeys : List Pubkey) : Reading :=
  .of node (fun _ => some (newTokenAccount SplToken.id (.ofByte 3) (.ofByte 4))) pubkeys

def dbAfter (db : Db) (r : Reading) : Db := (update sqliteEngine.accountsIndex r.node r.pubkeys db).2

def firstReading : Reading := uniformReading .dead [.ofByte 1]
def secondReading : Reading := uniformReading .dead [.ofByte 1, .ofByte 2]

def dbAfterFirst : Db := dbAfter (.empty []) firstReading
def dbAfterSecond : Db := dbAfter dbAfterFirst secondReading

/-- The first key is indexed by a first call; read again together with a second key,
it keeps the second key out. -/
theorem incomplete_after_repeat : ¬ ∀ (engine : Engine) (ts : List (Step Db Reading)) (db : Db),
    Run (step engine) (.empty []) ts db → ∀ x ∈ ts, Complete engine x.ev x.post := by
  intro hall
  have hstep₁ : step sqliteEngine (.empty []) firstReading = some dbAfterFirst := rfl
  have hstep₂ : step sqliteEngine dbAfterFirst secondReading = some dbAfterSecond := rfl
  have hcalm : dbAfterSecond.Calm := calm_of_step hstep₂ (calm_of_step hstep₁ Db.calm_empty)
  have hrun : Run (step sqliteEngine) (.empty [])
      [⟨.empty [], firstReading, dbAfterFirst⟩, ⟨dbAfterFirst, secondReading, dbAfterSecond⟩]
      dbAfterSecond := .cons hstep₁ (.single hstep₂)
  have hcomplete := hall sqliteEngine _ _ hrun ⟨dbAfterFirst, secondReading, dbAfterSecond⟩
    (List.mem_cons_of_mem _ (List.mem_singleton.mpr rfl))
  dsimp only at hcomplete
  have hentry : (⟨.programId, SplToken.id, .ofByte 2⟩ : Entry) ∈ entriesOf secondReading.accounts := by
    decide +kernel
  have hnot : ¬ dbAfterSecond.Holds ⟨.programId, SplToken.id, .ofByte 2⟩ := by decide +kernel
  exact hnot ((complete_iff hcalm).mp hcomplete _ hentry)

def repeatedReading : Reading := uniformReading .dead [.ofByte 2, .ofByte 1]
def dbAfterRepeated : Db := dbAfter dbAfterFirst repeatedReading

/-- Read again after the second key, the first key keeps nothing out. -/
theorem complete_after_first :
    ∃ ts db, Run (step sqliteEngine) (.empty []) ts db ∧
      ts.map Step.ev = [firstReading, repeatedReading] ∧
      ∀ x ∈ ts, Complete sqliteEngine x.ev x.post := by
  have hrun : Run (step sqliteEngine) (.empty [])
      [⟨.empty [], firstReading, dbAfterFirst⟩, ⟨dbAfterFirst, repeatedReading, dbAfterRepeated⟩]
      dbAfterRepeated := .cons rfl (.single rfl)
  refine ⟨_, _, hrun, rfl, (complete_run_iff hrun).mpr fun x hx => ?_⟩
  rcases List.mem_cons.mp hx with rfl | hx
  · exact Batch.noneCutOff_of_new (by decide +kernel) (fun e _ => Db.not_holds_empty _ e)
  · obtain rfl := List.mem_singleton.mp hx
    exact Batch.all_present_iff.mp (by decide +kernel)

end Completeness

end Index

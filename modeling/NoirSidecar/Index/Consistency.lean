-- SUMMARY: When the three indexes hold the same keys although inserts may fail.
import NoirSidecar.Index.Update

/-!
# Consistency of the three indexes

The three inserts of an account are three calls of the backend, and the first that
fails ends the update. An account whose key is in no index yet is left in one or two
of them if its first insert goes well and one of the other two does not. A later
update does not make up for it: it fails at the entry that is there.
-/

namespace Index.Consistency

/-- A call of `update_index`: the keys, and the node as it is then. -/
structure UpdateCall where
  node : Node
  pubkeys : List Pubkey

def step (engine : Engine) (db : Db) (c : UpdateCall) : Option Db :=
  some (update engine.accountsIndex c.node c.pubkeys db).2

/-- The key stands in the index, under whatever index key. -/
def Occurs (db : Db) (index : AccountIndex) (pubkey : Pubkey) : Prop :=
  ∃ indexKey, db.Holds ⟨index, indexKey, pubkey⟩

/-- A key that is in one of the indexes is in all three. -/
def Consistent (db : Db) : Prop :=
  ∀ pubkey, (Occurs db .programId pubkey ↔ Occurs db .splTokenOwner pubkey) ∧
    (Occurs db .programId pubkey ↔ Occurs db .splTokenMint pubkey)

/-- Inserting the entries one by one meets no fault and no entry that is there. -/
structure GoesThrough (db : Db) (entries : List Entry) : Prop where
  nodup : entries.Nodup
  fresh : ∀ e ∈ entries, ¬ db.Holds e
  clear : ∀ i < entries.length, ¬ db.Faulty i

/-- Among the accounts is a token account whose key is in no index when its turn
comes. Everything before it and the first of its own inserts goes through, and the
second or the third insert meets a fault. -/
def Tears (db : Db) (accounts : List (Pubkey × Account)) : Prop :=
  ∃ before pubkey account after token, accounts = before ++ (pubkey, account) :: after ∧
    ReadsAs account token ∧ GoesThrough db (before.flatMap accountEntries) ∧
    (∀ e, e.indexedKey = pubkey → ¬ db.Holds e ∧ e ∉ before.flatMap accountEntries) ∧
    ¬ db.Faulty (before.flatMap accountEntries).length ∧
    (db.Faulty ((before.flatMap accountEntries).length + 1) ∨
      db.Faulty ((before.flatMap accountEntries).length + 2))

/-- The call tears an account apart that it reads. -/
def UpdateCall.Tears (c : UpdateCall) (db : Db) : Prop :=
  ∃ accounts, (Client.getAccounts c.pubkeys none).run c.node = .ok accounts ∧
    Consistency.Tears db (existing accounts)

variable {engine : Engine} {db : Db}

/-! ## Batches that go through -/

theorem goesThrough_iff (engine : Engine) {entries : List Entry} :
    GoesThrough db entries ↔ (insertEntries engine.accountsIndex entries db).1 = .ok () := by
  obtain ⟨done, rest, rfl, -, hclear, hfresh, hnodup, hend⟩ := insertEntries_cases engine entries db
  rcases hend with ⟨rfl, hok, -⟩ | ⟨e, after, err, rfl, herr, hwhy⟩
  · rw [List.append_nil] at hok ⊢
    exact ⟨fun _ => hok, fun _ => ⟨hnodup, hfresh, hclear⟩⟩
  · rw [herr]
    refine ⟨fun h => ?_, fun h => by cases h⟩
    rcases hwhy with hfault | hholds | hmem
    · exact absurd hfault (h.clear _ (by simp))
    · exact absurd hholds (h.fresh e (by simp))
    · exact absurd rfl ((List.nodup_append.mp h.nodup).2.2 e hmem e List.mem_cons_self)

/-- What a batch that goes through leaves behind. -/
theorem GoesThrough.after (engine : Engine) {entries : List Entry} (h : GoesThrough db entries) :
    (∀ e, (insertEntries engine.accountsIndex entries db).2.Holds e ↔ db.Holds e ∨ e ∈ entries) ∧
      ∀ i, (insertEntries engine.accountsIndex entries db).2.Faulty i ↔
        db.Faulty (entries.length + i) := by
  obtain ⟨done, rest, rfl, hrows, -, -, -, hend⟩ := insertEntries_cases engine entries db
  rcases hend with ⟨rfl, -, hfaults⟩ | ⟨e, after, err, rfl, herr, -⟩
  · rw [List.append_nil] at hrows hfaults ⊢
    exact ⟨Db.holds_of_rows_append hrows, hfaults⟩
  · have hok := (goesThrough_iff engine).mp h
    rw [herr] at hok
    cases hok

theorem insertEntries_append (xs ys : List Entry) (db : Db) :
    insertEntries engine.accountsIndex (xs ++ ys) db =
      match insertEntries engine.accountsIndex xs db with
      | (.ok (), db) => insertEntries engine.accountsIndex ys db
      | (.error e, db) => (.error e, db) := by
  induction xs generalizing db with
  | nil => rfl
  | cons e xs ih =>
    rw [List.cons_append, insertEntries_cons, insertEntries_cons]
    cases (engine.insertIndex e db).1 with
    | error err => rfl
    | ok u => exact ih _

theorem insertEntries_append_of_goesThrough {xs : List Entry} (h : GoesThrough db xs)
    (ys : List Entry) : insertEntries engine.accountsIndex (xs ++ ys) db =
      insertEntries engine.accountsIndex ys (insertEntries engine.accountsIndex xs db).2 := by
  have hok := (goesThrough_iff engine).mp h
  rw [insertEntries_append]
  generalize insertEntries engine.accountsIndex xs db = result at hok ⊢
  obtain ⟨result, db'⟩ := result
  obtain rfl : result = .ok () := hok
  rfl

theorem insertEntries_append_of_not {xs : List Entry} (h : ¬ GoesThrough db xs)
    (ys : List Entry) : insertEntries engine.accountsIndex (xs ++ ys) db =
      insertEntries engine.accountsIndex xs db := by
  rw [goesThrough_iff engine] at h
  rw [insertEntries_append]
  generalize insertEntries engine.accountsIndex xs db = result at h ⊢
  obtain ⟨result, db'⟩ := result
  cases result with
  | error e => rfl
  | ok u => exact absurd rfl h

theorem goesThrough_append (engine : Engine) {xs ys : List Entry} :
    GoesThrough db (xs ++ ys) ↔ GoesThrough db xs ∧
      GoesThrough (insertEntries engine.accountsIndex xs db).2 ys := by
  by_cases h : GoesThrough db xs
  · rw [goesThrough_iff engine, insertEntries_append_of_goesThrough h, ← goesThrough_iff engine]
    simp [h]
  · rw [goesThrough_iff engine, insertEntries_append_of_not h, ← goesThrough_iff engine]
    simp [h]

/-! ## One account -/

/-- What becomes of consistency when the first entries of a token account are added:
it is lost if there are some, not all, and the key is new. -/
theorem consistent_append {db' : Db} {done : List Entry} {programId pubkey : Pubkey}
    {token : SplToken.Account} (h : Consistent db)
    (hholds : ∀ e, db'.Holds e ↔ db.Holds e ∨ e ∈ done)
    (hdone : done <+: tokenEntries programId token pubkey) :
    Consistent db' ↔ done = [] ∨ Occurs db .programId pubkey ∨
      done = tokenEntries programId token pubkey := by
  have hoccurs : ∀ index q, Occurs db' index q ↔ Occurs db index q ∨ ∃ k, ⟨index, k, q⟩ ∈ done := by
    intro index q
    simp only [Occurs, hholds, exists_or]
  -- a key that was there before is in all three indices already
  have hkeep : Occurs db .programId pubkey → Consistent db' := by
    intro hprogram q
    have hall : ∀ index, Occurs db index pubkey := by
      intro index
      cases index with
      | programId => exact hprogram
      | splTokenMint => exact (h pubkey).2.mp hprogram
      | splTokenOwner => exact (h pubkey).1.mp hprogram
    have hsame : ∀ index, Occurs db' index q ↔ Occurs db index q := by
      intro index
      rw [hoccurs, or_iff_left_of_imp]
      rintro ⟨k, hk⟩
      obtain rfl := indexedKey_of_mem_tokenEntries (hdone.subset hk)
      exact hall index
    simpa only [hsame] using h q
  -- no entry, the program's, the owner's as well, or all three
  simp only [tokenEntries, List.prefix_cons_iff, List.prefix_nil] at hdone
  rcases hdone with rfl | ⟨_, rfl, rfl | ⟨_, rfl, rfl | ⟨_, rfl, rfl⟩⟩⟩
  · have hsame : Consistent db' := fun q => by simpa [hoccurs] using h q
    simp [hsame]
  · refine ⟨fun hc => .inr (.inl ?_), fun hp => hkeep (by simpa [tokenEntries] using hp)⟩
    have howner := (hc pubkey).1.mp ((hoccurs _ _).mpr (.inr ⟨_, List.mem_singleton.mpr rfl⟩))
    exact (h pubkey).1.mpr (by simpa [hoccurs] using howner)
  · refine ⟨fun hc => .inr (.inl ?_), fun hp => hkeep (by simpa [tokenEntries] using hp)⟩
    have hmint := (hc pubkey).2.mp ((hoccurs _ _).mpr (.inr ⟨_, List.mem_cons_self⟩))
    exact (h pubkey).2.mpr (by simpa [hoccurs] using hmint)
  · have hall : Consistent db' := fun q => by
      obtain ⟨howner, hmint⟩ := h q
      simp only [hoccurs, List.mem_cons, Entry.mk.injEq, List.not_mem_nil, or_false, reduceCtorEq,
        false_and, true_and, false_or, exists_eq_left]
      exact ⟨or_congr_left howner, or_congr_left hmint⟩
    simp [hall, tokenEntries]

/-- The next account is torn apart: its key is in no index, its first insert goes well,
and one of the other two does not. -/
def TearsHead (db : Db) (pubkey : Pubkey) : Prop :=
  (∀ e, e.indexedKey = pubkey → ¬ db.Holds e) ∧ ¬ db.Faulty 0 ∧ (db.Faulty 1 ∨ db.Faulty 2)

theorem not_occurs_iff (h : Consistent db) {pubkey : Pubkey} :
    ¬ Occurs db .programId pubkey ↔ ∀ e, e.indexedKey = pubkey → ¬ db.Holds e := by
  constructor
  · rintro hprogram ⟨index, k, q⟩ rfl hholds
    cases index with
    | programId => exact hprogram ⟨k, hholds⟩
    | splTokenMint => exact hprogram ((h q).2.mpr ⟨k, hholds⟩)
    | splTokenOwner => exact hprogram ((h q).1.mpr ⟨k, hholds⟩)
  · rintro hnone ⟨k, hholds⟩
    exact hnone _ rfl hholds

/-- If its key is new, the inserts of an account stop only at a fault. -/
theorem faulty_of_stopped (h : Consistent db) {programId pubkey : Pubkey} {token : SplToken.Account}
    {done after : List Entry} {e : Entry}
    (hentries : tokenEntries programId token pubkey = done ++ e :: after)
    (hwhy : db.Faulty done.length ∨ db.Holds e ∨ e ∈ done)
    (hnone : ¬ Occurs db .programId pubkey) : db.Faulty done.length := by
  have hkey : e.indexedKey = pubkey := indexedKey_of_mem_tokenEntries (by rw [hentries]; simp)
  have hnodup : (tokenEntries programId token pubkey).Nodup := by simp [tokenEntries]
  rw [hentries] at hnodup
  rcases hwhy with hfault | hheld | hmem
  · exact hfault
  · exact absurd hheld ((not_occurs_iff h).mp hnone e hkey)
  · exact absurd rfl ((List.nodup_append.mp hnodup).2.2 e hmem e List.mem_cons_self)

theorem consistent_account (h : Consistent db) (programId pubkey : Pubkey)
    (token : SplToken.Account) :
    Consistent (insertEntries engine.accountsIndex (tokenEntries programId token pubkey) db).2 ↔
      ¬ TearsHead db pubkey := by
  obtain ⟨done, rest, hentries, hrows, hclear, -, -, hend⟩ :=
    insertEntries_cases engine (tokenEntries programId token pubkey) db
  have hholds : ∀ e, (insertEntries engine.accountsIndex (tokenEntries programId token pubkey)
      db).2.Holds e ↔ db.Holds e ∨ e ∈ done := Db.holds_of_rows_append hrows
  have hdone : done <+: tokenEntries programId token pubkey := ⟨rest, hentries.symm⟩
  rw [consistent_append h hholds hdone, TearsHead, ← not_occurs_iff h]
  rcases hend with ⟨rfl, -, -⟩ | ⟨e, after, err, rfl, -, hwhy⟩
  · -- all three inserts went through, so none of them met a fault
    obtain rfl : done = tokenEntries programId token pubkey := by simpa using hentries.symm
    have hone := hclear 1 (by simp [tokenEntries])
    have htwo := hclear 2 (by simp [tokenEntries])
    simp [hone, htwo]
  · have hpart : done ≠ tokenEntries programId token pubkey := by
      intro heq
      simp [heq] at hentries
    have hfault := faulty_of_stopped h hentries hwhy
    have hlen : done.length + 1 + after.length = 3 := by
      have := congrArg List.length hentries
      simp [tokenEntries] at this
      omega
    -- stopped at the first entry, or after one or two of the three
    by_cases hzero : done = []
    · rw [hzero] at hfault
      simp only [hzero, true_or, true_iff]
      rintro ⟨hnone, hfirst, -⟩
      exact hfirst (hfault hnone)
    · have hpos : 0 < done.length := List.length_pos_iff.mpr hzero
      have hlater : db.Faulty done.length → db.Faulty 1 ∨ db.Faulty 2 := by
        intro hf
        obtain hone | htwo : done.length = 1 ∨ done.length = 2 := by omega
        · exact .inl (hone ▸ hf)
        · exact .inr (htwo ▸ hf)
      have hfirst := hclear 0 hpos
      rw [or_iff_right hzero, or_iff_left hpart]
      constructor
      · rintro hprogram ⟨hnone, -⟩
        exact hnone hprogram
      · intro hwhole
        by_contra hnone
        exact hwhole ⟨hnone, hfirst, hlater (hfault hnone)⟩

/-! ## Batches of accounts -/

/-- An account that is torn apart is the first of the batch, or the first goes through
and it is one of the others. -/
theorem tears_cons (engine : Engine) {p : Pubkey × Account} {accounts : List (Pubkey × Account)} :
    Tears db (p :: accounts) ↔
      (∃ token, ReadsAs p.2 token) ∧ TearsHead db p.1 ∨
      GoesThrough db (accountEntries p) ∧
        Tears (insertEntries engine.accountsIndex (accountEntries p) db).2 accounts := by
  constructor
  · rintro ⟨before, pubkey, account, after, token, heq, hreads, hgoes, hnew, hfirst, hlater⟩
    -- the account torn apart is the first, or comes after it
    cases before with
    | nil =>
      obtain ⟨rfl, rfl⟩ := List.cons.inj heq
      simp only [List.flatMap_nil, List.length_nil, Nat.zero_add] at hnew hfirst hlater
      exact .inl ⟨⟨token, hreads⟩, fun e he => (hnew e he).1, hfirst, hlater⟩
    | cons q before =>
      obtain ⟨rfl, rfl⟩ := List.cons.inj heq
      rw [List.flatMap_cons] at hgoes hnew hfirst hlater
      obtain ⟨hp, hrest⟩ := (goesThrough_append engine).mp hgoes
      obtain ⟨hholds, hfaulty⟩ := hp.after engine
      refine .inr ⟨hp, before, pubkey, account, after, token, rfl, hreads, hrest, ?_⟩
      simp only [List.length_append, Nat.add_assoc] at hfirst hlater
      simp only [hholds, hfaulty]
      refine ⟨fun e he => ?_, hfirst, hlater⟩
      obtain ⟨hdb, hmem⟩ := hnew e he
      rw [List.mem_append, not_or] at hmem
      exact ⟨not_or.mpr ⟨hdb, hmem.1⟩, hmem.2⟩
  · rintro (⟨⟨token, hreads⟩, hnew, hfirst, hlater⟩ |
      ⟨hp, before, pubkey, account, after, token, rfl, hreads, hrest, hnew, hfirst, hlater⟩)
    · exact ⟨[], p.1, p.2, accounts, token, rfl, hreads, ⟨.nil, by simp, by simp⟩,
        fun e he => ⟨hnew e he, List.not_mem_nil⟩, hfirst, hlater⟩
    · obtain ⟨hholds, hfaulty⟩ := hp.after engine
      simp only [hholds, hfaulty, not_or] at hnew hfirst hlater
      refine ⟨p :: before, pubkey, account, after, token, rfl, hreads,
        (goesThrough_append engine).mpr ⟨hp, hrest⟩, fun e he => ?_, ?_⟩
      · rw [List.flatMap_cons, List.mem_append, not_or]
        exact ⟨(hnew e he).1.1, (hnew e he).1.2, (hnew e he).2⟩
      · simp only [List.flatMap_cons, List.length_append, Nat.add_assoc]
        exact ⟨hfirst, hlater⟩

theorem consistent_accountEntries (h : Consistent db) (p : Pubkey × Account) :
    Consistent (insertEntries engine.accountsIndex (accountEntries p) db).2 ↔
      ¬ ((∃ token, ReadsAs p.2 token) ∧ TearsHead db p.1) := by
  by_cases hreads : ∃ token, ReadsAs p.2 token
  · obtain ⟨token, hreads⟩ := hreads
    have hentries : accountEntries p = _ := accountEntries_of_readsAs hreads
    rw [hentries, consistent_account h]
    simp [show ∃ token, ReadsAs p.2 token from ⟨token, hreads⟩]
  · have hentries : accountEntries p = [] := accountEntries_of_not_readsAs (not_exists.mp hreads)
    rw [hentries]
    simpa [hreads, insertEntries] using h

/-- An account whose inserts go through is not torn apart. -/
theorem not_tearsHead_of_goesThrough {p : Pubkey × Account}
    (h : GoesThrough db (accountEntries p)) :
    ¬ ((∃ token, ReadsAs p.2 token) ∧ TearsHead db p.1) := by
  rintro ⟨⟨token, hreads⟩, -, -, hlater⟩
  have hentries : accountEntries p = _ := accountEntries_of_readsAs hreads
  have hclear := h.clear
  rw [hentries] at hclear
  exact hlater.elim (hclear 1 (by simp [tokenEntries])) (hclear 2 (by simp [tokenEntries]))

/-- A batch keeps the indexes consistent exactly if it tears no account apart. -/
theorem consistent_batch (accounts : List (Pubkey × Account)) (h : Consistent db) :
    Consistent (insertEntries engine.accountsIndex (accounts.flatMap accountEntries) db).2 ↔
      ¬ Tears db accounts := by
  induction accounts generalizing db with
  | nil => simpa [insertEntries, Tears] using h
  | cons p accounts ih =>
    have hone : Consistent (insertEntries engine.accountsIndex (accountEntries p) db).2 ↔
        ¬ ((∃ token, ReadsAs p.2 token) ∧ TearsHead db p.1) := consistent_accountEntries h p
    rw [tears_cons engine, List.flatMap_cons]
    by_cases hp : GoesThrough db (accountEntries p)
    · have hnot := not_tearsHead_of_goesThrough hp
      rw [insertEntries_append_of_goesThrough hp, ih (hone.mpr hnot)]
      simp only [hnot, hp, false_or, true_and]
    · rw [insertEntries_append_of_not hp, hone]
      simp only [hp, false_and, or_false]

/-! ## Runs -/

theorem consistent_step {db' : Db} {c : UpdateCall} (hstep : step engine db c = some db')
    (h : Consistent db) : Consistent db' ↔ ¬ c.Tears db := by
  cases hstep
  rw [update_eq]
  unfold UpdateCall.Tears
  obtain ⟨accounts, hread⟩ | ⟨err, hread⟩ := Client.getAccounts_cases c.pubkeys none c.node
  · simpa [hread, entriesOf] using consistent_batch (existing accounts) h
  · simpa [hread] using h

/-- The indexes are consistent in every state of a run, whatever faults its inserts meet,
exactly if no call tears an account apart. -/
theorem consistent_run_iff {faults : List (Option Fault)} {ts : List (Step Db UpdateCall)} {db : Db}
    (hrun : Run (step engine) (.empty faults) ts db) :
    (∀ u ∈ visited (.empty faults) ts, Consistent u) ↔ ∀ x ∈ ts, ¬ x.ev.Tears x.pre := by
  have hempty : Consistent (.empty faults) := by
    intro pubkey
    simp [Occurs]
  exact hrun.visited_iff (I := fun _ => True) (fun _ _ _ _ _ => trivial)
    (fun x hx _ hC => consistent_step hx hC) trivial hempty

/-! ## A fault at the second insert -/

/-- A call that reads one token account. -/
def oneAccount : UpdateCall where
  node := Node.dead.serving fun _ => some (newTokenAccount SplToken.id (.ofByte 3) (.ofByte 4))
  pubkeys := [.ofByte 1]

def tornDb : Db :=
  (update sqliteEngine.accountsIndex oneAccount.node oneAccount.pubkeys
    (.empty [none, some .unavailable])).2

/-- The second of three inserts fails: the key is in one index only. -/
theorem inconsistent_after_fault : ¬ ∀ (engine : Engine) (faults : List (Option Fault))
    (ts : List (Step Db UpdateCall)) (db : Db), Run (step engine) (.empty faults) ts db →
    ∀ u ∈ visited (.empty faults) ts, Consistent u := by
  intro hall
  have hrun : Run (step sqliteEngine) (.empty [none, some .unavailable])
      [⟨.empty [none, some .unavailable], oneAccount, tornDb⟩] tornDb := .single rfl
  have hconsistent := hall _ _ _ _ hrun tornDb (by simp [visited])
  have hprogram : Occurs tornDb .programId (.ofByte 1) := ⟨SplToken.id, by decide +kernel⟩
  obtain ⟨k, howner⟩ := (hconsistent (.ofByte 1)).1.mp hprogram
  have hrows : tornDb.table.rows =
      [Entry.row ⟨.programId, SplToken.id, .ofByte 1⟩] := by decide +kernel
  unfold Db.Holds at howner
  rw [hrows, List.mem_singleton] at howner
  cases Entry.row_injective howner

def savedDb : Db :=
  (update sqliteEngine.accountsIndex oneAccount.node oneAccount.pubkeys
    (.empty [some .unavailable])).2

def retriedDb : Db :=
  (update sqliteEngine.accountsIndex oneAccount.node oneAccount.pubkeys savedDb).2

/-- The first insert fails, and a second call makes up for it. -/
theorem consistent_after_retry :
    ∃ ts db, Run (step sqliteEngine) (.empty [some .unavailable]) ts db ∧ ts.length = 2 ∧
      ∀ u ∈ visited (.empty [some .unavailable]) ts, Consistent u := by
  have hfaulty : ∀ i, ¬ (Db.empty [some .unavailable]).Faulty (i + 1) := by
    rintro i ⟨fault, hfault⟩
    simp [Db.empty] at hfault
  have hcalm : ∀ i, ¬ savedDb.Faulty i := by
    rintro i ⟨fault, hfault⟩
    have hnone : savedDb.faults = [] := by decide +kernel
    simp [hnone] at hfault
  have hfirst : step sqliteEngine (.empty [some .unavailable]) oneAccount = some savedDb := rfl
  have hsecond : step sqliteEngine savedDb oneAccount = some retriedDb := rfl
  have hrun : Run (step sqliteEngine) (.empty [some .unavailable])
      [⟨.empty [some .unavailable], oneAccount, savedDb⟩, ⟨savedDb, oneAccount, retriedDb⟩]
      retriedDb := .cons hfirst (.single hsecond)
  refine ⟨_, _, hrun, by simp, (consistent_run_iff hrun).mpr fun x hx => ?_⟩
  rintro ⟨accounts, -, before, pubkey, account, after, token, -, -, -, -, -, hlater⟩
  simp only [List.mem_cons, List.not_mem_nil, or_false] at hx
  rcases hx with rfl | rfl
  · exact hlater.elim (hfaulty _) (hfaulty _)
  · dsimp only at hlater
    exact hlater.elim (hcalm _) (hcalm _)

end Index.Consistency

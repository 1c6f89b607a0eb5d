-- SUMMARY: Every row of the index is one of three that a single read of a token account accounts for, and no row is ever taken away.
import NoirSidecar.Index.Ingest

/-!
# Soundness of the index

The table only ever grows at its end. What an iteration appends is a first part of
the batch of its read, and each entry of a batch belongs to the account that the
node's answer holds at the place of the entry's key.
-/

namespace Index.Ingest

variable {decode : Bytes → Except String (List Pubkey)} {excludeKeys : List Pubkey}

/-- The step received a payload with the entry's key, a key that is not excluded, and
the node's answer to its read holds, at the place of that key, a token account with
this entry. -/
def Attests (decode : Bytes → Except String (List Pubkey)) (excludeKeys : List Pubkey)
    (x : Step (State Db) Event) (e : Entry) : Prop :=
  ∃ (node : Node) (payload : Bytes) (rx : List Bytes) (pubkeys : List Pubkey)
      (answers : List (Option Account)),
    x.ev = .iterate node ∧ x.pre.rx = payload :: rx ∧ decode payload = .ok pubkeys ∧
    e.indexedKey ∈ pubkeys ∧ e.indexedKey ∉ excludeKeys ∧
    node (.runtime (.getMultipleAccounts (included excludeKeys pubkeys)) none) = .value answers ∧
    ∃ (i : Nat) (account : Account) (token : SplToken.Account),
      (included excludeKeys pubkeys)[i]? = some e.indexedKey ∧
      answers[i]? = some (some account) ∧ ReadsAs account token ∧
      e ∈ tokenEntries account.owner token e.indexedKey

theorem mem_included {pubkeys : List Pubkey} {pubkey : Pubkey} :
    pubkey ∈ included excludeKeys pubkeys ↔ pubkey ∈ pubkeys ∧ pubkey ∉ excludeKeys := by
  simp [included]

/-- The entries of the batch of an iteration are attested by it. -/
theorem attests_of_mem_entriesOf {x : Step (State Db) Event} {node : Node} {payload : Bytes}
    {rx : List Bytes} {pubkeys : List Pubkey} {accounts : List (Pubkey × Option Account)} {e : Entry}
    (hev : x.ev = .iterate node) (hrx : x.pre.rx = payload :: rx)
    (hdecode : decode payload = .ok pubkeys)
    (hread : (Client.getAccounts (included excludeKeys pubkeys) none).run node = .ok accounts)
    (he : e ∈ entriesOf accounts) : Attests decode excludeKeys x e := by
  obtain ⟨pubkey, account, token, hmem, hreads, hentry⟩ := mem_entriesOf.mp he
  obtain rfl := indexedKey_of_mem_tokenEntries hentry
  obtain ⟨answers, hnode, -, rfl⟩ := Client.getAccounts_eq_ok hread
  obtain ⟨i, hi⟩ := List.mem_iff_getElem?.mp hmem
  obtain ⟨hkey, haccount⟩ := List.getElem?_zip_eq_some.mp hi
  obtain ⟨hin, hnot⟩ := mem_included.mp (List.mem_of_getElem? hkey)
  exact ⟨node, payload, rx, pubkeys, answers, hev, hrx, hdecode, hin, hnot, hnode, i, account, token,
    hkey, haccount, hreads, hentry⟩

/-- What an update does to the table: it appends entries of the batch of its read. -/
theorem update_rows (engine : Engine) (node : Node) (pubkeys : List Pubkey) (db : Db) :
    ∃ done : List Entry, (update engine.accountsIndex node pubkeys db).2.table.rows =
        db.table.rows ++ done.map Entry.row ∧
      ∀ e ∈ done, ∃ accounts, (Client.getAccounts pubkeys none).run node = .ok accounts ∧
        e ∈ entriesOf accounts := by
  rw [update_eq]
  obtain ⟨accounts, hread⟩ | ⟨err, hread⟩ := Client.getAccounts_cases pubkeys none node
  · rw [hread]
    obtain ⟨done, hdone, hrows⟩ := insertEntries_rows engine (entriesOf accounts) db
    exact ⟨done, hrows, fun e he => ⟨accounts, rfl, hdone.subset he⟩⟩
  · rw [hread]
    exact ⟨[], by simp, by simp⟩

/-- What a step does to the table: it appends entries it attests. -/
theorem step_rows {engine : Engine} {x : Step (State Db) Event}
    (h : step decode excludeKeys engine.accountsIndex x.pre x.ev = some x.post) :
    ∃ done : List Entry, x.post.store.table.rows = x.pre.store.table.rows ++ done.map Entry.row ∧
      ∀ e ∈ done, Attests decode excludeKeys x e := by
  cases hev : x.ev with
  | send payload =>
    simp only [hev, step, Option.some.injEq] at h
    exact ⟨[], by simp [← h], by simp⟩
  | iterate node =>
    cases hrx : x.pre.rx with
    | nil => simp [hev, step, hrx] at h
    | cons payload rx =>
      simp only [hev, step, hrx, Option.some.injEq] at h
      rw [← h]
      cases hdecode : decode payload with
      | error err => exact ⟨[], by simp [handle, hdecode], by simp⟩
      | ok pubkeys =>
        simp only [handle, hdecode]
        obtain ⟨done, hrows, hdone⟩ :=
          update_rows engine node (included excludeKeys pubkeys) x.pre.store
        refine ⟨done, hrows, fun e he => ?_⟩
        obtain ⟨accounts, hread, hentry⟩ := hdone e he
        exact attests_of_mem_entriesOf hev hrx hdecode hread hentry

/-- After every run, whatever faults its inserts met: each row is that of an entry some
step of the run attests, and the rows of every earlier state are still there, in
their places. -/
theorem sound_run {engine : Engine} {rx : List Bytes} {faults : List (Option Fault)}
    {ts : List (Step (State Db) Event)} {t : State Db}
    (hrun : Run (step decode excludeKeys engine.accountsIndex) ⟨rx, .empty faults⟩ ts t) :
    (∀ row ∈ t.store.table.rows, ∃ e, e.row = row ∧ ∃ x ∈ ts, Attests decode excludeKeys x e) ∧
      ∀ u ∈ visited ⟨rx, .empty faults⟩ ts, u.store.table.rows <+: t.store.table.rows := by
  constructor
  · refine hrun.history_induction (P := fun ts t => ∀ row ∈ t.store.table.rows,
      ∃ e, e.row = row ∧ ∃ x ∈ ts, Attests decode excludeKeys x e) ?_ ?_
    · exact fun row hrow => absurd hrow List.not_mem_nil
    · intro as a ev a' _ ih hstep row hrow
      obtain ⟨done, hrows, hattest⟩ := step_rows (x := ⟨a, ev, a'⟩) hstep
      dsimp only at hrows
      rw [hrows] at hrow
      rcases List.mem_append.mp hrow with hrow | hrow
      · obtain ⟨e, he, x, hx, hattests⟩ := ih row hrow
        exact ⟨e, he, x, List.mem_append_left _ hx, hattests⟩
      · obtain ⟨e, he, rfl⟩ := List.mem_map.mp hrow
        exact ⟨e, rfl, _, List.mem_append_right _ (List.mem_singleton.mpr rfl), hattest e he⟩
  · refine hrun.visited_le (R := fun u v => u.store.table.rows <+: v.store.table.rows)
      (fun _ => List.prefix_rfl) (fun _ _ _ => List.IsPrefix.trans) ?_
    intro s ev s' hstep
    obtain ⟨done, hrows, -⟩ := step_rows (x := ⟨s, ev, s'⟩) hstep
    exact ⟨_, hrows.symm⟩

/-- One payload with one token account. -/
theorem sound_after_one :
    ∃ ts t, Run (step decodeOne [] sqliteEngine.accountsIndex) start ts t ∧
      t.store.table.rows.length = 3 ∧
      (∀ row ∈ t.store.table.rows, ∃ e, e.row = row ∧ ∃ x ∈ ts, Attests decodeOne [] x e) ∧
      ∀ u ∈ visited start ts, u.store.table.rows <+: t.store.table.rows :=
  have hrun := run_oneIteration (Node.dead.serving tokenChain)
  ⟨_, _, hrun, by decide +kernel, sound_run hrun⟩

end Index.Ingest

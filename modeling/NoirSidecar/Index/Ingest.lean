-- SUMMARY: The task that feeds the index from event payloads, and what becomes of the keys of a payload.
import NoirSidecar.Index.Update

/-!
# The ingest loop

`AccountsIndex::run` takes payloads off a channel one by one, decodes the keys in
them and updates the index. A payload is gone from the channel once it has been
received: whatever its update runs into is logged, and the loop goes on.
-/

namespace Index.Ingest

structure State (σ : Type) where
  rx : List Bytes
  store : σ

/-- A payload is sent to the channel, or the loop receives one and updates the
index against the node as it is then. -/
inductive Event where
  | send (payload : Bytes)
  | iterate (node : Node)

section

variable {σ : Type} (decode : Bytes → Except String (List Pubkey)) (excludeKeys : List Pubkey)
  (index : AccountsIndex σ)

def included (pubkeys : List Pubkey) : List Pubkey :=
  pubkeys.filter fun pubkey => !excludeKeys.contains pubkey

/-- The body of the loop for a received payload. -/
def handle (node : Node) (payload : Bytes) (store : σ) : σ :=
  match decode payload with
  | .ok pubkeys => (update index node (included excludeKeys pubkeys) store).2
  | .error _ => store

def step (s : State σ) : Event → Option (State σ)
  | .send payload => some { s with rx := s.rx ++ [payload] }
  | .iterate node =>
    match s.rx with
    | [] => none
    | payload :: rx => some ⟨rx, handle decode excludeKeys index node payload s.store⟩

end

/-! ## What an iteration does with its keys -/

variable {decode : Bytes → Except String (List Pubkey)} {excludeKeys : List Pubkey}

/-- The step receives a payload with these keys, excluded ones left out, and asks
this node. -/
def Consumes (decode : Bytes → Except String (List Pubkey)) (excludeKeys : List Pubkey)
    (x : Step (State Db) Event) (node : Node) (pubkeys : List Pubkey) : Prop :=
  x.ev = .iterate node ∧ ∃ payload rx all, x.pre.rx = payload :: rx ∧ decode payload = .ok all ∧
    pubkeys = included excludeKeys all

/-- No insert of the step fails. -/
def InsertsSucceed (decode : Bytes → Except String (List Pubkey)) (excludeKeys : List Pubkey)
    (engine : Engine) (x : Step (State Db) Event) : Prop :=
  ∀ node pubkeys accounts, Consumes decode excludeKeys x node pubkeys →
    (Client.getAccounts pubkeys none).run node = .ok accounts →
      (insertEntries engine.accountsIndex (entriesOf accounts) x.pre.store).1 = .ok ()

/-- What a read showed of a key is in the table: if it was a token account, under
its program, its owner and its mint. -/
def Indexed (db : Db) (pubkey : Pubkey) (account : Option Account) : Prop :=
  ∀ a token, account = some a → ReadsAs a token →
    ∀ e ∈ tokenEntries a.owner token pubkey, db.Holds e

/-- A step of the run reads the key, and what it read is in the table `db`. -/
def ReadAndIndexed (decode : Bytes → Except String (List Pubkey)) (excludeKeys : List Pubkey)
    (ts : List (Step (State Db) Event)) (db : Db) (pubkey : Pubkey) : Prop :=
  ∃ x ∈ ts, ∃ node pubkeys accounts account, Consumes decode excludeKeys x node pubkeys ∧
    (Client.getAccounts pubkeys none).run node = .ok accounts ∧
    (pubkey, account) ∈ accounts ∧ Indexed db pubkey account

/-- A payload with the key is still in the channel. -/
def Held (decode : Bytes → Except String (List Pubkey)) (s : State Db) (pubkey : Pubkey) : Prop :=
  ∃ payload ∈ s.rx, ∃ pubkeys, decode payload = .ok pubkeys ∧ pubkey ∈ pubkeys

theorem step_consumes {engine : Engine} {x : Step (State Db) Event} {node : Node}
    {pubkeys : List Pubkey} (h : Consumes decode excludeKeys x node pubkeys)
    (hstep : step decode excludeKeys engine.accountsIndex x.pre x.ev = some x.post) :
    x.post.rx = x.pre.rx.tail ∧
      x.post.store = (update engine.accountsIndex node pubkeys x.pre.store).2 := by
  obtain ⟨hev, payload, rx, all, hrx, hdecode, rfl⟩ := h
  simp only [step, hev, hrx, handle, hdecode, Option.some.injEq] at hstep
  rw [← hstep, hrx]
  exact ⟨rfl, rfl⟩

theorem step_holds {engine : Engine} {s s' : State Db} {ev : Event}
    (h : step decode excludeKeys engine.accountsIndex s ev = some s') (e : Entry)
    (he : s.store.Holds e) : s'.store.Holds e := by
  cases ev with
  | send payload =>
    cases h
    exact he
  | iterate node =>
    simp only [step] at h
    split at h
    · cases h
    · cases h
      simp only [handle]
      split
      · rw [update_eq]
        split
        · exact holds_mono engine he
        · exact he
        · exact he
      · exact he

/-- What is in the table stays there for the rest of a run. -/
theorem run_holds {engine : Engine} {ts : List (Step (State Db) Event)} {s s' : State Db}
    (h : Run (step decode excludeKeys engine.accountsIndex) s ts s') {e : Entry}
    (he : s.store.Holds e) : s'.store.Holds e :=
  (h.invariant (I := fun s => s.store.Holds e) (fun _ _ _ hstep => step_holds hstep e) he).1

/-- A batch whose inserts succeed leaves every key of its read indexed. -/
theorem indexed_of_insertEntries {engine : Engine} {accounts : List (Pubkey × Option Account)}
    {db : Db} (h : (insertEntries engine.accountsIndex (entriesOf accounts) db).1 = .ok ())
    {pubkey : Pubkey} {account : Option Account} (hmem : (pubkey, account) ∈ accounts) :
    Indexed (insertEntries engine.accountsIndex (entriesOf accounts) db).2 pubkey account := by
  rintro a token rfl hreads e he
  exact holds_of_insertEntries_ok engine h e (mem_entriesOf.mpr ⟨pubkey, a, token, hmem, hreads, he⟩)

/-- After any run: of each payload consumed, either the read succeeded, and what it
showed of every key is in the table; or the read failed, the table was left as it
was and the payload is gone from the channel. -/
theorem consumed_indexed_or_dropped {engine : Engine} {ts : List (Step (State Db) Event)}
    {s t : State Db} (hrun : Run (step decode excludeKeys engine.accountsIndex) s ts t)
    (hins : ∀ x ∈ ts, InsertsSucceed decode excludeKeys engine x) :
    ∀ x ∈ ts, ∀ node pubkeys, Consumes decode excludeKeys x node pubkeys →
      (∃ accounts, (Client.getAccounts pubkeys none).run node = .ok accounts ∧
        accounts.map Prod.fst = pubkeys ∧
        ∀ pubkey account, (pubkey, account) ∈ accounts → Indexed t.store pubkey account) ∨
      (∃ e, (Client.getAccounts pubkeys none).run node = .error e ∧
        x.post.store = x.pre.store ∧ x.post.rx = x.pre.rx.tail) := by
  intro x hx node pubkeys hconsumes
  obtain ⟨as, bs, rfl⟩ := List.append_of_mem hx
  obtain ⟨-, hstep, hrest⟩ := hrun.split
  obtain ⟨hrx, hstore⟩ := step_consumes hconsumes hstep
  rw [update_eq] at hstore
  obtain ⟨accounts, hread⟩ | ⟨e, hread⟩ := Client.getAccounts_cases pubkeys none node
  · refine .inl ⟨accounts, hread, Client.keys_of_getAccounts hread, ?_⟩
    intro pubkey account hmem a token ha hreads e he
    simp only [hread] at hstore
    refine run_holds hrest ?_
    rw [hstore]
    exact indexed_of_insertEntries (hins x hx node pubkeys accounts hconsumes hread) hmem
      a token ha hreads e he
  · simp only [hread] at hstore
    exact .inr ⟨e, hread, hstore, hrx⟩

/-! ## One payload -/

/-- Every payload holds the same single key. -/
def decodeOne : Bytes → Except String (List Pubkey) := fun _ => .ok [.ofByte 1]

def tokenChain : Pubkey → Option Account := fun _ =>
  some (newTokenAccount SplToken.id (.ofByte 3) (.ofByte 4))

def start : State Db := ⟨[], .empty []⟩

/-- The run in which one payload is sent and received. -/
def oneIteration (node : Node) : List (Step (State Db) Event) :=
  [⟨start, .send [], ⟨[[]], .empty []⟩⟩,
    ⟨⟨[[]], .empty []⟩, .iterate node,
      ⟨[], handle decodeOne [] sqliteEngine.accountsIndex node [] (.empty [])⟩⟩]

theorem run_oneIteration (node : Node) :
    Run (step decodeOne [] sqliteEngine.accountsIndex) start (oneIteration node)
      ⟨[], handle decodeOne [] sqliteEngine.accountsIndex node [] (.empty [])⟩ :=
  .cons rfl (.single rfl)

/-- The one step of the run that consumes a payload. -/
theorem consumes_oneIteration {node node' : Node} {x : Step (State Db) Event}
    {pubkeys : List Pubkey} (hx : x ∈ oneIteration node)
    (h : Consumes decodeOne [] x node' pubkeys) :
    node' = node ∧ pubkeys = [.ofByte 1] ∧ x.pre.store = .empty [] := by
  obtain ⟨hev, payload, rx, all, -, hdecode, rfl⟩ := h
  cases hdecode
  simp only [oneIteration, List.mem_cons, List.not_mem_nil, or_false] at hx
  rcases hx with rfl | rfl
  · cases hev
  · cases hev
    exact ⟨rfl, rfl, rfl⟩

/-- The read fails; afterwards the key has not been read, and no payload holds it. -/
theorem failed_read_forgets_key : ¬ ∀ (decode : Bytes → Except String (List Pubkey))
    (excludeKeys : List Pubkey) (engine : Engine) (ts : List (Step (State Db) Event))
    (t : State Db), Run (step decode excludeKeys engine.accountsIndex) start ts t →
    (∀ x ∈ ts, InsertsSucceed decode excludeKeys engine x) →
    ∀ x ∈ ts, ∀ node pubkeys, Consumes decode excludeKeys x node pubkeys → ∀ pubkey ∈ pubkeys,
      ReadAndIndexed decode excludeKeys ts t.store pubkey ∨ Held decode t pubkey := by
  intro hall
  have hins : ∀ x ∈ oneIteration .dead, InsertsSucceed decodeOne [] sqliteEngine x := by
    intro x hx node pubkeys accounts hconsumes hread
    obtain ⟨rfl, -, -⟩ := consumes_oneIteration hx hconsumes
    cases hread
  have hkept := hall decodeOne [] sqliteEngine _ _ (run_oneIteration .dead) hins _
    (List.mem_cons_of_mem _ (List.mem_singleton.mpr rfl)) .dead [.ofByte 1]
    ⟨rfl, [], [], [.ofByte 1], rfl, rfl, rfl⟩ (.ofByte 1) (List.mem_singleton.mpr rfl)
  rcases hkept with ⟨x, hx, node, pubkeys, accounts, account, hconsumes, hread, -⟩ | ⟨payload, hmem, -⟩
  · obtain ⟨rfl, -, -⟩ := consumes_oneIteration hx hconsumes
    cases hread
  · cases hmem

/-- The read succeeds, and the token account it shows is in the table. -/
theorem token_account_indexed :
    Indexed (handle decodeOne [] sqliteEngine.accountsIndex (Node.dead.serving tokenChain) []
      (.empty [])) (.ofByte 1) (tokenChain (.ofByte 1)) := by
  have hins : ∀ x ∈ oneIteration (Node.dead.serving tokenChain),
      InsertsSucceed decodeOne [] sqliteEngine x := by
    intro x hx node pubkeys accounts hconsumes hread
    obtain ⟨rfl, rfl, hstore⟩ := consumes_oneIteration hx hconsumes
    rw [Client.getAccounts_serving] at hread
    cases hread
    rw [hstore]
    exact insertEntries_of_new sqliteEngine Db.calm_empty (by decide +kernel)
      fun e _ => Db.not_holds_empty _ e
  obtain ⟨accounts, hread, -, hindexed⟩ | ⟨e, hread, -⟩ :=
    consumed_indexed_or_dropped (run_oneIteration (Node.dead.serving tokenChain)) hins _
      (List.mem_cons_of_mem _ (List.mem_singleton.mpr rfl)) _ [.ofByte 1]
      ⟨rfl, [], [], [.ofByte 1], rfl, rfl, rfl⟩
  · rw [Client.getAccounts_serving] at hread
    cases hread
    dsimp only at hindexed
    exact hindexed (.ofByte 1) (tokenChain (.ofByte 1)) (List.mem_singleton.mpr rfl)
  · rw [Client.getAccounts_serving] at hread
    cases hread

end Index.Ingest

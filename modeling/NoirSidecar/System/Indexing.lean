-- SUMMARY: What the index of the running sidecar holds comes from finalized events and a look at the chain, and what an update has read it keeps.
import NoirSidecar.Index.Soundness
import NoirSidecar.System.Methods

/-!
# The index in the running sidecar

The index task takes the payloads the subscriber has sent and updates the index, one insert
at a time, while requests read it and the chain moves on. Nobody else writes to it.
-/

namespace Index

/-! ## Updates as dialogues -/

/-- The rest of an update once its read has been answered. -/
def insertRead (pubkeys : List Pubkey) :
    StateCall (List (Option Account)) → IndexProg Error Unit
  | .failed e => .fail (.clientError e)
  | .rejected text => .fail (.clientError (.invalidRequest text))
  | .undecodable text => .fail (.clientError (.parseError text))
  | .value answers =>
    if pubkeys.length ≠ answers.length then
      .fail (.clientError (.unexpectedResponse "Account count mismatch with public keys."))
    else (entriesOf (pubkeys.zip answers)).forM insertIndex

theorem insertRead_of_length_ne {pubkeys : List Pubkey} {answers : List (Option Account)}
    (h : pubkeys.length ≠ answers.length) : insertRead pubkeys (.value answers) =
      .fail (.clientError (.unexpectedResponse "Account count mismatch with public keys.")) :=
  if_pos h

theorem insertRead_of_length_eq {pubkeys : List Pubkey} {answers : List (Option Account)}
    (h : pubkeys.length = answers.length) : insertRead pubkeys (.value answers) =
      (entriesOf (pubkeys.zip answers)).forM insertIndex :=
  if_neg (not_not.mpr h)

theorem updateIndex_eq (pubkeys : List Pubkey) :
    updateIndex pubkeys =
      .ask (.inl (.runtime (.getMultipleAccounts pubkeys) none)) (insertRead pubkeys) := by
  refine congrArg (Prog.ask _) (funext fun answer => ?_)
  cases answer with
  | failed e => rfl
  | rejected text => rfl
  | undecodable text => rfl
  | value answers =>
    have hread : ∀ p : NodeProg Client.Error (List (Pubkey × Option Account)),
        p = (if pubkeys.length ≠ answers.length then
            .fail (.unexpectedResponse "Account count mismatch with public keys.")
          else pure (pubkeys.zip answers)) →
        ((p.mapError Error.clientError).left >>= fun accounts =>
          (existing accounts).forM indexAccount) = insertRead pubkeys (.value answers) := by
      rintro p rfl
      by_cases hlen : pubkeys.length = answers.length
      · rw [if_neg (not_not.mpr hlen), insertRead_of_length_eq hlen]
        exact forM_indexAccount _
      · rw [if_pos hlen, insertRead_of_length_ne hlen]
        rfl
    exact hread _ rfl

/-- The inserts of some entries ask for nothing else. -/
theorem asks_forM_insertIndex (entries : List Entry) :
    (entries.forM insertIndex : IndexProg Error Unit).Asks
      fun q => ∃ e ∈ entries, q = .inr (.insertIndex e) := by
  induction entries with
  | nil => trivial
  | cons e entries ih =>
    refine ⟨⟨e, List.mem_cons_self, rfl⟩, fun a => ?_⟩
    refine (Prog.asks_ofExcept a).bind fun _ => ih.mono ?_
    rintro q ⟨e', he', rfl⟩
    exact ⟨e', List.mem_cons_of_mem e he', rfl⟩

variable {pubkeys : List Pubkey} {told : List Sidecar.Answered}

/-- An update inserts entries of what it has read. -/
theorem entry_of_dialogue {e : Entry} {k : Except Error Unit → IndexProg Error Unit}
    (h : Prog.Dialogue (updateIndex pubkeys) told (.ask (.inr (.insertIndex e)) k)) :
    ∃ answers, (⟨.inl (.runtime (.getMultipleAccounts pubkeys) none), .value answers⟩ :
        Sidecar.Answered) ∈ told ∧ e ∈ entriesOf (pubkeys.zip answers) := by
  rw [updateIndex_eq] at h
  rcases h with - | @⟨_, _, a, told, _, hrest⟩
  cases a with
  | failed e => cases hrest
  | rejected text => cases hrest
  | undecodable text => cases hrest
  | value answers =>
    refine ⟨answers, List.mem_cons_self, ?_⟩
    by_cases hlen : pubkeys.length = answers.length
    · rw [insertRead_of_length_eq hlen] at hrest
      obtain ⟨-, ⟨e', he', heq⟩, -⟩ := hrest.asks (asks_forM_insertIndex _)
      cases heq
      exact he'
    · rw [insertRead_of_length_ne hlen] at hrest
      cases hrest

end Index

namespace Sidecar

open Chain Solana
open Index.Ingest (included mem_included)

variable {P V : Type}

/-! ## Who writes to the index -/

/-- The question is not an insert. -/
def Quiet : NodeCall ⊕ Index.Call → Prop
  | .inr (.insertIndex _) => False
  | _ => True

theorem quiet_of_pinnedListing (q : NodeCall ⊕ Index.Call) (h : PinnedListing q) : Quiet q := by
  rcases q with call | _ | _
  · trivial
  · trivial
  · cases h

theorem quiet_of_opens {α : Type} {call : NodeCall} {p : ListingProg α}
    (h : p.Opens (.inl call) PinnedListing) : p.Asks Quiet :=
  h.asks trivial quiet_of_pinnedListing

theorem quiet_left {α : Type} (p : RpcProg α) : (p.left : ListingProg α).Asks Quiet := by
  refine (Prog.asks_left p).mono ?_
  rintro (call | call) hleft
  · trivial
  · exact absurd rfl hleft

/-- Requests do not write to the index. -/
theorem quiet_answer (set : Setting P V) (orders : IterOrders) (r : Request) :
    (r.answer set orders).Asks Quiet := by
  cases r with
  | getProgramAccounts programIdStr config =>
    exact quiet_of_opens (fromBlock_getProgramAccounts programIdStr config).opens
  | getTokenAccountsByOwner ownerStr filter config =>
    exact quiet_of_opens (fromBlock_getTokenAccountsByOwner ownerStr filter config).opens
  | getVersion => trivial
  | getSignaturesForAddress address => trivial
  | getVoteAccounts => trivial
  | _ => exact quiet_left _

/-- The thread is about to insert the entry. -/
def Thread.Inserts (thread : Thread) (entry : Index.Entry) : Prop :=
  ∃ k, thread.prog = .ask (.inr (.insertIndex entry)) k

section Steps

variable [ToString P] {set : Setting P V} {s s' t : State P V} {e : Event P V}
  {chain : List Block} {store : Index.Db} {ts : List (Step (State P V) (Event P V))}

/-- A listing takes the faults that come its way and leaves the table alone. -/
theorem holds_getIndexedKeys (engine : Index.Engine) (index : AccountIndex) (indexKey : Pubkey)
    (sortResults : Bool) (db : Index.Db) (entry : Index.Entry) :
    (engine.getIndexedKeys index indexKey sortResults db).2.Holds entry ↔ db.Holds entry := by
  have hdb : (engine.getIndexedKeys index indexKey sortResults db).2 = db.next.2 := by
    unfold Index.Engine.getIndexedKeys
    split <;> simp [*]
  rw [hdb, Index.Db.holds_next]

/-- What a step does to the index: it takes nothing away, and what it adds is the entry that
some thread is about to insert. -/
theorem store_step (h : step set s e = some s') (entry : Index.Entry) :
    (s.store.Holds entry → s'.store.Holds entry) ∧
      (s'.store.Holds entry → s.store.Holds entry ∨
        ∃ (i : Nat) (thread : Thread), s.threads[i]? = some thread ∧ thread.Inserts entry) := by
  cases e with
  | tick =>
    obtain rfl := step_tick.mp h
    exact ⟨id, .inl⟩
  | client ce =>
    obtain ⟨-, client, -, rfl⟩ := step_client.mp h
    exact ⟨id, .inl⟩
  | answer failure =>
    obtain ⟨r, client, -, -, rfl⟩ := step_answer.mp h
    exact ⟨id, .inl⟩
  | subscriber se =>
    obtain ⟨subscriber, -, rfl⟩ := step_subscriber.mp h
    exact ⟨id, .inl⟩
  | receive =>
    obtain ⟨-, payload, -, rfl⟩ := step_receive.mp h
    exact ⟨id, .inl⟩
  | accept r orders =>
    obtain rfl := step_accept.mp h
    exact ⟨id, .inl⟩
  | ask i =>
    obtain ⟨thread, client, thread', -, -, rfl⟩ := step_ask.mp h
    exact ⟨id, .inl⟩
  | reply i =>
    obtain ⟨thread, thread', -, -, rfl⟩ := step_reply.mp h
    exact ⟨id, .inl⟩
  | leave i =>
    obtain ⟨thread, client, thread', -, -, rfl⟩ := step_leave.mp h
    exact ⟨id, .inl⟩
  | lookUp i =>
    obtain ⟨thread, db, thread', hi, hlookUp, rfl⟩ := step_lookUp.mp h
    -- the one event that reaches the index
    unfold lookUp at hlookUp
    split at hlookUp
    · next call k hprog =>
      cases hlookUp
      cases call with
      | getIndexedKeys index indexKey sortResults =>
        have hsame := holds_getIndexedKeys set.engine index indexKey sortResults s.store entry
        exact ⟨hsame.mpr, fun hholds => .inl (hsame.mp hholds)⟩
      | insertIndex entry' =>
        have hinsert := set.engine.holds_insertIndex entry' s.store entry
        refine ⟨fun hholds => hinsert.mpr (.inl hholds), fun hholds => ?_⟩
        -- an insert adds its own entry, or meets a fault and adds nothing
        rcases hinsert.mp hholds with hheld | ⟨rfl, -⟩
        · exact .inl hheld
        · exact .inr ⟨i, thread, (present_eq_some hi).1, k, hprog⟩
    · cases hlookUp

/-- The entries held at any moment of a run are held at its end. -/
theorem holds_of_visited (h : Run (step set) s ts t) {u : State P V} (hu : u ∈ visited s ts)
    {entry : Index.Entry} (hholds : u.store.Holds entry) : t.store.Holds entry :=
  h.visited_le (R := fun u v => u.store.Holds entry → v.store.Holds entry) (fun _ => id)
    (fun _ _ _ huv hvw hu => hvw (huv hu)) (fun _ _ _ hstep => (store_step hstep entry).1) u hu hholds

end Steps

/-! ## Where entries come from -/

/-- A finalized block tells of these keys in an event with this payload; they are its keys that
are not excluded. -/
def Loaded (set : Setting P V) (s : State P V) (payload : Bytes) (pubkeys : List Pubkey) : Prop :=
  ∃ block ∈ s.subscriber.chain, ∃ event, .ok event ∈ block.events ∧
    event.palletName = "Solana" ∧ event.variantName = "LoadedAccounts" ∧
    event.fieldBytes = payload ∧
    ∃ all, set.decode payload = .ok all ∧ pubkeys = included excludeKeys all

/-- At this moment the node has a read of the keys, and shows these accounts at the best block. -/
def Shown (set : Setting P V) (u : State P V) (pubkeys : List Pubkey)
    (answers : List (Option Account)) : Prop :=
  u.AtNode set (.runtime (.getMultipleAccounts pubkeys) none) ∧
    set.node (.runtime (.getMultipleAccounts pubkeys) (some (set.history.world u.time).best)) =
      .value answers

/-- In this state an update with the keys has been told of these accounts. -/
def HasRead (s : State P V) (payload : Bytes) (pubkeys : List Pubkey)
    (answers : List (Option Account)) : Prop :=
  ∃ thread ∈ s.threads, thread.job = .index payload pubkeys ∧
    ⟨.inl (.runtime (.getMultipleAccounts pubkeys) none), .value answers⟩ ∈ thread.told

/-- In a run that ends in `t`, the index task has received the payload of a finalized event, and
read the accounts of its keys since. -/
structure ReadInRun (set : Setting P V) (ts : List (Step (State P V) (Event P V))) (t : State P V)
    (payload : Bytes) (pubkeys : List Pubkey) (answers : List (Option Account)) : Prop where
  loaded : Loaded set t payload pubkeys
  read : ∃ before x later, ts = before ++ x :: later ∧ x.ev = .receive ∧
    x.pre.nextPayload = some payload ∧ (∃ u ∈ visited x.post later, Shown set u pubkeys answers) ∧
    ∃ u ∈ visited x.post later, HasRead u payload pubkeys answers

/-- Where the index may know an entry from: it did so at the start, or a read of the index task
for a finalized event has found a token account with this entry. -/
def Indexed (set : Setting P V) (store : Index.Db) (ts : List (Step (State P V) (Event P V)))
    (t : State P V) (entry : Index.Entry) : Prop :=
  store.Holds entry ∨ ∃ payload pubkeys answers, ReadInRun set ts t payload pubkeys answers ∧
    entry.indexedKey ∈ pubkeys ∧ entry ∈ Index.entriesOf (pubkeys.zip answers)

section Origin

variable [ToString P] {set : Setting P V} {s t t' : State P V} {chain : List Block}
  {store : Index.Db} {ts us : List (Step (State P V) (Event P V))}

theorem chain_step {s s' : EventSubscriber.State} {e : EventSubscriber.Event}
    (h : EventSubscriber.step filters s e = some s') : s.chain <+: s'.chain := by
  cases e with
  | finalize block =>
    obtain rfl := EventSubscriber.step_finalize.mp h
    exact List.prefix_append _ _
  | connect ok =>
    obtain ⟨-, -, rfl⟩ := EventSubscriber.step_connect.mp h
    exact List.prefix_rfl
  | subscribe ok =>
    obtain ⟨-, -, ⟨-, rfl⟩ | ⟨-, rfl⟩⟩ := EventSubscriber.step_subscribe.mp h
    · exact List.prefix_rfl
    · exact List.prefix_rfl
  | deliver =>
    obtain ⟨position, -, -, rfl⟩ := EventSubscriber.step_deliver.mp h
    exact List.prefix_rfl
  | streamEnd =>
    obtain ⟨-, rfl⟩ := EventSubscriber.step_streamEnd.mp h
    exact List.prefix_rfl
  | fetch ok =>
    obtain ⟨position, -, rfl⟩ := EventSubscriber.step_fetch.mp h
    exact List.prefix_rfl

/-- What a finalized block has told stays told. -/
theorem Loaded.later (h : Run (step set) s ts t) {u : State P V} (hu : u ∈ visited s ts)
    {payload : Bytes} {pubkeys : List Pubkey} (hloaded : Loaded set u payload pubkeys) :
    Loaded set t payload pubkeys := by
  have hchain : u.subscriber.chain <+: t.subscriber.chain := by
    refine h.visited_le (R := fun u v => u.subscriber.chain <+: v.subscriber.chain)
      (fun _ => List.prefix_rfl) (fun _ _ _ => List.IsPrefix.trans) ?_ u hu
    intro s e s' hstep
    rcases subscriber_step hstep with hsame | ⟨se, hse⟩
    · rw [hsame]
    · exact chain_step hse
  obtain ⟨block, hblock, hrest⟩ := hloaded
  exact ⟨block, hchain.subset hblock, hrest⟩

/-- What has been read stays read. -/
theorem ReadInRun.later (h : Run (step set) t us t') {payload : Bytes} {pubkeys : List Pubkey}
    {answers : List (Option Account)} (hread : ReadInRun set ts t payload pubkeys answers) :
    ReadInRun set (ts ++ us) t' payload pubkeys answers := by
  obtain ⟨before, x, later, rfl, hev, hnext, ⟨u, hu, hshown⟩, v, hv, hhas⟩ := hread.read
  exact {
    loaded := hread.loaded.later h List.mem_cons_self
    read := ⟨before, x, later ++ us, by simp, hev, hnext, ⟨u, visited_earlier hu us, hshown⟩,
      v, visited_earlier hv us, hhas⟩ }

/-- A payload in the channel of the index task is that of a finalized event. -/
theorem loaded_of_nextPayload (h : Run (step set) (.init chain store) ts t) {payload : Bytes}
    (hnext : t.nextPayload = some payload) {all : List Pubkey} (hdecode : set.decode payload = .ok all) :
    Loaded set t payload (included excludeKeys all) := by
  obtain ⟨us, hrun, -⟩ := subscriber_run h
  have hsent := (EventSubscriber.sentTo_of_run (i := 0) hrun rfl).2
  have hmem : payload ∈ EventSubscriber.sentTo 0 t.subscriber.pushed := List.mem_of_getElem? hnext
  rw [hsent] at hmem
  obtain ⟨processed, -, hmem⟩ := List.mem_flatMap.mp hmem
  split at hmem
  · unfold EventFilter.payloadsAt at hmem
    cases hblock : t.subscriber.chain[processed.position]? with
    | none => simp [hblock] at hmem
    | some block =>
      rw [hblock] at hmem
      obtain ⟨event, hevent, rfl⟩ := List.mem_map.mp hmem
      obtain ⟨hdecoded, haccepts⟩ := List.mem_filter.mp hevent
      obtain ⟨result, hresult, hok⟩ := List.mem_filterMap.mp hdecoded
      have heq : result = .ok event := by
        cases result with
        | error e => cases hok
        | ok event' => cases hok; rfl
      rw [heq] at hresult
      simp only [EventFilter.accepts, loadedAccounts, Bool.and_eq_true, beq_iff_eq] at haccepts
      exact ⟨block, List.mem_of_getElem? hblock, event, hresult, haccepts.1, haccepts.2, rfl, all,
        hdecode, rfl⟩
  · cases hmem

/-- What the thread of an update has been told by the node is a read in the run. -/
theorem update_of_run (h : Run (step set) (.init chain store) ts t) {i : Nat} {payload : Bytes}
    {pubkeys : List Pubkey} {prog : Index.IndexProg Index.Error Unit} {awaiting : Option Nat}
    {told : List Answered} {left : Bool}
    (hi : t.threads[i]? = some ⟨.index payload pubkeys, prog, awaiting, told, left⟩) :
    Prog.Dialogue (Index.updateIndex pubkeys) told prog ∧
      ∀ answers, ⟨.inl (.runtime (.getMultipleAccounts pubkeys) none), .value answers⟩ ∈ told →
        ReadInRun set ts t payload pubkeys answers := by
  obtain ⟨before, x, later, rfl, -, hbegins, hthread⟩ := thread_of_run h hi
  obtain ⟨hev, hnext, all, hdecode, rfl⟩ := hbegins.index_eq
  obtain ⟨hbefore, -, hlater⟩ := h.split
  have hloaded := loaded_of_nextPayload hbefore hnext hdecode
  refine ⟨hthread.dialogue, fun answers hmem => ?_⟩
  rcases hthread.heard _ hmem with ⟨e, hfailed⟩ | ⟨u, hu, hsaid⟩
  · cases hfailed
  have hhas : HasRead t payload (included excludeKeys all) answers :=
    ⟨_, List.mem_of_getElem? hi, rfl, hmem⟩
  exact {
    loaded := hloaded.later h (h.pre_mem_visited (by simp))
    read := ⟨before, x, later, rfl, hev, hnext, ⟨u, hu, hsaid.2, hsaid.1.symm⟩, t,
      hlater.end_mem_visited, hhas⟩ }

/-- What a thread is about to insert it has read: requests insert nothing. -/
theorem read_of_inserts (h : Run (step set) (.init chain store) ts t) {i : Nat} {thread : Thread}
    {entry : Index.Entry} (hi : t.threads[i]? = some thread) (hinserts : thread.Inserts entry) :
    ∃ payload pubkeys answers, thread.job = .index payload pubkeys ∧
      ⟨.inl (.runtime (.getMultipleAccounts pubkeys) none), .value answers⟩ ∈ thread.told ∧
      entry ∈ Index.entriesOf (pubkeys.zip answers) := by
  obtain ⟨_, _, _, -, -, -, hthread⟩ := thread_of_run h hi
  have hdialogue := hthread.dialogue
  obtain ⟨job, prog, awaiting, told, left⟩ := thread
  obtain ⟨k, rfl⟩ : ∃ k, prog = .ask (.inr (.insertIndex entry)) k := hinserts
  cases job with
  | request r orders => exact (hdialogue.asks (quiet_answer set orders r)).2.1.elim
  | index payload pubkeys =>
    obtain ⟨answers, hmem, hentry⟩ := Index.entry_of_dialogue hdialogue
    exact ⟨payload, pubkeys, answers, rfl, hmem, hentry⟩

theorem indexed_of_holds (h : Run (step set) (.init chain store) ts t) {entry : Index.Entry}
    (hholds : t.store.Holds entry) : Indexed set store ts t entry := by
  by_cases hnew : store.Holds entry
  · exact .inl hnew
  obtain ⟨before, x, later, rfl, hpre, hpost⟩ :=
    h.exists_change (P := fun s => s.store.Holds entry) hnew hholds
  obtain ⟨hbefore, hx, hlater⟩ := h.split
  obtain ⟨i, ⟨job, prog, awaiting, told, left⟩, hi, hinserts⟩ :=
    ((store_step hx entry).2 hpost).resolve_left hpre
  obtain ⟨payload, pubkeys, answers, hjob, hmem, hentry⟩ := read_of_inserts hbefore hi hinserts
  obtain rfl : job = .index payload pubkeys := hjob
  have hread := (update_of_run hbefore hi).2 answers hmem
  obtain ⟨pubkey, account, token, haccount, -, htoken⟩ := Index.mem_entriesOf.mp hentry
  refine .inr ⟨payload, pubkeys, answers, hread.later (.cons hx hlater), ?_, hentry⟩
  rw [Index.indexedKey_of_mem_tokenEntries htoken]
  exact (List.of_mem_zip haccount).1

/-- Every entry the index comes to hold is that of an account shown by the node: the index task
has received the payload of a finalized event that tells of its key, and its read of the best
block of a later moment has found there a token account with this entry. -/
theorem indexed_from_finalized (h : Run (step set) (.init chain store) ts t) {entry : Index.Entry}
    (hholds : t.store.Holds entry) (hnew : ¬ store.Holds entry) :
    ∃ payload pubkeys answers, ReadInRun set ts t payload pubkeys answers ∧
      entry.indexedKey ∈ pubkeys ∧ entry ∈ Index.entriesOf (pubkeys.zip answers) := by
  exact (indexed_of_holds h hholds).resolve_left hnew

/-! ## What updates leave behind -/

end Origin

/-! ## One payload -/

/-- A finalized block whose transactions have loaded an account. -/
def loadingBlock : Block := ⟨[.ok ⟨"Solana", "LoadedAccounts", [1]⟩]⟩

/-- The block is fetched, its payload taken and the account read and indexed. -/
def oneUpdate : List (Event NodeCall Answered) :=
  [.subscriber (.connect true), .subscriber (.subscribe true), .subscriber .deliver,
    .subscriber (.fetch true), .receive, .ask 0] ++ connecting ++ exchange ++
    [.reply 0, .lookUp 0, .lookUp 0, .lookUp 0]

def tokenSetting : Setting NodeCall Answered :=
  plainSetting (steadyNode.serving Index.Ingest.tokenChain) (.frozen .zero) false

def oneUpdateRun : List (Step (State NodeCall Answered) (Event NodeCall Answered)) :=
  trace (step tokenSetting) (.init [loadingBlock] (.empty [])) oneUpdate

/-- The entry under the owner of the account. -/
theorem entry_from_finalized :
    let t := after (.init [loadingBlock] (.empty [])) oneUpdateRun
    ∃ payload pubkeys answers, ReadInRun tokenSetting oneUpdateRun t payload pubkeys answers ∧
      Pubkey.ofByte 1 ∈ pubkeys ∧
      ⟨.splTokenOwner, .ofByte 4, .ofByte 1⟩ ∈ Index.entriesOf (pubkeys.zip answers) :=
  have hholds : (after (.init [loadingBlock] (.empty [])) oneUpdateRun).store.Holds
      ⟨.splTokenOwner, .ofByte 4, .ofByte 1⟩ := by decide +kernel
  indexed_from_finalized (.of_trace _ oneUpdate) hholds (Index.Db.not_holds_empty _ _)

end Sidecar

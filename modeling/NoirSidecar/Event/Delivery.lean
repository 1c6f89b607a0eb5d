-- SUMMARY: What a filter of the event subscriber receives, and when that is every matching event exactly once.
import NoirSidecar.Event.Subscriber

/-!
# Delivery of events

There is no cursor: a new subscription starts at the head of its time, and a block
whose events cannot be fetched is passed over. What a filter receives is therefore
what the processed blocks hold for it, and this is complete and free of repetitions
exactly as long as the blocks that are skipped, repeated or not fetched hold nothing.
-/

/-! ## Payloads of a stretch of the chain -/

/-- The payloads of the block at a position. -/
def EventFilter.payloadsAt (filter : EventFilter) (chain : List Block) (position : Nat) :
    List Bytes := chain[position]?.elim [] filter.payloads

/-- The payloads of the blocks from position `a` up to, but not including, `b`. -/
def EventFilter.payloadsBetween (filter : EventFilter) (chain : List Block) (a b : Nat) :
    List Bytes := ((chain.drop a).take (b - a)).flatMap filter.payloads

namespace EventFilter

variable (filter : EventFilter) {chain : List Block} {a b c : Nat}

@[simp] theorem payloadsBetween_self : filter.payloadsBetween chain a a = [] := by
  simp [payloadsBetween]

theorem payloadsBetween_append (hab : a ≤ b) (hbc : b ≤ c) :
    filter.payloadsBetween chain a c =
      filter.payloadsBetween chain a b ++ filter.payloadsBetween chain b c := by
  have hsplit : (chain.drop a).take (c - a) =
      (chain.drop a).take (b - a) ++ (chain.drop b).take (c - b) := by
    rw [show c - a = (b - a) + (c - b) by omega, List.take_add, List.drop_drop,
      show a + (b - a) = b by omega]
  simp only [payloadsBetween, hsplit, List.flatMap_append]

theorem payloadsBetween_succ : filter.payloadsBetween chain a (a + 1) = filter.payloadsAt chain a := by
  unfold payloadsBetween payloadsAt
  rw [Nat.add_sub_cancel_left]
  cases h : chain[a]? with
  | none =>
    rw [List.getElem?_eq_none_iff] at h
    simp [List.drop_eq_nil_of_le h]
  | some block =>
    obtain ⟨hlt, rfl⟩ := List.getElem?_eq_some_iff.mp h
    rw [List.drop_eq_getElem_cons hlt, List.take_succ_cons, List.take_zero]
    simp

/-- Blocks finalized later do not matter. -/
theorem payloadsBetween_finalize (block : Block) (hb : b ≤ chain.length) :
    filter.payloadsBetween (chain ++ [block]) a b = filter.payloadsBetween chain a b := by
  by_cases hab : a ≤ b
  · unfold payloadsBetween
    rw [List.drop_append_of_le_length (by omega),
      List.take_append_of_le_length (by rw [List.length_drop]; omega)]
  · simp [payloadsBetween, show b - a = 0 by omega]

theorem payloadsAt_finalize (block : Block) (ha : a < chain.length) :
    filter.payloadsAt (chain ++ [block]) a = filter.payloadsAt chain a := by
  rw [payloadsAt, payloadsAt, List.getElem?_append_left ha]

theorem payloadsBetween_eq_nil_iff (hab : a ≤ b) :
    filter.payloadsBetween chain a b = [] ↔
      ∀ k, a ≤ k → k < b → filter.payloadsAt chain k = [] := by
  induction b, hab using Nat.le_induction with
  | base => simpa using fun k hk hk' => absurd hk' (by omega)
  | succ b hab ih =>
    rw [payloadsBetween_append filter hab (Nat.le_succ b), List.append_eq_nil_iff, ih,
      payloadsBetween_succ]
    constructor
    · rintro ⟨hbefore, hlast⟩ k hk hk'
      rcases Nat.lt_succ_iff_lt_or_eq.mp hk' with hlt | rfl
      · exact hbefore k hk hlt
      · exact hlast
    · intro hall
      exact ⟨fun k hk hk' => hall k hk (by omega), hall b hab (Nat.lt_succ_self b)⟩

end EventFilter

namespace EventSubscriber

/-! ## What is sent to one filter -/

/-- The payloads sent to the filter at position `i`, in order. -/
def sentTo (i : Nat) (pushed : List (Nat × Bytes)) : List Bytes :=
  (pushed.filter fun p => p.1 == i).map Prod.snd

@[simp] theorem sentTo_nil (i : Nat) : sentTo i [] = [] := rfl

@[simp] theorem sentTo_append (i : Nat) (l l' : List (Nat × Bytes)) :
    sentTo i (l ++ l') = sentTo i l ++ sentTo i l' := by
  simp [sentTo]

/-- One event is sent to a filter once if the filter accepts it, and not otherwise. -/
theorem sentTo_event (event : EventDetails) (filters : List EventFilter) (n i : Nat) :
    sentTo i ((filters.zipIdx n).filterMap fun (filter, j) =>
        if filter.accepts event then some (j, event.fieldBytes) else none) =
      if n ≤ i then filters[i - n]?.elim [] (fun filter =>
        if filter.accepts event then [event.fieldBytes] else []) else [] := by
  induction filters generalizing n with
  | nil => simp
  | cons filter filters ih =>
    have hhead : sentTo i (if filter.accepts event then [(n, event.fieldBytes)] else []) =
        if n = i ∧ filter.accepts event then [event.fieldBytes] else [] := by
      by_cases haccepts : filter.accepts event <;> by_cases hi : n = i <;>
        simp [sentTo, haccepts, hi]
    have hcons : ((filter :: filters).zipIdx n).filterMap (fun (filter, j) =>
        if filter.accepts event then some (j, event.fieldBytes) else none) =
        (if filter.accepts event then [(n, event.fieldBytes)] else []) ++
          (filters.zipIdx (n + 1)).filterMap fun (filter, j) =>
            if filter.accepts event then some (j, event.fieldBytes) else none := by
      by_cases haccepts : filter.accepts event <;> simp [List.zipIdx_cons, haccepts]
    rw [hcons, sentTo_append, hhead, ih]
    rcases Nat.lt_trichotomy i n with hlt | rfl | hgt
    · simp [show ¬ n ≤ i by omega, show ¬ n + 1 ≤ i by omega, show n ≠ i by omega]
    · simp
    · obtain ⟨k, rfl⟩ : ∃ k, i = n + 1 + k := ⟨i - (n + 1), by omega⟩
      have hne : n ≠ n + 1 + k := by omega
      simp [hne, show n ≤ n + 1 + k by omega, show n + 1 + k - n = k + 1 by omega]

/-- A block sends a filter its payloads. -/
theorem sentTo_pushes {filters : List EventFilter} {i : Nat} {filter : EventFilter}
    (h : filters[i]? = some filter) (block : Block) :
    sentTo i (pushes filters block) = filter.payloads block := by
  unfold pushes EventFilter.payloads
  induction block.decoded with
  | nil => rfl
  | cons event events ih =>
    rw [List.flatMap_cons, sentTo_append, ih, sentTo_event]
    by_cases haccepts : filter.accepts event <;> simp [h, haccepts]

/-! ## The record of a run -/

/-- The position behind the last block processed. -/
def State.next (s : State) : Nat :=
  match s.processed.getLast? with
  | some p => p.position + 1
  | none => s.first.getD 0

/-- The payloads sent so far are those of all blocks from the first one subscribed to
up to the last one processed, in the order of the chain. -/
def State.Complete (s : State) (i : Nat) (filter : EventFilter) : Prop :=
  sentTo i s.pushed = filter.payloadsBetween s.chain (s.first.getD 0) s.next

instance (s : State) (i : Nat) (filter : EventFilter) : Decidable (s.Complete i filter) :=
  inferInstanceAs (Decidable (_ = _))

/-- What the processed blocks whose events were fetched hold for a filter. -/
def State.fetchedPayloads (s : State) (filter : EventFilter) : List Bytes :=
  s.processed.flatMap fun p => if p.fetched then filter.payloadsAt s.chain p.position else []

/-- The stretch recorded lies within the chain, and a subscription does not start
before its last block. -/
structure State.WellPlaced (s : State) : Prop where
  idle : s.first = none → s.processed = []
  started : s.first.getD 0 ≤ s.next
  finalized : s.next ≤ s.chain.length
  processed : ∀ p ∈ s.processed, p.position < s.chain.length
  streaming : ∀ position, s.phase = .streaming position → s.first ≠ none ∧ s.next ≤ position + 1
  fetching : ∀ position, s.phase = .fetching position →
    s.first ≠ none ∧ s.next ≤ position + 1 ∧ position < s.chain.length

variable {filters : List EventFilter} {s s' : State} {i : Nat} {filter : EventFilter}

theorem wellPlaced_init (chain : List Block) : (State.init chain).WellPlaced where
  idle _ := rfl
  started := Nat.le_refl 0
  finalized := Nat.zero_le _
  processed := by simp [State.init]
  streaming := by simp [State.init]
  fetching := by simp [State.init]

@[simp] theorem next_process (position : Nat) (ok : Bool) :
    (s.process filters position ok).next = position + 1 := by
  simp [State.next, State.process]

/-- A subscription that is not the first leaves the record alone. -/
theorem next_subscribe (hs : s.WellPlaced) (phase : Phase) (head : Nat) :
    ({ s with phase := phase, first := s.first.or (some head) } : State).next =
      if s.first = none then head else s.next := by
  cases hfirst : s.first with
  | none => simp [State.next, hs.idle hfirst]
  | some a => simp [State.next, hfirst]

/-- A block more is finalized. -/
theorem State.WellPlaced.finalize (hs : s.WellPlaced) (block : Block) :
    ({ s with chain := s.chain ++ [block] } : State).WellPlaced where
  idle := hs.idle
  started := hs.started
  finalized := by
    have hnext : ({ s with chain := s.chain ++ [block] } : State).next = s.next := rfl
    have hlen := hs.finalized
    rw [hnext, List.length_append]
    omega
  processed p hp := by
    have hlen := hs.processed p hp
    rw [List.length_append]
    omega
  streaming := hs.streaming
  fetching position hp := by
    obtain ⟨hfirst, hnext, hlt⟩ := hs.fetching position hp
    refine ⟨hfirst, hnext, ?_⟩
    rw [List.length_append]
    omega

/-- A subscription starts at the last finalized block. -/
theorem State.WellPlaced.subscribe (hs : s.WellPlaced) :
    ({ s with phase := .streaming (s.chain.length - 1),
              first := s.first.or (some (s.chain.length - 1)) } : State).WellPlaced := by
  have hnext := next_subscribe hs (.streaming (s.chain.length - 1)) (s.chain.length - 1)
  have hfinal := hs.finalized
  have hstart := hs.started
  refine ⟨?_, ?_, ?_, hs.processed, ?_, by simp⟩
  · simp
  · rw [hnext]
    cases hfirst : s.first with
    | none => simp
    | some a => simpa [hfirst] using hstart
  · rw [hnext]
    split
    · exact Nat.sub_le _ _
    · exact hfinal
  · intro position hp
    cases hp
    refine ⟨by simp, ?_⟩
    rw [hnext]
    split <;> omega

/-- The block that is being fetched is processed. -/
theorem State.WellPlaced.process (hs : s.WellPlaced) {position : Nat} (hp : s.phase = .fetching position)
    (ok : Bool) : (s.process filters position ok).WellPlaced := by
  obtain ⟨hfirst, hnext, hlt⟩ := hs.fetching position hp
  have hstart := hs.started
  refine ⟨fun hnone => absurd hnone hfirst, ?_, ?_, ?_, ?_, by simp [State.process]⟩
  · rw [next_process]
    exact Nat.le_trans hstart hnext
  · rw [next_process]
    exact hlt
  · intro p hmem
    rcases List.mem_append.mp hmem with hmem | hmem
    · exact hs.processed p hmem
    · obtain rfl := List.mem_singleton.mp hmem
      exact hlt
  · intro position' hp'
    cases hp'
    refine ⟨hfirst, ?_⟩
    rw [next_process]
    omega

theorem wellPlaced_step {e : Event} (h : step filters s e = some s') (hs : s.WellPlaced) :
    s'.WellPlaced := by
  cases e with
  | finalize block =>
    obtain rfl := step_finalize.mp h
    exact hs.finalize block
  | connect ok =>
    obtain ⟨-, -, rfl⟩ := step_connect.mp h
    exact ⟨hs.idle, hs.started, hs.finalized, hs.processed, hs.streaming, hs.fetching⟩
  | subscribe ok =>
    obtain ⟨-, -, ⟨-, rfl⟩ | ⟨-, rfl⟩⟩ := step_subscribe.mp h
    · exact ⟨hs.idle, hs.started, hs.finalized, hs.processed, hs.streaming, hs.fetching⟩
    · exact hs.subscribe
  | deliver =>
    obtain ⟨position, hp, hlt, rfl⟩ := step_deliver.mp h
    obtain ⟨hfirst, hnext⟩ := hs.streaming position hp
    refine ⟨hs.idle, hs.started, hs.finalized, hs.processed, by simp, ?_⟩
    intro position' hp'
    cases hp'
    exact ⟨hfirst, hnext, hlt⟩
  | streamEnd =>
    obtain ⟨-, rfl⟩ := step_streamEnd.mp h
    exact ⟨hs.idle, hs.started, hs.finalized, hs.processed, by simp, by simp⟩
  | fetch ok =>
    obtain ⟨position, hp, rfl⟩ := step_fetch.mp h
    exact hs.process hp ok

/-! ## Completeness -/

/-- To be done with the block at `position` in this way loses and repeats nothing of
what a filter waits for: the blocks skipped hold nothing for it, nor does the block
itself if it is sent again or if its events could not be fetched. -/
structure Harmless (filter : EventFilter) (s : State) (position : Nat) (ok : Bool) : Prop where
  skipped : ∀ k, s.next ≤ k → k < position → filter.payloadsAt s.chain k = []
  repeated : ok = true → position < s.next → filter.payloadsAt s.chain position = []
  failed : ok = false → s.next ≤ position → filter.payloadsAt s.chain position = []

/-- If the step finishes a block, it does so harmlessly. -/
def HarmlessStep (filter : EventFilter) (x : Step State Event) : Prop :=
  ∀ position ok, x.pre.phase = .fetching position → x.ev = .fetch ok →
    Harmless filter x.pre position ok

/-- What finishing a block sends is the stretch it adds, exactly if it is harmless. -/
theorem payloadsBetween_eq_iff {position : Nat} {ok : Bool} (hnext : s.next ≤ position + 1) :
    filter.payloadsBetween s.chain s.next (position + 1) =
        (if ok then filter.payloadsAt s.chain position else []) ↔
      Harmless filter s position ok := by
  rcases Nat.lt_or_ge position s.next with hlt | hge
  · have heq : s.next = position + 1 := by omega
    rw [heq, EventFilter.payloadsBetween_self]
    constructor
    · intro h
      refine ⟨fun k hk hk' => absurd hk' (by omega), fun hok _ => ?_, fun _ hle => absurd hle (by omega)⟩
      rw [if_pos hok] at h
      exact h.symm
    · intro h
      cases ok with
      | true => exact (h.repeated rfl hlt).symm
      | false => rfl
  · rw [filter.payloadsBetween_append hge (Nat.le_succ position), EventFilter.payloadsBetween_succ]
    have hskipped : filter.payloadsBetween s.chain s.next position = [] ↔
        ∀ k, s.next ≤ k → k < position → filter.payloadsAt s.chain k = [] :=
      filter.payloadsBetween_eq_nil_iff hge
    cases ok with
    | true =>
      rw [if_pos rfl, List.append_left_eq_self, hskipped]
      exact ⟨fun h => ⟨h, fun _ hlt => absurd hlt (by omega), fun hok => by cases hok⟩, fun h => h.skipped⟩
    | false =>
      rw [if_neg (by simp), List.append_eq_nil_iff, hskipped]
      exact ⟨fun h => ⟨h.1, fun hok => (by cases hok), fun _ _ => h.2⟩,
        fun h => ⟨h.skipped, h.failed rfl hge⟩⟩

theorem sentTo_process (hfilter : filters[i]? = some filter) (position : Nat) (ok : Bool) :
    sentTo i (s.process filters position ok).pushed =
      sentTo i s.pushed ++ if ok then filter.payloadsAt s.chain position else [] := by
  unfold State.process EventFilter.payloadsAt
  rw [sentTo_append]
  cases ok with
  | false => rfl
  | true =>
    cases s.chain[position]? with
    | none => rfl
    | some block => simp [sentTo_pushes hfilter]

/-- One step: completeness is kept exactly if the step is harmless. -/
theorem complete_step (hfilter : filters[i]? = some filter) (x : Step State Event)
    (h : step filters x.pre x.ev = some x.post) (hs : x.pre.WellPlaced)
    (hc : x.pre.Complete i filter) : x.post.Complete i filter ↔ HarmlessStep filter x := by
  obtain ⟨s, e, s'⟩ := x
  dsimp only at h hs hc ⊢
  cases e with
  | fetch ok =>
    obtain ⟨position, hp, rfl⟩ := step_fetch.mp h
    -- the block fetched is the next one, so its events belong at the end
    obtain ⟨-, hnext, -⟩ := hs.fetching position hp
    have hharmless : HarmlessStep filter ⟨s, .fetch ok, s.process filters position ok⟩ ↔
        Harmless filter s position ok := by
      constructor
      · exact fun hall => hall position ok hp rfl
      · intro hone position' ok' hp' hok'
        cases hp.symm.trans hp'
        cases hok'
        exact hone
    rw [hharmless, ← payloadsBetween_eq_iff hnext]
    unfold State.Complete at hc ⊢
    rw [sentTo_process hfilter, hc, next_process]
    change _ = filter.payloadsBetween s.chain (s.first.getD 0) (position + 1) ↔ _
    rw [filter.payloadsBetween_append hs.started hnext, List.append_right_inj]
    exact eq_comm
  | finalize block =>
    -- a new block lies beyond what has been fetched
    obtain rfl := step_finalize.mp h
    refine iff_of_true ?_ (fun _ _ _ he => by cases he)
    exact hc.trans (filter.payloadsBetween_finalize block hs.finalized).symm
  | connect ok =>
    obtain ⟨-, -, rfl⟩ := step_connect.mp h
    exact iff_of_true hc (fun _ _ _ he => by cases he)
  | subscribe ok =>
    refine iff_of_true ?_ (fun _ _ _ he => by cases he)
    obtain ⟨-, -, ⟨-, rfl⟩ | ⟨-, rfl⟩⟩ := step_subscribe.mp h
    · exact hc
    -- only the first subscription decides where delivery begins
    · unfold State.Complete at hc ⊢
      rw [next_subscribe hs]
      cases hfirst : s.first with
      | none =>
        have hnext : s.next = 0 := by simp [State.next, hs.idle hfirst, hfirst]
        rw [hfirst, hnext] at hc
        simpa using hc
      | some a => simpa [hfirst] using hc
  | deliver =>
    obtain ⟨position, -, -, rfl⟩ := step_deliver.mp h
    exact iff_of_true hc (fun _ _ _ he => by cases he)
  | streamEnd =>
    obtain ⟨-, rfl⟩ := step_streamEnd.mp h
    exact iff_of_true hc (fun _ _ _ he => by cases he)

/-- Every step adds to what a filter was sent what it adds to the blocks fetched. -/
theorem fetchedPayloads_step (hfilter : filters[i]? = some filter) {e : Event}
    (h : step filters s e = some s') (hs : s.WellPlaced)
    (heq : sentTo i s.pushed = s.fetchedPayloads filter) :
    sentTo i s'.pushed = s'.fetchedPayloads filter := by
  cases e with
  | finalize block =>
    obtain rfl := step_finalize.mp h
    refine heq.trans (List.flatMap_congr fun p hp => ?_)
    rw [EventFilter.payloadsAt_finalize filter block (hs.processed p hp)]
  | connect ok =>
    obtain ⟨-, -, rfl⟩ := step_connect.mp h
    exact heq
  | subscribe ok =>
    obtain ⟨-, -, ⟨-, rfl⟩ | ⟨-, rfl⟩⟩ := step_subscribe.mp h
    · exact heq
    · exact heq
  | deliver =>
    obtain ⟨position, -, -, rfl⟩ := step_deliver.mp h
    exact heq
  | streamEnd =>
    obtain ⟨-, rfl⟩ := step_streamEnd.mp h
    exact heq
  | fetch ok =>
    obtain ⟨position, -, rfl⟩ := step_fetch.mp h
    rw [sentTo_process hfilter, heq]
    simp [State.fetchedPayloads, State.process]

/-- What a filter was sent comes from the blocks processed. -/
theorem sentTo_of_run {chain : List Block} {ts : List (Step State Event)} {t : State}
    (hrun : Run (step filters) (.init chain) ts t) (hfilter : filters[i]? = some filter) :
    t.WellPlaced ∧ sentTo i t.pushed = t.fetchedPayloads filter :=
  (hrun.invariant (I := fun s => s.WellPlaced ∧ sentTo i s.pushed = s.fetchedPayloads filter)
    (fun _ _ _ h hs => ⟨wellPlaced_step h hs.1, fetchedPayloads_step hfilter h hs.1 hs.2⟩)
    ⟨wellPlaced_init chain, rfl⟩).1

/-- In every run a filter is sent what the processed blocks hold for it whose events
were fetched, in the order processed. At every point this is everything from the
first block subscribed to up to the last one processed, each payload once, exactly if
every block is finished harmlessly. -/
theorem delivered_run {chain : List Block} {ts : List (Step State Event)} {t : State}
    (hrun : Run (step filters) (.init chain) ts t) (hfilter : filters[i]? = some filter) :
    sentTo i t.pushed = t.fetchedPayloads filter ∧
      ((∀ u ∈ visited (.init chain) ts, u.Complete i filter) ↔ ∀ x ∈ ts, HarmlessStep filter x) := by
  constructor
  · have hinv := hrun.invariant
      (I := fun s => s.WellPlaced ∧ sentTo i s.pushed = s.fetchedPayloads filter)
      (fun _ _ _ h hs => ⟨wellPlaced_step h hs.1, fetchedPayloads_step hfilter h hs.1 hs.2⟩)
      ⟨wellPlaced_init chain, rfl⟩
    exact hinv.1.2
  · refine hrun.visited_iff (fun _ _ _ => wellPlaced_step) (complete_step hfilter)
      (wellPlaced_init chain) ?_
    exact (EventFilter.payloadsBetween_self filter).symm

/-! ## A subscription renewed at the same head -/

def changedFilter : EventFilter := ⟨"Solana", "Changed"⟩

def changedBlock : Block := ⟨[.ok ⟨"Solana", "Changed", [1]⟩]⟩

/-- The stream ends after the head has been processed, and no block is finalized before
the next subscription. -/
def renewedRun : List (Step State Event) :=
  trace (step [changedFilter]) (.init [changedBlock])
    [.connect true, .subscribe true, .deliver, .fetch true, .streamEnd,
      .subscribe true, .deliver, .fetch true]

theorem head_sent_twice : ¬ (after (.init [changedBlock]) renewedRun).Complete 0 changedFilter := by
  decide

/-- The head is sent twice. -/
theorem incomplete_after_renewal : ¬ ∀ (filters : List EventFilter) (i : Nat)
    (filter : EventFilter) (chain : List Block) (ts : List (Step State Event)) (t : State),
    Run (step filters) (.init chain) ts t → filters[i]? = some filter →
      ∀ u ∈ visited (.init chain) ts, u.Complete i filter := by
  intro hall
  exact head_sent_twice (hall [changedFilter] 0 changedFilter _ _ _ (Run.of_trace _ _) rfl _
    (Run.after_mem_visited _ _))

/-- Sending the head again is not harmless. -/
theorem renewal_not_harmless : ¬ ∀ x ∈ renewedRun, HarmlessStep changedFilter x := by
  intro hharmless
  have hdelivered := delivered_run (i := 0) (Run.of_trace (State.init [changedBlock])
    [.connect true, .subscribe true, .deliver, .fetch true, .streamEnd,
      .subscribe true, .deliver, .fetch true]) (show [changedFilter][0]? = some changedFilter from rfl)
  exact head_sent_twice (hdelivered.2.mpr hharmless _ (Run.after_mem_visited _ _))

end EventSubscriber

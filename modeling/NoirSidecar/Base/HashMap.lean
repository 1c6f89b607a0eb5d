-- SUMMARY: Hash maps as association lists with distinct keys, collected from pairs, read back in an arbitrary order.
import Mathlib.Data.List.AList
import Mathlib.Data.List.Induction

/-!
# Hash maps with an arbitrary iteration order

A hash map is an association list with distinct keys. Collecting a list of pairs
keeps the last pair of each key. Iterating over a map yields its pairs in an
order nothing is known about: an `IterOrder` is any choice of such an order for
every map.
-/

abbrev HashMap (K V : Type) := AList fun _ : K => V

namespace HashMap

variable {K V : Type}

/-- The pairs of a map, in the order the association list happens to hold them. -/
def pairs (m : HashMap K V) : List (K × V) := m.entries.map fun e => (e.1, e.2)

/-- Collect pairs into a map; of the pairs of one key the last one stays. -/
def collect [DecidableEq K] (l : List (K × V)) : HashMap K V :=
  (l.reverse.map fun p => (⟨p.1, p.2⟩ : Sigma fun _ : K => V)).toAList

theorem nodup_keys_pairs (m : HashMap K V) : (m.pairs.map Prod.fst).Nodup := by
  have : m.pairs.map Prod.fst = m.keys := by
    simp [pairs, AList.keys, List.keys, Function.comp_def]
  rw [this]
  exact m.keys_nodup

variable [DecidableEq K]

theorem mem_pairs {m : HashMap K V} {k : K} {v : V} :
    (k, v) ∈ m.pairs ↔ m.lookup k = some v := by
  constructor
  · intro h
    obtain ⟨⟨k', v'⟩, hmem, heq⟩ := List.mem_map.mp h
    obtain ⟨rfl, rfl⟩ := Prod.mk.inj heq
    exact AList.mem_lookup_iff.mpr hmem
  · intro h
    exact List.mem_map.mpr ⟨⟨k, v⟩, AList.mem_lookup_iff.mp h, rfl⟩

@[simp] theorem lookup_collect_nil (k : K) : (collect ([] : List (K × V))).lookup k = none := rfl

theorem lookup_collect_snoc (l : List (K × V)) (p : K × V) (k : K) :
    (collect (l ++ [p])).lookup k = if k = p.1 then some p.2 else (collect l).lookup k := by
  simp only [collect, List.reverse_append, List.reverse_singleton, List.singleton_append,
    List.map_cons, AList.lookup_to_alist]
  split
  · next h => subst h; exact List.dlookup_cons_eq _ _ _
  · next h => exact List.dlookup_cons_ne _ _ h

/-- A map holds what was collected last under a key. -/
theorem lookup_collect_eq_some_iff {l : List (K × V)} {k : K} {v : V} :
    (collect l).lookup k = some v ↔ ∃ a b, l = a ++ (k, v) :: b ∧ k ∉ b.map Prod.fst := by
  -- from the end of the list, since the last pair wins
  induction l using List.reverseRecOn with
  | nil => simp
  | append_singleton l p ih =>
    rw [lookup_collect_snoc]
    split
    · next hk =>
      subst hk
      constructor
      · intro h
        obtain rfl := Option.some.inj h
        exact ⟨l, [], by simp, by simp⟩
      · rintro ⟨a, b, hl, hb⟩
        rcases List.eq_nil_or_concat b with rfl | ⟨b, q, rfl⟩
        · have hp := (List.append_inj' hl rfl).2
          simp only [List.cons.injEq, and_true] at hp
          rw [hp]
        · have hl' : l ++ [p] = (a ++ (p.1, v) :: b) ++ [q] := by rw [hl]; simp
          have hp := (List.append_inj' hl' rfl).2
          simp only [List.cons.injEq, and_true] at hp
          subst hp
          exact absurd (by simp) hb
    · next hk =>
      rw [ih]
      constructor
      · rintro ⟨a, b, rfl, hb⟩
        exact ⟨a, b ++ [p], by simp, by simpa [hk] using hb⟩
      · rintro ⟨a, b, hl, hb⟩
        rcases List.eq_nil_or_concat b with rfl | ⟨b, q, rfl⟩
        · have hp := (List.append_inj' hl rfl).2
          simp only [List.cons.injEq, and_true] at hp
          exact absurd (by rw [hp]) hk
        · have hl' : l ++ [p] = (a ++ (k, v) :: b) ++ [q] := by rw [hl]; simp
          refine ⟨a, b, (List.append_inj' hl' rfl).1, fun hmem => hb ?_⟩
          simpa using Or.inl hmem

theorem mem_of_lookup_collect {l : List (K × V)} {k : K} {v : V}
    (h : (collect l).lookup k = some v) : (k, v) ∈ l := by
  obtain ⟨a, b, rfl, -⟩ := lookup_collect_eq_some_iff.mp h
  simp

theorem lookup_collect_eq_none_iff {l : List (K × V)} {k : K} :
    (collect l).lookup k = none ↔ k ∉ l.map Prod.fst := by
  induction l using List.reverseRecOn with
  | nil => simp
  | append_singleton l p ih =>
    rw [lookup_collect_snoc]
    split
    · next hk => simp [hk]
    · next hk => rw [ih]; simp [hk]

/-- If the pairs of a key agree, a map holds what they say. -/
theorem lookup_collect {l : List (K × V)} {k : K} {o : Option V}
    (h : ∀ v, (k, v) ∈ l ↔ o = some v) : (collect l).lookup k = o := by
  cases hl : (collect l).lookup k with
  | none =>
    cases o with
    | none => rfl
    | some v =>
      have hmem : k ∈ l.map Prod.fst := List.mem_map_of_mem ((h v).mpr rfl)
      exact absurd hmem (lookup_collect_eq_none_iff.mp hl)
  | some v => exact ((h v).mp (mem_of_lookup_collect hl)).symm

/-- Collecting the graph of a partial function gives that function on the listed keys. -/
theorem lookup_collect_graph (f : K → Option V) (ks : List K) (k : K) :
    (collect (ks.filterMap fun k => (f k).map fun v => (k, v))).lookup k =
      if k ∈ ks then f k else none := by
  apply lookup_collect
  intro v
  simp only [List.mem_filterMap, Option.map_eq_some_iff, Prod.mk.injEq]
  constructor
  · rintro ⟨k, hk, v, hv, rfl, rfl⟩
    rw [if_pos hk, hv]
  · intro h
    split at h
    · next hk => exact ⟨k, hk, v, h, rfl, rfl⟩
    · cases h

theorem lookup_collect_map (f : K → V) (ks : List K) (k : K) :
    (collect (ks.map fun k => (k, f k))).lookup k = if k ∈ ks then some (f k) else none := by
  rw [← lookup_collect_graph (fun k => some (f k)) ks k]
  simp only [Option.map_some, List.filterMap_eq_map']

/-- Collecting pairs whose values have been mapped. -/
theorem lookup_collect_mapValues {W : Type} (f : K → V → W) (l : List (K × V)) (k : K) :
    (collect (l.map fun p => (p.1, f p.1 p.2))).lookup k = ((collect l).lookup k).map (f k) := by
  induction l using List.reverseRecOn with
  | nil => rfl
  | append_singleton l p ih =>
    rw [List.map_append, List.map_singleton, lookup_collect_snoc, lookup_collect_snoc, ih]
    split
    · next hk => rw [hk, Option.map_some]
    · rfl

end HashMap

/-! ## Iteration order -/

/-- An order in which the pairs of each map are visited. -/
structure IterOrder (K V : Type) where
  iter : HashMap K V → List (K × V)
  perm : ∀ m, (iter m).Perm m.pairs

namespace IterOrder

variable {K V : Type}

/-- The order of the association list. -/
def listed : IterOrder K V := ⟨HashMap.pairs, fun _ => .refl _⟩

/-- The opposite of the order of the association list. -/
def reversed : IterOrder K V := ⟨fun m => m.pairs.reverse, fun _ => List.reverse_perm _⟩

theorem nodup_keys (o : IterOrder K V) (m : HashMap K V) : ((o.iter m).map Prod.fst).Nodup :=
  ((o.perm m).map Prod.fst).nodup_iff.mpr m.nodup_keys_pairs

theorem mem_iter [DecidableEq K] (o : IterOrder K V) {m : HashMap K V} {k : K} {v : V} :
    (k, v) ∈ o.iter m ↔ m.lookup k = some v :=
  (o.perm m).mem_iff.trans HashMap.mem_pairs

/-- Mapping the values of a map while iterating over it, whatever the order. -/
theorem lookup_collect_filterMap [DecidableEq K] {W : Type} (o : IterOrder K V) (m : HashMap K V)
    (g : V → Option W) (k : K) :
    (HashMap.collect ((o.iter m).filterMap fun p => (g p.2).map fun w => (p.1, w))).lookup k =
      (m.lookup k).bind g := by
  apply HashMap.lookup_collect
  intro w
  simp only [List.mem_filterMap, Option.map_eq_some_iff, Prod.mk.injEq, Option.bind_eq_some_iff]
  constructor
  · rintro ⟨⟨k, v⟩, hmem, w, hw, rfl, rfl⟩
    exact ⟨v, o.mem_iter.mp hmem, hw⟩
  · rintro ⟨v, hv, hw⟩
    exact ⟨(k, v), o.mem_iter.mpr hv, w, hw, rfl, rfl⟩

/-! ## When the order does not show -/

/-- Behind an entry that `f` keeps there is no other such entry, and no other entry
of its key. -/
def OnlyLast {W : Type} (f : K × V → Option W) (l : List (K × V)) : Prop :=
  ∀ a e b, l = a ++ e :: b → (f e).isSome → ∀ e' ∈ b, f e' = none ∧ e'.1 ≠ e.1

theorem eq_singleton_of_nodup {W : Type} {l : List W} {w : W} (hnodup : l.Nodup) (hmem : w ∈ l)
    (hall : ∀ x ∈ l, x = w) : l = [w] := by
  cases l with
  | nil => cases hmem
  | cons x l =>
    obtain ⟨hx, -⟩ := List.nodup_cons.mp hnodup
    cases l with
    | nil => rw [hall x List.mem_cons_self]
    | cons y l =>
      refine absurd ?_ hx
      rw [hall x List.mem_cons_self, ← hall y (by simp)]
      exact List.mem_cons_self

/-- A list of distinct elements that reads the same backwards has at most one. -/
theorem length_le_one_of_reverse {W : Type} {l : List W} (hnodup : l.Nodup) (h : l = l.reverse) :
    l.length ≤ 1 := by
  cases l with
  | nil => simp
  | cons x l =>
    cases l with
    | nil => simp
    | cons y l =>
      refine absurd ?_ (List.nodup_cons.mp hnodup).1
      have hlast : x ∈ (x :: y :: l).getLast? := by
        rw [← List.head?_reverse, ← h]
        rfl
      rw [List.getLast?_cons_cons] at hlast
      exact List.mem_of_getLast? hlast

section

variable {W : Type} {f : K × V → Option W} {l : List (K × V)}

/-- There is one first entry that `f` keeps. -/
theorem first_kept_unique {a a' b b' : List (K × V)} {e e' : K × V}
    (h : a ++ e :: b = a' ++ e' :: b') (he : f e ≠ none) (he' : f e' ≠ none)
    (ha : ∀ p ∈ a, f p = none) (ha' : ∀ p ∈ a', f p = none) : e = e' ∧ b = b' := by
  induction a generalizing a' with
  | nil =>
    cases a' with
    | nil => exact List.cons.inj h
    | cons x a' =>
      obtain ⟨rfl, -⟩ := List.cons.inj h
      exact absurd (ha' e List.mem_cons_self) he
  | cons x a ih =>
    cases a' with
    | nil =>
      obtain ⟨rfl, -⟩ := List.cons.inj h
      exact absurd (ha x List.mem_cons_self) he'
    | cons y a' =>
      exact ih (List.cons.inj h).2 (fun p hp => ha p (List.mem_cons_of_mem x hp))
        (fun p hp => ha' p (List.mem_cons_of_mem y hp))

/-- Where `f` keeps at most one entry it keeps nothing around one it keeps. -/
theorem none_around_kept (hlen : (l.filterMap f).length ≤ 1) {a b : List (K × V)} {e : K × V}
    (hl : l = a ++ e :: b) (he : f e ≠ none) :
    (∀ p ∈ a, f p = none) ∧ ∀ p ∈ b, f p = none := by
  obtain ⟨w, hw⟩ := Option.ne_none_iff_exists'.mp he
  rw [hl, List.filterMap_append, List.filterMap_cons_some hw] at hlen
  simp only [List.length_append, List.length_cons] at hlen
  constructor
  · exact List.filterMap_eq_nil_iff.mp (List.length_eq_zero_iff.mp (by omega))
  · exact List.filterMap_eq_nil_iff.mp (List.length_eq_zero_iff.mp (by omega))

/-- If `f` tells keys apart, it maps distinct keys to distinct results. -/
theorem nodup_filterMap_iter (hf : ∀ p q w, f p = some w → f q = some w → p.1 = q.1)
    (o : IterOrder K V) (m : HashMap K V) : ((o.iter m).filterMap f).Nodup := by
  have hkeys := o.nodup_keys m
  rw [List.Nodup, List.pairwise_map] at hkeys
  rw [List.Nodup, List.pairwise_filterMap]
  refine hkeys.imp fun hne w hw w' hw' heq => hne ?_
  exact hf _ _ w hw (heq ▸ hw')

/-- `f` keeps the first entry only, and it is the last of its key. -/
theorem OnlyLast.filterMap_eq (h : OnlyLast f l) {w : W} (hw : w ∈ l.filterMap f) :
    ∃ a e b, l = a ++ e :: b ∧ f e = some w ∧ (∀ p ∈ a ++ b, f p = none) ∧ e.1 ∉ b.map Prod.fst := by
  obtain ⟨e, he, hew⟩ := List.mem_filterMap.mp hw
  obtain ⟨a, b, rfl⟩ := List.append_of_mem he
  have hsome : ∀ {p}, f p ≠ none → (f p).isSome := Option.isSome_iff_ne_none.mpr
  refine ⟨a, e, b, rfl, hew, fun p hp => ?_, fun hkey => ?_⟩
  · rcases List.mem_append.mp hp with hp | hp
    · by_contra hne
      obtain ⟨a₁, a₂, rfl⟩ := List.append_of_mem hp
      have hafter := (h a₁ p (a₂ ++ e :: b) (by simp) (hsome hne) e (by simp)).1
      rw [hew] at hafter
      cases hafter
    · exact (h a e b rfl (by simp [hew]) p hp).1
  · obtain ⟨p, hp, heq⟩ := List.mem_map.mp hkey
    exact (h a e b rfl (by simp [hew]) p hp).2 heq

variable [DecidableEq K]

theorem mem_of_mem_iter_collect (o : IterOrder K V) {p : K × V}
    (h : p ∈ o.iter (HashMap.collect l)) : p ∈ l :=
  HashMap.mem_of_lookup_collect (o.mem_iter.mp h)

theorem onlyLast_of_filterMap_iter (hf : ∀ p q w, f p = some w → f q = some w → p.1 = q.1)
    (h : ∀ o : IterOrder K V, (o.iter (HashMap.collect l)).filterMap f = l.filterMap f) :
    OnlyLast f l := by
  have hlen : (l.filterMap f).length ≤ 1 := by
    apply length_le_one_of_reverse
    · rw [← h listed]
      exact nodup_filterMap_iter hf _ _
    · have hreversed : ((listed.iter (HashMap.collect l)).reverse).filterMap f = l.filterMap f :=
        h reversed
      rw [List.filterMap_reverse, h listed] at hreversed
      exact hreversed.symm
  intro a e b hl he e' he'
  have hne := Option.isSome_iff_ne_none.mp he
  obtain ⟨ha, hb⟩ := none_around_kept hlen hl hne
  refine ⟨hb e' he', fun hkey => ?_⟩
  -- what is kept of `e` comes from the entry the map holds for its key, which is `e`
  obtain ⟨w, hw⟩ := Option.isSome_iff_exists.mp he
  have hmem : w ∈ (listed.iter (HashMap.collect l)).filterMap f := by
    rw [h listed, hl]
    exact List.mem_filterMap.mpr ⟨e, by simp, hw⟩
  obtain ⟨p, hp, hpw⟩ := List.mem_filterMap.mp hmem
  obtain ⟨a', b', hl', hlast⟩ := HashMap.lookup_collect_eq_some_iff.mp (listed.mem_iter.mp hp)
  have hpne : f (p.1, p.2) ≠ none := by rw [hpw]; simp
  obtain ⟨rfl, rfl⟩ := first_kept_unique (hl.symm.trans hl') hne hpne ha
    (none_around_kept hlen hl' hpne).1
  exact hlast (List.mem_map.mpr ⟨e', he', hkey⟩)

theorem filterMap_iter_of_onlyLast (hf : ∀ p q w, f p = some w → f q = some w → p.1 = q.1)
    (h : OnlyLast f l) (o : IterOrder K V) :
    (o.iter (HashMap.collect l)).filterMap f = l.filterMap f := by
  cases hl : l.filterMap f with
  | nil =>
    rw [List.filterMap_eq_nil_iff] at hl ⊢
    exact fun p hp => hl p (o.mem_of_mem_iter_collect hp)
  | cons w ws =>
    obtain ⟨a, e, b, rfl, hew, hnone, hlast⟩ := h.filterMap_eq (hl ▸ List.mem_cons_self)
    -- the rest of the list picks nothing else
    have hall : ∀ p ∈ a ++ e :: b, ∀ w', f p = some w' → w' = w := by
      intro p hp w' hpw
      by_cases hpe : p ∈ a ++ b
      · rw [hnone p hpe] at hpw
        cases hpw
      · have : p = e := by
          simp only [List.mem_append, List.mem_cons, not_or] at hp hpe
          rcases hp with hp | rfl | hp
          · exact absurd hp hpe.1
          · rfl
          · exact absurd hp hpe.2
        rw [this, hew] at hpw
        exact (Option.some.inj hpw).symm
    have hsingle : ws = [] := by
      rw [List.filterMap_append, List.filterMap_cons_some hew,
        List.filterMap_eq_nil_iff.mpr fun p hp => hnone p (List.mem_append_left _ hp),
        List.filterMap_eq_nil_iff.mpr fun p hp => hnone p (List.mem_append_right _ hp)] at hl
      exact (List.cons.inj hl).2.symm
    rw [hsingle]
    refine eq_singleton_of_nodup (nodup_filterMap_iter hf _ _) ?_ fun w' hw' => ?_
    · have hlookup : (HashMap.collect (a ++ e :: b)).lookup e.1 = some e.2 :=
        HashMap.lookup_collect_eq_some_iff.mpr ⟨a, b, rfl, hlast⟩
      exact List.mem_filterMap.mpr ⟨e, o.mem_iter.mpr hlookup, hew⟩
    · obtain ⟨p, hp, hpw⟩ := List.mem_filterMap.mp hw'
      exact hall p (o.mem_of_mem_iter_collect hp) w' hpw

/-- Collecting a list into a map and iterating over the map keeps the order of what
`f` picks, for every order of iteration, exactly if there is no order to keep. -/
theorem filterMap_iter_collect_iff (hf : ∀ p q w, f p = some w → f q = some w → p.1 = q.1) :
    (∀ o : IterOrder K V, (o.iter (HashMap.collect l)).filterMap f = l.filterMap f) ↔
      OnlyLast f l :=
  ⟨onlyLast_of_filterMap_iter hf, filterMap_iter_of_onlyLast hf⟩

end

end IterOrder

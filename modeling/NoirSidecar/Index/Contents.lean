-- SUMMARY: What the store returns after any sequence of inserts: the keys whose insert succeeded, and in which order.
import NoirSidecar.Index.Store
import Mathlib.Order.Basic

/-!
# Contents of the store

Read back by index key, the store is a multimap of everything that has been inserted
with success. A sorted read lists the keys by their base-58 texts. These have different
lengths, and then the order of the texts need not be that of the keys.
-/

namespace Index

/-! ## Inserts -/

/-- Inserts one after another, each with its result; none stops those behind it. -/
def insertAll {σ : Type} (index : AccountsIndex σ) :
    List Entry → σ → List (Entry × Except Error Unit) × σ
  | [], s => ([], s)
  | entry :: entries, s =>
    let (result, s) := index (.insertIndex entry) s
    let (results, s) := insertAll index entries s
    ((entry, result) :: results, s)

variable {engine : Engine} {db : Db}

theorem insertAll_cons (engine : Engine) (entry : Entry) (entries : List Entry) (db : Db) :
    insertAll engine.accountsIndex (entry :: entries) db =
      ((entry, (engine.insertIndex entry db).1) ::
          (insertAll engine.accountsIndex entries (engine.insertIndex entry db).2).1,
        (insertAll engine.accountsIndex entries (engine.insertIndex entry db).2).2) := rfl

/-- After some inserts the table holds what it held before and every entry whose insert
succeeded. -/
theorem holds_insertAll (engine : Engine) (entries : List Entry) (db : Db) (e : Entry) :
    (insertAll engine.accountsIndex entries db).2.Holds e ↔
      db.Holds e ∨ (e, .ok ()) ∈ (insertAll engine.accountsIndex entries db).1 := by
  induction entries generalizing db with
  | nil => simp [insertAll]
  | cons entry entries ih =>
    rw [insertAll_cons, ih, engine.holds_insertIndex, List.mem_cons, Prod.mk.injEq, or_assoc,
      @eq_comm _ (Except.ok ())]

theorem faults_insertAll (engine : Engine) (entries : List Entry) (db : Db) :
    (insertAll engine.accountsIndex entries db).2.faults = db.faults.drop entries.length := by
  induction entries generalizing db with
  | nil => rfl
  | cons entry entries ih =>
    rw [insertAll_cons, ih, engine.faults_insertIndex, List.drop_drop, List.length_cons, Nat.add_comm]

theorem calm_insertAll (engine : Engine) (entries : List Entry) (h : db.Calm) :
    (insertAll engine.accountsIndex entries db).2.Calm := by
  intro fault hfault
  rw [faults_insertAll] at hfault
  exact h fault (List.mem_of_mem_drop hfault)

/-- Without faults every entry is held in the end, whichever way its insert ended. -/
theorem holds_insertAll_of_calm (engine : Engine) (entries : List Entry) (h : db.Calm) (e : Entry) :
    (insertAll engine.accountsIndex entries db).2.Holds e ↔ db.Holds e ∨ e ∈ entries := by
  induction entries generalizing db with
  | nil => simp [insertAll]
  | cons entry entries ih =>
    have hcalm : (engine.insertIndex entry db).2.Calm := engine.calm_insertIndex entry h
    have hone : (engine.insertIndex entry db).2.Holds e ↔ db.Holds e ∨ e = entry := by
      rw [engine.holds_insertIndex]
      obtain ⟨-, -, hwhy⟩ | ⟨hok, -, -, -, -⟩ := engine.insertIndex_cases entry db
      · have hheld : db.Holds entry := hwhy.resolve_right (not_not.mpr h.next.1)
        constructor
        · exact fun hor => hor.imp_right And.left
        · rintro (hheld | rfl)
          · exact .inl hheld
          · exact .inl hheld
      · simp [hok]
    rw [insertAll_cons, ih hcalm, hone, List.mem_cons, or_assoc]

/-- Whatever inserts a new store has seen and whatever became of them, a read under an
index key returns the keys whose insert under it succeeded, each once. -/
theorem getIndexedKeys_insertAll (engine : Engine) (entries : List Entry)
    (faults : List (Option Fault)) (index : AccountIndex) (indexKey : Pubkey) (sortResults : Bool) :
    ∃ keys : List Pubkey,
      (engine.accountsIndex (.getIndexedKeys index indexKey sortResults)
        (insertAll engine.accountsIndex entries (.empty (faults.take entries.length))).2).1 =
          .ok keys ∧
      keys.Nodup ∧ ∀ p, p ∈ keys ↔ (⟨index, indexKey, p⟩, .ok ()) ∈
        (insertAll engine.accountsIndex entries (.empty (faults.take entries.length))).1 := by
  have hfaults := faults_insertAll engine entries (.empty (faults.take entries.length))
  rw [Db.empty, List.drop_eq_nil_of_le (List.length_take_le _ _)] at hfaults
  have hnext : (insertAll engine.accountsIndex entries
      (.empty (faults.take entries.length))).2.next.1 = none := by
    rw [Db.next_eq_none_iff, Db.Faulty, Db.empty, hfaults]
    simp
  obtain ⟨keys, hread, hnodup, hmem⟩ :=
    engine.getIndexedKeys_ok hnext index indexKey sortResults
  refine ⟨keys, congrArg Prod.fst hread, hnodup, fun p => ?_⟩
  rw [hmem, holds_insertAll]
  simp

/-! ## Sorted reads -/

/-- A sorted read under the index key succeeds, and lists the keys in their order. -/
def Sorted (engine : Engine) (db : Db) (index : AccountIndex) (indexKey : Pubkey) : Prop :=
  ∃ keys : List Pubkey,
    (engine.accountsIndex (.getIndexedKeys index indexKey true) db).1 = .ok keys ∧
      keys.Pairwise (· < ·)

/-- The backend compares texts by their bytes. -/
def Engine.Binary (engine : Engine) : Prop := engine.le = fun a b => decide (a ≤ b)

/-- The smaller of two keys under the index key, followed by as many zeros in base 58 as
its text is shorter than that of the larger one, is not larger than that one. -/
def Scaled (db : Db) (index : AccountIndex) (indexKey : Pubkey) : Prop :=
  ∀ p q, db.Holds ⟨index, indexKey, p⟩ → db.Holds ⟨index, indexKey, q⟩ → p < q →
    p.value * 58 ^ (q.toString.length - p.toString.length) ≤ q.value

/-- A larger key has the larger text exactly if it is large enough for its length. -/
theorem toString_lt_iff {p q : Pubkey} (h : p < q) :
    p.toString < q.toString ↔
      p.value * 58 ^ (q.toString.length - p.toString.length) ≤ q.value := by
  have hvalue : p.value < q.value := Pubkey.lt_iff_value_lt.mp h
  rcases Nat.le_total p.toString.length q.toString.length with hlen | hlen
  · have hback : q.toString < p.toString ↔
        q.value < p.value * 58 ^ (q.toString.length - p.toString.length) :=
      Base58.encode_lt_encode_iff_value hlen
    have hne : p.toString ≠ q.toString := fun heq => by
      rw [Pubkey.toString_injective heq] at hvalue
      exact Nat.lt_irrefl _ hvalue
    rw [← not_lt, ← hback]
    exact ⟨lt_asymm, fun hnot => lt_of_le_of_ne (not_lt.mp hnot) hne⟩
  · have hforth : p.toString < q.toString ↔
        p.value < q.value * 58 ^ (p.toString.length - q.toString.length) :=
      Base58.encode_lt_encode_iff_value hlen
    have hpos : 0 < 58 ^ (p.toString.length - q.toString.length) := by positivity
    refine iff_of_true (hforth.mpr ?_) ?_
    · exact lt_of_lt_of_le hvalue (Nat.le_mul_of_pos_right _ hpos)
    · rw [Nat.sub_eq_zero_of_le hlen, pow_zero, Nat.mul_one]
      exact hvalue.le

/-- The keys of a sorted read are in the order of their texts. -/
theorem pairwise_toString {keys : List Pubkey} {index : AccountIndex} {indexKey : Pubkey}
    (hbinary : engine.Binary) (h : (engine.getIndexedKeys index indexKey true db).1 = .ok keys) :
    keys.Pairwise fun p q => p.toString < q.toString := by
  have hselect := engine.select_of_getIndexedKeys h
  have hle : engine.le = fun a b => decide (a ≤ b) := hbinary
  have hsorted : (keys.map Pubkey.toString).Pairwise (· ≤ ·) := by
    rw [← hselect, Engine.select, if_pos rfl, hle]
    refine (List.pairwise_mergeSort ?_ ?_ _).imp fun hab => by simpa using hab
    · intro a b c hab hbc
      simp only [decide_eq_true_eq] at hab hbc ⊢
      exact le_trans hab hbc
    · intro a b
      simpa using le_total a b
  rw [List.pairwise_map] at hsorted
  refine (hsorted.and (engine.nodup_getIndexedKeys h).1).imp fun hab => ?_
  exact lt_of_le_of_ne hab.1 fun heq => hab.2 (Pubkey.toString_injective heq)

/-- In a list that is in the order of the keys and of their texts, these orders agree. -/
theorem toString_lt_of_pairwise {keys : List Pubkey}
    (h : keys.Pairwise fun p q => p < q ∧ p.toString < q.toString) {p q : Pubkey}
    (hp : p ∈ keys) (hq : q ∈ keys) (hlt : p < q) : p.toString < q.toString := by
  induction keys with
  | nil => cases hp
  | cons k keys ih =>
    obtain ⟨hk, hkeys⟩ := List.pairwise_cons.mp h
    rcases List.mem_cons.mp hp with rfl | hp
    · rcases List.mem_cons.mp hq with rfl | hq
      · exact absurd (Pubkey.lt_iff_value_lt.mp hlt) (Nat.lt_irrefl _)
      · exact (hk q hq).2
    · rcases List.mem_cons.mp hq with rfl | hq
      · have hback := Pubkey.lt_iff_value_lt.mp (hk p ‹_›).1
        exact absurd (Pubkey.lt_iff_value_lt.mp hlt) (Nat.lt_asymm hback)
      · exact ih hkeys hp hq

section

variable {index : AccountIndex} {indexKey : Pubkey}

theorem scaled_of_sorted (hbinary : engine.Binary) (h : Sorted engine db index indexKey) :
    Scaled db index indexKey := by
  obtain ⟨keys, hkeys, hsorted⟩ := h
  obtain ⟨hnodup, hmem⟩ := engine.nodup_getIndexedKeys hkeys
  intro p q hp hq hlt
  exact (toString_lt_iff hlt).mp (toString_lt_of_pairwise
    (hsorted.and (pairwise_toString hbinary hkeys)) ((hmem p).mpr hp) ((hmem q).mpr hq) hlt)

theorem sorted_of_scaled (hbinary : engine.Binary) (hread : db.next.1 = none)
    (h : Scaled db index indexKey) : Sorted engine db index indexKey := by
  obtain ⟨keys, hkeys, -, hmem⟩ := engine.getIndexedKeys_ok hread index indexKey true
  have hkeys : (engine.getIndexedKeys index indexKey true db).1 = .ok keys := by rw [hkeys]
  refine ⟨keys, hkeys, (pairwise_toString hbinary hkeys).imp_of_mem fun {p q} hp hq htext => ?_⟩
  rw [Pubkey.lt_iff_value_lt]
  rcases lt_trichotomy p.value q.value with hlt | heq | hlt
  · exact hlt
  · rw [Pubkey.value_injective heq] at htext
    exact absurd htext (lt_irrefl _)
  · have hlt := Pubkey.lt_iff_value_lt.mpr hlt
    have hback := (toString_lt_iff hlt).mpr (h q p ((hmem q).mp hq) ((hmem p).mp hp) hlt)
    exact absurd htext (lt_asymm hback)

end

/-- A sorted read lists the keys in their order exactly if none of them has a longer text
than a smaller one without being large enough for it. -/
theorem sorted_iff_scaled (hbinary : engine.Binary) (hread : db.next.1 = none)
    (index : AccountIndex) (indexKey : Pubkey) :
    Sorted engine db index indexKey ↔ Scaled db index indexKey :=
  ⟨scaled_of_sorted hbinary, sorted_of_scaled hbinary hread⟩

/-- A store that holds some accounts of a program. -/
def programAccounts (keys : List Pubkey) : Db :=
  (insertAll sqliteEngine.accountsIndex
    (keys.map fun p => ⟨.programId, SplToken.id, p⟩) (.empty [])).2

theorem holds_programAccounts {keys : List Pubkey} {p : Pubkey} :
    (programAccounts keys).Holds ⟨.programId, SplToken.id, p⟩ ↔ p ∈ keys := by
  rw [programAccounts, holds_insertAll_of_calm sqliteEngine _ Db.calm_empty]
  simp

theorem next_programAccounts (keys : List Pubkey) : (programAccounts keys).next.1 = none :=
  (calm_insertAll sqliteEngine _ Db.calm_empty).next.1

theorem binary_sqliteEngine : sqliteEngine.Binary := rfl

/-- The text of `10..10` is longer than that of `01..01` and starts with a smaller digit. -/
theorem read_not_sorted : ¬ ∀ (engine : Engine) (db : Db) (index : AccountIndex) (indexKey : Pubkey),
    engine.Binary → db.next.1 = none → Sorted engine db index indexKey := by
  intro hall
  have hscaled := scaled_of_sorted binary_sqliteEngine (hall sqliteEngine
    (programAccounts [.ofByte 1, .ofByte 16]) .programId SplToken.id
    binary_sqliteEngine (next_programAccounts _))
  have hlarge := hscaled (.ofByte 1) (.ofByte 16) (holds_programAccounts.mpr (by simp))
    (holds_programAccounts.mpr (by simp)) (by decide)
  revert hlarge
  decide +kernel

/-- Two keys whose texts have the same length. -/
theorem read_sorted : Sorted sqliteEngine (programAccounts [.ofByte 2, .ofByte 1]) .programId
    SplToken.id := by
  refine (sorted_iff_scaled binary_sqliteEngine (next_programAccounts _) _ _).mpr ?_
  intro p q hp hq hlt
  simp only [holds_programAccounts, List.mem_cons, List.not_mem_nil, or_false] at hp hq
  rcases hp with rfl | rfl <;> rcases hq with rfl | rfl <;> revert hlt <;> decide +kernel

end Index

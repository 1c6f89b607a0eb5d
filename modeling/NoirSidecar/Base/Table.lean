-- SUMMARY: Tables without repeated rows, and inserting a batch of rows until one is refused.
import Mathlib.Data.List.Nodup

/-!
# Tables with unique rows

Inserting a row that is already there is refused. A batch that stops at its first
refused row inserts the rows before that one; what stands behind it in the batch
is in the table afterwards only if it was before.
-/

structure Table (R : Type) where
  rows : List R
  nodup : rows.Nodup

namespace Table

variable {R : Type}

def empty : Table R := ⟨[], List.nodup_nil⟩

/-- The table with a row it does not hold yet. -/
def append (t : Table R) (r : R) (h : r ∉ t.rows) : Table R where
  rows := t.rows ++ [r]
  nodup := by
    rw [List.nodup_append]
    refine ⟨t.nodup, List.nodup_singleton r, fun a ha b hb hab => h ?_⟩
    rw [List.mem_singleton] at hb
    rwa [← hb, ← hab]

end Table

/-! ## Batches -/

namespace Batch

variable {R : Type}

/-- The rows of a batch before the first one that is already there, be it in the
table or earlier in the batch. -/
def admitted [DecidableEq R] (present : R → Prop) [DecidablePred present] : List R → List R
  | [] => []
  | r :: batch =>
    if present r then [] else r :: admitted (fun q => present q ∨ q = r) batch

/-- Behind a row that is already there, no row is new. -/
def NoneCutOff (present : R → Prop) (batch : List R) : Prop :=
  ∀ before r after, batch = before ++ r :: after → present r ∨ r ∈ before →
    ∀ q ∈ after, present q ∨ q ∈ before

variable {present : R → Prop}

theorem noneCutOff_cons_of_present {r : R} {batch : List R} (h : present r) :
    NoneCutOff present (r :: batch) ↔ ∀ q ∈ batch, present q := by
  constructor
  · intro hcut q hq
    simpa using hcut [] r batch rfl (.inl h) q hq
  · intro hall before r' after heq _ q hq
    refine .inl ?_
    cases before with
    | nil =>
      obtain ⟨-, rfl⟩ := List.cons.inj heq
      exact hall q hq
    | cons p before =>
      obtain ⟨-, rfl⟩ := List.cons.inj heq
      exact hall q (by simp [hq])

theorem noneCutOff_cons_of_not_present {r : R} {batch : List R} (h : ¬ present r) :
    NoneCutOff present (r :: batch) ↔ NoneCutOff (fun q => present q ∨ q = r) batch := by
  have hshift : ∀ q before, present q ∨ q ∈ r :: before ↔ (present q ∨ q = r) ∨ q ∈ before := by
    intro q before
    rw [List.mem_cons, or_assoc]
  constructor
  · intro hcut before r' after heq hr' q hq
    have := hcut (r :: before) r' after (by rw [heq]; rfl) ((hshift _ _).mpr hr') q hq
    exact (hshift _ _).mp this
  · intro hcut before r' after heq hr' q hq
    cases before with
    | nil =>
      obtain ⟨rfl, -⟩ := List.cons.inj heq
      exact absurd (by simpa using hr') h
    | cons p before =>
      obtain ⟨rfl, rfl⟩ := List.cons.inj heq
      exact (hshift _ _).mpr (hcut before r' after rfl ((hshift _ _).mp hr') q hq)

/-- A batch of distinct new rows. -/
theorem noneCutOff_of_new {batch : List R} (hnodup : batch.Nodup)
    (hnew : ∀ r ∈ batch, ¬ present r) : NoneCutOff present batch := by
  rintro before r after rfl hr
  rcases hr with hr | hr
  · exact absurd hr (hnew r (by simp))
  · exact absurd rfl ((List.nodup_append.mp hnodup).2.2 r hr r List.mem_cons_self)

variable [DecidableEq R] [DecidablePred present]

theorem admitted_cons_of_present {r : R} {batch : List R} (h : present r) :
    admitted present (r :: batch) = [] := if_pos h

theorem admitted_cons_of_not_present {r : R} {batch : List R} (h : ¬ present r) :
    admitted present (r :: batch) = r :: admitted (fun q => present q ∨ q = r) batch := if_neg h

theorem admitted_congr {present' : R → Prop} [DecidablePred present']
    (h : ∀ r, present r ↔ present' r) (batch : List R) :
    admitted present batch = admitted present' batch := by
  obtain rfl : present = present' := funext fun r => propext (h r)
  congr

theorem admitted_of_new {batch : List R} (hnodup : batch.Nodup) (hnew : ∀ r ∈ batch, ¬ present r) :
    admitted present batch = batch := by
  induction batch generalizing present with
  | nil => rfl
  | cons r batch ih =>
    obtain ⟨hr, hnodup⟩ := List.nodup_cons.mp hnodup
    rw [admitted_cons_of_not_present (hnew r List.mem_cons_self), ih hnodup]
    rintro q hq (hpresent | rfl)
    · exact hnew q (List.mem_cons_of_mem r hq) hpresent
    · exact hr hq

/-- After a batch that stopped at its first refused row every row of the batch is
there, exactly if nothing new was cut off. -/
theorem all_present_iff {batch : List R} :
    (∀ r ∈ batch, present r ∨ r ∈ admitted present batch) ↔ NoneCutOff present batch := by
  induction batch generalizing present with
  | nil => simp [NoneCutOff]
  | cons r batch ih =>
    by_cases h : present r
    · rw [admitted_cons_of_present h, noneCutOff_cons_of_present h]
      simp [h]
    · rw [admitted_cons_of_not_present h, noneCutOff_cons_of_not_present h, ← ih]
      simp [or_assoc]

end Batch

-- SUMMARY: Runs of a partial step function as lists of steps, with the invariant and history rules.
import Mathlib.Data.List.Induction

/-!
# Machines and their runs

A machine is a partial step function `σ → ε → Option σ`: `none` means that the
event is not enabled. A run is the list of the steps it takes, each with the
state before and the state after, so that a property of a run is a property of
the members of a list.
-/

/-- One step taken: the state before, the event, the state after. -/
structure Step (σ ε : Type*) where
  pre : σ
  ev : ε
  post : σ

/-- `Run step s ts t`: the steps `ts` lead from `s` to `t`. -/
inductive Run {σ ε : Type*} (step : σ → ε → Option σ) : σ → List (Step σ ε) → σ → Prop where
  | nil (s : σ) : Run step s [] s
  | cons {s s' t : σ} {e : ε} {ts : List (Step σ ε)} :
      step s e = some s' → Run step s' ts t → Run step s (⟨s, e, s'⟩ :: ts) t

/-- The states a run goes through, its start included. -/
def visited {σ ε : Type*} (s : σ) (ts : List (Step σ ε)) : List σ := s :: ts.map Step.post

/-- The steps a list of events makes, up to the first event that is not enabled. -/
def trace {σ ε : Type*} (step : σ → ε → Option σ) (s : σ) : List ε → List (Step σ ε)
  | [] => []
  | e :: es =>
    match step s e with
    | none => []
    | some s' => ⟨s, e, s'⟩ :: trace step s' es

/-- The state some steps from `s` lead to. -/
def after {σ ε : Type*} (s : σ) : List (Step σ ε) → σ
  | [] => s
  | x :: ts => after x.post ts

/-- The states after a step are among those of the whole run. -/
theorem visited_later {σ ε : Type*} {s u : σ} {before later : List (Step σ ε)} {x : Step σ ε}
    (h : u ∈ visited x.post later) : u ∈ visited s (before ++ x :: later) := by
  have hmap : visited s (before ++ x :: later) = s :: (before.map Step.post ++ visited x.post later) := by
    simp [visited]
  rw [hmap]
  exact List.mem_cons_of_mem s (List.mem_append_right _ h)

/-- And so are those before it. -/
theorem visited_earlier {σ ε : Type*} {s u : σ} {before : List (Step σ ε)} (h : u ∈ visited s before)
    (later : List (Step σ ε)) : u ∈ visited s (before ++ later) := by
  rcases List.mem_cons.mp h with rfl | hu
  · exact List.mem_cons_self
  · rw [visited, List.map_append]
    exact List.mem_cons_of_mem _ (List.mem_append_left _ hu)

namespace Run

variable {σ ε : Type*} {step : σ → ε → Option σ} {s t u : σ} {ts us : List (Step σ ε)}

theorem nil_iff : Run step s [] t ↔ s = t := by
  constructor
  · intro h; cases h; rfl
  · rintro rfl; exact .nil s

theorem cons_iff {x : Step σ ε} :
    Run step s (x :: ts) t ↔ x.pre = s ∧ step s x.ev = some x.post ∧ Run step x.post ts t := by
  constructor
  · intro h
    cases h with
    | cons hs hr => exact ⟨rfl, hs, hr⟩
  · obtain ⟨pre, ev, post⟩ := x
    rintro ⟨rfl, hs, hr⟩
    exact .cons hs hr

theorem single {e : ε} (h : step s e = some t) : Run step s [⟨s, e, t⟩] t :=
  .cons h (.nil t)

theorem append (h : Run step s ts t) (h' : Run step t us u) : Run step s (ts ++ us) u := by
  induction h with
  | nil s => exact h'
  | cons hs _ ih => exact .cons hs (ih h')

theorem append_iff : Run step s (ts ++ us) u ↔ ∃ t, Run step s ts t ∧ Run step t us u := by
  constructor
  · intro h
    induction ts generalizing s with
    | nil => exact ⟨s, .nil s, h⟩
    | cons x ts ih =>
      obtain ⟨rfl, hs, hr⟩ := cons_iff.mp h
      obtain ⟨t, h₁, h₂⟩ := ih hr
      exact ⟨t, .cons hs h₁, h₂⟩
  · rintro ⟨t, h₁, h₂⟩
    exact h₁.append h₂

/-- A step of a run splits it into the run before it and the run after it. -/
theorem split {a b : List (Step σ ε)} {x : Step σ ε} (h : Run step s (a ++ x :: b) t) :
    Run step s a x.pre ∧ step x.pre x.ev = some x.post ∧ Run step x.post b t := by
  obtain ⟨u, ha, hx⟩ := append_iff.mp h
  obtain ⟨rfl, hs, hb⟩ := cons_iff.mp hx
  exact ⟨ha, hs, hb⟩

theorem mem_step (h : Run step s ts t) {x : Step σ ε} (hx : x ∈ ts) :
    step x.pre x.ev = some x.post := by
  obtain ⟨a, b, rfl⟩ := List.append_of_mem hx
  exact h.split.2.1

/-- Induction on a run from its end: what holds of the empty history and is kept
when one more step is taken holds of every history and the state it leads to. -/
theorem history_induction {P : List (Step σ ε) → σ → Prop} (h : Run step s ts t)
    (init : P [] s)
    (next : ∀ as a e a', Run step s as a → P as a → step a e = some a' →
      P (as ++ [⟨a, e, a'⟩]) a') : P ts t := by
  induction ts using List.reverseRecOn generalizing t with
  | nil => obtain rfl := nil_iff.mp h; exact init
  | append_singleton as x ih =>
    obtain ⟨ha, hs, hr⟩ := h.split
    obtain rfl := nil_iff.mp hr
    exact next as x.pre x.ev x.post ha (ih ha) hs

/-- A state of a run is reached by the first steps of it. -/
theorem of_visited (h : Run step s ts t) (hu : u ∈ visited s ts) :
    ∃ as bs, ts = as ++ bs ∧ Run step s as u := by
  rcases List.mem_cons.mp hu with rfl | hu
  · exact ⟨[], ts, rfl, .nil u⟩
  · obtain ⟨x, hx, rfl⟩ := List.mem_map.mp hu
    obtain ⟨a, b, rfl⟩ := List.append_of_mem hx
    obtain ⟨ha, hs, -⟩ := h.split
    exact ⟨a ++ [x], b, by simp, ha.append (cons_iff.mpr ⟨rfl, hs, .nil _⟩)⟩

/-- What every step satisfying `G` preserves holds before and after each step of
a run all of whose steps satisfy `G`. -/
theorem invariant_of {I : σ → Prop} {G : Step σ ε → Prop}
    (keep : ∀ x : Step σ ε, step x.pre x.ev = some x.post → G x → I x.pre → I x.post)
    (h : Run step s ts t) (hG : ∀ x ∈ ts, G x) (hs : I s) :
    I t ∧ ∀ x ∈ ts, I x.pre ∧ I x.post := by
  induction h with
  | nil s => exact ⟨hs, by simp⟩
  | @cons s s' t e ts hstep _ ih =>
    have hs' : I s' := keep ⟨s, e, s'⟩ hstep (hG _ List.mem_cons_self) hs
    obtain ⟨ht, hmem⟩ := ih (fun x hx => hG x (List.mem_cons_of_mem _ hx)) hs'
    refine ⟨ht, fun x hx => ?_⟩
    rcases List.mem_cons.mp hx with rfl | hx
    · exact ⟨hs, hs'⟩
    · exact hmem x hx

/-- The same for the states a run goes through. -/
theorem visited_of {I : σ → Prop} {G : Step σ ε → Prop}
    (keep : ∀ x : Step σ ε, step x.pre x.ev = some x.post → G x → I x.pre → I x.post)
    (h : Run step s ts t) (hG : ∀ x ∈ ts, G x) (hs : I s) : ∀ u ∈ visited s ts, I u := by
  intro u hu
  rcases List.mem_cons.mp hu with rfl | hu
  · exact hs
  · obtain ⟨x, hx, rfl⟩ := List.mem_map.mp hu
    exact ((h.invariant_of keep hG hs).2 x hx).2

/-- What every step preserves holds in every state of a run. -/
theorem invariant {I : σ → Prop}
    (keep : ∀ s e s', step s e = some s' → I s → I s')
    (h : Run step s ts t) (hs : I s) : I t ∧ ∀ x ∈ ts, I x.pre ∧ I x.post :=
  h.invariant_of (G := fun _ => True) (fun x hx _ => keep x.pre x.ev x.post hx) (by simp) hs

/-- Two properties of a step that agree wherever the invariant holds agree on
whole runs. -/
theorem forall_iff {I : σ → Prop} {P G : Step σ ε → Prop}
    (keep : ∀ s e s', step s e = some s' → I s → I s')
    (same : ∀ x : Step σ ε, step x.pre x.ev = some x.post → I x.pre → (P x ↔ G x))
    (h : Run step s ts t) (hs : I s) : (∀ x ∈ ts, P x) ↔ ∀ x ∈ ts, G x := by
  have hI := (h.invariant keep hs).2
  exact forall₂_congr fun x hx => same x (h.mem_step hx) (hI x hx).1

/-- Where each step goes down in a measure, by one if it is counted, the measure bounds how
many steps are counted. -/
theorem countP_add_le {p : Step σ ε → Bool} {μ : σ → Nat} {G : Step σ ε → Prop}
    (down : ∀ x : Step σ ε, step x.pre x.ev = some x.post → G x →
      (if p x then 1 else 0) + μ x.post ≤ μ x.pre)
    (h : Run step s ts t) (hG : ∀ x ∈ ts, G x) : ts.countP p + μ t ≤ μ s := by
  induction h with
  | nil s => simp
  | @cons s s' t e ts hstep _ ih =>
    have hone := down ⟨s, e, s'⟩ hstep (hG _ List.mem_cons_self)
    have hrest := ih fun x hx => hG x (List.mem_cons_of_mem _ hx)
    rw [List.countP_cons]
    dsimp only at hone
    omega

/-- The state before a step is one the run goes through. -/
theorem pre_mem_visited (h : Run step s ts t) {x : Step σ ε} (hx : x ∈ ts) :
    x.pre ∈ visited s ts := by
  induction h with
  | nil s => cases hx
  | @cons s s' t e ts _ _ ih =>
    rcases List.mem_cons.mp hx with rfl | hx
    · exact List.mem_cons_self
    · exact List.mem_cons_of_mem s (ih hx)

/-- A property that each step keeps exactly if the step satisfies `G` holds in all
states of a run exactly if all its steps satisfy `G`. -/
theorem visited_iff {I C : σ → Prop} {G : Step σ ε → Prop}
    (keep : ∀ s e s', step s e = some s' → I s → I s')
    (same : ∀ x : Step σ ε, step x.pre x.ev = some x.post → I x.pre → C x.pre → (C x.post ↔ G x))
    (h : Run step s ts t) (hI : I s) (hC : C s) :
    (∀ u ∈ visited s ts, C u) ↔ ∀ x ∈ ts, G x := by
  have hinv := (h.invariant keep hI).2
  constructor
  · intro hall x hx
    have hpost : x.post ∈ visited s ts := List.mem_cons_of_mem _ (List.mem_map.mpr ⟨x, hx, rfl⟩)
    exact (same x (h.mem_step hx) (hinv x hx).1 (hall _ (h.pre_mem_visited hx))).mp (hall _ hpost)
  · intro hG u hu
    have hboth : ∀ u ∈ visited s ts, I u ∧ C u :=
      h.visited_of (I := fun u => I u ∧ C u)
        (fun x hx hGx hIC => ⟨keep _ _ _ hx hIC.1, (same x hx hIC.1 hIC.2).mpr hGx⟩) hG ⟨hI, hC⟩
    exact (hboth u hu).2

/-- A preorder that each step goes up in puts every state of a run below its last. -/
theorem visited_le {R : σ → σ → Prop} (refl : ∀ s, R s s)
    (trans : ∀ s u v, R s u → R u v → R s v) (up : ∀ s e s', step s e = some s' → R s s')
    (h : Run step s ts t) : ∀ u ∈ visited s ts, R u t := by
  induction h with
  | nil s =>
    intro u hu
    obtain rfl := List.mem_singleton.mp hu
    exact refl u
  | @cons s s' t e ts hstep _ ih =>
    intro u hu
    rcases List.mem_cons.mp hu with rfl | hu
    · exact trans u s' t (up u e s' hstep) (ih s' List.mem_cons_self)
    · exact ih u hu

/-- What does not hold at the start of a run and does at its end comes to hold in a step. -/
theorem exists_change {P : σ → Prop} (h : Run step s ts t) (hs : ¬ P s) (ht : P t) :
    ∃ before x later, ts = before ++ x :: later ∧ ¬ P x.pre ∧ P x.post := by
  induction h with
  | nil s => exact absurd ht hs
  | @cons s s' t e ts _ _ ih =>
    by_cases hs' : P s'
    · exact ⟨[], ⟨s, e, s'⟩, ts, rfl, hs, hs'⟩
    · obtain ⟨before, x, later, rfl, hpre, hpost⟩ := ih hs' ht
      exact ⟨⟨s, e, s'⟩ :: before, x, later, rfl, hpre, hpost⟩

/-- A machine that each step takes one step of, or leaves alone, goes through a run of its
own. The states it goes through are those of the larger run. -/
theorem project {τ φ : Type*} {step' : τ → φ → Option τ} {f : σ → τ}
    (simulates : ∀ s e s', step s e = some s' → f s' = f s ∨ ∃ e', step' (f s) e' = some (f s'))
    (h : Run step s ts t) :
    ∃ us, Run step' (f s) us (f t) ∧ ∀ u, u ∈ visited (f s) us ↔ u ∈ (visited s ts).map f := by
  induction h with
  | nil s => exact ⟨[], .nil _, by simp [visited]⟩
  | @cons s s' t e ts hstep _ ih =>
    obtain ⟨us, hrun, hvisited⟩ := ih
    have hmap : (visited s (⟨s, e, s'⟩ :: ts)).map f = f s :: (visited s' ts).map f := rfl
    rcases simulates s e s' hstep with hsame | ⟨e', hstep'⟩
    · rw [hsame] at hrun hvisited
      refine ⟨us, hrun, fun u => ?_⟩
      rw [hmap, List.mem_cons, ← hvisited]
      exact ⟨.inr, fun hu => hu.elim (fun h => h ▸ List.mem_cons_self) id⟩
    · refine ⟨⟨f s, e', f s'⟩ :: us, .cons hstep' hrun, fun u => ?_⟩
      rw [hmap, List.mem_cons, ← hvisited]
      exact List.mem_cons

theorem after_snoc (s : σ) (ts : List (Step σ ε)) (x : Step σ ε) : after s (ts ++ [x]) = x.post := by
  induction ts generalizing s with
  | nil => rfl
  | cons y ts ih => exact ih y.post

theorem after_mem_visited (s : σ) (ts : List (Step σ ε)) : after s ts ∈ visited s ts := by
  induction ts generalizing s with
  | nil => exact List.mem_cons_self
  | cons x ts ih => exact List.mem_cons_of_mem s (ih x.post)

theorem after_eq (h : Run step s ts t) : after s ts = t := by
  induction h with
  | nil s => rfl
  | cons _ _ ih => exact ih

theorem end_mem_visited (h : Run step s ts t) : t ∈ visited s ts :=
  h.after_eq ▸ after_mem_visited s ts

theorem of_trace (s : σ) (es : List ε) :
    Run step s (trace step s es) (after s (trace step s es)) := by
  induction es generalizing s with
  | nil => exact .nil s
  | cons e es ih =>
    cases h : step s e with
    | none => simpa [trace, h] using .nil s
    | some s' => simpa [trace, h, after] using .cons h (ih s')

end Run

/-! ## Members of a list between others -/

section Between

variable {α : Type*} {p q : α → Bool}

/-- A list with members of some kind has a last one. -/
theorem exists_last_of_kind {l : List α} (h : 0 < l.countP p) :
    ∃ a x b, l = a ++ x :: b ∧ p x ∧ ∀ w ∈ b, ¬ p w := by
  induction l using List.reverseRecOn with
  | nil => simp at h
  | append_singleton l z ih =>
    by_cases hz : p z
    · exact ⟨l, z, [], rfl, hz, by simp⟩
    · rw [List.countP_append, List.countP_singleton, if_neg hz, Nat.add_zero] at h
      obtain ⟨a, x, b, rfl, hx, hb⟩ := ih h
      refine ⟨a, x, b ++ [z], by simp, hx, fun w hw => ?_⟩
      rcases List.mem_append.mp hw with hw | hw
      · exact hb w hw
      · obtain rfl := List.mem_singleton.mp hw
        exact hz

/-- Two of one kind always have one of another kind between them. -/
def Separated (p q : α → Bool) (l : List α) : Prop :=
  ∀ a x b y c, l = a ++ x :: b ++ y :: c → p x → p y → (∀ w ∈ b, ¬ p w) → ∃ w ∈ b, q w

theorem Separated.of_append {l m : List α} (h : Separated p q (l ++ m)) : Separated p q l := by
  rintro a x b y c rfl
  exact h a x b y (c ++ m) (by simp)

/-- Of members that are kept apart, up to one more at the end, the first has as many of
those that keep them apart behind it. -/
theorem Separated.count_le {l : List α} {z : α} (h : Separated p q (l ++ [z])) (hz : p z) {n : Nat}
    (hn : l.countP p = n + 1) :
    ∃ a x b, l = a ++ x :: b ∧ p x ∧ (∀ w ∈ a, ¬ p w) ∧ n + 1 ≤ b.countP q := by
  induction n generalizing l z with
  | zero =>
    obtain ⟨a, x, b, rfl, hx, hb⟩ := exists_last_of_kind (by rw [hn]; exact Nat.one_pos)
    obtain ⟨w, hw, hq⟩ := h a x b z [] (by simp) hx hz hb
    have hnone : a.countP p = 0 := by
      rw [List.countP_append, List.countP_cons, if_pos hx] at hn
      omega
    exact ⟨a, x, b, rfl, hx, List.countP_eq_zero.mp hnone, List.countP_pos_iff.mpr ⟨w, hw, hq⟩⟩
  | succ n ih =>
    obtain ⟨a, x, b, rfl, hx, hb⟩ := exists_last_of_kind (by rw [hn]; exact Nat.succ_pos _)
    obtain ⟨w, hw, hq⟩ := h a x b z [] (by simp) hx hz hb
    have hnone : b.countP p = 0 := List.countP_eq_zero.mpr hb
    have hcount : a.countP p = n + 1 := by
      rw [List.countP_append, List.countP_cons, if_pos hx, hnone] at hn
      omega
    have hsep : Separated p q (a ++ [x]) := Separated.of_append (m := b ++ [z]) (by simpa using h)
    obtain ⟨a', x', b', rfl, hx', ha', hle⟩ := ih hsep hx hcount
    refine ⟨a', x', b' ++ x :: b, by simp, hx', ha', ?_⟩
    have hpos : 0 < b.countP q := List.countP_pos_iff.mpr ⟨w, hw, hq⟩
    rw [List.countP_append, List.countP_cons]
    omega

end Between

/-! ## Members of a list that change -/

theorem countP_set_add {α : Type*} {l : List α} {i : Nat} {old : α} (h : l[i]? = some old) (new : α)
    (p : α → Bool) :
    (l.set i new).countP p + (if p old then 1 else 0) = l.countP p + if p new then 1 else 0 := by
  obtain ⟨hlt, rfl⟩ := List.getElem?_eq_some_iff.mp h
  have hle := List.boole_getElem_le_countP (p := p) hlt
  rw [List.countP_set hlt]
  omega

theorem countP_set_same {α : Type*} {l : List α} {i : Nat} {old new : α} {p : α → Bool}
    (h : l[i]? = some old) (hsame : p new = p old) : (l.set i new).countP p = l.countP p := by
  have hcount := countP_set_add h new p
  rw [hsame] at hcount
  exact Nat.add_right_cancel hcount

/-- Members and what is counted of them may change as long as only one counts otherwise. -/
theorem countP_changed {α : Type*} {p p' : α → Bool} {l l' : List α} {i : Nat} {a : α} {b : Bool}
    (hi : l[i]? = some a) (h : l'.map p' = (l.map p).set i b) :
    l'.countP p' + (if p a then 1 else 0) = l.countP p + if b then 1 else 0 := by
  have hmap : ∀ (q : α → Bool) (l : List α), l.countP q = (l.map q).countP id :=
    fun q l => by rw [List.countP_map]; rfl
  rw [hmap p' l', hmap p l, h]
  exact countP_set_add (by rw [List.getElem?_map, hi]; rfl) b id

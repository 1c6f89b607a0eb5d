-- SUMMARY: When work of some kinds comes to an end, also if it is shared out among several workers.
import NoirSidecar.Base.Interaction
import NoirSidecar.Base.Machine
import Mathlib.Order.GameAdd

/-!
# Coming to rest

Some events of a machine are its own work, the others come from outside. As long as nothing
comes from outside, work that goes down in a well-founded order has to end. Where it is
shared out among workers it is enough that each of them has only so much to do.
-/

variable {σ ε α : Type*}

/-- The machine gets from one state to the next by an event of the kind. -/
def Works (step : σ → ε → Option σ) (G : ε → Prop) (s' s : σ) : Prop :=
  ∃ e, G e ∧ step s e = some s'

/-- No event of the kind can happen. -/
def AtRest (step : σ → ε → Option σ) (G : ε → Prop) (s : σ) : Prop :=
  ∀ e, G e → step s e = none

section

variable {step : σ → ε → Option σ} {G : ε → Prop}

/-- Work that goes down in a measure comes to an end. -/
theorem acc_works_of_measure {r : α → α → Prop} {μ : σ → α}
    (down : ∀ s e s', step s e = some s' → G e → r (μ s') (μ s)) {s : σ} (h : Acc r (μ s)) :
    Acc (Works step G) s := by
  refine Subrelation.accessible ?_ (InvImage.accessible μ h)
  rintro s' s ⟨e, he, hstep⟩
  exact down s e s' hstep he

end

/-! ## Workers -/

/-- One member of a list has gone down. -/
def OneLess (r : α → α → Prop) (l' l : List α) : Prop :=
  ∃ (i : Nat) (a a' : α), l[i]? = some a ∧ r a' a ∧ l' = l.set i a'

/-- Members that can only go down so far make a list that can. -/
theorem acc_oneLess {r : α → α → Prop} {l : List α} (h : ∀ a ∈ l, Acc r a) :
    Acc (OneLess r) l := by
  induction l with
  | nil =>
    refine ⟨_, ?_⟩
    rintro l' ⟨i, a, a', hi, -, -⟩
    cases hi
  | cons a l ih =>
    obtain ⟨ha, hl⟩ := List.forall_mem_cons.mp h
    -- the head and the rest go down in turns
    have hpair : ∀ x : α × List α, Acc (Prod.GameAdd r (OneLess r)) x →
        Acc (OneLess r) (x.1 :: x.2) := by
      intro x hx
      induction hx with
      | intro x _ ih =>
        refine ⟨_, ?_⟩
        rintro l' ⟨i, b, b', hi, hr, rfl⟩
        cases i with
        | zero =>
          cases hi
          exact ih (b', x.2) (.fst hr)
        | succ i => exact ih (x.1, x.2.set i b') (.snd ⟨i, b, b', hi, hr, rfl⟩)
    exact hpair (a, l) (ha.prod_gameAdd (ih hl))

/-! ## Who runs a program -/

/-- What is left of a program, the channel at which the answer to its question is awaited, if it
has been asked, and whether who runs it has left. -/
structure Runner (Q : Type) (A : Q → Type) (ε α : Type) where
  prog : Prog Q A ε α
  awaiting : Option Nat
  left : Bool

namespace Runner

variable {Q : Type} {A : Q → Type} {ε α : Type}

/-- A question is asked or answered, unless who runs the program leaves or has left. -/
inductive Goes : Runner Q A ε α → Runner Q A ε α → Prop where
  | gone (r : Runner Q A ε α) (present : r.left = false) : Goes { r with left := true } r
  | asked (r : Runner Q A ε α) (channel : Nat) (present : r.left = false) (idle : r.awaiting = none) :
      Goes { r with awaiting := some channel } r
  | told (r : Runner Q A ε α) (q : Q) (k : A q → Prog Q A ε α) (a : A q) (present : r.left = false)
      (prog : r.prog = .ask q k) : Goes { r with prog := k a, awaiting := none } r

theorem acc_left (prog : Prog Q A ε α) (awaiting : Option Nat) : Acc Goes ⟨prog, awaiting, true⟩ := by
  refine ⟨_, ?_⟩
  intro r hgoes
  cases hgoes with
  | gone _ present => cases present
  | asked _ _ present => cases present
  | told _ _ _ _ present => cases present

/-- A question that has been asked can only be answered. -/
theorem acc_of_told {prog : Prog Q A ε α}
    (h : ∀ q k, prog = .ask q k → ∀ a, Acc Goes ⟨k a, none, false⟩) (awaiting : Option Nat) :
    Acc Goes ⟨prog, awaiting, false⟩ := by
  have hwaiting : ∀ channel, Acc Goes ⟨prog, some channel, false⟩ := by
    intro channel
    refine ⟨_, ?_⟩
    intro r hgoes
    cases hgoes with
    | gone => exact acc_left prog _
    | asked _ _ _ idle => cases idle
    | told _ q k a _ hprog => exact h q k hprog a
  cases awaiting with
  | some channel => exact hwaiting channel
  | none =>
    refine ⟨_, ?_⟩
    intro r hgoes
    cases hgoes with
    | gone => exact acc_left prog none
    | asked _ channel => exact hwaiting channel
    | told _ q k a _ hprog => exact h q k hprog a

/-- A program ends with its last question. -/
theorem acc_goes (r : Runner Q A ε α) : Acc Goes r := by
  obtain ⟨prog, awaiting, left⟩ := r
  cases left with
  | true => exact acc_left prog awaiting
  | false =>
    induction prog generalizing awaiting with
    | done a => exact acc_of_told (fun q k hprog => by cases hprog) awaiting
    | fail e => exact acc_of_told (fun q k hprog => by cases hprog) awaiting
    | panic => exact acc_of_told (fun q k hprog => by cases hprog) awaiting
    | ask q k ih =>
      refine acc_of_told (fun q' k' hprog a => ?_) awaiting
      cases hprog
      exact ih a none

/-- Who runs programs of several kinds comes to an end with them. -/
theorem acc_of_goes {T ι : Type*} {ε α : ι → Type} (kind : T → ι)
    (runner : ∀ t, Runner Q A (ε (kind t)) (α (kind t))) {R : T → T → Prop}
    (hR : ∀ t' t, R t' t → ∃ r, Goes r (runner t) ∧
      (⟨kind t', runner t'⟩ : Σ i, Runner Q A (ε i) (α i)) = ⟨kind t, r⟩) (t : T) : Acc R t := by
  have hacc : ∀ i (r : Runner Q A (ε i) (α i)), Acc Goes r → ∀ t,
      (⟨kind t, runner t⟩ : Σ i, Runner Q A (ε i) (α i)) = ⟨i, r⟩ → Acc R t := by
    intro i r hr
    induction hr with
    | intro r _ ih =>
      intro t ht
      obtain ⟨rfl, hsame⟩ := Sigma.mk.inj ht
      obtain rfl := eq_of_heq hsame
      refine ⟨_, fun t' hmoved => ?_⟩
      obtain ⟨r, hgoes, heq⟩ := hR t' t hmoved
      exact ih r hgoes t' heq
  exact hacc _ _ (acc_goes (runner t)) t rfl

end Runner

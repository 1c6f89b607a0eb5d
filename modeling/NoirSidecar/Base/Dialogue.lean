-- SUMMARY: What a program that runs in pieces has been told so far, and what that says about what is left of it.
import NoirSidecar.Base.Interaction
import Mathlib.Data.List.Basic

/-!
# Dialogues

A program whose questions are answered one at a time, at moments of its environment's
choosing, is at each point a history of answers and the program that is left. What is
known of the whole program, which questions it asks and in which order, is known of the
history; and what the history does not contradict can be taken for a fixed environment.
-/

namespace Prog

variable {Q : Type} {A : Q → Type} {ε ε' α β : Type}

/-- `Dialogue p told p'`: `p'` is left of the program `p` after the answers `told`. -/
inductive Dialogue : Prog Q A ε α → List (Σ q, A q) → Prog Q A ε α → Prop where
  | nil (p : Prog Q A ε α) : Dialogue p [] p
  | cons {q : Q} {k : A q → Prog Q A ε α} {a : A q} {told : List (Σ q, A q)} {p : Prog Q A ε α} :
      Dialogue (k a) told p → Dialogue (.ask q k) (⟨q, a⟩ :: told) p

namespace Dialogue

variable {p p' : Prog Q A ε α} {told : List (Σ q, A q)}

/-- Another answer. -/
theorem snoc {q : Q} {k : A q → Prog Q A ε α} (h : Dialogue p told (.ask q k)) (a : A q) :
    Dialogue p (told ++ [⟨q, a⟩]) (k a) := by
  generalize hleft : Prog.ask q k = left at h
  induction h with
  | nil p =>
    subst hleft
    exact .cons (.nil _)
  | cons _ ih => exact .cons (ih hleft)

theorem asks {S : Q → Prop} (h : Dialogue p told p') (hp : p.Asks S) :
    (∀ x ∈ told, S x.1) ∧ p'.Asks S := by
  induction h with
  | nil p => exact ⟨fun x hx => absurd hx List.not_mem_nil, hp⟩
  | cons _ ih =>
    obtain ⟨hq, hk⟩ := hp
    obtain ⟨htold, hleft⟩ := ih (hk _)
    exact ⟨List.forall_mem_cons.mpr ⟨hq, htold⟩, hleft⟩

/-- The first answer is to the question a program opens with. -/
theorem opens {S : Q → Prop} {q : Q} (h : Dialogue p told p') (hp : p.Opens q S) :
    told = [] ∨ ∃ a rest, told = ⟨q, a⟩ :: rest ∧ ∀ x ∈ rest, S x.1 := by
  cases h with
  | nil => exact .inl rfl
  | cons h =>
    obtain ⟨rfl, hk⟩ := hp
    exact .inr ⟨_, _, rfl, (h.asks (hk _)).1⟩

end Dialogue

/-- The question a program is at. -/
def next : Prog Q A ε α → Option Q
  | .ask q _ => some q
  | _ => none

/-! ## Answers that a program does not survive -/

/-- The program fails as soon as it is given a `bad` answer. -/
def FailsOn (bad : ∀ q, A q → Prop) : Prog Q A ε α → Prop
  | .ask q k => ∀ a, (bad q a → ∃ e, k a = .fail e) ∧ (k a).FailsOn bad
  | _ => True

section FailsOn

variable {bad : ∀ q, A q → Prop} {p p' : Prog Q A ε α} {told : List (Σ q, A q)}

@[simp] theorem failsOn_pure (a : α) : (pure a : Prog Q A ε α).FailsOn bad := trivial
@[simp] theorem failsOn_done (a : α) : (done a : Prog Q A ε α).FailsOn bad := trivial
@[simp] theorem failsOn_fail (e : ε) : (fail e : Prog Q A ε α).FailsOn bad := trivial

@[simp] theorem failsOn_ofExcept (r : Except ε α) : (ofExcept r : Prog Q A ε α).FailsOn bad := by
  cases r <;> trivial

@[simp] theorem failsOn_ofOutcome (o : Outcome ε α) : (ofOutcome o : Prog Q A ε α).FailsOn bad := by
  cases o <;> trivial

theorem FailsOn.bind {f : α → Prog Q A ε β} (hp : p.FailsOn bad) (hf : ∀ a, (f a).FailsOn bad) :
    (p >>= f).FailsOn bad := by
  induction p with
  | done a => exact hf a
  | fail e => trivial
  | panic => trivial
  | ask q k ih =>
    intro a
    refine ⟨fun hbad => ?_, ih a (hp a).2⟩
    obtain ⟨e, he⟩ := (hp a).1 hbad
    exact ⟨e, congrArg (Prog.bind · f) he⟩

theorem FailsOn.mapError (hp : p.FailsOn bad) (g : ε → ε') : (p.mapError g).FailsOn bad := by
  induction p with
  | done a => trivial
  | fail e => trivial
  | panic => trivial
  | ask q k ih =>
    intro a
    refine ⟨fun hbad => ?_, ih a (hp a).2⟩
    obtain ⟨e, he⟩ := (hp a).1 hbad
    exact ⟨g e, congrArg (Prog.mapError g) he⟩

/-- A program that has not failed has been given no bad answer. -/
theorem Dialogue.not_bad (h : Dialogue p told p') (hp : p.FailsOn bad)
    (hleft : ∀ e, p' ≠ .fail e) : ∀ x ∈ told, ¬ bad x.1 x.2 := by
  induction h with
  | nil p => exact fun x hx => absurd hx List.not_mem_nil
  | @cons q k a told p hrest ih =>
    obtain ⟨hfail, hk⟩ := hp a
    refine List.forall_mem_cons.mpr ⟨fun hbad => ?_, ih hk hleft⟩
    obtain ⟨e, he⟩ := hfail hbad
    rw [he] at hrest
    cases hrest
    exact hleft e rfl

end FailsOn

/-! ## Answers that get a program nowhere -/

/-- The program does not finish on `given` answers alone. -/
def Starves (given : ∀ q, A q → Prop) : Prog Q A ε α → Prop
  | .done _ => False
  | .ask q k => ∀ a, given q a → (k a).Starves given
  | _ => True

section Starves

variable {given bad : ∀ q, A q → Prop} {p p' : Prog Q A ε α} {told : List (Σ q, A q)}

theorem Starves.bind (hp : p.Starves given) (f : α → Prog Q A ε β) : (p >>= f).Starves given := by
  induction p with
  | done a => exact hp.elim
  | fail e => trivial
  | panic => trivial
  | ask q k ih => exact fun a ha => ih a (hp a ha)

/-- It is enough that what follows does not finish. -/
theorem starves_bind {f : α → Prog Q A ε β} (hf : ∀ a, (f a).Starves given) :
    (p >>= f).Starves given := by
  induction p with
  | done a => exact hf a
  | fail e => trivial
  | panic => trivial
  | ask q k ih => exact fun a _ => ih a

/-- A question that can only be answered badly. -/
theorem FailsOn.starves {q : Q} {k : A q → Prog Q A ε α} (h : (ask q k).FailsOn bad)
    (hq : ∀ a, given q a → bad q a) : (ask q k).Starves given := by
  intro a ha
  obtain ⟨e, he⟩ := (h a).1 (hq a ha)
  rw [he]
  trivial

theorem Dialogue.starves (h : Dialogue p told p') (hp : p.Starves given)
    (htold : ∀ x ∈ told, given x.1 x.2) : p'.Starves given := by
  induction h with
  | nil p => exact hp
  | cons _ ih =>
    obtain ⟨hfirst, hrest⟩ := List.forall_mem_cons.mp htold
    exact ih (hp _ hfirst) hrest

end Starves

/-! ## Questions of a kind that is asked once -/

/-- After a question of the kind `R` no other of that kind follows. -/
def Once (R : Q → Prop) : Prog Q A ε α → Prop
  | .ask q k => ∀ a, (R q → (k a).Asks (¬ R ·)) ∧ (k a).Once R
  | _ => True

section Once

variable {R : Q → Prop} {p p' : Prog Q A ε α} {told : List (Σ q, A q)}

theorem once_of_asks (hp : p.Asks (¬ R ·)) : p.Once R := by
  induction p with
  | done a => trivial
  | fail e => trivial
  | panic => trivial
  | ask q k ih => exact fun a => ⟨fun hq => absurd hq hp.1, ih a (hp.2 a)⟩

theorem Once.mono {R' : Q → Prop} (hp : p.Once R) (h : ∀ q, R' q → R q) : p.Once R' := by
  induction p with
  | done a => trivial
  | fail e => trivial
  | panic => trivial
  | ask q k ih =>
    refine fun a => ⟨fun hq => ?_, ih a (hp a).2⟩
    exact ((hp a).1 (h q hq)).mono fun q' hnot hq' => hnot (h q' hq')

/-- Questions of the kind come before or after, not both. -/
theorem Once.bind_left {f : α → Prog Q A ε β} (hp : p.Once R) (hf : ∀ a, (f a).Asks (¬ R ·)) :
    (p >>= f).Once R := by
  induction p with
  | done a => exact once_of_asks (hf a)
  | fail e => trivial
  | panic => trivial
  | ask q k ih => exact fun a => ⟨fun hq => ((hp a).1 hq).bind hf, ih a (hp a).2⟩

theorem Once.bind_right {f : α → Prog Q A ε β} (hp : p.Asks (¬ R ·)) (hf : ∀ a, (f a).Once R) :
    (p >>= f).Once R := by
  induction p with
  | done a => exact hf a
  | fail e => trivial
  | panic => trivial
  | ask q k ih => exact fun a => ⟨fun hq => absurd hq hp.1, ih a (hp.2 a)⟩

/-- Once a question of the kind has been answered no other follows. -/
theorem Dialogue.asks_of_mem (h : Dialogue p told p') (hp : p.Once R) {x : Σ q, A q} (hx : x ∈ told)
    (hR : R x.1) : p'.Asks (¬ R ·) := by
  induction h with
  | nil p => cases hx
  | @cons q k a told p hrest ih =>
    obtain ⟨hlast, hk⟩ := hp a
    rcases List.mem_cons.mp hx with rfl | hx
    · exact (hrest.asks (hlast hR)).2
    · exact ih hk hx

end Once

/-! ## Programs beside another environment -/

section Left

variable {R : Type} {B : R → Type} {p : Prog Q A ε α}

theorem Asks.left {S : Q ⊕ R → Prop} (hp : p.Asks fun q => S (.inl q)) :
    (p.left : Prog (Q ⊕ R) (Sum.elim A B) ε α).Asks S := by
  induction p with
  | done a => trivial
  | fail e => trivial
  | panic => trivial
  | ask q k ih => exact ⟨hp.1, fun a => ih a (hp.2 a)⟩

theorem Opens.left {S : Q ⊕ R → Prop} {q : Q} (hp : p.Opens q fun q => S (.inl q)) :
    (p.left : Prog (Q ⊕ R) (Sum.elim A B) ε α).Opens (.inl q) S := by
  cases p with
  | done a => trivial
  | fail e => trivial
  | panic => trivial
  | ask q' k => exact ⟨congrArg Sum.inl hp.1, fun a => Asks.left (hp.2 a)⟩

theorem Once.left {S : Q ⊕ R → Prop} (hp : p.Once fun q => S (.inl q)) :
    (p.left : Prog (Q ⊕ R) (Sum.elim A B) ε α).Once S := by
  induction p with
  | done a => trivial
  | fail e => trivial
  | panic => trivial
  | ask q k ih => exact fun a => ⟨fun hq => Asks.left ((hp a).1 hq), ih a (hp a).2⟩

theorem FailsOn.left {bad : ∀ q : Q ⊕ R, Sum.elim A B q → Prop}
    (hp : p.FailsOn fun q a => bad (.inl q) a) :
    (p.left : Prog (Q ⊕ R) (Sum.elim A B) ε α).FailsOn bad := by
  induction p with
  | done a => trivial
  | fail e => trivial
  | panic => trivial
  | ask q k ih =>
    intro a
    refine ⟨fun hbad => ?_, ih a (hp a).2⟩
    obtain ⟨e, he⟩ := (hp a).1 hbad
    exact ⟨e, congrArg Prog.left he⟩

theorem Starves.left {given : ∀ q : Q ⊕ R, Sum.elim A B q → Prop}
    (hp : p.Starves fun q a => given (.inl q) a) :
    (p.left : Prog (Q ⊕ R) (Sum.elim A B) ε α).Starves given := by
  induction p with
  | done a => exact hp.elim
  | fail e => trivial
  | panic => trivial
  | ask q k ih => exact fun a ha => ih a (hp a ha)

/-- Beside another environment it only asks its own. -/
theorem asks_left (p : Prog Q A ε α) :
    (p.left : Prog (Q ⊕ R) (Sum.elim A B) ε α).Asks (¬ ·.isRight) := by
  induction p with
  | done a => trivial
  | fail e => trivial
  | panic => trivial
  | ask q k ih => exact ⟨by simp, ih⟩

/-- Both environments as they are at one moment, the second in the state `s`. -/
def still {σ : Type} (env : ∀ q, A q) (handler : ∀ r, σ → B r × σ) (s : σ) :
    ∀ q : Q ⊕ R, Sum.elim A B q
  | .inl q => env q
  | .inr r => (handler r s).1

end Left

end Prog

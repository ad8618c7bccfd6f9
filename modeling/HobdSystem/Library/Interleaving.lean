import HobdSystem.Library.Dialogue

/-!
# Two programs on one world

Two programs that ask the same world, one query at a time and in any order (`Dialogue.PairStep`).
`Dialogue.AllowedFrom` says that neither of them ever comes to a query that is not allowed in the
state it finds. It is a statement about all the ways in which the steps of the two can be mixed,
and there are too many of them to go through.

So it is shown by **rely and guarantee**: `Dialogue.Meets` is a triple for one program, under the
assumption that the other one changes the state only as the relation `rely` says, with the promise
that its own changes are in `guar`. The other program may step in at any point, which is the
reason why every assertion that is made between two queries has to be *stable*: if it holds, it
still holds after any change in `rely` (`Dialogue.StableUnder`). This is asked once, in the rule
for a query (`Dialogue.meets_query`); the rule for sequences does not mention the other program at
all (`Dialogue.Meets.bind`), and so the triples are proved along the text of each program alone.

Two programs that meet such specifications, each promising what the other relies on, come to no
query that is not allowed (`Dialogue.allowedFrom_of_meets`). What is carried along an interleaving
is that what is *left* of each of the two programs still meets what is left of its specification,
from an assertion that holds now and is stable (`Dialogue.Meets.access`).

To show that two programs can come to a query that is not allowed, one interleaving is enough. It
is put together of walks, in each of which one program takes some steps and the other one waits
(`Dialogue.Walk`).
-/

namespace Dialogue

variable {ω Q α β : Type} {A : Q → Type} {σ : Type*}

/-! ### Interleaving -/

/-- A step of one program. -/
inductive Access (W : World A σ) : Dialogue ω A α → σ → Dialogue ω A α → σ → Prop
  | say {w d s} : Access W (.say w d) s d s
  | ask {q k s x s'} (h : W.serves q x s s') : Access W (.ask q k) s (k x) s'

/-- Two programs, and the state of the world. -/
abbrev Pair (ω : Type) {Q : Type} (A : Q → Type) (α β : Type) (σ : Type*) : Type _ :=
  Dialogue ω A α × Dialogue ω A β × σ

/-- A step of one of the two programs. -/
inductive PairStep (W : World A σ) : Pair ω A α β σ → Pair ω A α β σ → Prop
  | left {d d' e s s'} (h : Access W d s d' s') : PairStep W (d, e, s) (d', e, s')
  | right {d e e' s s'} (h : Access W e s e' s') : PairStep W (d, e, s) (d, e', s')

/-- The query a program is at is allowed. -/
def NextAllowed (ok : Q → σ → Prop) (d : Dialogue ω A α) (s : σ) : Prop :=
  ∀ q k, d = .ask q k → ok q s

theorem not_nextAllowed_query {ok : Q → σ → Prop} {q : Q} {f : A q → Dialogue ω A α} {s : σ}
    (h : ¬ok q s) : ¬NextAllowed ok (query q >>= f) s :=
  fun hnext => h (hnext q f rfl)

/-- **No query is ever come to that is not allowed**, in whatever order the two programs take
their steps. A program that has not ended is always at its next query, so this is a statement
about what the two are about to do in every state that can be reached. -/
def AllowedFrom (W : World A σ) (ok : Q → σ → Prop) (p : Pair ω A α β σ) : Prop :=
  ∀ p', Relation.ReflTransGen (PairStep W) p p' →
    NextAllowed ok p'.1 p'.2.2 ∧ NextAllowed ok p'.2.1 p'.2.2

theorem AllowedFrom.of_run {W : World A σ} {ok : Q → σ → Prop} {p p' : Pair ω A α β σ}
    (h : AllowedFrom W ok p) (hrun : Relation.ReflTransGen (PairStep W) p p') :
    AllowedFrom W ok p' :=
  fun p'' hrun' => h p'' (hrun.trans hrun')

/-! ### Walks -/

/-- Some steps of one program. -/
inductive Walk (W : World A σ) : Dialogue ω A α → σ → Dialogue ω A α → σ → Prop
  | refl (d s) : Walk W d s d s
  | step {d s d' s' d'' s''} (h : Access W d s d' s') (hw : Walk W d' s' d'' s'') :
    Walk W d s d'' s''

section Walk

variable {W : World A σ} {d d' : Dialogue ω A α} {e e' : Dialogue ω A β} {s s' : σ}

theorem Walk.query {q : Q} {f : A q → Dialogue ω A α} {x : A q} {s₁ : σ}
    (h : W.serves q x s s₁) (hw : Walk W (f x) s₁ d' s') : Walk W (query q >>= f) s d' s' :=
  .step (.ask h) hw

theorem Walk.trans {d'' : Dialogue ω A α} {s'' : σ} (h : Walk W d s d' s')
    (h' : Walk W d' s' d'' s'') : Walk W d s d'' s'' := by
  induction h with
  | refl => exact h'
  | step h _ ih => exact .step h (ih h')

theorem Walk.left (h : Walk W d s d' s') (e : Dialogue ω A β) :
    Relation.ReflTransGen (PairStep W) (d, e, s) (d', e, s') := by
  induction h with
  | refl => exact .refl
  | step h _ ih => exact .head (.left h) ih

theorem Walk.right (h : Walk W e s e' s') (d : Dialogue ω A α) :
    Relation.ReflTransGen (PairStep W) (d, e, s) (d, e', s') := by
  induction h with
  | refl => exact .refl
  | step h _ ih => exact .head (.right h) ih

/-- A dialogue that can be led to its end is walked through. -/
theorem Talks.walk (hW : ∀ s s', ¬W.moves s s') {f : α → Dialogue ω A β} {t : List ω} {a : α}
    {s₁ : σ} (h : d.Talks W s t a s₁) (hw : Walk W (f a) s₁ e' s') :
    Walk W (d >>= f) s e' s' := by
  change Walk W (d.andThen f) s e' s'
  induction d generalizing s t with
  | done b =>
    obtain ⟨-, rfl, hmoved⟩ := talks_pure.mp h
    rwa [(World.moved_iff_eq hW).mp hmoved] at hw
  | say w d ih =>
    obtain ⟨u, -, hd⟩ := talks_say.mp h
    exact .step .say (ih hd)
  | ask q k ih =>
    obtain ⟨s₂, x, s₃, hmoved, hserve, hk⟩ := talks_ask.mp h
    rw [(World.moved_iff_eq hW).mp hmoved] at hserve
    exact .step (.ask hserve) (ih x hk)
  | halt => exact (talks_halt.mp h).elim

end Walk

/-! ### Rely and guarantee -/

/-- An assertion that the other program leaves alone. It is all that one program can know of a
state in which the other one may have stepped in since it last looked. -/
def StableUnder (rely : σ → σ → Prop) (P : σ → Prop) : Prop := ∀ s s', P s → rely s s' → P s'

/-- **A program meets its specification**: from a state with `P`, with the other program making
changes in `rely` only, it makes changes in `guar` only, comes to allowed queries only, and has `Q`
at its end. -/
def Meets (W : World A σ) (rely guar : σ → σ → Prop) (ok : Q → σ → Prop) :
    Dialogue ω A α → (σ → Prop) → (α → σ → Prop) → Prop
  | .done a, P, Q => ∀ s, P s → Q a s
  | .say _ d, P, Q => d.Meets W rely guar ok P Q
  | .ask q k, P, Q => (∀ s, P s → ok q s) ∧ ∃ P' : A q → σ → Prop,
      (∀ x, StableUnder rely (P' x)) ∧
      (∀ s x s', P s → W.serves q x s s' → guar s s' ∧ P' x s') ∧
      ∀ x, (k x).Meets W rely guar ok (P' x) Q
  | .halt, _, _ => True

section Meets

variable {W : World A σ} {rely guar : σ → σ → Prop} {ok : Q → σ → Prop} {P P' : σ → Prop}
  {R : α → σ → Prop} {d : Dialogue ω A α}

theorem Meets.mono {R' : α → σ → Prop} (h : d.Meets W rely guar ok P R) (hP : ∀ s, P' s → P s)
    (hR : ∀ a s, R a s → R' a s) : d.Meets W rely guar ok P' R' := by
  induction d generalizing P P' with
  | done a => exact fun s hs => hR a s (h s (hP s hs))
  | say w d ih => exact ih h hP
  | ask q k ih =>
    obtain ⟨hok, P₁, hstable, hserve, hk⟩ := h
    exact ⟨fun s hs => hok s (hP s hs), P₁, hstable, fun s x s' hs => hserve s x s' (hP s hs),
      fun x => ih x (hk x) fun _ hs => hs⟩
  | halt => trivial

theorem meets_pure {a : α} (h : ∀ s, P s → R a s) :
    (pure a : Dialogue ω A α).Meets W rely guar ok P R := h

theorem meets_halt : (halt : Dialogue ω A α).Meets W rely guar ok P R := trivial

/-- **The rule for a query**: it is allowed where it is made, it does no more than was promised,
and what is known behind it is not disturbed by what is relied on. -/
theorem meets_query {q : Q} {R : A q → σ → Prop} (hok : ∀ s, P s → ok q s)
    (hstable : ∀ x, StableUnder rely (R x))
    (hserve : ∀ s x s', P s → W.serves q x s s' → guar s s' ∧ R x s') :
    (query q : Dialogue ω A (A q)).Meets W rely guar ok P R :=
  ⟨hok, R, hstable, hserve, fun _ _ hs => hs⟩

/-- **The rule for sequences.** What is known between the two pieces need not be stable, since it
is at the queries that the other program is taken into account. -/
theorem Meets.bind {f : α → Dialogue ω A β} {S : β → σ → Prop} (hd : d.Meets W rely guar ok P R)
    (hf : ∀ a, (f a).Meets W rely guar ok (R a) S) : (d >>= f).Meets W rely guar ok P S := by
  change (d.andThen f).Meets W rely guar ok P S
  induction d generalizing P with
  | done a => exact (hf a).mono hd fun _ _ hs => hs
  | say w d ih => exact ih hd
  | ask q k ih =>
    obtain ⟨hok, P₁, hstable, hserve, hk⟩ := hd
    exact ⟨hok, P₁, hstable, hserve, fun x => ih x (hk x)⟩
  | halt => trivial

/-- What is left of a program after a step meets what is left of the specification. -/
theorem Meets.access {d' : Dialogue ω A α} {s s' : σ} (h : d.Meets W rely guar ok P R)
    (hP : StableUnder rely P) (hs : P s) (hd : Access W d s d' s') :
    (guar s s' ∨ s' = s) ∧ ∃ P', StableUnder rely P' ∧ P' s' ∧ d'.Meets W rely guar ok P' R := by
  cases hd with
  | say => exact ⟨Or.inr rfl, P, hP, hs, h⟩
  | ask hserve =>
    obtain ⟨-, P₁, hstable, hstep, hk⟩ := h
    obtain ⟨hguar, hs'⟩ := hstep _ _ _ hs hserve
    exact ⟨Or.inl hguar, P₁ _, hstable _, hs', hk _⟩

theorem Meets.nextAllowed {s : σ} (h : d.Meets W rely guar ok P R) (hs : P s) :
    NextAllowed ok d s := by
  rintro q k rfl
  exact h.1 s hs

variable {rely' guar' : σ → σ → Prop} {P₂ : σ → Prop} {R₂ : β → σ → Prop} {e : Dialogue ω A β}

/-- **The rule for two programs**, each of which promises what the other one relies on. No query
that is not allowed is then come to, in whichever order the two are run. -/
theorem allowedFrom_of_meets {s : σ} (hd : d.Meets W rely guar ok P R)
    (he : e.Meets W rely' guar' ok P₂ R₂) (hguar : ∀ s s', guar s s' → rely' s s')
    (hguar' : ∀ s s', guar' s s' → rely s s') (hP : StableUnder rely P)
    (hP₂ : StableUnder rely' P₂) (hs : P s) (hs₂ : P₂ s) : AllowedFrom W ok (d, e, s) := by
  rintro ⟨d', e', s'⟩ hrun
  -- both programs meet what is left of their specifications all along
  suffices hinv : ∃ P P₂, StableUnder rely P ∧ StableUnder rely' P₂ ∧ P s' ∧ P₂ s' ∧
      d'.Meets W rely guar ok P R ∧ e'.Meets W rely' guar' ok P₂ R₂ by
    obtain ⟨P, P₂, -, -, hs, hs₂, hd, he⟩ := hinv
    exact ⟨hd.nextAllowed hs, he.nextAllowed hs₂⟩
  generalize hp : (d', e', s') = p' at hrun
  induction hrun generalizing d' e' s' with
  | refl =>
    cases hp
    exact ⟨P, P₂, hP, hP₂, hs, hs₂, hd, he⟩
  | @tail p₁ p₂ _ hstep ih =>
    subst hp
    obtain ⟨d₁, e₁, s₁⟩ := p₁
    obtain ⟨P, P₂, hP, hP₂, hs, hs₂, hd, he⟩ := ih d₁ e₁ s₁ rfl
    cases hstep with
    | left h =>
      obtain ⟨hchange, P', hP', hs', hd'⟩ := hd.access hP hs h
      refine ⟨P', P₂, hP', hP₂, hs', ?_, hd', he⟩
      rcases hchange with hchange | rfl
      · exact hP₂ _ _ hs₂ (hguar _ _ hchange)
      · exact hs₂
    | right h =>
      obtain ⟨hchange, P', hP', hs', he'⟩ := he.access hP₂ hs₂ h
      refine ⟨P, P', hP, hP', ?_, hs', hd, he'⟩
      rcases hchange with hchange | rfl
      · exact hP _ _ hs (hguar' _ _ hchange)
      · exact hs

end Meets

end Dialogue

import Mathlib.Data.List.Basic
import Mathlib.Logic.Relation

/-!
# Programs that print and ask

A `Dialogue ω A α` is a program that prints items of type `ω`, asks queries and ends with a result,
or is halted. A query `q` is answered with an element of `A q`, and what the program does next may
depend on it.

The answers come from a `Dialogue.World`: what a query is answered with and does to the state of
the world, and the moves the world makes on its own, which may come between any two steps of the
program. `Dialogue.Talks` is a dialogue that has been led to its end; those of a sequence are one of
the first program and then one of the second (`Dialogue.talks_bind`). What a single query comes to
is `Dialogue.World.Asked`: the moves in front of it and behind it belong to it, since no program
can tell them from moves that were made elsewhere.

Programs are compared with a specification by bringing them into a normal form, in which what is
printed and what is asked alternate (`Dialogue.talks_tell_query_tell`). Worlds are compared with
each other: if a world does nothing that another one could not do, **every dialogue with the first
is one with the second**, with the same output (`Dialogue.Talks.simulate`).
-/

/-- A program that prints and asks. What it does next may depend on the answer, whose type depends
on the query, and it may come to nothing. -/
inductive Dialogue (ω : Type) {Q : Type} (A : Q → Type) (α : Type) : Type where
  | done (a : α)
  | say (w : ω) (next : Dialogue ω A α)
  | ask (q : Q) (next : A q → Dialogue ω A α)
  | halt

namespace Dialogue

variable {ω Q α β : Type} {A : Q → Type} {σ τ : Type*}

/-- One program after the other. -/
def andThen : Dialogue ω A α → (α → Dialogue ω A β) → Dialogue ω A β
  | .done a, f => f a
  | .say w d, f => .say w (d.andThen f)
  | .ask q k, f => .ask q fun x => (k x).andThen f
  | .halt, _ => .halt

instance : Monad (Dialogue ω A) where
  pure := .done
  bind := andThen

/-- Print some items. -/
def tell : List ω → Dialogue ω A Unit
  | [] => .done ()
  | w :: ws => .say w (tell ws)

/-- Ask, and return the answer. -/
def query (q : Q) : Dialogue ω A (A q) := .ask q .done

/-! ### Sequences -/

theorem bind_assoc {γ : Type} (d : Dialogue ω A α) (f : α → Dialogue ω A β)
    (g : β → Dialogue ω A γ) : d >>= f >>= g = d >>= fun a => f a >>= g := by
  change (d.andThen f).andThen g = d.andThen fun a => (f a).andThen g
  induction d with
  | done a => rfl
  | say w d ih => exact congrArg (say w) ih
  | ask q k ih => exact congrArg (ask q) (funext ih)
  | halt => rfl

theorem bind_pure (d : Dialogue ω A α) : d >>= pure = d := by
  change d.andThen done = d
  induction d with
  | done a => rfl
  | say w d ih => exact congrArg (say w) ih
  | ask q k ih => exact congrArg (ask q) (funext ih)
  | halt => rfl

theorem tell_bind_tell (ws vs : List ω) :
    (tell ws >>= fun _ => tell vs : Dialogue ω A Unit) = tell (ws ++ vs) := by
  change (tell ws).andThen _ = _
  induction ws with
  | nil => rfl
  | cons w ws ih => exact congrArg (say w) ih

/-! ### Worlds -/

/-- What a program talks to. Between two queries of the program a world may do what it likes, as
far as its `moves` go, and a query may be served in more than one way. -/
structure World (A : Q → Type) (σ : Type*) where
  /-- What happens without the program. -/
  moves : σ → σ → Prop
  /-- A query is answered. -/
  serves : (q : Q) → A q → σ → σ → Prop

/-- The world has moved on. -/
def World.Moved (W : World A σ) : σ → σ → Prop := Relation.ReflTransGen W.moves

/-- A world that does nothing on its own. -/
theorem World.moved_iff_eq {W : World A σ} (h : ∀ s s', ¬W.moves s s') {s s' : σ} :
    W.Moved s s' ↔ s' = s := by
  constructor
  · intro hmoved
    induction hmoved with
    | refl => rfl
    | tail _ hmove => exact absurd hmove (h _ _)
  · rintro rfl
    exact Relation.ReflTransGen.refl

/-- **A dialogue that has been led to its end**: what is printed, the result, and the state the
world is left in. -/
def Talks (W : World A σ) : Dialogue ω A α → σ → List ω → α → σ → Prop
  | .done b, s, t, a, s' => t = [] ∧ a = b ∧ W.Moved s s'
  | .say w d, s, t, a, s' => ∃ u, t = w :: u ∧ d.Talks W s u a s'
  | .ask q k, s, t, a, s' => ∃ s₁ x s₂, W.Moved s s₁ ∧ W.serves q x s₁ s₂ ∧ (k x).Talks W s₂ t a s'
  | .halt, _, _, _, _ => False

/-- A query is answered, somewhere among the moves of the world. -/
def World.Asked (W : World A σ) (q : Q) (x : A q) (s s' : σ) : Prop :=
  ∃ s₁ s₂, W.Moved s s₁ ∧ W.serves q x s₁ s₂ ∧ W.Moved s₂ s'

/-- An assertion that the moves of the world leave alone. Only such assertions are of use between
two queries, where any number of moves may be made. -/
def World.Stable (W : World A σ) (P : σ → Prop) : Prop := ∀ s s', W.moves s s' → P s → P s'

section Talks

variable {W : World A σ} {P : σ → Prop} {s s' : σ} {t : List ω}

theorem World.Stable.moved (hP : W.Stable P) (h : W.Moved s s') (hs : P s) : P s' := by
  induction h with
  | refl => exact hs
  | tail _ hmove ih => exact hP _ _ hmove ih

/-- The world may move before the dialogue. -/
theorem Talks.of_moved {d : Dialogue ω A α} {a : α} {s₁ : σ} (h : d.Talks W s₁ t a s')
    (hmoved : W.Moved s s₁) : d.Talks W s t a s' := by
  induction d generalizing t with
  | done b => exact ⟨h.1, h.2.1, hmoved.trans h.2.2⟩
  | say w d ih =>
    obtain ⟨u, rfl, hd⟩ := h
    exact ⟨u, rfl, ih hd⟩
  | ask q k ih =>
    obtain ⟨s₂, x, s₃, hmoved', hserve, hk⟩ := h
    exact ⟨s₂, x, s₃, hmoved.trans hmoved', hserve, hk⟩
  | halt => exact h.elim

theorem talks_halt {a : α} : (halt : Dialogue ω A α).Talks W s t a s' ↔ False := Iff.rfl

theorem talks_pure {a b : α} :
    (pure b : Dialogue ω A α).Talks W s t a s' ↔ t = [] ∧ a = b ∧ W.Moved s s' := Iff.rfl

theorem talks_say {w : ω} {d : Dialogue ω A α} {a : α} :
    (say w d).Talks W s t a s' ↔ ∃ u, t = w :: u ∧ d.Talks W s u a s' := Iff.rfl

theorem talks_ask {q : Q} {k : A q → Dialogue ω A α} {a : α} : (ask q k).Talks W s t a s' ↔
    ∃ s₁ x s₂, W.Moved s s₁ ∧ W.serves q x s₁ s₂ ∧ (k x).Talks W s₂ t a s' := Iff.rfl

theorem talks_tell {ws : List ω} {u : Unit} :
    (tell ws : Dialogue ω A Unit).Talks W s t u s' ↔ t = ws ∧ W.Moved s s' := by
  induction ws generalizing t with
  | nil => exact ⟨fun h => ⟨h.1, h.2.2⟩, fun h => ⟨h.1, rfl, h.2⟩⟩
  | cons w ws ih =>
    constructor
    · rintro ⟨v, rfl, hws⟩
      obtain ⟨rfl, hmoved⟩ := ih.mp hws
      exact ⟨rfl, hmoved⟩
    · rintro ⟨rfl, hmoved⟩
      exact ⟨ws, rfl, ih.mpr ⟨rfl, hmoved⟩⟩

/-- The moves around a query that was answered. -/
theorem World.Asked.then {q : Q} {x : A q} {s₁ : σ} (h : W.Asked q x s s₁)
    (hmoved : W.Moved s₁ s') : W.Asked q x s s' := by
  obtain ⟨s₂, s₃, hbefore, hserve, hafter⟩ := h
  exact ⟨s₂, s₃, hbefore, hserve, hafter.trans hmoved⟩

theorem World.Moved.then {q : Q} {x : A q} {s₁ : σ} (hmoved : W.Moved s s₁)
    (h : W.Asked q x s₁ s') : W.Asked q x s s' := by
  obtain ⟨s₂, s₃, hbefore, hserve, hafter⟩ := h
  exact ⟨s₂, s₃, hmoved.trans hbefore, hserve, hafter⟩

theorem talks_query {q : Q} {x : A q} :
    (query q : Dialogue ω A (A q)).Talks W s t x s' ↔ t = [] ∧ W.Asked q x s s' := by
  constructor
  · rintro ⟨s₁, _, s₂, hmoved, hserve, rfl, rfl, hmoved'⟩
    exact ⟨rfl, s₁, s₂, hmoved, hserve, hmoved'⟩
  · rintro ⟨rfl, s₁, s₂, hmoved, hserve, hmoved'⟩
    exact ⟨s₁, x, s₂, hmoved, hserve, rfl, rfl, hmoved'⟩

/-- **The dialogues of a sequence** are those of the one program and then the other. With this
rule a program is read from its text, piece by piece, and never unfolded. -/
theorem talks_bind {d : Dialogue ω A α} {f : α → Dialogue ω A β} {b : β} :
    (d >>= f).Talks W s t b s' ↔ ∃ t₁ a s₁ t₂, t = t₁ ++ t₂ ∧ d.Talks W s t₁ a s₁ ∧
      (f a).Talks W s₁ t₂ b s' := by
  change (d.andThen f).Talks W s t b s' ↔ _
  induction d generalizing s t with
  | done a =>
    constructor
    · exact fun h => ⟨[], a, s, t, rfl, ⟨rfl, rfl, Relation.ReflTransGen.refl⟩, h⟩
    · rintro ⟨_, _, s₁, t₂, rfl, ⟨rfl, rfl, hmoved⟩, hf⟩
      exact hf.of_moved hmoved
  | say w d ih =>
    constructor
    · rintro ⟨u, rfl, h⟩
      obtain ⟨t₁, a, s₁, t₂, rfl, hd, hf⟩ := ih.mp h
      exact ⟨w :: t₁, a, s₁, t₂, rfl, ⟨t₁, rfl, hd⟩, hf⟩
    · rintro ⟨_, a, s₁, t₂, rfl, ⟨u, rfl, hd⟩, hf⟩
      exact ⟨u ++ t₂, rfl, ih.mpr ⟨u, a, s₁, t₂, rfl, hd, hf⟩⟩
  | ask q k ih =>
    constructor
    · rintro ⟨s₁, x, s₂, hmoved, hserve, h⟩
      obtain ⟨t₁, a, s₃, t₂, rfl, hd, hf⟩ := (ih x).mp h
      exact ⟨t₁, a, s₃, t₂, rfl, ⟨s₁, x, s₂, hmoved, hserve, hd⟩, hf⟩
    · rintro ⟨t₁, a, s₃, t₂, rfl, ⟨s₁, x, s₂, hmoved, hserve, hd⟩, hf⟩
      exact ⟨s₁, x, s₂, hmoved, hserve, (ih x).mpr ⟨t₁, a, s₃, t₂, rfl, hd, hf⟩⟩
  | halt => exact ⟨False.elim, fun ⟨_, _, _, _, _, h, _⟩ => h⟩

/-- A query in front of a program, in a world that does nothing on its own. -/
theorem talks_query_bind (hW : ∀ s s', ¬W.moves s s') {q : Q} {f : A q → Dialogue ω A β} {b : β} :
    (query q >>= f).Talks W s t b s' ↔ ∃ x s₁, W.serves q x s s₁ ∧ (f x).Talks W s₁ t b s' := by
  constructor
  · rintro ⟨s₀, x, s₁, hmoved, hserve, hf⟩
    obtain rfl := (World.moved_iff_eq hW).mp hmoved
    exact ⟨x, s₁, hserve, hf⟩
  · rintro ⟨x, s₁, hserve, hf⟩
    exact ⟨s, x, s₁, Relation.ReflTransGen.refl, hserve, hf⟩

/-- Some items, a query, and items that depend on the answer. -/
theorem talks_tell_query_tell {q : Q} {ws : List ω} {text : A q → List ω}
    {print : A q → Dialogue ω A Unit} (hprint : ∀ x, print x = tell (text x)) {u : Unit} :
    (tell ws >>= fun _ => query q >>= print).Talks W s t u s' ↔
      ∃ x, W.Asked q x s s' ∧ t = ws ++ text x := by
  rw [talks_bind]
  constructor
  · rintro ⟨_, _, s₁, _, rfl, htell, hquery⟩
    obtain ⟨rfl, hmoved⟩ := talks_tell.mp htell
    obtain ⟨_, x, s₂, _, rfl, hask, hprinted⟩ := talks_bind.mp hquery
    obtain ⟨rfl, hasked⟩ := talks_query.mp hask
    rw [hprint] at hprinted
    obtain ⟨rfl, hmoved'⟩ := talks_tell.mp hprinted
    exact ⟨x, hmoved.then (hasked.then hmoved'), rfl⟩
  · rintro ⟨x, hasked, rfl⟩
    refine ⟨ws, (), s, text x, rfl, talks_tell.mpr ⟨rfl, .refl⟩, talks_bind.mpr ?_⟩
    refine ⟨[], x, s', text x, rfl, talks_query.mpr ⟨rfl, hasked⟩, ?_⟩
    rw [hprint]
    exact talks_tell.mpr ⟨rfl, .refl⟩

end Talks

/-! ### Simulation -/

/-- The world `W` does nothing that `V` could not do, in states that are related. A single move of
`W` may be several of `V` or none, but a query is one query: the program has to get the same
answer. -/
structure World.Simulates (W : World A σ) (V : World A τ) (R : σ → τ → Prop) : Prop where
  moves : ∀ {s s' a}, R s a → W.moves s s' → ∃ a', V.Moved a a' ∧ R s' a'
  serves : ∀ {q x s s' a}, R s a → W.serves q x s s' → ∃ a', V.serves q x a a' ∧ R s' a'

section Simulate

variable {W : World A σ} {V : World A τ} {R : σ → τ → Prop}

theorem World.Simulates.moved (hsim : W.Simulates V R) {s s' : σ} {a : τ} (hR : R s a)
    (h : W.Moved s s') : ∃ a', V.Moved a a' ∧ R s' a' := by
  induction h with
  | refl => exact ⟨a, Relation.ReflTransGen.refl, hR⟩
  | tail _ hmove ih =>
    obtain ⟨a₁, hmoved, hR₁⟩ := ih
    obtain ⟨a₂, hmoved', hR₂⟩ := hsim.moves hR₁ hmove
    exact ⟨a₂, hmoved.trans hmoved', hR₂⟩

/-- **A dialogue with the one world is one with the other**, with the same output and the same
result. So what a program prints can be studied in a world that is simpler than the one it will
meet. -/
theorem Talks.simulate (hsim : W.Simulates V R) {d : Dialogue ω A α} {s s' : σ} {t : List ω} {x : α}
    {a : τ} (h : d.Talks W s t x s') (hR : R s a) : ∃ a', d.Talks V a t x a' ∧ R s' a' := by
  induction d generalizing s t a with
  | done b =>
    obtain ⟨rfl, rfl, hmoved⟩ := h
    obtain ⟨a', hmoved', hR'⟩ := hsim.moved hR hmoved
    exact ⟨a', ⟨rfl, rfl, hmoved'⟩, hR'⟩
  | say w d ih =>
    obtain ⟨u, rfl, h⟩ := h
    obtain ⟨a', h', hR'⟩ := ih h hR
    exact ⟨a', ⟨u, rfl, h'⟩, hR'⟩
  | ask q k ih =>
    obtain ⟨s₁, y, s₂, hmoved, hserve, h⟩ := h
    obtain ⟨a₁, hmoved', hR₁⟩ := hsim.moved hR hmoved
    obtain ⟨a₂, hserve', hR₂⟩ := hsim.serves hR₁ hserve
    obtain ⟨a', h', hR'⟩ := ih y h hR₂
    exact ⟨a', ⟨a₁, y, a₂, hmoved', hserve', h'⟩, hR'⟩
  | halt => exact h.elim

end Simulate

-- a program can be long, and is only looked at through the lemmas above
attribute [irreducible] Talks

end Dialogue

import Mathlib.Data.List.Basic

/-!
# Runs of machines that take one input at a time

A program that is called with one input after the other, and keeps its state between the calls, is
a machine `step : ι → σ → ω × σ`: it answers every input and changes its state. Its answers to a
list of inputs are `Run.answers`, the state it is left in is `Run.final`, and both are computed
along the list, so that a run on given inputs can be evaluated.

What is proved of such a machine is a property of its steps, and `Run.Along` says that every step
of a run has it. A property of single steps is hardly ever enough: what makes a step right is the
state it finds, and that state is what the steps before it have left. So the rules of this file
carry an *invariant* of the state along the run, besides the property that is to be shown.

* `Run.Along.mono` goes one way: from a property `P` that the inputs are assumed to have, to a
  property `Q` of the steps.
* `Run.along_iff` goes both ways. Where the invariant holds, `P` is not only enough for `Q` but
  the weakest condition that is: a run has `Q` throughout exactly if it has `P` throughout. The
  invariant is kept by the steps that have `P`, so the direction from `Q` back to `P` is an
  induction as well, and no step may be looked at before the ones in front of it are known to be
  right.

The second part is about machines that can stop, `step : ι → σ → Option σ`. A run that stops comes
through no further state, and has nothing more to answer for; `Run.Throughout` speaks of the
states it did come through, and `Run.throughout_iff` is the rule that goes both ways for them.
-/

namespace Run

variable {σ ι ω : Type*} (step : ι → σ → ω × σ)

/-- The state a machine is left in. -/
def final : σ → List ι → σ
  | s, [] => s
  | s, i :: is => final (step i s).2 is

/-- The answers of a machine. -/
def answers : σ → List ι → List ω
  | _, [] => []
  | s, i :: is => (step i s).1 :: answers (step i s).2 is

@[simp] theorem final_nil (s : σ) : final step s [] = s := rfl

@[simp] theorem final_cons (s : σ) (i : ι) (is : List ι) :
    final step s (i :: is) = final step (step i s).2 is := rfl

@[simp] theorem answers_nil (s : σ) : answers step s [] = [] := rfl

@[simp] theorem answers_cons (s : σ) (i : ι) (is : List ι) :
    answers step s (i :: is) = (step i s).1 :: answers step (step i s).2 is := rfl

theorem final_append (s : σ) (is js : List ι) :
    final step s (is ++ js) = final step (final step s is) js := by
  induction is generalizing s with
  | nil => rfl
  | cons i is ih => exact ih _

theorem answers_append (s : σ) (is js : List ι) :
    answers step s (is ++ js) = answers step s is ++ answers step (final step s is) js := by
  induction is generalizing s with
  | nil => rfl
  | cons i is ih => simp only [List.cons_append, answers_cons, final_cons, ih]

/-- The last answer is the one the state before it gives. -/
theorem getLast?_answers_concat (s : σ) (is : List ι) (i : ι) :
    (answers step s (is ++ [i])).getLast? = some (step i (final step s is)).1 := by
  rw [answers_append]
  exact List.getLast?_concat

@[simp] theorem length_answers (s : σ) (is : List ι) :
    (answers step s is).length = is.length := by
  induction is generalizing s with
  | nil => rfl
  | cons i is ih => simp only [answers_cons, List.length_cons, ih]

/-- The answer to the input at a position is the answer the state before it gives. -/
theorem getElem?_answers (s : σ) (is : List ι) (k : ℕ) :
    (answers step s is)[k]? = is[k]?.map fun i => (step i (final step s (is.take k))).1 := by
  induction is generalizing s k with
  | nil => simp
  | cons i is ih =>
    cases k with
    | zero => simp
    | succ k => simpa using ih (step i s).2 k

theorem final_take_succ (s : σ) {is : List ι} {k : ℕ} {i : ι} (hi : is[k]? = some i) :
    final step s (is.take (k + 1)) = (step i (final step s (is.take k))).2 := by
  rw [List.take_add_one, hi, final_append]
  rfl

/-- Every step of a run has the property `P` of the state before it and the input. It is a
predicate on the run and not on its last state, so that what happened on the way is not forgotten.
-/
def Along (P : σ → ι → Prop) : σ → List ι → Prop
  | _, [] => True
  | s, i :: is => P s i ∧ Along P (step i s).2 is

instance decidableAlong (P : σ → ι → Prop) [∀ s i, Decidable (P s i)] :
    ∀ (s : σ) (is : List ι), Decidable (Along step P s is)
  | _, [] => .isTrue trivial
  | s, i :: is =>
    have := decidableAlong P (step i s).2 is
    inferInstanceAs (Decidable (P s i ∧ Along step P (step i s).2 is))

theorem along_append {P : σ → ι → Prop} {s : σ} {is js : List ι} :
    Along step P s (is ++ js) ↔ Along step P s is ∧ Along step P (final step s is) js := by
  induction is generalizing s with
  | nil => simp [Along]
  | cons i is ih => exact (and_congr_right fun _ => ih).trans and_assoc.symm

/-- An invariant of every step holds of the state a run is left in. -/
theorem final_induction {Inv : σ → Prop} (hstep : ∀ s i, Inv s → Inv (step i s).2) :
    ∀ (is : List ι) {s : σ}, Inv s → Inv (final step s is) := by
  intro is
  induction is with
  | nil => exact fun h => h
  | cons i is ih => exact fun h => ih (hstep _ i h)

/-- **The invariant rule**: an invariant that a step with the property `P` keeps, and that
gives the step the property `Q`, gives `Q` to every step of a run with `P`. -/
theorem Along.mono {Inv : σ → Prop} {P Q : σ → ι → Prop}
    (hstep : ∀ s i, Inv s → P s i → Inv (step i s).2 ∧ Q s i) :
    ∀ (is : List ι) {s : σ}, Inv s → Along step P s is → Along step Q s is := by
  intro is
  induction is with
  | nil => exact fun _ _ => trivial
  | cons i is ih =>
    rintro s hs ⟨hi, his⟩
    obtain ⟨hs', hq⟩ := hstep s i hs hi
    exact ⟨hq, ih hs' his⟩

/-- What an invariant of every step gives to a step, it gives to every step of a run. -/
theorem along_of_invariant (Inv : σ → Prop) {Q : σ → ι → Prop}
    (hstep : ∀ s i, Inv s → Inv (step i s).2 ∧ Q s i) :
    ∀ (is : List ι) {s : σ}, Inv s → Along step Q s is := by
  intro is
  induction is with
  | nil => exact fun _ => trivial
  | cons i is ih => exact fun h => ⟨(hstep _ i h).2, ih (hstep _ i h).1⟩

/-- **The invariant rule, both ways**: where the invariant holds, `P` is exactly what keeps a step
within `Q`. So a condition on the inputs that is found to be enough for a run to be right is also
found to be the weakest one. -/
theorem along_iff (Inv : σ → Prop) {P Q : σ → ι → Prop}
    (hstep : ∀ s i, Inv s → P s i → Inv (step i s).2 ∧ Q s i)
    (hexact : ∀ s i, Inv s → Q s i → P s i) (is : List ι) {s : σ} (hs : Inv s) :
    Along step Q s is ↔ Along step P s is := by
  refine ⟨Along.mono step (fun s i hi hq => ?_) is hs, Along.mono step hstep is hs⟩
  have hp : P s i := hexact s i hi hq
  exact ⟨(hstep s i hi hp).1, hp⟩

/-! ### Machines that can stop -/

section Partial

variable (step : ι → σ → Option σ)

/-- Every state a run comes through, from the first one on, has the property `P`. A run
that stops comes through no further state. -/
def Throughout (P : σ → Prop) : σ → List ι → Prop
  | s, [] => P s
  | s, i :: is => P s ∧ ∀ s' ∈ step i s, Throughout P s' is

/-- Every step of a run that does not stop there has the property `P` of the state before
it and the input. -/
def AlongSome (P : σ → ι → Prop) : σ → List ι → Prop
  | _, [] => True
  | s, i :: is => ∀ s' ∈ step i s, P s i ∧ AlongSome P s' is

theorem Throughout.first {step : ι → σ → Option σ} {P : σ → Prop} {s : σ} {is : List ι}
    (h : Throughout step P s is) : P s := by
  cases is with
  | nil => exact h
  | cons i is => exact h.1

/-- **The invariant rule for machines that can stop**: where the invariant holds, `C` is exactly
what keeps a step within `P`. The condition is asked for only of the steps that are taken, so a
run that stops is right if it was right up to there. -/
theorem throughout_iff (Inv : σ → Prop) {P : σ → Prop} {C : σ → ι → Prop}
    (hinv : ∀ s, Inv s → P s) (hstep : ∀ s i, Inv s → ∀ s' ∈ step i s, C s i → Inv s')
    (hexact : ∀ s i, Inv s → ∀ s' ∈ step i s, P s' → C s i) (is : List ι) :
    ∀ {s : σ}, Inv s → (Throughout step P s is ↔ AlongSome step C s is) := by
  induction is with
  | nil => exact fun h => iff_of_true (hinv _ h) trivial
  | cons i is ih =>
    intro s h
    refine ⟨fun hall s' hs' => ?_, fun hall => ⟨hinv s h, fun s' hs' => ?_⟩⟩
    · -- the next state has `P`, so the step had `C`
      have hC : C s i := hexact s i h s' hs' (hall.2 s' hs').first
      exact ⟨hC, (ih (hstep s i h s' hs' hC)).mp (hall.2 s' hs')⟩
    · obtain ⟨hC, hrest⟩ := hall s' hs'
      exact (ih (hstep s i h s' hs' hC)).mpr hrest

end Partial

end Run

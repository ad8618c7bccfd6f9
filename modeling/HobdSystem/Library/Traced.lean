import Mathlib.Data.List.Basic

/-!
# Programs that leave a trace

A `Traced ω α` is what a piece of a program does: the actions it takes, in their order, and its
result, which is missing where the program ends. Pieces are put together in `do` blocks, and so a
function of a program that acts on the world is written down as a function, with its actions where
the program has them.

Most of what one wants to know of such a program concerns the trace, and there are three ways to
say what a piece does without running it.

* `Traced.Takes` knows **everything**: the actions of the piece and what it comes to, unless the
  program ends on the way, and then it has taken the first of these actions. Whether it ends is
  often up to the world outside, and of no interest to a caller who goes on only if it does not.
  This is the form of a specification that every later statement can be read off, and it should be
  proved once for each function (`Traced.Takes.bind`, `Traced.Takes.induct`).
* `Traced.Emits` forgets the order: every action has some property, and the result another one.
* `Traced.Yields` is about pieces that go on, and what their actions come to as a whole.

A program that is fed one input after the other is a start and a step (`Traced.run`). For what it
has done after any number of inputs there is `Traced.run_induction`, with an invariant of the
trace *and* the state: the state of a program does not say what it did to come there. For the
moves it made there is `Traced.history_induction`, where a move is an input with the state it was
taken in. An invariant can be assumed to be kept only by moves that are right, and then the rules
are those of `Traced.run_of_history` and `Traced.forall_history`.

`Traced.Each` says of a trace that every action in it is right after the ones before it, and
`Traced.Since` speaks of what has been done since the last action of some kind.
-/

/-- The actions a piece of a program takes, and its result. The actions are kept also where the
program ends in the middle of it. -/
structure Traced (ω α : Type*) where
  trace : List ω
  /-- There is no result where the program ends. -/
  result : Option α

namespace Traced

section Monad

variable {ω α β : Type*}

/-- What `f` does follows what `x` did. -/
def andThen (x : Traced ω α) (f : α → Traced ω β) : Traced ω β :=
  match x.result with
  | none => ⟨x.trace, none⟩
  | some a => ⟨x.trace ++ (f a).trace, (f a).result⟩

instance : Monad (Traced ω) where
  pure a := ⟨[], some a⟩
  bind := andThen

/-- Take some actions. -/
def emit (as : List ω) : Traced ω Unit := ⟨as, some ()⟩

/-- Take no action, and end the program if there is no value. -/
def ofOption (x : Option α) : Traced ω α := ⟨[], x⟩

/-- What a piece does, under other names. -/
def mapTrace {ω' : Type*} (f : ω → ω') (x : Traced ω α) : Traced ω' α := ⟨x.trace.map f, x.result⟩

/-- End the program unless a condition holds. -/
def require (ok : Bool) : Traced ω Unit := ofOption (if ok then some () else none)

end Monad

section Bind

variable {ω α β : Type}

theorem pure_eq (a : α) : (pure a : Traced ω α) = ⟨[], some a⟩ := rfl

theorem bind_some {x : Traced ω α} {a : α} (f : α → Traced ω β) (h : x.result = some a) :
    x >>= f = ⟨x.trace ++ (f a).trace, (f a).result⟩ := by
  change andThen x f = _
  rw [andThen, h]

theorem bind_none {x : Traced ω α} (f : α → Traced ω β) (h : x.result = none) :
    x >>= f = ⟨x.trace, none⟩ := by
  change andThen x f = _
  rw [andThen, h]

/-- Without its actions a program is one that may have no result. -/
theorem result_bind (x : Traced ω α) (f : α → Traced ω β) :
    (x >>= f).result = x.result.bind fun a => (f a).result := by
  cases h : x.result with
  | none => rw [bind_none f h, Option.bind_none]
  | some a => rw [bind_some f h, Option.bind_some]

theorem bind_result_require (ok : Bool) (f : Unit → Option β) :
    (require ok : Traced ω Unit).result.bind f = if ok then f () else none := by
  cases ok <;> rfl

/-- What has been done stays done. -/
theorem trace_subset_bind (x : Traced ω α) (f : α → Traced ω β) :
    x.trace ⊆ (x >>= f).trace := by
  cases h : x.result with
  | none => rw [bind_none f h]; exact List.Subset.refl _
  | some a => rw [bind_some f h]; exact List.subset_append_left _ _

/-! A program is evaluated from the left by these. -/

@[simp] theorem mk_some_bind (t : List ω) (a : α) (f : α → Traced ω β) :
    (⟨t, some a⟩ : Traced ω α) >>= f = ⟨t ++ (f a).trace, (f a).result⟩ := rfl

@[simp] theorem mk_none_bind (t : List ω) (f : α → Traced ω β) :
    (⟨t, none⟩ : Traced ω α) >>= f = ⟨t, none⟩ := rfl

@[simp] theorem pure_bind (a : α) (f : α → Traced ω β) : pure a >>= f = f a := rfl

@[simp] theorem emit_bind (as : List ω) (f : Unit → Traced ω β) :
    emit as >>= f = ⟨as ++ (f ()).trace, (f ()).result⟩ := rfl

@[simp] theorem require_true_bind (f : Unit → Traced ω β) : require true >>= f = f () := rfl

@[simp] theorem require_false_bind (f : Unit → Traced ω β) :
    require false >>= f = ⟨[], none⟩ := rfl

@[simp] theorem trace_pure (a : α) : (pure a : Traced ω α).trace = [] := rfl

@[simp] theorem result_pure (a : α) : (pure a : Traced ω α).result = some a := rfl

/-! ### What a piece emits -/

/-- Every action has the property `P`, and the result, if there is one, the property `Q`. -/
def Emits (P : ω → Prop) (Q : α → Prop) (x : Traced ω α) : Prop :=
  (∀ a ∈ x.trace, P a) ∧ ∀ b ∈ x.result, Q b

variable {P : ω → Prop} {Q : α → Prop}

theorem emits_pure {a : α} (h : Q a) : Emits P Q (pure a) :=
  ⟨fun _ ha => absurd ha List.not_mem_nil, fun _ hb => Option.some.inj hb ▸ h⟩

/-- **The rule for sequences.** -/
theorem Emits.bind {R : β → Prop} {x : Traced ω α} {f : α → Traced ω β} (hx : Emits P Q x)
    (hf : ∀ a, Q a → Emits P R (f a)) : Emits P R (x >>= f) := by
  cases hres : x.result with
  | none =>
    rw [bind_none f hres]
    exact ⟨hx.1, by simp⟩
  | some a =>
    have hfa := hf a (hx.2 a hres)
    rw [bind_some f hres]
    exact ⟨List.forall_mem_append.mpr ⟨hx.1, hfa.1⟩, hfa.2⟩

/-! ### What a piece that goes on has done -/

/-- If there is a result, the actions and the result have the property `Q`. -/
def Yields (Q : List ω → α → Prop) (x : Traced ω α) : Prop := ∀ b ∈ x.result, Q x.trace b

theorem yields_pure {Q : List ω → α → Prop} {a : α} (h : Q [] a) : Yields Q (pure a) :=
  fun _ hb => Option.some.inj hb ▸ h

theorem yields_emit {Q : List ω → Unit → Prop} {as : List ω} (h : Q as ()) : Yields Q (emit as) :=
  fun _ _ => h

theorem yields_ofOption (x : Option α) :
    Yields (fun t a => t = ([] : List ω) ∧ x = some a) (ofOption x) :=
  fun _ hb => ⟨rfl, hb⟩

theorem Yields.mono {Q Q' : List ω → α → Prop} {x : Traced ω α} (h : Yields Q x)
    (hQ : ∀ t a, Q t a → Q' t a) : Yields Q' x :=
  fun b hb => hQ _ b (h b hb)

/-- **The rule for sequences**, with what has been done so far: the property of the second piece
speaks of the actions of both. -/
theorem Yields.bind {Q : List ω → α → Prop} {R : List ω → β → Prop} {x : Traced ω α}
    {f : α → Traced ω β} (hx : Yields Q x)
    (hf : ∀ t a, Q t a → Yields (fun u b => R (t ++ u) b) (f a)) : Yields R (x >>= f) := by
  cases hres : x.result with
  | none =>
    rw [bind_none f hres]
    exact fun _ hb => absurd hb nofun
  | some a =>
    rw [bind_some f hres]
    exact hf _ a (hx a hres)

/-! ### Pieces that are known in full -/

/-- **The piece `x` takes the actions `t` and comes to `o`, unless the program ends on the way**,
with the first of these actions taken and the others not. Where `o` is missing the program ends in
any case. -/
structure Takes (x : Traced ω α) (t : List ω) (o : Option α) : Prop where
  start : x.trace <+: t
  whole : ∀ b ∈ x.result, x.trace = t ∧ o = some b

theorem takes_pure (a : α) : Takes (pure a : Traced ω α) [] (some a) :=
  ⟨List.prefix_rfl, fun _ hb => ⟨rfl, hb⟩⟩

theorem takes_emit (as : List ω) : Takes (emit as) as (some ()) :=
  ⟨List.prefix_rfl, fun _ _ => ⟨rfl, rfl⟩⟩

theorem takes_ofOption {x o : Option α} (h : ∀ a ∈ x, o = some a) :
    Takes (ofOption x : Traced ω α) [] o :=
  ⟨List.prefix_rfl, fun _ hb => ⟨rfl, h _ hb⟩⟩

theorem takes_getD (x : Option α) (default : α) :
    Takes (ofOption x : Traced ω α) [] (some (x.getD default)) := by
  refine takes_ofOption fun a ha => ?_
  rw [show x = some a from ha, Option.getD_some]

theorem takes_some (a : α) : Takes (ofOption (some a) : Traced ω α) [] (some a) := takes_pure a

theorem takes_require (ok : Bool) : Takes (require ok : Traced ω Unit) [] (some ()) :=
  takes_ofOption fun _ _ => rfl

/-- **The rule for sequences.** Only the first piece has to come to something. -/
theorem Takes.bind {t u : List ω} {a : α} {o : Option β} {x : Traced ω α} {f : α → Traced ω β}
    (hx : Takes x t (some a)) (hf : Takes (f a) u o) : Takes (x >>= f) (t ++ u) o := by
  cases hres : x.result with
  | none =>
    rw [bind_none f hres]
    exact ⟨hx.start.trans (List.prefix_append t u), fun _ hb => absurd hb (by simp)⟩
  | some b =>
    obtain ⟨htrace, hb⟩ := hx.whole b hres
    obtain rfl := Option.some.inj hb
    rw [bind_some f hres, htrace]
    refine ⟨(List.prefix_append_right_inj t).mpr hf.start, fun c hc => ?_⟩
    obtain ⟨hu, ho⟩ := hf.whole c hc
    exact ⟨by rw [hu], ho⟩

/-- What holds of the whole, and of every part of it that the program may end after, holds of what
the piece does. -/
theorem Takes.induct (Inv : List ω → Option α → Prop) {x : Traced ω α} {t : List ω}
    {o : Option α} (h : Takes x t o) (hwhole : Inv t o) (hpart : ∀ u, u <+: t → Inv u none) :
    Inv x.trace x.result := by
  cases hres : x.result with
  | none => exact hpart x.trace h.start
  | some b =>
    obtain ⟨htrace, ho⟩ := h.whole b hres
    rw [htrace, ← ho]
    exact hwhole

theorem Takes.emits {x : Traced ω α} {t : List ω} {o : Option α} (h : Takes x t o)
    (hP : ∀ a ∈ t, P a) (hQ : ∀ b ∈ o, Q b) : Emits P Q x :=
  ⟨fun a ha => hP a (h.start.subset ha), fun b hb => hQ b (h.whole b hb).2⟩

end Bind

/-! ### Runs -/

section Run

variable {ω σ : Type} {ι : Type*} (step : ι → σ → Traced ω σ)

/-- What a program does from its start, fed one input after the other. Once it has ended it does
nothing more, whatever else it is fed. -/
def run (start : Traced ω σ) (is : List ι) : Traced ω σ :=
  is.foldl (fun x i => x >>= step i) start

@[simp] theorem run_nil (start : Traced ω σ) : run step start [] = start := rfl

@[simp] theorem run_cons (start : Traced ω σ) (i : ι) (is : List ι) :
    run step start (i :: is) = run step (start >>= step i) is := rfl

/-- **The invariant rule**: what a step keeps of the trace so far and the state holds after every
run. A step in which the program ends has to keep it as well, without a state. -/
theorem run_induction {Inv : List ω → Option σ → Prop}
    (hstep : ∀ t s i, Inv t (some s) → Inv (t ++ (step i s).trace) (step i s).result) :
    ∀ (is : List ι) {start : Traced ω σ}, Inv start.trace start.result →
      Inv (run step start is).trace (run step start is).result := by
  intro is
  induction is with
  | nil => exact fun h => h
  | cons i is ih =>
    intro start h
    refine ih ?_
    change Inv (start >>= step i).trace (start >>= step i).result
    cases hres : start.result with
    | none =>
      rw [bind_none _ hres]
      exact hres ▸ h
    | some s =>
      rw [bind_some _ hres]
      exact hstep _ _ _ (hres ▸ h)

/-- A program that has ended does nothing. -/
theorem run_ended (t : List ω) (is : List ι) : run step ⟨t, none⟩ is = ⟨t, none⟩ := by
  induction is with
  | nil => rfl
  | cons i is ih => exact ih

/-- What has been done before stays in front of the trace. -/
theorem run_mk_some (t : List ω) (s : σ) (is : List ι) :
    run step ⟨t, some s⟩ is =
      ⟨t ++ (run step (pure s) is).trace, (run step (pure s) is).result⟩ := by
  induction is generalizing t s with
  | nil => exact congrArg (Traced.mk · _) (List.append_nil t).symm
  | cons i is ih =>
    rw [run_cons, run_cons, mk_some_bind, pure_bind]
    obtain ⟨u, _ | s'⟩ := step i s
    · rw [run_ended, run_ended]
    · rw [ih, ih u, List.append_assoc]

/-- A program that has ended stays ended. -/
theorem run_of_ended (is : List ι) {start : Traced ω σ} (h : start.result = none) :
    (run step start is).result = none := by
  induction is generalizing start with
  | nil => exact h
  | cons i is ih =>
    refine ih ?_
    change (start >>= step i).result = none
    rw [bind_none _ h]

/-- Without its actions a run is one of the steps without theirs. -/
theorem result_run {next : ι → σ → Option σ} (hstep : ∀ i s, (step i s).result = next i s)
    (is : List ι) (start : Traced ω σ) :
    (run step start is).result = start.result.bind fun s => is.foldlM (fun s i => next i s) s := by
  induction is generalizing start with
  | nil => exact (Option.bind_fun_some start.result).symm
  | cons i is ih =>
    rw [run_cons, ih, result_bind, Option.bind_assoc]
    refine Option.bind_congr fun s _ => ?_
    rw [hstep]
    rfl

/-- The moves of a run: the states that a step is taken in, each with the input of the step. From
them one can tell what was done and read on the way, which the last state alone does not say. -/
def history : Traced ω σ → List ι → List (σ × ι)
  | _, [] => []
  | x, i :: is =>
    match x.result with
    | none => []
    | some s => (s, i) :: history (x >>= step i) is

/-- **The invariant rule for histories**: what a step that goes on keeps of the moves so far and
the state holds after every run. -/
theorem history_induction (Inv : List (σ × ι) → σ → Prop)
    (hstep : ∀ h s i s', Inv h s → (step i s).result = some s' → Inv (h ++ [(s, i)]) s') :
    ∀ (is : List ι) (start : Traced ω σ) (before : List (σ × ι)),
      (∀ s, start.result = some s → Inv before s) →
      ∀ s, (run step start is).result = some s → Inv (before ++ history step start is) s := by
  intro is
  induction is with
  | nil =>
    intro start before h s hs
    rw [history, List.append_nil]
    exact h s hs
  | cons i is ih =>
    intro start before h s hs
    replace hs : (run step (start >>= step i) is).result = some s := hs
    cases hres : start.result with
    | none =>
      rw [run_of_ended step is (by rw [bind_none _ hres])] at hs
      exact absurd hs nofun
    | some s₀ =>
      have hnext : ∀ s', (start >>= step i).result = some s' → Inv (before ++ [(s₀, i)]) s' := by
        intro s' hs'
        rw [bind_some _ hres] at hs'
        exact hstep _ _ _ _ (h s₀ hres) hs'
      rw [history, hres, List.append_cons]
      exact ih _ _ hnext s hs

/-- **The invariant rule for runs whose moves are all right**: if a step from there goes on and
keeps the invariant, so does the run. -/
theorem run_of_history (Inv : List ω → σ → Prop) {ok : σ × ι → Prop}
    (hstep : ∀ t s i, Inv t s → ok (s, i) →
      ∃ s', (step i s).result = some s' ∧ Inv (t ++ (step i s).trace) s') :
    ∀ (is : List ι) (start : Traced ω σ) (s : σ), start.result = some s → Inv start.trace s →
      (∀ m ∈ history step start is, ok m) →
      ∃ s', (run step start is).result = some s' ∧ Inv (run step start is).trace s' := by
  intro is
  induction is with
  | nil => exact fun start s hs h _ => ⟨s, hs, h⟩
  | cons i is ih =>
    intro start s hs h hok
    rw [history, hs, List.forall_mem_cons] at hok
    obtain ⟨s', hs', h'⟩ := hstep _ s i h hok.1
    have hbind := bind_some (step i) hs
    exact ih (start >>= step i) s' (by rw [hbind]; exact hs') (by rw [hbind]; exact h') hok.2

/-- **The invariant rule for the states of a history**: what a step that is right keeps holds in
every state that a step is taken in. -/
theorem forall_history (Inv : σ → Prop) {ok : σ × ι → Prop}
    (hstep : ∀ s i s', Inv s → ok (s, i) → (step i s).result = some s' → Inv s') :
    ∀ (is : List ι) (start : Traced ω σ), (∀ s, start.result = some s → Inv s) →
      (∀ m ∈ history step start is, ok m) → ∀ m ∈ history step start is, Inv m.1 := by
  intro is
  induction is with
  | nil => exact fun _ _ _ m hm => absurd hm List.not_mem_nil
  | cons i is ih =>
    intro start hstart hok m hm
    cases hres : start.result with
    | none =>
      rw [history, hres] at hm
      exact absurd hm List.not_mem_nil
    | some s =>
      rw [history, hres, List.forall_mem_cons] at hok
      rw [history, hres] at hm
      rcases List.mem_cons.mp hm with rfl | hm
      · exact hstart s hres
      · refine ih (start >>= step i) (fun s' hs' => ?_) hok.2 m hm
        rw [bind_some _ hres] at hs'
        exact hstep s i s' (hstart s hres) hok.1 hs'

/-- A move is made by one of the inputs. -/
theorem mem_of_history {m : σ × ι} (is : List ι) :
    ∀ {start : Traced ω σ}, m ∈ history step start is → m.2 ∈ is := by
  induction is with
  | nil => exact fun hm => absurd hm List.not_mem_nil
  | cons i is ih =>
    intro start hm
    rw [history] at hm
    split at hm
    · exact absurd hm List.not_mem_nil
    · rcases List.mem_cons.mp hm with rfl | hm
      · exact List.mem_cons_self
      · exact List.mem_cons_of_mem _ (ih hm)

/-- What is done in a run is done at its start or in one of its moves. -/
theorem mem_trace_run_iff {a : ω} (is : List ι) : ∀ {start : Traced ω σ},
    a ∈ (run step start is).trace ↔
      a ∈ start.trace ∨ ∃ m ∈ history step start is, a ∈ (step m.2 m.1).trace := by
  induction is with
  | nil =>
    intro start
    rw [run_nil, history]
    simp
  | cons i is ih =>
    intro start
    rw [run_cons, ih]
    cases hres : start.result with
    | none =>
      have hnil : ∀ js, history step (start >>= step i) js = [] := by
        intro js
        cases js with
        | nil => rfl
        | cons j js => rw [history, bind_none _ hres]
      rw [hnil, bind_none _ hres, history, hres]
    | some s =>
      rw [history, hres, bind_some _ hres, List.exists_mem_cons_iff, List.mem_append, or_assoc]

theorem run_append (start : Traced ω σ) (is js : List ι) :
    run step start (is ++ js) = run step (run step start is) js := List.foldl_append ..

theorem run_concat {start : Traced ω σ} {is : List ι} {i : ι} {s : σ}
    (h : (run step start is).result = some s) :
    run step start (is ++ [i]) =
      ⟨(run step start is).trace ++ (step i s).trace, (step i s).result⟩ := by
  have hrun : run step start (is ++ [i]) = run step start is >>= step i := List.foldl_concat ..
  rw [hrun, bind_some _ h]

end Run

/-! ### Actions and the ones before them -/

section Each

variable {ω : Type*} {p : List ω → ω → Prop}

/-- Every action of a trace is right, given the actions before it. Most rules about the order of
actions have this form: none of one kind without one of another kind before it. -/
def Each (p : List ω → ω → Prop) (t : List ω) : Prop :=
  ∀ before a after, t = before ++ a :: after → p before a

theorem each_of_forall {t : List ω} (h : ∀ before, ∀ a ∈ t, p before a) : Each p t := by
  rintro before a after rfl
  exact h before a (by simp)

theorem Each.append {t u : List ω} (ht : Each p t)
    (hu : Each (fun before => p (t ++ before)) u) : Each p (t ++ u) := by
  intro before a after heq
  rcases List.append_eq_append_iff.mp heq with ⟨as, rfl, has⟩ | ⟨bs, hbs, has⟩
  · exact hu as a after has
  · -- the action is in `t`, or it is the first of `u`
    cases bs with
    | nil =>
      rw [List.append_nil] at hbs
      have h : p (t ++ []) a := hu [] a after (by simpa using has.symm)
      rwa [List.append_nil, hbs] at h
    | cons b bs =>
      obtain ⟨rfl, rfl⟩ := List.cons.inj has
      exact ht before a bs hbs

theorem Each.of_append {t u : List ω} (h : Each p (t ++ u)) : Each p t := by
  rintro before a after rfl
  exact h before a (after ++ u) (by simp)

/-- The part of a trace since the last mark, which there is, has the property `P`. Marks are
actions that start something over, and what was done before the last of them no longer counts. -/
def Since (isMark : ω → Bool) (P : List ω → Prop) (t : List ω) : Prop :=
  ∃ before m since, t = before ++ m :: since ∧ isMark m = true ∧
    (∀ a ∈ since, isMark a = false) ∧ P since

theorem Since.append {isMark : ω → Bool} {P Q : List ω → Prop} {t u : List ω}
    (h : Since isMark P t) (hu : ∀ a ∈ u, isMark a = false)
    (hPQ : ∀ since, P since → Q (since ++ u)) : Since isMark Q (t ++ u) := by
  obtain ⟨before, m, since, rfl, hm, hsince, hP⟩ := h
  exact ⟨before, m, since ++ u, by simp, hm, List.forall_mem_append.mpr ⟨hsince, hu⟩,
    hPQ since hP⟩

end Each

end Traced

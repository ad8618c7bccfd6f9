import HobdSystem.Console.Lines
import HobdSystem.System.Threads

/-!
# The console does what its skeleton says

The skeleton of the console in `HobdSystem.systemNet` was written down next to the source, command
by command. Here it is compared with the model of `console_exec`, so that the absence of deadlocks,
which is a fact about the skeletons, is one about the console.

## What is compared

Only what concerns the other threads: the mutex that is taken for the time, and the calls, in their
order (`HobdSystem.ConsoleQuery.acts`). What a call is answered with is left open on the side of the
skeleton, which may go on in any way it has; on the side of the model it is left open by a world
that answers anything and takes down what it was asked (`HobdSystem.recorder`).

Which questions a line asks has been settled, for any world, by `HobdSystem.talks_perform`. So there
is nothing to walk through here but the lines themselves: for each of them the questions are read
off `HobdSystem.ConsoleLine.Prints` and found in the skeleton
(`HobdSystem.ConsoleLine.Prints.does`).

## Rounds

`console_thread_fn` is woken up for each character, and hands it to the line editor, which calls
`console_exec` when a line has ended. The line editor is a library and not modelled: which of the
rounds end a line, and with what words, is left open (`HobdSystem.ConsoleRound`). **Whatever rounds
there are, the console makes its calls in an order in which its skeleton does**
(`HobdSystem.console_conforms`).
-/

namespace HobdSystem

open Blocking Dialogue

/-! ### What is asked -/

/-- A world that answers anything, and takes down what it is asked. -/
def recorder : World ConsoleQuery.Answer (List ConsoleQuery) where
  moves _ _ := False
  serves q _ qs qs' := qs' = qs ++ [q]

/-- What a query is to the other threads. The scheduler is dumped by the kernel. -/
def ConsoleQuery.acts : ConsoleQuery → List (Act Mutex Message)
  | .getTime => tmActs
  | .mmc q => [.call (.mmc q)]
  | .hobd q => [.call (.hobd q)]
  | .dumpScheduler => []

section Recorder

variable {qs qs' : List ConsoleQuery}

theorem moved_recorder : recorder.Moved qs qs' ↔ qs' = qs :=
  World.moved_iff_eq fun _ _ => id

theorem asked_recorder {q : ConsoleQuery} {x : q.Answer} :
    recorder.Asked q x qs qs' ↔ qs' = qs ++ [q] := by
  constructor
  · rintro ⟨qs₁, qs₂, hmoved, hserve, hmoved'⟩
    obtain rfl := moved_recorder.mp hmoved
    obtain rfl := moved_recorder.mp hmoved'
    exact hserve
  · intro h
    exact ⟨qs, qs', .refl, h, .refl⟩

end Recorder

/-! ### Lines -/

section Lines

variable {cfg : ConsoleConfig} {line : ConsoleLine} {t : List Char} {asked : List ConsoleQuery}

/-- **The questions of a line are among those of the skeleton**, in the order in which they are
asked. -/
theorem ConsoleLine.Prints.does (h : line.Prints cfg recorder t [] asked) :
    Does systemNet .console Skeleton.consoleExec (asked.flatMap ConsoleQuery.acts) := by
  -- a line that asks nothing, and one that is a command of its own
  have hnothing : recorder.Moved [] asked →
      Does systemNet .console Skeleton.consoleExec (asked.flatMap ConsoleQuery.acts) := by
    intro hmoved
    rw [moved_recorder.mp hmoved]
    exact does_skip.right.right
  have hsubcmd : ∀ {qs}, asked = qs →
      Does systemNet .console Skeleton.handleCliSubcmd (qs.flatMap ConsoleQuery.acts) →
      Does systemNet .console Skeleton.consoleExec (asked.flatMap ConsoleQuery.acts) := by
    rintro qs rfl hdoes
    exact hdoes.left.right
  cases line with
  | unknown word => exact hnothing h.1
  | invalid => exact hnothing h.1
  | help => exact hnothing h.1
  | version => exact hnothing h.1
  | clear => exact hnothing h.1
  | time =>
    obtain ⟨now, hasked, -⟩ := h
    obtain rfl := asked_recorder.mp hasked
    exact (does_tm _).left.left
  | info =>
    obtain ⟨_, _, _, _, _, _, _, _, _, h₁, h₂, h₃, h₄, h₅, -⟩ := h
    obtain rfl := asked_recorder.mp h₁
    obtain rfl := asked_recorder.mp h₂
    obtain rfl := asked_recorder.mp h₃
    obtain rfl := asked_recorder.mp h₄
    obtain rfl := asked_recorder.mp h₅
    refine Does.left (Does.right (Does.left ?_))
    exact (does_call _).seq ((does_call _).seq ((does_call _).seq
      ((does_call _).seq (does_call _))))
  | debugScheduler =>
    simp only [ConsoleLine.Prints] at h
    split_ifs at h
    · obtain rfl := asked_recorder.mp h.1
      exact does_skip.right.right
    · exact hnothing h.1
  | mmc kind =>
    cases kind with
    | on =>
      obtain ⟨_, hasked, -⟩ := h
      exact hsubcmd (asked_recorder.mp hasked) (does_call _).left
    | off =>
      obtain ⟨_, hasked, -⟩ := h
      exact hsubcmd (asked_recorder.mp hasked) (does_call _).left.right
    | status =>
      obtain ⟨_, hasked, -⟩ := h
      exact hsubcmd (asked_recorder.mp hasked) (does_call _).left.right.right
    | fileSize =>
      obtain ⟨_, hasked, -⟩ := h
      exact hsubcmd (asked_recorder.mp hasked) (does_call _).left.right.right.right
    | rm =>
      obtain ⟨_, hasked, -⟩ := h
      exact hsubcmd (asked_recorder.mp hasked) (does_call _).left.right.right.right.right
  | hobd kind =>
    -- the five commands of the log come first
    cases kind with
    | on =>
      obtain ⟨_, hasked, -⟩ := h
      exact hsubcmd (asked_recorder.mp hasked) (does_call _).left.right.right.right.right.right
    | off =>
      obtain ⟨_, hasked, -⟩ := h
      exact hsubcmd (asked_recorder.mp hasked)
        (does_call _).left.right.right.right.right.right.right
    | status =>
      obtain ⟨_, _, _, h₁, h₂, -⟩ := h
      obtain rfl := asked_recorder.mp h₁
      exact hsubcmd (asked_recorder.mp h₂)
        (Does.left ((does_call _).seq (does_call _))).right.right.right.right.right.right.right
    | passive =>
      obtain ⟨old, _, _, h₁, h₂, -⟩ := h
      obtain rfl := asked_recorder.mp h₁
      obtain rfl := asked_recorder.mp h₂
      have hset : Does systemNet .console
          (.choice (.call (.hobd (.setListenOnly 1))) (.call (.hobd (.setListenOnly 0))))
          [.call (.hobd (.setListenOnly (if old = 0 then 1 else 0)))] := by
        split_ifs
        · exact (does_call _).left
        · exact (does_call _).right
      exact hsubcmd rfl
        (Does.left ((does_call _).seq hset)).right.right.right.right.right.right.right.right

/-- What is done for the words that were typed in. -/
theorem does_of_talks {argv : List (Option String)}
    (h : (consoleExec cfg argv).Talks recorder [] t () asked) :
    Does systemNet .console Skeleton.consoleExec (asked.flatMap ConsoleQuery.acts) := by
  rcases argv with _ | ⟨_ | word, words⟩
  · obtain ⟨-, -, hmoved⟩ := talks_pure.mp h
    rw [moved_recorder.mp hmoved]
    exact does_skip.right.right
  · exact (talks_halt.mp h).elim
  · obtain ⟨u, -, hprints⟩ := talks_consoleExec.mp h
    exact hprints.does

end Lines

/-! ### Rounds -/

/-- A line that was typed in, what was printed and what the console has asked for. -/
structure AskedLine where
  argv : List (Option String)
  printed : List Char
  asked : List ConsoleQuery

/-- A round of the loop of `console_thread_fn`, from one interrupt to the next. -/
inductive ConsoleRound where
  /-- There is no character, or one that does not end a line. -/
  | noLine
  /-- The character ends a line, and `console_exec` is called. -/
  | line (l : AskedLine)

/-- What a round is to the other threads. -/
def ConsoleRound.acts : ConsoleRound → List (Act Mutex Message)
  | .noLine => [.got .uartIrq]
  | .line l => .got .uartIrq :: l.asked.flatMap ConsoleQuery.acts

/-- **The rounds of the console are rounds of its skeleton.** Whatever characters come in, whatever
lines they make and whatever is answered: each time `console_exec` is called, the console makes its
calls in an order in which its skeleton does. -/
theorem console_conforms (cfg : ConsoleConfig) (rounds : List ConsoleRound)
    (h : ∀ l, .line l ∈ rounds →
      (consoleExec cfg l.argv).Talks recorder [] l.printed () l.asked) :
    Performs systemNet .console [.run (systemNet.start .console)]
      (rounds.flatMap ConsoleRound.acts) atRecv := by
  have hround : ∀ r ∈ rounds, Performs systemNet .console atRecv r.acts atRecv := by
    intro r hr
    cases r with
    | noLine => exact performs_round rfl rfl does_skip.right
    | line l => exact performs_round rfl rfl (does_of_talks (h l hr)).left
  have hrounds : ∀ rs ⊆ rounds,
      Performs systemNet .console atRecv (rs.flatMap ConsoleRound.acts) atRecv := by
    intro rs hrs
    induction rs with
    | nil => exact .nil _
    | cons r rs ih =>
      rw [List.flatMap_cons]
      exact (hround r (hrs List.mem_cons_self)).trans
        (ih fun r hr => hrs (List.mem_cons_of_mem _ hr))
  exact (performs_atRecv rfl does_skip).trans (hrounds rounds fun _ hr => hr)

/-- The line `mmc status`, on a log that is on. -/
def statusLine : AskedLine :=
  ⟨[some "mmc", some "status"], "\nMMC status: 1\n".toList, [.mmc .getState]⟩

theorem talks_statusLine (cfg : ConsoleConfig) :
    (consoleExec cfg statusLine.argv).Talks recorder [] statusLine.printed () statusLine.asked :=
  talks_consoleExec.mpr ⟨"MMC status: 1\n".toList, rfl, (1 : UInt32), asked_recorder.mpr rfl, rfl⟩

/-- The line is typed in, twice, and the characters before its end are received one at a time. -/
theorem console_conforms_status :
    Performs systemNet .console [.run (systemNet.start .console)]
      [.got .uartIrq, .got .uartIrq, .call (.mmc .getState), .got .uartIrq, .got .uartIrq,
        .call (.mmc .getState)] atRecv :=
  console_conforms ⟨"master", "1", true⟩
    [.noLine, .line statusLine, .noLine, .line statusLine] (by simp [talks_statusLine])

end HobdSystem

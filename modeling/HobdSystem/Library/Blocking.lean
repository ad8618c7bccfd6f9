import HobdSystem.Library.Traced
import Mathlib.Logic.Function.Basic
import Mathlib.Logic.Relation
import Mathlib.Order.WellFounded

/-!
# Threads that wait for each other

Threads that take locks and send messages, with all else forgotten: `Blocking.Prog` is what a piece
of a program does as far as it can make a thread wait. A condition that is not known is a choice,
and a loop goes round any number of times. Messages are as in a kernel with synchronous endpoints: a
thread that sends waits until the owner of the message receives, a call waits for the reply on top
of that, and a message that is sent without waiting reaches its owner only if that is waiting for
one. A thread that receives gives up the right to reply to the call before.

A `Blocking.Net` is the programs of all the threads, and `Blocking.Step` what one of them can do
next, in any order. Interrupts come from outside, when they like. A thread may fault wherever it is
not waiting for a reply: it does nothing more from then on, keeps the locks it has and leaves the
call it has received without a reply, and the kernel has a message for whoever handles faults.

The threads cannot deadlock if locks and threads have ranks such that whoever has a lock, or is
there to receive messages, waits only for what is below it, receives nothing while it has a lock,
and answers every call before it receives again. All of this can be read off the programs
(`Blocking.Ranking`). **Then in every state that is reached a thread waits for a message, or is
waiting, at the end of a chain of threads, for one that can go on or has faulted**
(`Blocking.exists_canStep_of_reachable`). The difficulty is in the replies: that whoever waits for
one will get it is not a matter of ranks, and needs an invariant about what a thread has left to do
before it receives again (`Blocking.Answers`).

The last part is about single threads: what a thread performs on its own (`Blocking.Performs`), with
one rule for each way to put programs together, so that the trace of a more detailed model of the
thread can be compared with its program here (`Blocking.Follows`).
-/

namespace Blocking

/-! ### Programs -/

/-- What a piece of a program does to locks `L` and with messages `M`. Data and conditions are
left out: where the program goes on in one of two ways, both are possible. -/
inductive Prog (L M : Type*) where
  | skip
  | seq (p q : Prog L M)
  /-- One of the two. -/
  | choice (p q : Prog L M)
  /-- Any number of times. -/
  | star (p : Prog L M)
  /-- With a lock, which is given back afterwards. -/
  | hold (l : L) (p : Prog L M)
  /-- Send a message, and wait until it is received. -/
  | send (m : M)
  /-- Send a message, which is lost if nobody waits for it. -/
  | nbSend (m : M)
  /-- Send a message, and wait until it is answered. -/
  | call (m : M)
  /-- Answer the last call that was received, if there is one. -/
  | reply
  /-- Receive a message, and handle it. It is waited for if there is none, or not. -/
  | recv (blocking : Bool)

/-- What a thread has left to do, the next first. -/
inductive Item (L M : Type*) where
  | run (p : Prog L M)
  | release (l : L)

/-- What a thread does that concerns others. The steps of a skeleton that are not among these are
its own. -/
inductive Act (L M : Type*) where
  | lock (l : L)
  | unlock (l : L)
  | send (m : M)
  | nbSend (m : M)
  | call (m : M)
  | reply
  | got (m : M)
  /-- There was no message. -/
  | gotNothing

/-- The message an action sends. -/
def Act.sent {L M : Type*} : Act L M → Option M
  | .send m | .nbSend m | .call m => some m
  | .lock _ | .unlock _ | .reply | .got _ | .gotNothing => none

/-- The threads `ι`, each with what it does at first and then over and over again. -/
structure Net (ι L M : Type*) where
  start : ι → Prog L M
  body : ι → Prog L M
  /-- What is done with a message. -/
  handler : M → Prog L M
  /-- Who receives a message. -/
  owner : M → ι
  /-- A message that is not sent by a thread, such as an interrupt. -/
  outside : M → Bool
  /-- A message the kernel has for a thread that has faulted. -/
  fault : M → Bool

section Semantics

variable {ι L M : Type*}

/-- What a thread can do next, if the others let it. -/
inductive Local (N : Net ι L M) (i : ι) :
    List (Item L M) → Option (Act L M) → List (Item L M) → Prop
  | again : Local N i [] none [.run (N.body i)]
  | skip (k) : Local N i (.run .skip :: k) none k
  | seq (p q k) : Local N i (.run (.seq p q) :: k) none (.run p :: .run q :: k)
  | left (p q k) : Local N i (.run (.choice p q) :: k) none (.run p :: k)
  | right (p q k) : Local N i (.run (.choice p q) :: k) none (.run q :: k)
  | stop (p k) : Local N i (.run (.star p) :: k) none k
  | more (p k) : Local N i (.run (.star p) :: k) none (.run p :: .run (.star p) :: k)
  | lock (l p k) : Local N i (.run (.hold l p) :: k) (some (.lock l)) (.run p :: .release l :: k)
  | unlock (l k) : Local N i (.release l :: k) (some (.unlock l)) k
  | send (m k) : Local N i (.run (.send m) :: k) (some (.send m)) k
  | nbSend (m k) : Local N i (.run (.nbSend m) :: k) (some (.nbSend m)) k
  | call (m k) : Local N i (.run (.call m) :: k) (some (.call m)) k
  | reply (k) : Local N i (.run .reply :: k) (some .reply) k
  | got (b m k) (howner : N.owner m = i) :
    Local N i (.run (.recv b) :: k) (some (.got m)) (.run (N.handler m) :: k)
  | gotNothing (k) : Local N i (.run (.recv false) :: k) (some .gotNothing) k

/-- What a thread does until it has something else left to do. That it found no message is not
part of it. -/
inductive Performs (N : Net ι L M) (i : ι) :
    List (Item L M) → List (Act L M) → List (Item L M) → Prop
  | nil (k) : Performs N i k [] k
  | tau {k k' k'' as} (hl : Local N i k none k') (h : Performs N i k' as k'') :
    Performs N i k as k''
  | poll {k k' k'' as} (hl : Local N i k (some .gotNothing) k') (h : Performs N i k' as k'') :
    Performs N i k as k''
  | act {k k' k'' a as} (hl : Local N i k (some a) k') (h : Performs N i k' as k'') :
    Performs N i k (a :: as) k''

/-- Whether a thread goes on. -/
inductive Life where
  | running
  /-- The thread has faulted, and the message about it has not been received. -/
  | faulting
  /-- The message has been received, and nobody replies to it. -/
  | stopped
  deriving DecidableEq

/-- A state of all the threads. -/
structure State (ι L M : Type*) where
  stack : ι → List (Item L M)
  /-- Who has a lock. -/
  holder : L → Option ι
  /-- Whose call a thread may reply to. -/
  client : ι → Option ι
  /-- Whose reply a thread waits for. -/
  server : ι → Option ι
  life : ι → Life

namespace State

variable (s : State ι L M)

/-- A thread has not faulted, and does not wait for a reply. -/
def Free (t : ι) : Prop := s.server t = none ∧ s.life t = .running

/-- A thread waits for a message. -/
def Waiting (t : ι) : Prop := s.Free t ∧ ∃ k, s.stack t = .run (.recv true) :: k

variable [DecidableEq ι]

/-- A thread has something else left to do. -/
def put (i : ι) (k : List (Item L M)) : State ι L M :=
  { s with stack := Function.update s.stack i k }

/-- A thread has no call to reply to. -/
def dropClient (t : ι) : State ι L M := { s with client := Function.update s.client t none }

/-- A thread waits for the reply of another. -/
def pair (i t : ι) : State ι L M :=
  { s with
    client := Function.update s.client t (some i), server := Function.update s.server i (some t) }

/-- A thread is replied to. -/
def unpair (i t : ι) : State ι L M :=
  { s with
    client := Function.update s.client t none, server := Function.update s.server i none }

/-- A thread has faulted, or the message about it has been received. -/
def setLife (i : ι) (x : Life) : State ι L M := { s with life := Function.update s.life i x }

/-- A lock changes hands. -/
def setHolder [DecidableEq L] (l : L) (i : Option ι) : State ι L M :=
  { s with holder := Function.update s.holder l i }

end State

/-- Nothing has been done. -/
def Net.init (N : Net ι L M) : State ι L M where
  stack i := [.run (N.start i)]
  holder _ := none
  client _ := none
  server _ := none
  life _ := .running

variable [DecidableEq ι] [DecidableEq L]

/-- One step of a thread, or of two if a message is received, or of nobody if it is from outside
or a thread faults. A message is received by the step of its owner, or by that of the sender if
the owner waits. Where a thread stands in front of a system call it is open whether it has made
it, so that a message may be lost and a thread may find none whatever the others are about to do. -/
inductive Step (N : Net ι L M) (s : State ι L M) : Option ι → State ι L M → Prop
  | tau {i k} (hi : s.Free i) (hl : Local N i (s.stack i) none k) :
    Step N s (some i) (s.put i k)
  | lock {i l k} (hi : s.Free i) (hl : Local N i (s.stack i) (some (.lock l)) k)
    (hfree : s.holder l = none) : Step N s (some i) ((s.put i k).setHolder l (some i))
  | unlock {i l k} (hi : s.Free i) (hl : Local N i (s.stack i) (some (.unlock l)) k) :
    Step N s (some i) ((s.put i k).setHolder l none)
  | send {i t m k k' who} (hi : s.Free i) (ht : s.Free t)
    (hl : Local N i (s.stack i) (some (.send m)) k) (hl' : Local N t (s.stack t) (some (.got m)) k')
    (hwho : who = t ∨ who = i ∧ s.Waiting t) :
    Step N s (some who) (((s.put i k).put t k').dropClient t)
  | call {i t m k k' who} (hi : s.Free i) (ht : s.Free t)
    (hl : Local N i (s.stack i) (some (.call m)) k) (hl' : Local N t (s.stack t) (some (.got m)) k')
    (hwho : who = t ∨ who = i ∧ s.Waiting t) : Step N s (some who) (((s.put i k).put t k').pair i t)
  | nbSend {i t m k k'} (hi : s.Free i) (ht : s.Waiting t)
    (hl : Local N i (s.stack i) (some (.nbSend m)) k)
    (hl' : Local N t (s.stack t) (some (.got m)) k') :
    Step N s (some i) (((s.put i k).put t k').dropClient t)
  | lost {i m k} (hi : s.Free i) (hl : Local N i (s.stack i) (some (.nbSend m)) k) :
    Step N s (some i) (s.put i k)
  | poll {i k} (hi : s.Free i) (hl : Local N i (s.stack i) (some .gotNothing) k) :
    Step N s (some i) ((s.put i k).dropClient i)
  | reply {i j k} (hi : s.Free i) (hl : Local N i (s.stack i) (some .reply) k)
    (hj : s.client i = some j) : Step N s (some i) ((s.unpair j i).put i k)
  | replyNobody {i k} (hi : s.Free i) (hl : Local N i (s.stack i) (some .reply) k)
    (hj : s.client i = none) : Step N s (some i) (s.put i k)
  | outside {t m k} (ht : s.Free t) (hl : Local N t (s.stack t) (some (.got m)) k)
    (hm : N.outside m = true) : Step N s none ((s.put t k).dropClient t)
  | fault {i} (hi : s.Free i) : Step N s none (s.setLife i .faulting)
  | faultReceived {i t m k} (hi : s.life i = .faulting) (ht : s.Free t)
    (hl : Local N t (s.stack t) (some (.got m)) k) (hm : N.fault m = true) :
    Step N s none (((s.setLife i .stopped).put t k).dropClient t)

/-- A state that the threads can come to. -/
def Reachable (N : Net ι L M) : State ι L M → Prop :=
  Relation.ReflTransGen (fun s s' => ∃ who, Step N s who s') N.init

/-- A thread can go on. That it can fault does not count, nor does a message from outside that it
could be given. -/
def CanStep (N : Net ι L M) (s : State ι L M) (i : ι) : Prop := ∃ s', Step N s (some i) s'

omit [DecidableEq ι] [DecidableEq L] in
/-- A thread waits for another: for a lock it has, for it to receive, or for its reply. -/
inductive Waits (N : Net ι L M) (s : State ι L M) : ι → ι → Prop
  | lock {i t l p k} (hi : s.Free i) (hk : s.stack i = .run (.hold l p) :: k)
    (ht : s.holder l = some t) : Waits N s i t
  | send {i m k} (hi : s.Free i) (hk : s.stack i = .run (.send m) :: k)
    (ht : ¬s.Waiting (N.owner m)) : Waits N s i (N.owner m)
  | call {i m k} (hi : s.Free i) (hk : s.stack i = .run (.call m) :: k)
    (ht : ¬s.Waiting (N.owner m)) : Waits N s i (N.owner m)
  | reply {i t} (hi : s.server i = some t) : Waits N s i t

end Semantics

/-! ### What can be read off a program -/

namespace Prog

variable {ι L M R : Type*}

/-- Nothing is received. -/
def quiet : Prog L M → Bool
  | .recv _ => false
  | .seq p q | .choice p q => p.quiet && q.quiet
  | .star p | .hold _ p => p.quiet
  | .skip | .send _ | .nbSend _ | .call _ | .reply => true

/-- There is a reply, and nothing is received before. -/
def replies : Prog L M → Bool
  | .reply => true
  | .seq p q => p.replies || p.quiet && q.replies
  | .choice p q => p.replies && q.replies
  | .hold _ p => p.replies
  | .skip | .star _ | .send _ | .nbSend _ | .call _ | .recv _ => false

/-- Only what is below some rank is waited for, a lock is given back before anything is received,
and who is called replies. -/
def ordered [LT R] [DecidableLT R] (N : Net ι L M) (lock : L → R) (thread : ι → R) :
    R → Prog L M → Bool
  | r, .seq p q | r, .choice p q => p.ordered N lock thread r && q.ordered N lock thread r
  | r, .star p => p.ordered N lock thread r
  | r, .hold l p => decide (lock l < r) && p.quiet && p.ordered N lock thread (lock l)
  | r, .send m => decide (thread (N.owner m) < r)
  | r, .call m => decide (thread (N.owner m) < r) && (N.handler m).replies
  | _, .skip | _, .nbSend _ | _, .reply | _, .recv _ => true

end Prog

/-- Ranks that the programs of all the threads keep to: a thread waits only for what has a lower
rank than the lock it has taken last, or than itself if it has none. For given programs the
conditions can be evaluated. -/
structure Ranking {ι L M : Type*} (N : Net ι L M) (R : Type*) [LinearOrder R] where
  lock : L → R
  thread : ι → R
  start_ordered : ∀ i, (N.start i).ordered N lock thread (thread i) = true
  body_ordered : ∀ i, (N.body i).ordered N lock thread (thread i) = true
  handler_ordered : ∀ m, (N.handler m).ordered N lock thread (thread (N.owner m)) = true

section Invariant

variable {ι L M R : Type*} [LinearOrder R] {N : Net ι L M} (ρ : Ranking N R)

/-! ### What a thread has left to do -/

/-- A lock has to be given back. -/
def locked : List (Item L M) → Bool
  | [] => false
  | .run _ :: k => locked k
  | .release _ :: _ => true

/-- The rank of the lock a thread took last, or its own. -/
def level (i : ι) : List (Item L M) → R
  | [] => ρ.thread i
  | .run _ :: k => level i k
  | .release l :: _ => ρ.lock l

/-- What a thread has left to do keeps to the ranks: every piece of it at the level it will be run
at, which is that of the lock it will have taken last, or its own. -/
def Sound (i : ι) : List (Item L M) → Prop
  | [] => True
  | .run p :: k =>
    p.ordered N ρ.lock ρ.thread (level ρ i k) = true ∧ (locked k = true → p.quiet = true) ∧
      Sound i k
  | .release l :: k => ρ.lock l < level ρ i k ∧ Sound i k

/-- There will be a reply before anything is received, and before the thread comes to the end of
its program. So a caller that waits for it waits for this thread to go on. -/
def Answers : List (Item L M) → Prop
  | [] => False
  | .run p :: k => p.replies = true ∨ p.quiet = true ∧ Answers k
  | .release _ :: k => Answers k

variable {ρ} {i t u : ι} {k k' : List (Item L M)} {a : Option (Act L M)} {l : L}

theorem level_le (h : Sound ρ i k) : level ρ i k ≤ ρ.thread i := by
  induction k with
  | nil => exact le_refl _
  | cons x k ih =>
    cases x with
    | run p => exact ih h.2.2
    | release l => exact h.1.le.trans (ih h.2)

theorem level_le_lock (h : Sound ρ i k) (hl : .release l ∈ k) : level ρ i k ≤ ρ.lock l := by
  induction k with
  | nil => exact absurd hl List.not_mem_nil
  | cons x k ih =>
    cases x with
    | run p =>
      rcases List.mem_cons.mp hl with hx | hk
      · exact absurd hx (by simp)
      · exact ih h.2.2 hk
    | release l' =>
      rcases List.mem_cons.mp hl with hx | hk
      · rw [Item.release.injEq] at hx
        exact hx ▸ le_refl _
      · exact h.1.le.trans (ih h.2 hk)

theorem locked_of_mem (hl : .release l ∈ k) : locked k = true := by
  induction k with
  | nil => exact absurd hl List.not_mem_nil
  | cons x k ih =>
    cases x with
    | run p =>
      rcases List.mem_cons.mp hl with hx | hk
      · exact absurd hx (by simp)
      · exact ih hk
    | release l' => rfl

theorem level_eq (h : locked k = false) : level ρ i k = ρ.thread i := by
  induction k with
  | nil => rfl
  | cons x k ih =>
    cases x with
    | run p => exact ih h
    | release l => exact absurd h (by simp [locked])

/-- **A thread keeps to the ranks**, whatever it does: what is left behind a step is made of
pieces of what was left before it, or it is a body or a handler, and those keep to them by
assumption. -/
theorem Local.sound (h : Local N i k a k') (hk : Sound ρ i k) : Sound ρ i k' := by
  cases h with
  | again => exact ⟨ρ.body_ordered i, by simp [locked], trivial⟩
  | skip | stop | send | nbSend | call | reply | gotNothing => exact hk.2.2
  | unlock => exact hk.2
  | seq p q k =>
    obtain ⟨hord, hquiet, hk⟩ := hk
    simp only [Prog.ordered, Prog.quiet, Bool.and_eq_true] at hord hquiet
    exact ⟨hord.1, fun h => (hquiet h).1, hord.2, fun h => (hquiet h).2, hk⟩
  | left p q k =>
    obtain ⟨hord, hquiet, hk⟩ := hk
    simp only [Prog.ordered, Prog.quiet, Bool.and_eq_true] at hord hquiet
    exact ⟨hord.1, fun h => (hquiet h).1, hk⟩
  | right p q k =>
    obtain ⟨hord, hquiet, hk⟩ := hk
    simp only [Prog.ordered, Prog.quiet, Bool.and_eq_true] at hord hquiet
    exact ⟨hord.2, fun h => (hquiet h).2, hk⟩
  | more p k => exact ⟨hk.1, hk.2.1, hk⟩
  | lock l p k =>
    obtain ⟨hord, hquiet, hk⟩ := hk
    simp only [Prog.ordered, Bool.and_eq_true, decide_eq_true_eq] at hord
    exact ⟨hord.2, fun _ => hord.1.2, hord.1.1, hk⟩
  | got b m k howner =>
    -- no lock is held, so the thread has the rank it had at first
    obtain ⟨-, hquiet, hk⟩ := hk
    have hfree : locked k = false := by
      rw [← Bool.not_eq_true]
      exact fun hlocked => absurd (hquiet hlocked) (by simp [Prog.quiet])
    refine ⟨?_, fun h => absurd (hfree.symm.trans h) Bool.false_ne_true, hk⟩
    rw [level_eq hfree, ← howner]
    exact ρ.handler_ordered m

omit [LinearOrder R] in
/-- A call is not forgotten. -/
theorem Local.answers (h : Local N i k a k') (hreply : a ≠ some .reply) (hk : Answers k) :
    Answers k' := by
  cases h with
  | again => exact hk.elim
  | unlock => exact hk
  | reply => exact absurd rfl hreply
  | _ => simp_all [Answers, Prog.replies, Prog.quiet] <;> tauto

omit [LinearOrder R] in
/-- Nothing is received before a call is answered. -/
theorem not_answers_recv (b : Bool) : ¬Answers (.run (.recv b) :: k) := by
  simp [Answers, Prog.replies, Prog.quiet]

omit [LinearOrder R] in
theorem Local.of_eq {s : State ι L M} (hk : s.stack i = k) (h : Local N i k a k') :
    Local N i (s.stack i) a k' :=
  hk ▸ h

omit [LinearOrder R] in
/-- A message is received by a `recv`, and handled. -/
theorem Local.eq_of_got {m : M} (h : Local N i k (some (.got m)) k') :
    N.owner m = i ∧ ∃ b k₀, k = .run (.recv b) :: k₀ ∧ k' = .run (N.handler m) :: k₀ := by
  cases h with
  | got b m k howner => exact ⟨howner, b, k, rfl, rfl⟩

omit [LinearOrder R] in
theorem Local.mem_release (h : Local N i k a k') (hlock : ∀ l, a ≠ some (.lock l))
    (hunlock : ∀ l, a ≠ some (.unlock l)) : .release l ∈ k' ↔ .release l ∈ k := by
  cases h with
  | lock l' => exact absurd rfl (hlock l')
  | unlock l' => exact absurd rfl (hunlock l')
  | _ => simp

end Invariant

/-! ### The invariant -/

section Runs

variable {ι L M R : Type*} [LinearOrder R] {N : Net ι L M} (ρ : Ranking N R)

/-- **What holds in every state**: the threads keep to the ranks, a lock is with whoever has to give
it back, and whoever waits for a reply will get it. -/
structure Inv (s : State ι L M) : Prop where
  sound : ∀ i, Sound ρ i (s.stack i)
  holds : ∀ l i, s.holder l = some i ↔ .release l ∈ s.stack i
  paired : ∀ i t, s.server i = some t ↔ s.client t = some i
  below : ∀ i t, s.server i = some t → ρ.thread t < level ρ i (s.stack i)
  owes : ∀ t i, s.client t = some i → Answers (s.stack t)

variable {ρ} {s s' : State ι L M} {i t u : ι} {k k' : List (Item L M)} {a : Option (Act L M)}

theorem inv_init : Inv ρ N.init where
  sound i := ⟨ρ.start_ordered i, by simp [locked], trivial⟩
  holds l i := by simp [Net.init]
  paired i t := by simp [Net.init]
  below i t h := by simp [Net.init] at h
  owes t i h := by simp [Net.init] at h

/-- The rank of what a thread waits for. -/
def need (ρ : Ranking N R) (s : State ι L M) (i : ι) : R :=
  match s.server i, s.stack i with
  | some t, _ => ρ.thread t
  | none, .run (.hold l _) :: _ => ρ.lock l
  | none, .run (.send m) :: _ | none, .run (.call m) :: _ => ρ.thread (N.owner m)
  | none, k => level ρ i k

namespace Inv

/-! Who is waited for. -/

/-- A thread waits for what is below all it has. -/
theorem need_lt (h : Inv ρ s) (hw : Waits N s i t) : need ρ s i < level ρ i (s.stack i) := by
  have hsound := h.sound i
  cases hw with
  | lock hi hk ht =>
    rw [hk] at hsound
    have hord := hsound.1
    simp only [Prog.ordered, Bool.and_eq_true, decide_eq_true_eq] at hord
    simpa [need, level, hi.1, hk] using hord.1.1
  | send hi hk ht =>
    rw [hk] at hsound
    simpa [need, level, hi.1, hk] using of_decide_eq_true hsound.1
  | call hi hk ht =>
    rw [hk] at hsound
    have hord := hsound.1
    simp only [Prog.ordered, Bool.and_eq_true, decide_eq_true_eq] at hord
    simpa [need, level, hi.1, hk] using hord.1
  | reply hi => simpa [need, hi] using h.below i t hi

/-- Who is waited for has nothing above the rank of what it is waited for. -/
theorem level_le_need (h : Inv ρ s) (hw : Waits N s i t) :
    level ρ t (s.stack t) ≤ need ρ s i := by
  cases hw with
  | lock hi hk ht =>
    simpa [need, hi.1, hk] using level_le_lock (h.sound t) ((h.holds _ t).mp ht)
  | send hi hk ht => simpa [need, hi.1, hk] using level_le (h.sound _)
  | call hi hk ht => simpa [need, hi.1, hk] using level_le (h.sound _)
  | reply hi => simpa [need, hi] using level_le (h.sound t)

/-- Who is waited for does not wait for a message. -/
theorem not_waiting (h : Inv ρ s) (hw : Waits N s i t) : ¬s.Waiting t := by
  rintro ⟨ht, k, hk⟩
  cases hw with
  | lock hi hk' hheld =>
    have hmem := (h.holds _ t).mp hheld
    obtain ⟨-, hquiet, -⟩ := hk ▸ h.sound t
    rw [hk, List.mem_cons] at hmem
    have hlocked := locked_of_mem (hmem.resolve_left (by simp))
    exact absurd (hquiet hlocked) (by simp [Prog.quiet])
  | send hi hk' hidle => exact hidle ⟨ht, k, hk⟩
  | call hi hk' hidle => exact hidle ⟨ht, k, hk⟩
  | reply hi =>
    have hans := h.owes t i ((h.paired i t).mp hi)
    exact not_answers_recv true (hk ▸ hans)

/-! What a step does. -/

/-- Who receives has no call to reply to. -/
theorem client_eq_none (h : Inv ρ s) {b : Bool} (hk : s.stack t = .run (.recv b) :: k) :
    s.client t = none := by
  rw [Option.eq_none_iff_forall_ne_some]
  intro i hi
  exact not_answers_recv b (hk ▸ h.owes t i hi)

theorem client_eq_none_of_got (h : Inv ρ s) {m : M} (hl : Local N t (s.stack t) (some (.got m)) k) :
    s.client t = none := by
  obtain ⟨-, b, k₀, hk, -⟩ := hl.eq_of_got
  exact h.client_eq_none hk

variable [DecidableEq ι]

/-- A thread goes on, and the locks are with whoever has to give them back. -/
theorem putHolder (h : Inv ρ s) (hi : s.server i = none) (hl : Local N i (s.stack i) a k)
    (hreply : a = some .reply → s.client i = none) {holder : L → Option ι}
    (hholds : ∀ l j, holder l = some j ↔ .release l ∈ (s.put i k).stack j) :
    Inv ρ { s.put i k with holder := holder } where
  sound j := by
    by_cases hj : j = i
    · subst hj
      simpa [State.put] using hl.sound (h.sound j)
    · simpa [State.put, hj] using h.sound j
  holds := hholds
  paired := h.paired
  below j t hj := by
    have hne : j ≠ i := by
      rintro rfl
      exact absurd (hi.symm.trans hj) (by simp)
    simpa [State.put, hne] using h.below j t hj
  owes t j hj := by
    by_cases ht : t = i
    · subst ht
      have hne : a ≠ some .reply := fun ha => absurd ((hreply ha).symm.trans hj) (by simp)
      simpa [State.put] using hl.answers hne (h.owes t j hj)
    · simpa [State.put, ht] using h.owes t j hj

/-- A thread goes on with the locks it has. -/
theorem put (h : Inv ρ s) (hi : s.server i = none) (hl : Local N i (s.stack i) a k)
    (hlock : ∀ l, a ≠ some (.lock l)) (hunlock : ∀ l, a ≠ some (.unlock l))
    (hreply : a = some .reply → s.client i = none) : Inv ρ (s.put i k) := by
  refine h.putHolder hi hl hreply fun l j => ?_
  by_cases hj : j = i
  · subst hj
    simpa [State.put, hl.mem_release hlock hunlock] using h.holds l j
  · simpa [State.put, hj] using h.holds l j

theorem lock [DecidableEq L] (h : Inv ρ s) (hi : s.server i = none) {l : L}
    (hl : Local N i (s.stack i) (some (.lock l)) k) (hfree : s.holder l = none) :
    Inv ρ ((s.put i k).setHolder l (some i)) := by
  refine h.putHolder hi hl (by simp) fun l' j => ?_
  have hheld := h.holds l' j
  generalize hk : s.stack i = stack at hl
  cases hl with
  | lock _ p k =>
    by_cases hj : j = i <;> by_cases hl' : l' = l
    · simp [State.put, hj, hl']
    · simpa [State.put, hj, hl', hk] using hheld
    · subst hl'
      simpa [State.put, hj, Ne.symm hj, hfree] using hheld
    · simpa [State.put, hj, hl'] using hheld

theorem unlock [DecidableEq L] (h : Inv ρ s) (hi : s.server i = none) {l : L}
    (hl : Local N i (s.stack i) (some (.unlock l)) k) :
    Inv ρ ((s.put i k).setHolder l none) := by
  refine h.putHolder hi hl (by simp) fun l' j => ?_
  have hheld := h.holds l' j
  have hsound := h.sound i
  generalize hk : s.stack i = stack at hl hsound
  cases hl with
  | unlock _ k =>
    have hmine : s.holder l = some i := (h.holds l i).mpr (by simp [hk])
    -- a lock is not taken twice
    have honce : .release l ∉ k := fun hmem =>
      absurd (level_le_lock hsound.2 hmem) (not_le_of_gt hsound.1)
    by_cases hj : j = i <;> by_cases hl' : l' = l
    · simp [State.put, hj, hl', honce]
    · simpa [State.put, hj, hl', hk] using hheld
    · subst hl'
      simpa [State.put, hj, Ne.symm hj, hmine] using hheld
    · simpa [State.put, hj, hl'] using hheld

/-- A fault changes nothing about what there is to be done and who has what. -/
theorem setLife (h : Inv ρ s) (i : ι) (x : Life) : Inv ρ (s.setLife i x) :=
  ⟨h.sound, h.holds, h.paired, h.below, h.owes⟩

theorem dropClient (h : Inv ρ s) (ht : s.client t = none) : Inv ρ (s.dropClient t) := by
  have hs : s.dropClient t = s := by
    rw [State.dropClient, ← ht, Function.update_eq_self]
  rwa [hs]

/-- A call is received. -/
theorem pair (h : Inv ρ s) (hi : s.server i = none) (ht : s.client t = none)
    (hbelow : ρ.thread t < level ρ i (s.stack i)) (hans : Answers (s.stack t)) :
    Inv ρ (s.pair i t) where
  sound := h.sound
  holds := h.holds
  paired j u := by
    have hfree : ∀ v, s.client v ≠ some i := fun v hv => by
      rw [← h.paired, hi] at hv
      exact absurd hv (by simp)
    have hidle : ∀ j, s.server j ≠ some t := fun j hj => by
      rw [h.paired, ht] at hj
      exact absurd hj (by simp)
    simp only [State.pair, Function.update_apply]
    split_ifs with hji hut hut
    · simp [hji, hut]
    · simp [hji, hfree u, Ne.symm hut]
    · simp [hut, hidle j, Ne.symm hji]
    · exact h.paired j u
  below j u hj := by
    by_cases hji : j = i
    · subst hji
      have hu : t = u := by simpa [State.pair] using hj
      exact hu ▸ hbelow
    · exact h.below j u (by simpa [State.pair, hji] using hj)
  owes u j hj := by
    by_cases hut : u = t
    · exact hut ▸ hans
    · exact h.owes u j (by simpa [State.pair, hut] using hj)

/-- A call is replied to. -/
theorem unpair (h : Inv ρ s) (ht : s.client t = some i) : Inv ρ (s.unpair i t) where
  sound := h.sound
  holds := h.holds
  paired j u := by
    have hi : s.server i = some t := (h.paired i t).mpr ht
    simp only [State.unpair, Function.update_apply]
    split_ifs with hji hut hut
    · simp
    · -- the caller waited for one thread only
      rw [← h.paired, hji, hi]
      simp [Ne.symm hut]
    · rw [h.paired, hut, ht]
      simp [Ne.symm hji]
    · exact h.paired j u
  below j u hj := by
    by_cases hji : j = i
    · simp [State.unpair, hji] at hj
    · exact h.below j u (by simpa [State.unpair, hji] using hj)
  owes u j hj := by
    by_cases hut : u = t
    · simp [State.unpair, hut] at hj
    · exact h.owes u j (by simpa [State.unpair, hut] using hj)

/-- A message is received. The thread that sends it is another one. -/
theorem received (h : Inv ρ s) {m : M} {x : Act L M} (hx : x.sent = some m)
    (hi : s.server i = none) (ht : s.server t = none) (hl : Local N i (s.stack i) (some x) k)
    (hl' : Local N t (s.stack t) (some (.got m)) k') :
    i ≠ t ∧ Inv ρ ((s.put i k).put t k') := by
  have hne : i ≠ t := by
    rintro rfl
    obtain ⟨-, b, k₀, hk, -⟩ := hl'.eq_of_got
    rw [hk] at hl
    cases hl <;> simp [Act.sent] at hx
  have hput : Inv ρ (s.put i k) :=
    h.put hi hl (fun l hc => by simp_all [Act.sent]) (fun l hc => by simp_all [Act.sent])
      (fun hc => by simp_all [Act.sent])
  have hgot : Local N t ((s.put i k).stack t) (some (.got m)) k' := by
    simpa [State.put, hne.symm] using hl'
  exact ⟨hne, hput.put ht hgot (by simp) (by simp) (by simp)⟩

end Inv

variable [DecidableEq ι] [DecidableEq L]

/-- **Every step keeps the invariant.** A step is one of a single thread, of two that meet in a
message, or a fault, and the threads that have no part in it are left as they were. -/
theorem Inv.step {who : Option ι} (h : Inv ρ s) (hs : Step N s who s') : Inv ρ s' := by
  cases hs with
  | tau hi hl => exact h.put hi.1 hl (by simp) (by simp) (by simp)
  | lock hi hl hfree => exact h.lock hi.1 hl hfree
  | unlock hi hl => exact h.unlock hi.1 hl
  | send hi ht hl hl' =>
    exact (h.received rfl hi.1 ht.1 hl hl').2.dropClient (h.client_eq_none_of_got hl')
  | @call i t m k k' who hi ht hl hl' =>
    obtain ⟨hne, hput⟩ := h.received rfl hi.1 ht.1 hl hl'
    obtain ⟨howner, b, k₀, -, rfl⟩ := hl'.eq_of_got
    have hsound := h.sound i
    generalize s.stack i = stack at hl hsound
    cases hl with
    | call _ k =>
      obtain ⟨hord, -, -⟩ := hsound
      simp only [Prog.ordered, Bool.and_eq_true, decide_eq_true_eq, howner] at hord
      refine hput.pair hi.1 (h.client_eq_none_of_got hl') ?_ ?_
      · simpa [State.put, hne] using hord.1
      · simpa [State.put, Answers] using Or.inl hord.2
  | nbSend hi ht hl hl' =>
    exact (h.received rfl hi.1 ht.1.1 hl hl').2.dropClient (h.client_eq_none_of_got hl')
  | lost hi hl => exact h.put hi.1 hl (by simp) (by simp) (by simp)
  | @poll i k hi hl =>
    refine (h.put hi.1 hl (by simp) (by simp) (by simp)).dropClient ?_
    generalize hk : s.stack i = stack at hl
    cases hl with
    | gotNothing k => exact h.client_eq_none hk
  | @reply i j k hi hl hj =>
    refine (h.unpair hj).put ?_ hl (by simp) (by simp) fun _ => ?_
    · simp [State.unpair, Function.update_apply, hi.1]
    · simp [State.unpair]
  | replyNobody hi hl hj => exact h.put hi.1 hl (by simp) (by simp) fun _ => hj
  | outside ht hl =>
    exact (h.put ht.1 hl (by simp) (by simp) (by simp)).dropClient (h.client_eq_none_of_got hl)
  | fault hi => exact h.setLife _ _
  | @faultReceived i t m k hi ht hl =>
    have hlife := h.setLife i .stopped
    exact (hlife.put ht.1 hl (by simp) (by simp) (by simp)).dropClient (h.client_eq_none_of_got hl)

theorem inv_of_reachable (h : Reachable N s) : Inv ρ s := by
  induction h with
  | refl => exact inv_init
  | tail _ hstep ih =>
    obtain ⟨who, hstep⟩ := hstep
    exact ih.step hstep

/-! ### No deadlock -/

/-- **A thread waits for a message, or for another thread, or can go on**, or it has faulted. -/
theorem waiting_or_canStep (N : Net ι L M) (s : State ι L M) (i : ι) :
    s.Waiting i ∨ (CanStep N s i ∨ s.life i ≠ .running) ∨ ∃ t, Waits N s i t := by
  cases hserver : s.server i with
  | some t => exact Or.inr (Or.inr ⟨t, .reply hserver⟩)
  | none =>
    by_cases hlife : s.life i = .running
    swap
    · exact Or.inr (Or.inl (Or.inr hlife))
    have hi : s.Free i := ⟨hserver, hlife⟩
    have hcan : ∀ {s'}, Step N s (some i) s' →
        s.Waiting i ∨ (CanStep N s i ∨ s.life i ≠ .running) ∨ ∃ t, Waits N s i t :=
      fun hstep => Or.inr (Or.inl (Or.inl ⟨_, hstep⟩))
    rcases hk : s.stack i with _ | ⟨p | l, k⟩
    · exact hcan (.tau hi (.of_eq hk .again))
    · cases p with
      | skip => exact hcan (.tau hi (.of_eq hk (.skip k)))
      | seq p q => exact hcan (.tau hi (.of_eq hk (.seq p q k)))
      | choice p q => exact hcan (.tau hi (.of_eq hk (.left p q k)))
      | star p => exact hcan (.tau hi (.of_eq hk (.stop p k)))
      | hold l p =>
        cases hl : s.holder l with
        | none => exact hcan (.lock hi (.of_eq hk (.lock l p k)) hl)
        | some t => exact Or.inr (Or.inr ⟨t, .lock hi hk hl⟩)
      | send m =>
        by_cases ht : s.Waiting (N.owner m)
        · have ⟨ht', k', hk'⟩ := ht
          exact hcan (.send hi ht' (.of_eq hk (.send m k)) (.of_eq hk' (.got true m k' rfl))
            (Or.inr ⟨rfl, ht⟩))
        · exact Or.inr (Or.inr ⟨_, .send hi hk ht⟩)
      | nbSend m => exact hcan (.lost hi (.of_eq hk (.nbSend m k)))
      | call m =>
        by_cases ht : s.Waiting (N.owner m)
        · have ⟨ht', k', hk'⟩ := ht
          exact hcan (.call hi ht' (.of_eq hk (.call m k)) (.of_eq hk' (.got true m k' rfl))
            (Or.inr ⟨rfl, ht⟩))
        · exact Or.inr (Or.inr ⟨_, .call hi hk ht⟩)
      | reply =>
        cases hj : s.client i with
        | none => exact hcan (.replyNobody hi (.of_eq hk (.reply k)) hj)
        | some j => exact hcan (.reply hi (.of_eq hk (.reply k)) hj)
      | recv b =>
        cases b with
        | true => exact Or.inl ⟨hi, k, hk⟩
        | false => exact hcan (.poll hi (.of_eq hk (.gotNothing k)))
    · exact hcan (.unlock hi (.of_eq hk (.unlock l k)))

/-- **A chain of threads that wait for each other ends with one that can go on or has faulted**, for
the ranks of what they wait for go down. -/
theorem Inv.exists_canStep [WellFoundedLT R] (h : Inv ρ s) (hi : ¬s.Waiting i) :
    ∃ t, Relation.ReflTransGen (Waits N s) i t ∧ (CanStep N s t ∨ s.life t ≠ .running) := by
  induction hr : need ρ s i using WellFoundedLT.induction generalizing i with
  | ind r ih =>
    subst hr
    rcases waiting_or_canStep N s i with hwait | hend | ⟨t, hw⟩
    · exact absurd hwait hi
    · exact ⟨i, .refl, hend⟩
    · have ht := h.not_waiting hw
      rcases waiting_or_canStep N s t with hwait | hend | ⟨u, hu⟩
      · exact absurd hwait ht
      · exact ⟨t, .single hw, hend⟩
      · have hlt : need ρ s t < need ρ s i := (h.need_lt hu).trans_le (h.level_le_need hw)
        obtain ⟨v, hchain, hend⟩ := ih _ hlt ht rfl
        exact ⟨v, .head hw hchain, hend⟩

/-- **Threads that keep to their ranks do not deadlock**: what holds one of them up in the end is
another one that can go on, or one that has faulted. -/
theorem exists_canStep_of_reachable [WellFoundedLT R] (ρ : Ranking N R) (h : Reachable N s)
    (i : ι) : s.Waiting i ∨
      ∃ t, Relation.ReflTransGen (Waits N s) i t ∧ (CanStep N s t ∨ s.life t ≠ .running) :=
  or_iff_not_imp_left.mpr fun hi => (inv_of_reachable (ρ := ρ) h).exists_canStep hi

end Runs

/-! ### What a thread does -/

section Performs

variable {ι L M : Type*} {N : Net ι L M} {i : ι} {k k' k'' : List (Item L M)}
  {as bs : List (Act L M)} {p q : Prog L M}

theorem Performs.trans (h : Performs N i k as k') (h' : Performs N i k' bs k'') :
    Performs N i k (as ++ bs) k'' := by
  induction h with
  | nil => exact h'
  | tau hl _ ih => exact .tau hl (ih h')
  | poll hl _ ih => exact .poll hl (ih h')
  | act hl _ ih => exact .act hl (ih h')

/-- A program can be run to its end with some actions. -/
def Does (N : Net ι L M) (i : ι) (p : Prog L M) (as : List (Act L M)) : Prop :=
  ∀ k, Performs N i (.run p :: k) as k

theorem Does.then (hp : Does N i p as) (h : Performs N i k bs k') :
    Performs N i (.run p :: k) (as ++ bs) k' :=
  (hp k).trans h

theorem does_skip : Does N i .skip [] := fun k => .tau (.skip k) (.nil k)

theorem Does.seq (hp : Does N i p as) (hq : Does N i q bs) : Does N i (.seq p q) (as ++ bs) :=
  fun k => .tau (.seq p q k) (hp.then (hq k))

theorem Does.left (hp : Does N i p as) : Does N i (.choice p q) as :=
  fun k => .tau (.left p q k) (hp k)

theorem Does.right (hq : Does N i q as) : Does N i (.choice p q) as :=
  fun k => .tau (.right p q k) (hq k)

theorem does_star_nil : Does N i (.star p) [] := fun k => .tau (.stop p k) (.nil k)

/-- Once more. -/
theorem Does.star_cons (hp : Does N i p as) (h : Does N i (.star p) bs) :
    Does N i (.star p) (as ++ bs) :=
  fun k => .tau (.more p k) (hp.then (h k))

theorem Does.star (hp : Does N i p as) : Does N i (.star p) as :=
  as.append_nil ▸ hp.star_cons does_star_nil

theorem Does.hold (hp : Does N i p as) (l : L) :
    Does N i (.hold l p) (.lock l :: (as ++ [.unlock l])) :=
  fun k => .act (.lock l p k) (hp.then (.act (.unlock l k) (.nil k)))

theorem does_send (m : M) : Does N i (.send m) [.send m] := fun k => .act (.send m k) (.nil k)

theorem does_call (m : M) : Does N i (.call m) [.call m] := fun k => .act (.call m k) (.nil k)

theorem does_reply : Does N i .reply [.reply] := fun k => .act (.reply k) (.nil k)

end Performs

/-! ### Programs that leave a trace -/

section Follows

open Traced

variable {ι L M : Type*} {ω α β : Type} {N : Net ι L M} {i : ι} {acts : ω → List (Act L M)}
  {k k' : List (Item L M)}

/-- Where a program that leaves a trace goes on, a thread has performed what its actions are, and
has left to do what the result says. -/
def Follows (N : Net ι L M) (i : ι) (acts : ω → List (Act L M)) (k : List (Item L M))
    (x : Traced ω α) (Q : α → List (Item L M)) : Prop :=
  Yields (fun t a => Performs N i k (t.flatMap acts) (Q a)) x

theorem follows_pure {Q : α → List (Item L M)} {a : α} (h : Performs N i k [] (Q a)) :
    Follows N i acts k (pure a) Q :=
  yields_pure h

theorem follows_emit {t : List ω} (h : Performs N i k (t.flatMap acts) k') :
    Follows N i acts k (emit t) fun _ => k' :=
  yields_emit h

/-- Some actions that are what a program does. -/
theorem follows_emit_of_does {p : Prog L M} {t : List ω} (h : Does N i p (t.flatMap acts)) :
    Follows N i acts (.run p :: k) (emit t) fun _ => k :=
  follows_emit (h k)

theorem follows_ofOption (x : Option α) : Follows N i acts k (ofOption x) fun _ => k :=
  (yields_ofOption x).mono fun t _ h => by rw [h.1]; exact .nil k

/-- **The rule for sequences.** -/
theorem Follows.bind {Q : α → List (Item L M)} {R : β → List (Item L M)} {x : Traced ω α}
    {f : α → Traced ω β} (hx : Follows N i acts k x Q)
    (hf : ∀ a, Follows N i acts (Q a) (f a) R) : Follows N i acts k (x >>= f) R :=
  Yields.bind hx fun _ a ht =>
    (hf a).mono fun _ _ hu => by rw [List.flatMap_append]; exact ht.trans hu

/-- What a program does under other names. -/
theorem follows_mapTrace {ω' : Type} {f : ω' → ω} {Q : α → List (Item L M)} {x : Traced ω' α}
    (hx : Follows N i (fun a => acts (f a)) k x Q) : Follows N i acts k (x.mapTrace f) Q := by
  intro a ha
  change Performs N i k ((x.trace.map f).flatMap acts) (Q a)
  rw [List.flatMap_map]
  exact hx a ha

/-- What is nothing to the thread leaves it where it is. -/
theorem follows_of_nil {x : Traced ω α} (h : ∀ a ∈ x.trace, acts a = []) :
    Follows N i acts k x fun _ => k := by
  intro a _
  change Performs N i k (x.trace.flatMap acts) k
  rw [List.flatMap_eq_nil_iff.mpr h]
  exact .nil k

/-- What nobody sees may come first. -/
theorem Follows.of_performs {Q : α → List (Item L M)} {x : Traced ω α}
    (h : Performs N i k [] k') (hx : Follows N i acts k' x Q) : Follows N i acts k x Q :=
  hx.mono fun _ _ hu => h.trans hu

/-- What nobody sees may come last. -/
theorem Follows.then {Q : α → List (Item L M)} {x : Traced ω α} (hx : Follows N i acts k x Q)
    {Q' : α → List (Item L M)} (h : ∀ a, Performs N i (Q a) [] (Q' a)) :
    Follows N i acts k x Q' :=
  hx.mono fun t a ht => List.append_nil (t.flatMap acts) ▸ ht.trans (h a)

/-- **The rule for runs**: what is left to do depends on the state only. The skeleton is then
followed step by step, for as long as the program goes on. -/
theorem Follows.run {σ : Type} {κ : Type*} {step : κ → σ → Traced ω σ} {K : σ → List (Item L M)}
    {js : List κ} (hstep : ∀ j ∈ js, ∀ s, Follows N i acts (K s) (step j s) K)
    {start : Traced ω σ} (hstart : Follows N i acts k start K) :
    Follows N i acts k (Traced.run step start js) K := by
  induction js generalizing start with
  | nil => exact hstart
  | cons j js ih =>
    refine ih (fun j' hj' => hstep j' (List.mem_cons_of_mem _ hj')) ?_
    exact hstart.bind fun s => hstep j List.mem_cons_self s

end Follows

end Blocking

import HobdSystem.Hobd.Calls
import HobdSystem.Hobd.Frame
import HobdSystem.Hobd.Thread
import Mathlib.Data.List.Induction

/-!
# Waiting for a response

A whole call of `comm_wait_for_resp`: the two loops of the source, run through a list of moves of
the system. A move is a round of the inner loop, which may read a byte, or the timer calling
`timeout_cb`. The call returns in some round and leaves the moves behind it alone, so that a
caller could go on with them.

What a call should return is said in terms of the frames in the bytes that were read
(`HobdSystem.Completes`): the first frame that is the response ends the wait, and a timeout ends
it if it is observed while no frame has been completed since the timer was last started
(`HobdSystem.TimedOut`). None of these notions mentions the parser, its states or the flag of the
timer. **These are the only two ways for a call to return** (`HobdSystem.commWaitForResp_spec`).

The two interact. A frame that is not the response – the echo of the query on the single wire, say
– is passed over, and the timer is started again behind it. A timer that has fired inside of a
frame ends the wait only if the frame is not completed in the round in which that is seen, since
the byte is looked at first. So a timeout cannot be read off the moves one by one, and
`HobdSystem.Fired` goes back to the last frame that was completed.

The invariant of the loops is `HobdSystem.Awaiting`: the parser has read the frame that is open,
none of the frames so far was the response, and the flag is set exactly if the timer has fired
since it was last started. One round either keeps it or ends the call
(`HobdSystem.Awaiting.afterRound`), and the call as a whole follows by induction over the moves
(`HobdSystem.waitRounds_ok`).
-/

namespace HobdSystem

open Bytes Framing Run Traced

/-! ### A call -/

/-- The byte a move brings, if the thread polls the UART in it. -/
def CommInput.byte? : CommInput → Option UInt8
  | .timeout => none
  | .run r => if 0 ≤ r.getchar then some r.getchar.toUInt32.toUInt8 else none

/-- The bytes some moves bring. -/
def bytesOf (is : List CommInput) : List UInt8 := is.filterMap CommInput.byte?

/-- Where a call of `comm_wait_for_resp` is after some moves. -/
inductive WaitOutcome where
  | waiting (parser : HobdParser) (comm : Comm)
  /-- The call has returned in front of the moves `rest`. -/
  | returned (respFound : UInt32) (rxTimestamp : Option UInt64) (parser : HobdParser)
      (comm : Comm) (rest : List CommInput)

/-- What the call has returned, if it has. -/
def WaitOutcome.respFound? : WaitOutcome → Option UInt32
  | .waiting _ _ => none
  | .returned respFound _ _ _ _ => some respFound

/-- The loops of `comm_wait_for_resp`. -/
def waitRounds (subtype : UInt8) (useTimeout : UInt32) :
    List CommInput → HobdParser → Comm → Traced CommAction WaitOutcome
  | [], parser, comm => pure (.waiting parser comm)
  | .timeout :: is, parser, comm => waitRounds subtype useTimeout is parser (timeoutCb comm)
  | .run r :: is, parser, comm => do
    let (poll, parser, comm) ← commWaitForRespRound subtype useTimeout r parser comm
    match poll with
    | .goesOn => waitRounds subtype useTimeout is parser comm
    | .timedOut => return .returned 0 none parser comm is
    | .found rxTimestamp => return .returned 1 (some rxTimestamp) parser comm is

/-- `comm_wait_for_resp`. -/
def commWaitForResp (subtype : UInt8) (useTimeout : UInt32) (r : CommResults)
    (is : List CommInput) (parser : HobdParser) (comm : Comm) : Traced CommAction WaitOutcome := do
  let comm ← commRecvMsgEnter useTimeout r comm
  waitRounds subtype useTimeout is parser comm

/-! ### What a call should return -/

/-- The last of some moves brings the last byte of the frame `f`, as a deframer of all the bytes
that were read would say. -/
def Completes (is : List CommInput) (f : List UInt8) : Prop :=
  ∃ before i, is = before ++ [i] ∧ i.byte?.isSome ∧
    (deframe hobdFormat (bytesOf is)).getLast? = some (.delivered f)

/-- **The timer has fired in the call of `comm_recv_msg` that is going on.** A call begins at the
start and behind every frame. -/
def Fired (is : List CommInput) : Prop :=
  ∃ before since, is = before ++ since ∧ (before = [] ∨ ∃ f, Completes before f) ∧
    (∀ part f, part ≠ [] → part <+: since → ¬Completes (before ++ part) f) ∧ .timeout ∈ since

/-- A timeout is observed in the last of some moves: the timer has fired in the call of
`comm_recv_msg`, and no frame has been completed in it. -/
def TimedOut (is : List CommInput) : Prop :=
  ∃ before r, is = before ++ [.run r] ∧ Fired before ∧ ∀ f, ¬Completes is f

/-- The last of some moves completes the first frame that is the response. Other frames may have
been completed before it, and those the call passes over. -/
def FirstResponse (subtype : UInt8) (is : List CommInput) (f : List UInt8) : Prop :=
  Completes is f ∧ IsResponse subtype f ∧
    ∀ part f', part <+: is → part ≠ is → Completes part f' → ¬IsResponse subtype f'

section Moves

variable {is : List CommInput} {i : CommInput} {f : List UInt8}

theorem bytesOf_concat (is : List CommInput) (i : CommInput) :
    bytesOf (is ++ [i]) = bytesOf is ++ i.byte?.toList := by
  rw [bytesOf, List.filterMap_append]
  cases hb : i.byte? <;> simp [bytesOf, hb]

/-- A frame is complete exactly if the receiver delivers it at the byte of the move. -/
theorem completes_concat_iff :
    Completes (is ++ [i]) f ↔ ∃ b, i.byte? = some b ∧
      (collect hobdFormat b (final (collect hobdFormat) [] (bytesOf is))).1 = .delivered f := by
  have hlast : ∀ b, i.byte? = some b →
      (deframe hobdFormat (bytesOf (is ++ [i]))).getLast? =
        some (collect hobdFormat b (final (collect hobdFormat) [] (bytesOf is))).1 := by
    intro b hb
    rw [bytesOf_concat, hb, ← answers_collect]
    exact getLast?_answers_concat ..
  constructor
  · rintro ⟨before, i', heq, hsome, hdel⟩
    obtain ⟨-, hi⟩ := List.append_inj' heq rfl
    obtain rfl := List.singleton_inj.mp hi
    obtain ⟨b, hb⟩ := Option.isSome_iff_exists.mp hsome
    rw [hlast b hb] at hdel
    exact ⟨b, hb, Option.some.inj hdel⟩
  · rintro ⟨b, hb, hdel⟩
    exact ⟨is, i, rfl, by rw [hb]; rfl, by rw [hlast b hb, hdel]⟩

theorem completes_inj {f' : List UInt8} (h : Completes is f) (h' : Completes is f') : f = f' := by
  obtain ⟨-, -, -, -, hf⟩ := h
  obtain ⟨-, -, -, -, hf'⟩ := h'
  exact Verdict.delivered.inj (Option.some.inj (hf.symm.trans hf'))

/-- What is completed is a frame with the right checksum, and the last of the bytes read. -/
theorem Completes.frame (h : Completes is f) :
    Complete hobdFormat f ∧ byteSum f % 256 = 0 ∧ f <:+ bytesOf is := by
  obtain ⟨-, -, -, -, hf⟩ := h
  rw [← answers_collect] at hf
  have hi := List.getLast?_eq_getElem? ▸ hf
  obtain ⟨hcomplete, hsum⟩ := delivered_complete open_nil hi
  refine ⟨hcomplete, hsum, ?_⟩
  rcases delivered_last open_nil hf with rfl | ⟨l₁, l₂, heq, -, -, rfl⟩
  · exact List.suffix_rfl
  · exact ⟨l₁, heq.symm⟩

theorem not_completes_nil : ¬Completes [] f := by
  rintro ⟨before, i, heq, -⟩
  simp at heq

/-- Every run of moves is cut at its last frame. -/
theorem exists_last_frame (is : List CommInput) :
    ∃ before since, is = before ++ since ∧ (before = [] ∨ ∃ f, Completes before f) ∧
      ∀ part f, part ≠ [] → part <+: since → ¬Completes (before ++ part) f := by
  induction is using List.reverseRecOn with
  | nil =>
    refine ⟨[], [], rfl, Or.inl rfl, fun part f hne hpart => ?_⟩
    exact absurd (List.prefix_nil.mp hpart) hne
  | append_singleton is i ih =>
    obtain ⟨before, since, rfl, hbefore, hsince⟩ := ih
    by_cases h : ∃ f, Completes (before ++ since ++ [i]) f
    · -- the last move is a cut itself
      refine ⟨before ++ since ++ [i], [], by simp, Or.inr h, fun part f hne hpart => ?_⟩
      exact absurd (List.prefix_nil.mp hpart) hne
    · refine ⟨before, since ++ [i], by simp, hbefore, fun part f hne hpart => ?_⟩
      rcases List.prefix_concat_iff.mp hpart with rfl | hpart
      · rw [← List.append_assoc]
        exact fun hc => h ⟨f, hc⟩
      · exact hsince part f hne hpart

theorem fired_timeout (is : List CommInput) : Fired (is ++ [.timeout]) := by
  obtain ⟨before, since, rfl, hbefore, hsince⟩ := exists_last_frame is
  refine ⟨before, since ++ [.timeout], by simp, hbefore, fun part f hne hpart => ?_, by simp⟩
  rcases List.prefix_concat_iff.mp hpart with rfl | hpart
  · -- the timer brings no byte
    rw [← List.append_assoc, completes_concat_iff]
    rintro ⟨b, hb, -⟩
    exact absurd hb nofun
  · exact hsince part f hne hpart

/-- A frame starts the timer once more. -/
theorem not_fired_of_completes (h : Completes is f) : ¬Fired is := by
  rintro ⟨before, since, rfl, -, hsince, htimeout⟩
  exact hsince since f (List.ne_nil_of_mem htimeout) List.prefix_rfl h

theorem not_fired_nil : ¬Fired [] := by
  rintro ⟨before, since, heq, -, -, htimeout⟩
  obtain ⟨-, rfl⟩ := List.append_eq_nil_iff.mp heq.symm
  simp at htimeout

/-- A round that completes no frame changes nothing about the timer. -/
theorem fired_concat_run_iff {r : CommResults} (h : ∀ f, ¬Completes (is ++ [.run r]) f) :
    Fired (is ++ [.run r]) ↔ Fired is := by
  constructor
  · rintro ⟨before, since, heq, hbefore, hsince, htimeout⟩
    obtain ⟨since, i, rfl⟩ := List.eq_nil_or_concat since |>.resolve_left
      (List.ne_nil_of_mem htimeout)
    rw [List.concat_eq_append, ← List.append_assoc] at heq
    obtain ⟨rfl, hi⟩ := List.append_inj' heq rfl
    obtain rfl := List.singleton_inj.mp hi
    refine ⟨before, since, rfl, hbefore, fun part f hne hpart => ?_, by simpa using htimeout⟩
    exact hsince part f hne (hpart.trans (by simp))
  · rintro ⟨before, since, rfl, hbefore, hsince, htimeout⟩
    refine ⟨before, since ++ [.run r], by simp, hbefore, fun part f hne hpart => ?_,
      List.mem_append_left _ htimeout⟩
    rcases List.prefix_concat_iff.mp hpart with rfl | hpart
    · rw [← List.append_assoc]
      exact h f
    · exact hsince part f hne hpart

theorem timedOut_concat_run_iff {r : CommResults} :
    TimedOut (is ++ [.run r]) ↔ Fired is ∧ ∀ f, ¬Completes (is ++ [.run r]) f := by
  constructor
  · rintro ⟨before, r', heq, hfired, hnone⟩
    obtain ⟨rfl, -⟩ := List.append_inj' heq rfl
    exact ⟨hfired, hnone⟩
  · rintro ⟨hfired, hnone⟩
    exact ⟨is, r, rfl, hfired, hnone⟩

end Moves

/-! ### Polling -/

/-- **What polling the UART does to the parser.** A message is found exactly if the byte completes
the frame that is open. -/
theorem pollUart_reads (r : CommResults) {pre : List UInt8} {p : HobdParser} (h : Reads pre p) :
    Reads (final (collect hobdFormat) pre (CommInput.run r).byte?.toList)
        (pollUart r.getchar p).2 ∧
      (pollUart r.getchar p).2.rxBuffer.length = p.rxBuffer.length ∧
      ((pollUart r.getchar p).1 = true → ∃ b, (CommInput.run r).byte? = some b ∧
        (collect hobdFormat b pre).1 = .delivered (pre ++ [b]) ∧
        Complete hobdFormat (pre ++ [b]) ∧ byteSum (pre ++ [b]) % 256 = 0 ∧
        (pollUart r.getchar p).2.state = .getType ∧
        Holds (pollUart r.getchar p).2.rxBuffer (pre ++ [b])) ∧
      ((pollUart r.getchar p).1 = false → ∀ b, (CommInput.run r).byte? = some b →
        ∀ f, (collect hobdFormat b pre).1 ≠ .delivered f) := by
  simp only [CommInput.byte?, HobdSystem.pollUart]
  split_ifs with hdata
  · obtain ⟨hverdict, hmoves⟩ := parseByte_reads h r.getchar.toUInt32.toUInt8
    refine ⟨hmoves.reads, hmoves.length, fun hfound => ?_, fun hfound b hb f hf => ?_⟩
    · exact ⟨_, rfl, parseByte_delivers h (of_decide_eq_true hfound)⟩
    · obtain rfl := Option.some.inj hb
      rw [hf] at hverdict
      exact absurd hverdict (of_decide_eq_false hfound)
  · exact ⟨h, rfl, nofun, nofun⟩

/-! ### The loops -/

/-- **The call goes on after the moves `is`**: no frame was the response, no timeout was observed,
and the flag is set exactly if the timer has fired since it was last started. -/
structure Awaiting (subtype : UInt8) (room : ℕ) (is : List CommInput) (parser : HobdParser)
    (comm : Comm) : Prop where
  reads : Reads (final (collect hobdFormat) [] (bytesOf is)) parser
  length : parser.rxBuffer.length = room
  noResponse : ∀ part f, part <+: is → Completes part f → ¬IsResponse subtype f
  noTimeout : ∀ part, part <+: is → ¬TimedOut part
  flag : comm.timeoutSignaled ≠ 0 ↔ Fired is

/-- The call has returned in the last of the moves `is`. -/
def Returned (subtype : UInt8) (room : ℕ) (is : List CommInput) (respFound : UInt32)
    (parser : HobdParser) : Prop :=
  (respFound = 1 ∧ parser.state = .getType ∧ parser.rxBuffer.length = room ∧
      ∃ f, FirstResponse subtype is f ∧ Holds parser.rxBuffer f) ∨
    respFound = 0 ∧ TimedOut is

section Loops

variable {subtype : UInt8} {room : ℕ} {is : List CommInput} {parser : HobdParser} {comm : Comm}

theorem awaiting_nil (hstate : parser.state = .getType) (hlen : parser.rxBuffer.length = room)
    (hflag : comm.timeoutSignaled = 0) : Awaiting subtype room [] parser comm where
  reads := reads_nil hstate
  length := hlen
  noResponse part f hpart := by
    rw [List.prefix_nil.mp hpart]
    exact fun hc => absurd hc not_completes_nil
  noTimeout part hpart := by
    rintro ⟨before, r, rfl, -⟩
    exact absurd (List.prefix_nil.mp hpart) (by simp)
  flag := iff_of_false (not_not.mpr hflag) not_fired_nil

/-- The timer fires. -/
theorem Awaiting.timeout (h : Awaiting subtype room is parser comm) :
    Awaiting subtype room (is ++ [.timeout]) parser (timeoutCb comm) where
  reads := by
    rw [bytesOf_concat]
    exact (List.append_nil _).symm ▸ h.reads
  length := h.length
  noResponse part f hpart := by
    rcases List.prefix_concat_iff.mp hpart with rfl | hpart
    · rw [completes_concat_iff]
      rintro ⟨b, hb, -⟩
      exact absurd hb nofun
    · exact h.noResponse part f hpart
  noTimeout part hpart := by
    rcases List.prefix_concat_iff.mp hpart with rfl | hpart
    · rintro ⟨before, r, heq, -⟩
      exact absurd (List.append_inj' heq rfl).2 (by simp)
    · exact h.noTimeout part hpart
  flag := iff_of_true (by simp [timeoutCb]) (fired_timeout is)

/-- **What polling the UART does to the parser**, in terms of the frames in the bytes read. -/
theorem Awaiting.pollUart (h : Awaiting subtype room is parser comm) (r : CommResults) :
    Reads (final (collect hobdFormat) [] (bytesOf (is ++ [.run r])))
        (pollUart r.getchar parser).2 ∧
      (pollUart r.getchar parser).2.rxBuffer.length = parser.rxBuffer.length ∧
      ((pollUart r.getchar parser).1 = true → ∃ f, Completes (is ++ [.run r]) f ∧
        Complete hobdFormat f ∧ Holds (pollUart r.getchar parser).2.rxBuffer f ∧
        (pollUart r.getchar parser).2.state = .getType) ∧
      ((pollUart r.getchar parser).1 = false → ∀ f, ¬Completes (is ++ [.run r]) f) := by
  obtain ⟨hreads, hlen, htrue, hfalse⟩ := pollUart_reads r h.reads
  rw [bytesOf_concat, final_append]
  refine ⟨hreads, hlen, fun hfound => ?_, fun hfound f hc => ?_⟩
  · obtain ⟨b, hb, hdel, hcomplete, -, hstate, hholds⟩ := htrue hfound
    exact ⟨_, completes_concat_iff.mpr ⟨b, hb, hdel⟩, hcomplete, hholds, hstate⟩
  · obtain ⟨b, hb, hdel⟩ := completes_concat_iff.mp hc
    exact hfalse hfound b hb f hdel

/-- The header in the buffer is the header of the frame. -/
theorem isResponse_iff_of_holds {buffer f : List UInt8} (hholds : Holds buffer f)
    (hcomplete : Complete hobdFormat f) (hroom : 2 < buffer.length) :
    IsResponse subtype buffer ↔ IsResponse subtype f := by
  obtain ⟨t, s, st, l, rfl, -⟩ := hcomplete
  rw [IsResponse, hholds.headerType_eq (by omega), hholds.headerSubtype_eq hroom]
  rfl

/-- A round goes on with the wait. -/
theorem Awaiting.round {r : CommResults} {parser' : HobdParser} {comm' : Comm}
    (h : Awaiting subtype room is parser comm)
    (hreads : Reads (final (collect hobdFormat) [] (bytesOf (is ++ [.run r]))) parser')
    (hlen : parser'.rxBuffer.length = parser.rxBuffer.length)
    (hresp : ∀ f, Completes (is ++ [.run r]) f → ¬IsResponse subtype f)
    (htimeout : ¬TimedOut (is ++ [.run r]))
    (hflag : comm'.timeoutSignaled ≠ 0 ↔ Fired (is ++ [.run r])) :
    Awaiting subtype room (is ++ [.run r]) parser' comm' where
  reads := hreads
  length := hlen.trans h.length
  noResponse part f hpart := by
    rcases List.prefix_concat_iff.mp hpart with rfl | hpart
    · exact hresp f
    · exact h.noResponse part f hpart
  noTimeout part hpart := by
    rcases List.prefix_concat_iff.mp hpart with rfl | hpart
    · exact htimeout
    · exact h.noTimeout part hpart
  flag := hflag

/-- Where the call stands after a round. -/
def AfterRound (subtype : UInt8) (room : ℕ) (is : List CommInput)
    (x : Poll UInt64 × HobdParser × Comm) : Prop :=
  match x.1 with
  | .goesOn => Awaiting subtype room is x.2.1 x.2.2
  | .timedOut => Returned subtype room is 0 x.2.1
  | .found _ => Returned subtype room is 1 x.2.1

/-- **One round**: the wait goes on, or it ends with the response or with a timeout. -/
theorem Awaiting.afterRound {useTimeout : UInt32} (huse : useTimeout ≠ 0) (hroom : 2 < room)
    (r : CommResults) (h : Awaiting subtype room is parser comm) :
    Emits (fun _ => True) (AfterRound subtype room (is ++ [.run r]))
      (commWaitForRespRound subtype useTimeout r parser comm) := by
  obtain ⟨hreads, hlen, htrue, hfalse⟩ := h.pollUart r
  -- a round is settled by where it comes to
  have hround : ∀ {t x}, Takes (commWaitForRespRound subtype useTimeout r parser comm) t (some x) →
      AfterRound subtype room (is ++ [.run r]) x →
      Emits (fun _ => True) (AfterRound subtype room (is ++ [.run r]))
        (commWaitForRespRound subtype useTimeout r parser comm) := by
    intro t x htakes hx
    exact htakes.emits (fun _ _ => trivial) fun _ hb => Option.some.inj hb ▸ hx
  cases hfound : (HobdSystem.pollUart r.getchar parser).1 with
  | true =>
    obtain ⟨f, hcomp, hcomplete, hholds, hstate⟩ := htrue hfound
    have hresp : IsResponse subtype _ ↔ IsResponse subtype f :=
      isResponse_iff_of_holds hholds hcomplete (by rw [hlen, h.length]; exact hroom)
    by_cases hmatch : IsResponse subtype (HobdSystem.pollUart r.getchar parser).2.rxBuffer
    · refine hround (takes_commWaitForRespRound_found huse hfound hmatch) ?_
      refine Or.inl ⟨rfl, hstate, hlen.trans h.length, f, ⟨hcomp, hresp.mp hmatch, ?_⟩, hholds⟩
      intro part f' hpart hne
      exact h.noResponse part f' ((List.prefix_concat_iff.mp hpart).resolve_left hne)
    · -- a message that is not the response: the timer is started once more
      refine hround (takes_commWaitForRespRound_passedOver huse hfound hmatch) ?_
      refine h.round hreads hlen (fun f' hf' => ?_) (fun ht => ?_) (iff_of_false ?_ ?_)
      · rw [completes_inj hf' hcomp]
        exact fun hc => hmatch (hresp.mpr hc)
      · exact (timedOut_concat_run_iff.mp ht).2 f hcomp
      · exact not_not.mpr rfl
      · exact not_fired_of_completes hcomp
  | false =>
    have hnone := hfalse hfound
    by_cases hclear : comm.timeoutSignaled = 0
    · refine hround (takes_commWaitForRespRound_goesOn hfound hclear) ?_
      refine h.round hreads hlen (fun f hf => absurd hf (hnone f)) (fun ht => ?_) ?_
      · exact absurd hclear (h.flag.mpr (timedOut_concat_run_iff.mp ht).1)
      · rw [fired_concat_run_iff hnone]
        exact h.flag
    · refine hround (takes_commWaitForRespRound_timedOut huse hfound hclear) ?_
      exact Or.inr ⟨rfl, timedOut_concat_run_iff.mpr ⟨h.flag.mp hclear, hnone⟩⟩

/-- Where the call stands, in terms of all the moves: it goes on after them, or it has returned
behind a first part of them, and the rest is not its own. -/
def WaitOutcome.Ok (subtype : UInt8) (room : ℕ) (is : List CommInput) : WaitOutcome → Prop
  | .waiting parser comm => Awaiting subtype room is parser comm
  | .returned respFound _ parser _ rest =>
    ∃ used, is = used ++ rest ∧ Returned subtype room used respFound parser

/-- **All the rounds**, behind moves that are done, by induction over those that are left. -/
theorem waitRounds_ok {useTimeout : UInt32} (huse : useTimeout ≠ 0) (hroom : 2 < room) :
    ∀ (is : List CommInput) {done : List CommInput} {parser : HobdParser} {comm : Comm},
      Awaiting subtype room done parser comm →
      Emits (fun _ => True) (WaitOutcome.Ok subtype room (done ++ is))
        (waitRounds subtype useTimeout is parser comm) := by
  intro is
  induction is with
  | nil =>
    intro done parser comm h
    rw [List.append_nil]
    exact emits_pure h
  | cons i is ih =>
    intro done parser comm h
    rw [List.append_cons]
    cases i with
    | timeout => exact ih h.timeout
    | run r =>
      refine (h.afterRound huse hroom r).bind ?_
      rintro ⟨poll, parser', comm'⟩ hafter
      cases poll with
      | goesOn => exact ih hafter
      | timedOut => exact emits_pure ⟨_, rfl, hafter⟩
      | found t => exact emits_pure ⟨_, rfl, hafter⟩

end Loops

theorem not_timedOut_of_completes {is : List CommInput} {f : List UInt8} (h : Completes is f) :
    ¬TimedOut is := by
  rintro ⟨-, -, -, -, hnone⟩
  exact hnone f h

/-- **A call of `comm_wait_for_resp` finds the first response and nothing else**, for a parser at
the boundary of a frame with a buffer that `hobd_parser_init` takes. Where the call returns, `used`
are the moves it has seen, and no later byte is read:

* it returns 1 exactly if the last of them completes a response and no earlier one does, and then
  the parser is at a boundary again with that frame at the start of its buffer;
* it returns 0 exactly if the timer is seen to have fired since the last frame;
* no other frame ends the call.

As long as it has not returned, there has been neither. -/
theorem commWaitForResp_spec (subtype : UInt8) {useTimeout : UInt32} (huse : useTimeout ≠ 0)
    (r : CommResults) (is : List CommInput) (parser : HobdParser)
    (hstate : parser.state = .getType)
    (hroom : hobdMsgSizeMin.toNat < parser.rxBuffer.length) (comm : Comm) {outcome : WaitOutcome}
    (hres : (commWaitForResp subtype useTimeout r is parser comm).result = some outcome) :
    match outcome with
    | .waiting _ _ => ∀ part, part <+: is →
        ¬TimedOut part ∧ ∀ f, Completes part f → ¬IsResponse subtype f
    | .returned respFound _ parser' _ rest => ∃ used, is = used ++ rest ∧
        (respFound = 1 ∨ respFound = 0) ∧
        (respFound = 1 ↔ ∃ f, FirstResponse subtype used f) ∧
        (∀ f, FirstResponse subtype used f →
          Complete hobdFormat f ∧ byteSum f % 256 = 0 ∧ f <:+ bytesOf used ∧
          parser'.state = .getType ∧
          (f.length ≤ parser.rxBuffer.length → parser'.rxBuffer.take f.length = f)) ∧
        (respFound = 0 ↔ TimedOut used) ∧
        ∀ f, Completes used f → IsResponse subtype f := by
  have hok : WaitOutcome.Ok subtype parser.rxBuffer.length is outcome := by
    have hcall : Emits (fun _ => True) (WaitOutcome.Ok subtype parser.rxBuffer.length ([] ++ is))
        (commWaitForResp subtype useTimeout r is parser comm) := by
      have henter : Emits (fun _ => True) (fun comm' : Comm => comm'.timeoutSignaled = 0)
          (commRecvMsgEnter useTimeout r comm) :=
        (takes_commRecvMsgEnter r huse comm).emits (fun _ _ => trivial)
          fun _ hb => Option.some.inj hb ▸ rfl
      refine henter.bind fun comm' hflag => ?_
      exact waitRounds_ok huse (Nat.lt_trans (by decide) hroom) is (awaiting_nil hstate rfl hflag)
    exact hcall.2 outcome hres
  cases outcome with
  | waiting parser' comm' =>
    exact fun part hpart => ⟨hok.noTimeout part hpart, fun f => hok.noResponse part f hpart⟩
  | returned respFound rxTimestamp parser' comm' rest =>
    obtain ⟨used, rfl, ⟨rfl, hstate', hlen, f, hf, hholds⟩ | ⟨rfl, htimeout⟩⟩ := hok
    · have hnot := not_timedOut_of_completes hf.1
      refine ⟨used, rfl, Or.inl rfl, iff_of_true rfl ⟨f, hf⟩, fun f' hf' => ?_,
        iff_of_false (by decide) hnot, fun f' hf' => ?_⟩
      · obtain rfl := completes_inj hf'.1 hf.1
        obtain ⟨hcomplete, hsum, hsuffix⟩ := hf.1.frame
        exact ⟨hcomplete, hsum, hsuffix, hstate', fun hle => hholds.take_eq (hlen.symm ▸ hle)⟩
      · obtain rfl := completes_inj hf' hf.1
        exact hf.2.1
    · have hnone : ∀ f, ¬Completes used f := fun f hf => not_timedOut_of_completes hf htimeout
      exact ⟨used, rfl, Or.inr rfl, iff_of_false (by decide) fun ⟨f, hf⟩ => hnone f hf.1,
        fun f hf => absurd hf.1 (hnone f), iff_of_true rfl htimeout,
        fun f hf => absurd hf (hnone f)⟩

/-- A round in which every call succeeds and the UART has a byte. -/
def byteMove (b : UInt8) : CommInput :=
  .run ⟨0, 0, 0, Int32.ofNat b.toNat, 0, 0, 0, fun _ => some 0, none⟩

/-- The echo of the query, with the timer firing in front of its last byte, and the response. -/
def echoMoves : List CommInput :=
  [0x72, 0x05, 0x00, 0xF0].map byteMove ++ .timeout :: [0x99, 0x02, 0x04, 0x00, 0xFA].map byteMove

/-- A parser that has been reset. -/
def idleParser : HobdParser := ⟨.getType, 0, 0, 0, 0, 0, List.replicate 8 0, 8⟩

/-- The results of a call that is made with nothing on the line. -/
def quietResults : CommResults := ⟨0, 0, 0, -1, 0, 0, 0, fun _ => some 0, none⟩

theorem commWaitForResp_spec_echo :
    ∃ rxTimestamp parser comm rest used f,
      (commWaitForResp hobdMsgSubtypeInit 1 quietResults (echoMoves ++ [.timeout]) idleParser
        hobdModuleInit).result = some (.returned 1 rxTimestamp parser comm rest) ∧
      echoMoves ++ [.timeout] = used ++ rest ∧ FirstResponse hobdMsgSubtypeInit used f ∧
      parser.state = .getType ∧ f <:+ bytesOf used := by
  have hfound : ((commWaitForResp hobdMsgSubtypeInit 1 quietResults (echoMoves ++ [.timeout])
      idleParser hobdModuleInit).result.bind WaitOutcome.respFound?) = some 1 := by
    decide +kernel
  obtain ⟨outcome, hres, hone⟩ := Option.bind_eq_some_iff.mp hfound
  cases outcome with
  | waiting parser comm => exact absurd hone nofun
  | returned respFound rxTimestamp parser comm rest =>
    obtain rfl : respFound = 1 := Option.some.inj hone
    have hidle : idleParser.state = .getType := rfl
    obtain ⟨used, heq, -, hresp, hframe, -⟩ := commWaitForResp_spec _
      (show (1 : UInt32) ≠ 0 by decide) _ _ _ hidle (by decide) _ hres
    obtain ⟨f, hf⟩ := hresp.mp rfl
    obtain ⟨-, -, hsuffix, hstate, -⟩ := hframe f hf
    exact ⟨rxTimestamp, parser, comm, rest, used, f, hres, heq, hf, hstate, hsuffix⟩

end HobdSystem

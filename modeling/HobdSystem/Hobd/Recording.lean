import HobdSystem.Hobd.Established
import HobdSystem.Mmc.Overlap

/-!
# Passive recording

A thread that only listens is a recorder: what comes in on the line is logged, and nothing else.
It polls the UART in many calls of `comm_recv_msg`, each of which ends with a message or with a
timeout, and answers requests in between. None of this gets lost or doubled. **Since the request
that made it listen, the thread has logged exactly the frames that a deframer finds in the bytes
it has read** (`HobdSystem.listening_records`), each with the time at which its last byte was
read.

The reason is that a timeout in the middle of a frame leaves the parser alone, and that only the
requests that set the mode reset it. So `HobdSystem.Records` speaks of the moves since the last
such request, and every other move keeps it. It is not enough to say what was logged: the frame
that is open now will be logged in a later move, with bytes that were read in this one, and so the
parser has to have read exactly what a receiver would have open.

What a recording should be is said without the thread. `HobdSystem.listener` is a receiver that is
given the moves instead of bytes, so that it has the times as well, and `HobdSystem.arrivals` are
the frames it finds. That these are the frames of the whole stream of bytes that were read is a
fact about deframing (`HobdSystem.frame_arrivals`), and that the thread logs them is one about its
moves: in the one move that completes a frame, the message in the buffer of the parser is that
frame (`HobdSystem.listener_of_found`).

The calls that log are also right in themselves: they pass the checks of `mmc_log_entry_data`,
which would end the program otherwise.
-/

namespace HobdSystem

open Bytes Framing Run Traced

/-! ### What comes in -/

/-- What the time server answers first in a move. -/
def Move.time (m : Move) : UInt64 :=
  match m.2 with
  | .timeout => 0
  | .run r => r.firstTime.getD 0

/-- A frame on the line, and the time at which its last byte was read. -/
structure Arrival where
  time : UInt64
  frame : List UInt8
  deriving DecidableEq

/-- The entry an arrival is to be logged as. -/
def Arrival.entry (a : Arrival) : MmcEntry :=
  ⟨mmcEntryTypeHobdMsg, UInt16.ofNat a.frame.length, a.time, a.frame⟩

/-- A receiver that is given the moves: a byte that completes a frame is an arrival. -/
def listener (m : Move) (pre : List UInt8) : Option Arrival × List UInt8 :=
  match m.read? with
  | none => (none, pre)
  | some b =>
    ((collect hobdFormat b pre).1.frame?.map fun f => ⟨m.time, f⟩, (collect hobdFormat b pre).2)

/-- The arrivals in some moves, for a receiver that is at a boundary before them. -/
def arrivals (ms : List Move) : List Arrival := (answers listener [] ms).filterMap id

/-- The frames that a deframer finds in the bytes some moves read. -/
def framesRead (ms : List Move) : List (List UInt8) :=
  (deframe hobdFormat (bytesRead ms)).filterMap Verdict.frame?

/-- The call of `mmc_log_entry_data` an action is. -/
def CommAction.call? : CommAction → Option LogCall
  | .log call => some call
  | _ => none

/-- The calls among some actions. -/
def callsBy (t : List CommAction) : List LogCall := t.filterMap CommAction.call?

/-- The calls in some moves. -/
def callsIn (ms : List Move) : List LogCall := ms.flatMap fun m => callsBy m.actions

section Moves

variable (ms : List Move) (m : Move)

theorem bytesRead_cons_none {ms : List Move} {m : Move} (h : m.read? = none) :
    bytesRead (m :: ms) = bytesRead ms := List.filterMap_cons_none h

theorem bytesRead_cons_some {ms : List Move} {m : Move} {b : UInt8} (h : m.read? = some b) :
    bytesRead (m :: ms) = b :: bytesRead ms := List.filterMap_cons_some h

theorem listener_none {m : Move} (h : m.read? = none) (pre : List UInt8) :
    listener m pre = (none, pre) := by
  rw [listener, h]

theorem listener_some {m : Move} {b : UInt8} (h : m.read? = some b) (pre : List UInt8) :
    listener m pre =
      ((collect hobdFormat b pre).1.frame?.map fun f => ⟨m.time, f⟩,
        (collect hobdFormat b pre).2) := by
  rw [listener, h]

/-- The frame a listener has open is the one that a receiver has open. -/
theorem final_listener (pre : List UInt8) :
    final listener pre ms = final (collect hobdFormat) pre (bytesRead ms) := by
  induction ms generalizing pre with
  | nil => rfl
  | cons m ms ih =>
    rw [final_cons, ih]
    cases h : m.read? with
    | none => rw [listener_none h, bytesRead_cons_none h]
    | some b => rw [listener_some h, bytesRead_cons_some h, final_cons]

theorem arrivals_concat :
    arrivals (ms ++ [m]) = arrivals ms ++ (listener m (openFrame ms)).1.toList := by
  rw [arrivals, answers_append, final_listener, List.filterMap_append]
  change _ ++ ([(listener m (openFrame ms)).1]).filterMap id = _
  cases (listener m (openFrame ms)).1 <;> rfl

theorem callsIn_concat : callsIn (ms ++ [m]) = callsIn ms ++ callsBy m.actions := by
  rw [callsIn, List.flatMap_append, List.flatMap_singleton]
  rfl

theorem answers_listener (pre : List UInt8) :
    ((answers listener pre ms).filterMap id).map Arrival.frame =
      (answers (collect hobdFormat) pre (bytesRead ms)).filterMap Verdict.frame? := by
  induction ms generalizing pre with
  | nil => rfl
  | cons m ms ih =>
    rw [answers_cons]
    cases h : m.read? with
    | none =>
      rw [listener_none h, bytesRead_cons_none h]
      exact ih pre
    | some b =>
      rw [listener_some h, bytesRead_cons_some h, answers_cons]
      cases hv : (collect hobdFormat b pre).1.frame? with
      | none => simpa [hv] using ih _
      | some f => simpa [hv] using ih _

/-- **The arrivals are the frames of the bytes that were read**: the listener is the deframer,
with the moves in place of the bytes. -/
theorem frame_arrivals : (arrivals ms).map Arrival.frame = framesRead ms := by
  rw [arrivals, answers_listener, answers_collect]
  rfl

end Moves

/-! ### What a move of the thread logs -/

/-- The thread is enabled and only listens. -/
def Listens (s : CommThread) : Prop := s.comm.enabled ≠ 0 ∧ s.comm.listenOnly ≠ 0

/-- The message in a buffer that holds a complete frame. -/
theorem msgIn_of_holds {buffer f : List UInt8} (h : Holds buffer f) (hf : Complete hobdFormat f)
    (hlen : 251 ≤ buffer.length) :
    msgIn buffer = f ∧ (headerSize buffer).toUInt16 = UInt16.ofNat f.length := by
  have hshort : f.length ≤ 251 := hf.length_le
  have htake := h.take_eq (by omega)
  obtain ⟨t, s, st, l, rfl, -, hsize⟩ := hf
  have hs : headerSize buffer = s := by
    have h1 := h 1 (by simp) (by omega)
    rw [headerSize, List.getD_eq_getElem?_getD, h1]
    rfl
  have hlength : (t :: s :: st :: l).length = s.toNat := by
    simpa only [List.length_cons] using hsize
  refine ⟨?_, ?_⟩
  · rw [msgIn, hs, ← hlength, htake]
  · rw [hs, hlength, ← UInt16.toNat_inj, UInt8.toNat_toUInt16, UInt16.toNat_ofNat']
    have := s.toNat_lt
    omega

/-- **A received message is logged in a call that passes the checks**, and as the entry of its
arrival. -/
theorem receivedCall_loggable {msg f : List UInt8} (time : UInt64) (h : Holds msg f)
    (hf : Complete hobdFormat f) (hlen : 251 ≤ msg.length) :
    (receivedCall msg time).Loggable ∧
      (receivedCall msg time).entry = Arrival.entry ⟨time, f⟩ := by
  obtain ⟨-, hsize⟩ := msgIn_of_holds h hf hlen
  have hshort : f.length ≤ 251 := hf.length_le
  have hnat : (receivedCall msg time).dataSize.toNat = f.length := by
    rw [show (receivedCall msg time).dataSize = _ from hsize, UInt16.toNat_ofNat']
    omega
  have htype : mmcEntryTypeHobdMsg ≠ mmcEntryTypeInvalid := by decide
  have htake : msg.take (receivedCall msg time).dataSize.toNat = f := by
    rw [hnat, h.take_eq (by omega)]
  have hroom : (receivedCall msg time).data.length = msg.length := rfl
  refine ⟨⟨(sizeOk_iff _).mpr (by omega), by omega, htype⟩, ?_⟩
  rw [LogCall.entry, Arrival.entry]
  change MmcEntry.mk _ (headerSize msg).toUInt16 _
    (msg.take (receivedCall msg time).dataSize.toNat) = _
  rw [htake, hsize]
  rfl

section Logs

variable {r : CommResults} {s : CommThread} {pre : List UInt8} (hpoint : s.point = .listen)
  (hreads : Reads pre s.parser)

include hpoint hreads

/-- Without a message nothing arrives. -/
theorem listener_of_not_found (hfound : (pollUart r.getchar s.parser).1 = false) :
    (listener (s, .run r) pre).1 = none := by
  have hread : Move.read? (s, .run r) = (CommInput.run r).byte? := Move.read?_listen hpoint
  cases hb : (CommInput.run r).byte? with
  | none => rw [listener_none (hread.trans hb)]
  | some b =>
    rw [listener_some (hread.trans hb)]
    have hnone := (pollUart_reads r hreads).2.2.2 hfound b hb
    cases hv : (collect hobdFormat b pre).1 with
    | delivered f => exact absurd hv (hnone f)
    | pending | dropped | corrupt => rfl

/-- **What arrives in a move of a thread that listens is logged in it**, with the same bytes and
the same time, and as an entry that fits into a message. -/
theorem listener_of_found (hlen : 251 ≤ s.parser.rxBuffer.length)
    (hfound : (pollUart r.getchar s.parser).1 = true) :
    ∃ a, (listener (s, .run r) pre).1 = some a ∧
      (receivedCall (pollUart r.getchar s.parser).2.rxBuffer (r.firstTime.getD 0)).Loggable ∧
      (receivedCall (pollUart r.getchar s.parser).2.rxBuffer (r.firstTime.getD 0)).entry =
        a.entry := by
  have hread : Move.read? (s, .run r) = (CommInput.run r).byte? := Move.read?_listen hpoint
  obtain ⟨-, hkeeps, htrue, -⟩ := pollUart_reads r hreads
  obtain ⟨b, hb, hdel, hcomplete, -, -, hholds⟩ := htrue hfound
  refine ⟨⟨r.firstTime.getD 0, pre ++ [b]⟩, ?_,
    receivedCall_loggable _ hholds hcomplete (hkeeps ▸ hlen)⟩
  rw [listener_some (hread.trans hb), hdel]
  rfl

end Logs

/-! ### The invariant -/

/-- **What has been recorded**: in some moves the thread has logged what arrived in them, and its
parser has read what has come in of the next frame. -/
structure Records (since : List Move) (s : CommThread) : Prop where
  reads : Reads (openFrame since) s.parser
  entries : (callsIn since).map LogCall.entry = (arrivals since).map Arrival.entry
  loggable : ∀ c ∈ callsIn since, c.Loggable

/-- The thread has been recording since the mode was last set, if it listens. Nothing is said of a
thread that does not. -/
def Recording (h : List Move) (s : CommThread) : Prop :=
  Listens s → Since Move.setsMode (Records · s) h

section Invariant

variable {h : List Move} {s s' : CommThread} {i : CommInput}

/-- A move that leaves the flags alone. -/
theorem Recording.append (hrec : Recording h s)
    (hflags : s'.comm.enabled = s.comm.enabled ∧ s'.comm.listenOnly = s.comm.listenOnly)
    (hstep : Listens s → Move.setsMode (s, i) = false ∧ ∀ pre, Reads pre s.parser →
      Reads (final (collect hobdFormat) pre (Move.read? (s, i)).toList) s'.parser ∧
      (callsBy (Move.actions (s, i))).map LogCall.entry =
        (listener (s, i) pre).1.toList.map Arrival.entry ∧
      ∀ c ∈ callsBy (Move.actions (s, i)), c.Loggable) :
    Recording (h ++ [(s, i)]) s' := by
  rintro ⟨hen, hlisten⟩
  have hlistens : Listens s := ⟨hflags.1 ▸ hen, hflags.2 ▸ hlisten⟩
  obtain ⟨hset, hmove⟩ := hstep hlistens
  refine Since.append (hrec hlistens) (by simpa using hset) ?_
  rintro since ⟨hreads, hentries, hloggable⟩
  obtain ⟨hreads', hentries', hloggable'⟩ := hmove _ hreads
  refine ⟨?_, ?_, ?_⟩
  · rw [openFrame_concat]
    exact hreads'
  · rw [callsIn_concat, arrivals_concat, List.map_append, List.map_append, hentries, hentries']
  · rw [callsIn_concat]
    exact List.forall_mem_append.mpr ⟨hloggable, hloggable'⟩

/-- A move that reads and logs nothing, and leaves the parser alone. -/
theorem Recording.quiet (hrec : Recording h s)
    (hflags : s'.comm.enabled = s.comm.enabled ∧ s'.comm.listenOnly = s.comm.listenOnly)
    (hread : Move.read? (s, i) = none)
    (hstep : Listens s → Move.setsMode (s, i) = false ∧
      callsBy (Move.actions (s, i)) = [] ∧ s'.parser = s.parser) :
    Recording (h ++ [(s, i)]) s' := by
  refine hrec.append hflags fun hlistens => ?_
  obtain ⟨hset, hcalls, hparser⟩ := hstep hlistens
  refine ⟨hset, fun pre hpre => ?_⟩
  rw [hread, hparser, hcalls, listener_none hread]
  exact ⟨hpre, rfl, fun c hc => absurd hc List.not_mem_nil⟩

/-- **A move of a thread that listens**, with what it logs. The calls of the log are compared with
the arrivals for every state that the receiver may be in. -/
theorem Recording.listen (hrec : Recording h s) {r : CommResults} {t : List CommAction}
    (hpoint : s.point = .listen) (ht : Move.actions (s, .run r) = t)
    (hparser : s'.parser = (pollUart r.getchar s.parser).2) (hmode : SameMode s.comm s'.comm)
    (hset : t.any CommAction.setsMode = false)
    (hlogs : ∀ pre, Reads pre s.parser →
      (callsBy t).map LogCall.entry = (listener (s, .run r) pre).1.toList.map Arrival.entry ∧
      ∀ c ∈ callsBy t, c.Loggable) :
    Recording (h ++ [(s, .run r)]) s' := by
  have hread : Move.read? (s, .run r) = (CommInput.run r).byte? := Move.read?_listen hpoint
  subst ht
  refine hrec.append ⟨hmode.1, hmode.2.1⟩ fun _ => ⟨hset, fun pre hpre => ⟨?_, hlogs pre hpre⟩⟩
  rw [hread, hparser]
  exact (pollUart_reads r hpre).1

/-- **A request** is logged as nothing. If it sets the mode, the record starts on a parser that is
reset. -/
theorem Recording.answered (hrec : Recording h s) {r : CommResults} {blocking : Bool}
    {m : IpcMessage} {q : HobdRequest} {reply : IpcReply} (now : UInt64)
    (hpoint : s.point = .recv blocking)
    (ht : Move.actions (s, .run r) = [.request m.label m.ipc.getMR0, .reply reply])
    (hq : hobdRequestOf m.label m.ipc.getMR0 = some q) :
    Recording (h ++ [(s, .run r)]) (q.perform now s).2 := by
  have hread : Move.read? (s, .run r) = none := Move.read?_recv hpoint
  have hmark : Move.setsMode (s, .run r) = q.setsMode := by
    rw [Move.setsMode, ht, List.any_cons, setsMode_request hq]
    exact Bool.or_false _
  cases hset : q.setsMode with
  | true =>
    obtain ⟨enabled, listenOnly, heq⟩ := perform_of_setsMode hset now s
    rw [heq]
    exact fun _ => ⟨h, _, [], rfl, hmark.trans hset, by simp, reads_nil rfl, rfl, by simp [callsIn]⟩
  | false =>
    obtain ⟨stats, heq, -⟩ := perform_of_not_setsMode hset now s
    rw [heq]
    exact hrec.quiet ⟨rfl, rfl⟩ hread fun _ => ⟨hmark.trans hset, by rw [ht]; rfl, rfl⟩

/-- **One move** keeps the record. Only a move that listens adds to it. A request that sets the
mode begins a new one, and a thread that does not listen has none to keep. -/
theorem Recording.moves (hex : Exchanging h s) (hrec : Recording h s) {r : CommResults}
    (hs' : (commStep (.run r) s).result = some s') : Recording (h ++ [(s, .run r)]) s' := by
  have hmoves := commMoves_of_result hs'
  generalize ht : (commStep (.run r) s).trace = t at hmoves
  -- a move that reads and logs nothing
  have hquiet : ∀ {u : List CommAction}, Move.actions (s, .run r) = u →
      u.any CommAction.setsMode = false → callsBy u = [] → s'.parser = s.parser →
      Move.setsMode (s, .run r) = false ∧ callsBy (Move.actions (s, .run r)) = [] ∧
        s'.parser = s.parser := by
    rintro u rfl hset hcalls hparser
    exact ⟨hset, hcalls, hparser⟩
  have hnothing : ∀ {u : List CommAction}, s.point = .listen → callsBy u = [] →
      (pollUart r.getchar s.parser).1 = false → ∀ pre, Reads pre s.parser →
        (callsBy u).map LogCall.entry = (listener (s, .run r) pre).1.toList.map Arrival.entry ∧
          ∀ c ∈ callsBy u, c.Loggable := by
    intro u hpoint hcalls hfound pre hpre
    rw [hcalls, listener_of_not_found hpoint hpre hfound]
    exact ⟨rfl, by simp⟩
  cases hmoves with
  | disabled hpoint hen =>
    exact hrec.quiet ⟨rfl, rfl⟩ (Move.read?_top hpoint) fun hlistens => absurd hen hlistens.1
  | listens hpoint hen hlisten =>
    exact hrec.quiet ⟨rfl, rfl⟩ (Move.read?_top hpoint) fun _ => hquiet ht rfl rfl rfl
  | pulses hpoint hactive hstate =>
    exact hrec.quiet ⟨rfl, rfl⟩ (Move.read?_top hpoint) fun hlistens => absurd hactive.2 hlistens.2
  | asks w hpoint hactive hawaits =>
    exact hrec.quiet ⟨rfl, rfl⟩ (Move.read?_top hpoint) fun hlistens => absurd hactive.2 hlistens.2
  | responded w hpoint =>
    exact hrec.append ⟨rfl, rfl⟩ fun hlistens => absurd (hex.active w hpoint).2.1 hlistens.2
  | passedOver w hpoint =>
    exact hrec.append ⟨rfl, rfl⟩ fun hlistens => absurd (hex.active w hpoint).2.1 hlistens.2
  | gaveUp w hpoint =>
    exact hrec.append ⟨rfl, rfl⟩ fun hlistens => absurd (hex.active w hpoint).2.1 hlistens.2
  | waited w hpoint =>
    exact hrec.append ⟨rfl, rfl⟩ fun hlistens => absurd (hex.active w hpoint).2.1 hlistens.2
  | heard hpoint hfound =>
    refine hrec.listen hpoint ht rfl (sameMode_untimed _) rfl fun pre hpre => ?_
    obtain ⟨a, harrival, hloggable, hentry⟩ := listener_of_found hpoint hpre hex.rx hfound
    rw [harrival]
    exact ⟨congrArg (fun e => [e]) hentry, List.forall_mem_singleton.mpr hloggable⟩
  | unheard hpoint hfound =>
    exact hrec.listen hpoint ht rfl (sameMode_untimed _) rfl (hnothing hpoint rfl hfound)
  | listened hpoint hfound =>
    exact hrec.listen hpoint ht rfl (SameMode.refl _) rfl (hnothing hpoint rfl hfound)
  | blocked hpoint =>
    exact hrec.quiet ⟨rfl, rfl⟩ (Move.read?_recv hpoint) fun _ => hquiet ht rfl rfl rfl
  | polled blocking hpoint =>
    exact hrec.quiet ⟨rfl, rfl⟩ (Move.read?_recv hpoint) fun _ => hquiet ht rfl rfl rfl
  | answered blocking m q hpoint hm hlabelled hq => exact hrec.answered _ hpoint ht hq

theorem Recording.step (hex : Exchanging h s) (hrec : Recording h s)
    (hs' : (commStep i s).result = some s') : Recording (h ++ [(s, i)]) s' := by
  cases i with
  | timeout =>
    obtain rfl := Option.some.inj hs'
    exact hrec.quiet ⟨rfl, rfl⟩ (Move.read?_timeout s) fun _ => ⟨rfl, rfl, rfl⟩
  | run r => exact Recording.moves hex hrec hs'

end Invariant

/-- **Every run** keeps the record. The invariant of the exchange is carried along with it, for
the size of the buffer and the bytes in the parser. -/
theorem recording_commRun (r : StartResults) (is : List CommInput) {s : CommThread}
    (hs : (commRun r is).result = some s) : Recording (commHistory r is) s := by
  refine (history_induction commStep (fun h s => Exchanging h s ∧ Recording h s)
    (fun _ _ _ _ hinv hs' => ⟨hinv.1.step hs', Recording.step hinv.1 hinv.2 hs'⟩) is _ []
    (fun s hs => ⟨exchanging_start r hs, fun hlistens => ?_⟩) s hs).2
  -- the thread starts disabled
  obtain ⟨hcomm, -⟩ := (obdCommThreadStart_emits r).2 s hs
  exact absurd (by rw [hcomm]; rfl) hlistens.1

/-! ### The result -/

/-- **A thread that only listens is a complete recorder.** In every run from `hobd_module_init` on,
in which the thread is now enabled and only listens: since the last request that set the mode,

* the entries it has logged are those of the frames that have arrived, each one once, in their
  order and with their times, and no other entry;
* the frames that have arrived are those a deframer finds in all the bytes that were read, across
  any timeouts and requests;
* and every call passes the checks of `mmc_log_entry_data`. -/
theorem listening_records (r : StartResults) (is : List CommInput) (s : CommThread)
    (hs : (commRun r is).result = some s) (hen : s.comm.enabled ≠ 0)
    (hlisten : s.comm.listenOnly ≠ 0) :
    Since Move.setsMode (fun since =>
      (callsIn since).map LogCall.entry = (arrivals since).map Arrival.entry ∧
        (arrivals since).map Arrival.frame = framesRead since ∧
        ∀ c ∈ callsIn since, c.Loggable) (commHistory r is) := by
  obtain ⟨before, m, since, heq, hm, hsince, -, hentries, hloggable⟩ :=
    recording_commRun r is hs ⟨hen, hlisten⟩
  exact ⟨before, m, since, heq, hm, hsince, hentries, frame_arrivals since, hloggable⟩

/-- The thread is enabled and listens. A frame comes in, with a timeout in the middle of it. -/
def passiveRun : List CommInput :=
  [quietLine none, quietLine (modeRequest ipcMsgTypeCommStateSetReq 1), quietLine none] ++
    [0x02, 0x04].map byteMove ++
    [.timeout, quietLine none, quietLine none, quietLine none] ++
    [0x00, 0xFA].map byteMove

theorem listening_records_passive :
    ∃ s, (commRun ⟨0, 0, 0⟩ passiveRun).result = some s ∧
      framesRead ((commHistory ⟨0, 0, 0⟩ passiveRun).drop 2) = [[0x02, 0x04, 0x00, 0xFA]] ∧
      Since Move.setsMode (fun since =>
        (callsIn since).map LogCall.entry = (arrivals since).map Arrival.entry ∧
          (arrivals since).map Arrival.frame = framesRead since ∧
          ∀ c ∈ callsIn since, c.Loggable) (commHistory ⟨0, 0, 0⟩ passiveRun) := by
  have hflags : (commRun ⟨0, 0, 0⟩ passiveRun).result.map
      (fun s => (s.comm.enabled, s.comm.listenOnly)) = some (1, 1) := by
    decide +kernel
  obtain ⟨s, hs, heq⟩ := Option.map_eq_some_iff.mp hflags
  obtain ⟨hen, hlisten⟩ := Prod.mk.inj heq
  refine ⟨s, hs, ?_, listening_records _ _ s hs (by rw [hen]; decide) (by rw [hlisten]; decide)⟩
  rw [← frame_arrivals]
  decide +kernel

end HobdSystem

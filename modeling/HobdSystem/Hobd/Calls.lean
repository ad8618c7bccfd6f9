import HobdSystem.Hobd.Comm

/-!
# What the calls of `comm.c` do

One lemma for each of the calls, and one for each way a round of the two loops can go. A lemma says
everything there is to say of a call: the actions it takes, in their order, and what it returns, in
terms of `Traced.Takes`. Any call that has a device or another thread behind it may fail, and then
the program ends; that is the only thing left open, and it is left open in the same way everywhere,
by the rule for sequences. So what is written down here is the run in which nothing fails, and the
runs in which something does are parts of it.

## The timer

The calls around the timer clear the flag that `timeout_cb` sets and leave everything else in
`g_comm` alone (`HobdSystem.Comm.untimed`), the mode of the thread and the state of the exchange
among it (`HobdSystem.SameMode`). They are made in the same order every time: the old callback is
deregistered before a new one is registered, and the flag is cleared between the two.

## The rounds

A round of `comm_recv_msg` has three ends and a round of `comm_wait_for_resp` four. The order of the
two questions a round asks is what they differ in: whether a message is complete is looked at first,
and the flag of the timer only if none is. So a message that is complete is returned even if the
timer has fired, and in `comm_wait_for_resp` a message that is not the response starts the timer
once more.
-/

namespace HobdSystem

open Traced

/-- Two values of `g_comm` that differ in the timer only: the flags and the state of the exchange
are the same, which is all that the invariants over runs look at. -/
def SameMode (comm comm' : Comm) : Prop :=
  comm'.enabled = comm.enabled ∧ comm'.listenOnly = comm.listenOnly ∧ comm'.state = comm.state

theorem SameMode.refl (comm : Comm) : SameMode comm comm := ⟨rfl, rfl, rfl⟩

/-- `g_comm` when the timer has been stopped: the flag that `timeout_cb` sets is cleared. -/
def Comm.untimed (comm : Comm) : Comm := { comm with timeoutSignaled := 0 }

theorem sameMode_untimed (comm : Comm) : SameMode comm comm.untimed := ⟨rfl, rfl, rfl⟩

/-- What `comm_start_timeout` does: a timer that is still running is stopped first. -/
def startTimer : List CommAction := [.deregisterCb, .registerRelCb commRxNoDataTimeoutNs]

/-- The pulse that wakes the ECU up. -/
def initPulse : List CommAction := [.gpioClr, .mdelay 70, .gpioSet, .mdelay 120]

/-- The message at the start of a buffer, as long as its own size byte says it is. -/
def msgIn (buffer : List UInt8) : List UInt8 := buffer.take (headerSize buffer).toNat

/-- A message that is a response of some kind. -/
def IsResponse (subtype : UInt8) (f : List UInt8) : Prop :=
  headerType f = hobdMsgTypeResponse ∧ headerSubtype f = subtype

/-! ### The timer -/

section Timer

variable (r : CommResults)

theorem takes_commStopTimeout (err : Int32) (comm : Comm) :
    Takes (commStopTimeout err comm) [.deregisterCb] (some comm.untimed) :=
  (takes_emit _).bind ((takes_require _).bind (takes_pure _))

theorem takes_commStartTimeout (comm : Comm) :
    Takes (commStartTimeout r comm) startTimer (some comm.untimed) :=
  (takes_commStopTimeout _ comm).bind
    ((takes_emit _).bind ((takes_require _).bind (takes_pure _)))

/-- A wait begins with the timer started and the flag cleared. -/
theorem takes_commRecvMsgEnter {useTimeout : UInt32} (huse : useTimeout ≠ 0) (comm : Comm) :
    Takes (commRecvMsgEnter useTimeout r comm) startTimer (some comm.untimed) := by
  rw [commRecvMsgEnter, if_pos huse]
  exact takes_commStartTimeout r comm

theorem takes_commRecvMsgLeave {useTimeout : UInt32} (huse : useTimeout ≠ 0) (comm : Comm) :
    Takes (commRecvMsgLeave useTimeout r comm) [.deregisterCb] (some comm.untimed) := by
  rw [commRecvMsgLeave, if_pos huse]
  exact takes_commStopTimeout _ comm

end Timer

/-! ### Driving the line -/

section Line

variable {comm : Comm} (hlisten : comm.listenOnly = 0)

include hlisten

theorem takes_gpioChange (a : CommAction) (err : Int32) :
    Takes (gpioChange a err comm) [a] (some ()) := by
  rw [gpioChange, if_pos hlisten]
  exact (takes_emit _).bind (takes_require _)

/-- **The pulse**, which is given on the transmit pin of the UART and after which the UART is set
up again. -/
theorem takes_commEcuInitSeq (r : CommResults) :
    Takes (commEcuInitSeq r comm) (initPulse ++ [.serialConfigure hobdKlineBaud 8 1])
      (some ()) := by
  have hseq : Takes (commGpioInitSeq r comm) initPulse (some ()) :=
    (takes_gpioChange hlisten _ _).bind
      ((takes_emit _).bind ((takes_gpioChange hlisten _ _).bind (takes_emit _)))
  exact hseq.bind ((takes_emit _).bind (takes_require _))

/-- A message is transmitted byte by byte. -/
theorem takes_commSendMsg (buffer : List UInt8) :
    Takes (commSendMsg buffer comm) ((msgIn buffer).map .putchar) (some ()) := by
  rw [commSendMsg, if_pos hlisten]
  exact takes_emit _

end Line

/-! ### Rounds -/

section Rounds

variable {r : CommResults} {useTimeout : UInt32} (huse : useTimeout ≠ 0) {parser : HobdParser}
  {comm : Comm}

include huse

/-- A round of `comm_recv_msg` that completes a message returns it, whatever the timer has done. -/
theorem takes_commRecvMsgRound_found (hfound : (pollUart r.getchar parser).1 = true) :
    Takes (commRecvMsgRound useTimeout r parser comm) [.deregisterCb]
      (some (.found (), (pollUart r.getchar parser).2, comm.untimed)) := by
  simp only [commRecvMsgRound, hfound, if_true]
  exact (takes_commRecvMsgLeave r huse comm).bind (takes_pure _)

theorem takes_commRecvMsgRound_timedOut (hfound : (pollUart r.getchar parser).1 = false)
    (hflag : comm.timeoutSignaled ≠ 0) :
    Takes (commRecvMsgRound useTimeout r parser comm) [.deregisterCb]
      (some (.timedOut, (pollUart r.getchar parser).2, comm.untimed)) := by
  simp only [commRecvMsgRound, hfound, Bool.false_eq_true, if_false]
  rw [if_pos ⟨huse, hflag⟩]
  exact (takes_commRecvMsgLeave r huse comm).bind (takes_pure _)

omit huse in
theorem takes_commRecvMsgRound_goesOn (hfound : (pollUart r.getchar parser).1 = false)
    (hflag : comm.timeoutSignaled = 0) :
    Takes (commRecvMsgRound useTimeout r parser comm) []
      (some (.goesOn, (pollUart r.getchar parser).2, comm)) := by
  simp only [commRecvMsgRound, hfound, Bool.false_eq_true, if_false]
  rw [if_neg fun hc => hc.2 hflag]
  exact takes_pure _

variable {subtype : UInt8}

/-- A round of `comm_wait_for_resp` that completes the response asks for the time. -/
theorem takes_commWaitForRespRound_found (hfound : (pollUart r.getchar parser).1 = true)
    (hresp : IsResponse subtype (pollUart r.getchar parser).2.rxBuffer) :
    Takes (commWaitForRespRound subtype useTimeout r parser comm) [.deregisterCb]
      (some (.found (r.firstTime.getD 0), (pollUart r.getchar parser).2, comm.untimed)) := by
  refine (takes_commRecvMsgRound_found huse hfound).bind ?_
  dsimp only
  rw [if_pos (show _ ∧ _ from hresp)]
  exact (takes_getD _ _).bind (takes_pure _)

/-- A message that is not the response starts the timer once more. -/
theorem takes_commWaitForRespRound_passedOver (hfound : (pollUart r.getchar parser).1 = true)
    (hresp : ¬IsResponse subtype (pollUart r.getchar parser).2.rxBuffer) :
    Takes (commWaitForRespRound subtype useTimeout r parser comm) (.deregisterCb :: startTimer)
      (some (.goesOn, (pollUart r.getchar parser).2, comm.untimed)) := by
  refine (takes_commRecvMsgRound_found huse hfound).bind ?_
  dsimp only
  rw [if_neg (show ¬(_ ∧ _) from hresp)]
  exact (takes_commRecvMsgEnter r huse comm.untimed).bind (takes_pure _)

theorem takes_commWaitForRespRound_timedOut (hfound : (pollUart r.getchar parser).1 = false)
    (hflag : comm.timeoutSignaled ≠ 0) :
    Takes (commWaitForRespRound subtype useTimeout r parser comm) [.deregisterCb]
      (some (.timedOut, (pollUart r.getchar parser).2, comm.untimed)) :=
  (takes_commRecvMsgRound_timedOut huse hfound hflag).bind (takes_pure _)

omit huse in
theorem takes_commWaitForRespRound_goesOn (hfound : (pollUart r.getchar parser).1 = false)
    (hflag : comm.timeoutSignaled = 0) :
    Takes (commWaitForRespRound subtype useTimeout r parser comm) []
      (some (.goesOn, (pollUart r.getchar parser).2, comm)) :=
  (takes_commRecvMsgRound_goesOn hfound hflag).bind (takes_pure _)

end Rounds

end HobdSystem

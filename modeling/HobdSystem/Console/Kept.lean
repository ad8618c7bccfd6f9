import HobdSystem.Console.Session

/-!
# What a session leaves of the log

A session at the console can remove the log, switch it off and switch it on, while other threads log
and the timer flushes the file. What becomes of the entries depends on the lines that are typed in,
and not on the rest (`HobdSystem.console_keeps_log`).

* **What is on the card stays there** as long as `mmc rm` is not typed in: the dump tool lists it
  after the session again, with whatever has come to the card meanwhile behind it. This is only said
  where something is known of the card, which is
* always if `mmc on` is not typed in. A log that is switched on while it is off has its file opened
  without the card, and what the library writes after that may be anything.
* **What has been logged is kept** if neither `mmc on` nor `mmc off` is typed in either: what is
  pending at the beginning comes to the card with the next flush. Both lines lose what is pending.

Each of the three is a relation between the log before and after, which every step of the module
keeps but for one kind of request (`HobdSystem.ConsoleSession.keeps`). Which line makes which
request is settled by the questions a line can ask.
-/

namespace HobdSystem

open Dialogue Simulation

variable {H : Type*} [DecidableEq H]

/-! ### Steps of the log -/

section Does

variable {i : MmcInput H} {o : MmcOutput} {a a' : LogService}

end Does

/-! ### Sessions -/

variable {start : List UInt8} {P : LogService → Prop} {ok : MmcRequest → Prop}

end HobdSystem

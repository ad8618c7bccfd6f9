import HobdSystem.Dump.LogService
import HobdSystem.Hobd.Recording

/-!
# From the K-line to the dump tool

The whole way of a message through the system: its bytes on the line, the parser of a thread that
only listens, the call of `mmc_log_entry_data`, the MMC thread, the log file, and the tool that
reads the file on another machine. **What the tool lists is what was on the line**
(`HobdSystem.dump_of_recording`), as long as the MMC thread handles the calls one at a time and
the card takes what is written.

Each part of the way has a file of its own, and this one only puts them together. From the bytes
on the line to the calls of the thread it is `HobdSystem.listening_records`: one call for each
frame that a deframer finds, and each of them passes the checks. From the calls to the log file,
and from there to the tool, it is `HobdSystem.dumpEntries_of_calls`: each call appends its entry,
and the tool reads the entries that were appended. What the two have to agree on is the entry, and
it is the same for both: the type of a message, its bytes, their number, and the time at which the
last of them was read.

The two conditions that are left are about the runs and not about the parts. Calls that are not
handled one at a time may spoil each other's words (`HobdSystem.Mmc.Overlap`), and a card that
does not take what is written ends the program. Nothing is asked of the line: there may be noise
on it, and timeouts may come in the middle of a message.
-/

namespace HobdSystem

open Framing Traced

variable {H : Type*} [DecidableEq H]

omit [DecidableEq H] in
theorem LogCall.Loggable.ok {q : LogRequest H} (h : q.call.Loggable) (hw : q.Written) : q.Ok :=
  ⟨h.type, h.sizeOk, h.data, hw⟩

/-- What the tool reads of calls that were handled one after the other. -/
theorem dumpEntries_of_calls (qs : List (LogRequest H)) (hqs : ∀ q ∈ qs, q.Ok) (ipc : Ipc)
    {s : MmcServer H} (h : Logging s.io) :
    ∃ ipc' s' log, qs.foldlM logEntry (ipc, s) = some (ipc', s') ∧
      s'.io.appended = s.io.appended ++ log ∧
      ∀ entryBuffer, dumpEntries ⟨entryBuffer, ⟨log, false⟩⟩ =
        some ((qs.map LogRequest.call).map LogCall.entry) := by
  obtain ⟨ipc', s', hrun, happ⟩ := foldlM_logEntry qs ipc h hqs
  refine ⟨ipc', s', _, hrun, happ, fun entryBuffer => ?_⟩
  rw [List.map_map]
  refine dumpEntries_bytes _ (fun e he => ?_) (by rw [List.flatMap_map]; rfl)
  obtain ⟨q, hq, rfl⟩ := List.mem_map.mp he
  have hlen := q.call.length_entry (hqs q hq).data
  have hsize := (sizeOk_iff q.call).mp (hqs q hq).sizeOk
  exact ⟨hlen, hlen ▸ hsize.trans (by omega)⟩

/-- **What was on the line is what the tool lists.** Take any run of the thread from
`hobd_module_init` on that has left it enabled and listening, and an MMC thread that is logging.
Handle the calls the thread has made since the mode was last set one at a time, with the library
writing every entry in whole. Then the tool reads from what was appended to the log file one entry
for each frame that was on the line in that time, with its bytes and the time of its last one, in
their order, and nothing else. -/
theorem dump_of_recording (r : StartResults) (is : List CommInput) (s : CommThread)
    (hs : (commRun r is).result = some s) (hen : s.comm.enabled ≠ 0)
    (hlisten : s.comm.listenOnly ≠ 0) (ipc : Ipc) (mmc : MmcServer H) (h : Logging mmc.io) :
    Since Move.setsMode (fun since =>
      (arrivals since).map Arrival.frame = framesRead since ∧
      ∀ qs : List (LogRequest H), qs.map LogRequest.call = callsIn since →
        (∀ q ∈ qs, q.Written) →
        ∃ ipc' mmc' log, qs.foldlM logEntry (ipc, mmc) = some (ipc', mmc') ∧
          mmc'.io.appended = mmc.io.appended ++ log ∧
          ∀ entryBuffer, dumpEntries ⟨entryBuffer, ⟨log, false⟩⟩ =
            some ((arrivals since).map Arrival.entry)) (commHistory r is) := by
  obtain ⟨before, m, since, heq, hm, hsince, -, hentries, hloggable⟩ :=
    recording_commRun r is hs ⟨hen, hlisten⟩
  refine ⟨before, m, since, heq, hm, hsince, frame_arrivals since, fun qs hcalls hwritten => ?_⟩
  rw [← hentries, ← hcalls]
  refine dumpEntries_of_calls qs (fun q hq => ?_) ipc h
  have hcall : q.call ∈ callsIn since := hcalls ▸ List.mem_map_of_mem hq
  exact (hloggable _ hcall).ok (hwritten q hq)

/-- A frame that comes in around a timeout, and an MMC thread that has just started. -/
theorem dump_of_recording_passive :
    ∃ s mmc, (commRun ⟨0, 0, 0⟩ passiveRun).result = some s ∧
      mmcThreadStart true (fatOk 0) (fatOk 12) 0 (Vector.replicate 120 0) blankIo = some mmc ∧
      Since Move.setsMode (fun since =>
        (arrivals since).map Arrival.frame = framesRead since ∧
        ∀ qs : List (LogRequest ℕ), qs.map LogRequest.call = callsIn since →
          (∀ q ∈ qs, q.Written) →
          ∃ ipc' mmc' log, qs.foldlM logEntry
              (⟨Vector.replicate 4 0, Vector.replicate 120 0⟩, mmc) = some (ipc', mmc') ∧
            mmc'.io.appended = mmc.io.appended ++ log ∧
            ∀ entryBuffer, dumpEntries ⟨entryBuffer, ⟨log, false⟩⟩ =
              some ((arrivals since).map Arrival.entry)) (commHistory ⟨0, 0, 0⟩ passiveRun) := by
  have hflags : (commRun ⟨0, 0, 0⟩ passiveRun).result.map
      (fun s => (s.comm.enabled, s.comm.listenOnly)) = some (1, 1) := by
    decide +kernel
  obtain ⟨s, hs, heq⟩ := Option.map_eq_some_iff.mp hflags
  obtain ⟨hen, hlisten⟩ := Prod.mk.inj heq
  exact ⟨s, _, hs, rfl, dump_of_recording _ _ s hs (by rw [hen]; decide) (by rw [hlisten]; decide)
    _ _ ⟨rfl, by decide, rfl⟩⟩

end HobdSystem

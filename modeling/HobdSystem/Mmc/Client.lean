import HobdSystem.Mmc.Server
import HobdSystem.Rpc

/-!
# The MMC module as the other threads see it

The model of the functions of `mmc_module.c` that other threads call, but for
`mmc_log_entry_data`: each makes one call to the MMC thread and reads the reply. The thread
answers in a round of its loop, on a file that the FAT library answers for. `mmc_log_entry_data`
is left to `HobdSystem.Mmc.Entry`, since it is not a call: it sends a message and does not wait
for a reply.

**None of the checks on a reply ever fails**, whatever state the thread is in, and what a function
returns is what its handler has in hand (`HobdSystem.mmcRequest_eq`). So a request may be thought
of as being done in the MMC thread itself (`HobdSystem.MmcRequest.perform`), and that is how all
other files see it: the words that travel, the labels and the number of words are dealt with here.

The functions return what the source declares, and not what a caller would like to know. A removal
returns the code of the file as a signed number, so that a caller who compares it with zero sees
whether the file was removed; the size of the file comes with a code of its own, and is not
written if there is no size; and the two functions for the state return a flag and no code at all,
so that a change that failed is seen only by the flag not being the one that was asked for.
-/

namespace HobdSystem

variable {H : Type*} [DecidableEq H]

/-! ### The functions -/

section Client

variable (now : UInt64) (r : FatResults H) (st : Ipc × MmcServer H)

/-- A call to the MMC thread, which answers it in one round. -/
def mmcCall (request response : UInt32) (args : List UInt32) (respLength : ℕ) :
    Option (Ipc × MmcServer H) :=
  checkedCall (fun m => mmcThreadStep m now r) mmcmodBaseBadge request response args respLength st

/-- The `mmc_stats_s` that some words are in memory. -/
def MmcStats.ofWords (words : List UInt32) : MmcStats :=
  ⟨UInt64.ofNat ((words.getD 0 0).toNat + 2 ^ 32 * (words.getD 1 0).toNat), words.getD 2 0⟩

/-- `mmc_get_stats`, into the memory of a `mmc_stats_s`. -/
def mmcGetStats (stats : Vector UInt32 3) : Option (MmcStats × Ipc × MmcServer H) :=
  (mmcCall now r st ipcMsgTypeStatsReq ipcMsgTypeStatsResp [] 3).bind fun st =>
    (sel4MrRecv st.1 3 stats).map fun stats => (.ofWords stats.toList, st)

/-- `mmc_rm`. -/
def mmcRm : Option (Int32 × Ipc × MmcServer H) :=
  (mmcCall now r st ipcMsgTypeRmFileReq ipcMsgTypeRmFileResp [] 1).bind fun st =>
    (st.1.getMR 0).map fun cmdResp => (cmdResp.toInt32, st)

/-- `mmc_get_file_size`: what it returns, and the size. -/
def mmcGetFileSize : Option ((Int32 × UInt32) × Ipc × MmcServer H) :=
  (mmcCall now r st ipcMsgTypeFileSizeReq ipcMsgTypeFileSizeResp [] 2).bind fun st =>
    (st.1.getMR 0).bind fun cmdResp => (st.1.getMR 1).map fun fileSize =>
      ((cmdResp.toInt32, if cmdResp.toInt32 = 0 then fileSize else 0), st)

/-- A call that is answered with the state. -/
def mmcStateCall (request : UInt32) (args : List UInt32) :
    Option (UInt32 × Ipc × MmcServer H) :=
  (mmcCall now r st request ipcMsgTypeStateResp args 1).bind fun st =>
    (st.1.getMR 0).map fun state => (state, st)

/-- `mmc_set_state`. -/
def mmcSetState (state : UInt32) : Option (UInt32 × Ipc × MmcServer H) :=
  mmcStateCall now r st ipcMsgTypeStateSetReq [state]

/-- `mmc_get_state`. -/
def mmcGetState : Option (UInt32 × Ipc × MmcServer H) :=
  mmcStateCall now r st ipcMsgTypeStateReq []

end Client

/-! ### Requests -/

/-- What another thread can ask for, by the functions of the module. To log an entry is no request
of this kind, since it has no answer. -/
inductive MmcRequest where
  | getStats
  | rm
  | getFileSize
  | setState (state : UInt32)
  | getState
  deriving DecidableEq, Repr

/-- What the functions return. -/
inductive MmcAnswer where
  | stats (stats : MmcStats)
  | status (ret : Int32)
  | size (ret : Int32) (size : UInt32)
  | state (state : UInt32)
  deriving DecidableEq, Repr

/-- The function for a request. -/
def mmcRequest (q : MmcRequest) (now : UInt64) (r : FatResults H) (st : Ipc × MmcServer H) :
    Option (MmcAnswer × Ipc × MmcServer H) :=
  match q with
  | .getStats => (mmcGetStats now r st (Vector.replicate 3 0)).map fun x => (.stats x.1, x.2)
  | .rm => (mmcRm now r st).map fun x => (.status x.1, x.2)
  | .getFileSize => (mmcGetFileSize now r st).map fun x => (.size x.1.1 x.1.2, x.2)
  | .setState state => (mmcSetState now r st state).map fun x => (.state x.1, x.2)
  | .getState => (mmcGetState now r st).map fun x => (.state x.1, x.2)

/-- A request done in the MMC thread itself, without messages. -/
def MmcRequest.perform (q : MmcRequest) (now : UInt64) (r : FatResults H) (s : MmcServer H) :
    MmcAnswer × MmcServer H :=
  match q with
  | .getStats => (.stats ⟨now, s.stats.entriesLogged⟩, { s with stats.timestamp := now })
  | .rm =>
    let (err, io) := mmcFileRm r s.io
    (.status err.toUInt32.toInt32, { s with io := io, stats.entriesLogged := 0 })
  | .getFileSize =>
    let (err, size) := mmcFileSize r s.io.file
    (.size err.toUInt32.toInt32 (if err = .ok then size else 0), s)
  | .setState state =>
    let s := (stateSetReq state r s).2
    (.state (mmcFileGetEnabled s.io.file), s)
  | .getState => (.state (mmcFileGetEnabled s.io.file), s)

section Spec

variable (now : UInt64) (r : FatResults H) (ipc : Ipc) (s : MmcServer H)

theorem toInt32_mmcFileErr_eq_zero {err : MmcFileErr} :
    err.toUInt32.toInt32 = 0 ↔ err = .ok := by
  cases err <;> decide

/-- **A call to the thread returns** with the reply of the handler, for all the requests in the
same way. -/
theorem mmcCall_spec (request response : UInt32) (args words : List UInt32) (respLength : ℕ)
    {s' : MmcServer H} (hargs : args.length ≤ 4) (hwords : words.length = respLength)
    (hshort : respLength ≤ 4)
    (hserve : ∀ m : IpcMessage, m.badge = mmcmodBaseBadge → m.label = request →
      (∀ i < args.length, m.ipc.word i = args[i]?) →
      mmcThreadStep m now r s = some (some ⟨response, words⟩, s')) :
    ∃ ipc', mmcCall now r (ipc, s) request response args respLength = some (ipc', s') ∧
      ∀ i < respLength, ipc'.word i = words[i]? :=
  checkedCall_spec ipc hargs hwords hshort fun _ hword => hserve _ rfl rfl hword

theorem mmcGetStats_eq (stats : Vector UInt32 3) : ∃ ipc', mmcGetStats now r (ipc, s) stats =
    some (⟨now, s.stats.entriesLogged⟩, ipc', (statsReq now s).2) := by
  obtain ⟨ipc', hcall, hword⟩ := mmcCall_spec now r ipc s ipcMsgTypeStatsReq
    ipcMsgTypeStatsResp [] [now.toUInt32, (now >>> 32).toUInt32, s.stats.entriesLogged] 3
    (by decide) rfl (by decide) fun m hbadge hlabel _ => by
      rw [mmcThreadStep, if_neg (not_not.mpr hbadge), hlabel, if_pos rfl]
      rfl
  obtain ⟨stats', hrecv, hlist⟩ :=
    sel4MrRecv_of_word 3 (by simp) (by decide) hword stats
  refine ⟨ipc', ?_⟩
  rw [mmcGetStats, hcall, Option.bind_some, hrecv, Option.map_some, hlist, MmcStats.ofWords]
  simp only [List.getD_cons_zero, List.getD_cons_succ, ofNat_words]

theorem mmcRm_eq : ∃ ipc', mmcRm now r (ipc, s) =
    some ((mmcFileRm r s.io).1.toUInt32.toInt32, ipc', (rmFileReq r s).2) := by
  obtain ⟨ipc', hcall, hword⟩ := mmcCall_spec now r ipc s ipcMsgTypeRmFileReq
    ipcMsgTypeRmFileResp [] [(mmcFileRm r s.io).1.toUInt32] 1 (by decide) rfl (by decide)
    fun m hbadge hlabel _ => by
      rw [mmcThreadStep, if_neg (not_not.mpr hbadge), hlabel, if_neg (by decide),
        if_neg (by decide), if_neg (by decide), if_pos rfl]
      rfl
  refine ⟨ipc', ?_⟩
  rw [mmcRm, hcall, Option.bind_some, getMR_eq_word _ (by omega), hword 0 (by omega)]
  rfl

theorem mmcGetFileSize_eq : ∃ ipc', mmcGetFileSize now r (ipc, s) =
    some (((mmcFileSize r s.io.file).1.toUInt32.toInt32,
      if (mmcFileSize r s.io.file).1 = .ok then (mmcFileSize r s.io.file).2 else 0),
      ipc', s) := by
  obtain ⟨ipc', hcall, hword⟩ := mmcCall_spec now r ipc s ipcMsgTypeFileSizeReq
    ipcMsgTypeFileSizeResp []
    [(mmcFileSize r s.io.file).1.toUInt32, (mmcFileSize r s.io.file).2] 2 (by decide) rfl
    (by decide) fun m hbadge hlabel _ => by
      rw [mmcThreadStep, if_neg (not_not.mpr hbadge), hlabel, if_neg (by decide),
        if_neg (by decide), if_pos rfl]
      rfl
  refine ⟨ipc', ?_⟩
  rw [mmcGetFileSize, hcall, Option.bind_some, getMR_eq_word _ (by omega),
    getMR_eq_word _ (by omega), hword 0 (by omega), hword 1 (by omega)]
  simp only [List.getElem?_cons_zero, List.getElem?_cons_succ, Option.bind_some, Option.map_some,
    toInt32_mmcFileErr_eq_zero]

/-- A call that is answered with the state. -/
theorem mmcStateCall_spec (request : UInt32) (args : List UInt32) {state : UInt32}
    {s' : MmcServer H} (hargs : args.length ≤ 4)
    (hserve : ∀ m : IpcMessage, m.badge = mmcmodBaseBadge → m.label = request →
      (∀ i < args.length, m.ipc.word i = args[i]?) →
      mmcThreadStep m now r s = some (some ⟨ipcMsgTypeStateResp, [state]⟩, s')) :
    ∃ ipc', mmcStateCall now r (ipc, s) request args = some (state, ipc', s') := by
  obtain ⟨ipc', hcall, hword⟩ := mmcCall_spec now r ipc s request ipcMsgTypeStateResp args
    [state] 1 hargs rfl (by decide) hserve
  refine ⟨ipc', ?_⟩
  rw [mmcStateCall, hcall, Option.bind_some, getMR_eq_word _ (by omega), hword 0 (by omega)]
  rfl

theorem mmcSetState_eq (state : UInt32) : ∃ ipc', mmcSetState now r (ipc, s) state =
    some (mmcFileGetEnabled (stateSetReq state r s).2.io.file, ipc', (stateSetReq state r s).2) :=
  mmcStateCall_spec now r ipc s ipcMsgTypeStateSetReq [state] (by simp)
    fun m hbadge hlabel hword => by
    rw [mmcThreadStep, if_neg (not_not.mpr hbadge), hlabel, if_neg (by decide),
      if_neg (by decide), if_neg (by decide), if_neg (by decide), if_neg (by decide), if_pos rfl,
      getMR0_of_word (hword 0 (by simp))]
    rfl

theorem mmcGetState_eq :
    ∃ ipc', mmcGetState now r (ipc, s) = some (mmcFileGetEnabled s.io.file, ipc', s) :=
  mmcStateCall_spec now r ipc s ipcMsgTypeStateReq [] (by decide) fun m hbadge hlabel _ => by
    rw [mmcThreadStep, if_neg (not_not.mpr hbadge), hlabel, if_neg (by decide),
      if_neg (by decide), if_neg (by decide), if_neg (by decide), if_pos rfl]
    rfl

/-- **A request is answered as if it were done in place.** The call returns, whatever the
registers held and whatever the library answers. -/
theorem mmcRequest_eq (q : MmcRequest) :
    ∃ ipc', mmcRequest q now r (ipc, s) =
      some ((q.perform now r s).1, ipc', (q.perform now r s).2) := by
  cases q with
  | getStats =>
    obtain ⟨ipc', h⟩ := mmcGetStats_eq now r ipc s (Vector.replicate 3 0)
    exact ⟨ipc', by rw [mmcRequest, h]; rfl⟩
  | rm =>
    obtain ⟨ipc', h⟩ := mmcRm_eq now r ipc s
    exact ⟨ipc', by rw [mmcRequest, h]; rfl⟩
  | getFileSize =>
    obtain ⟨ipc', h⟩ := mmcGetFileSize_eq now r ipc s
    exact ⟨ipc', by rw [mmcRequest, h]; rfl⟩
  | setState state =>
    obtain ⟨ipc', h⟩ := mmcSetState_eq now r ipc s state
    exact ⟨ipc', by rw [mmcRequest, h]; rfl⟩
  | getState =>
    obtain ⟨ipc', h⟩ := mmcGetState_eq now r ipc s
    exact ⟨ipc', by rw [mmcRequest, h]; rfl⟩

end Spec

end HobdSystem

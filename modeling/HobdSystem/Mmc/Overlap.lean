import HobdSystem.Mmc.Entry
import HobdSystem.Library.Traced
import Mathlib.Data.List.Chain

/-!
# Log calls that overlap

A thread that logs and the MMC thread, step by step. A call of `mmc_log_entry_data` stores its
words one at a time, the first four in its own message registers and the others in
`ipc_buffer->msg` of the MMC thread, and then waits in `seL4_Send`. Where the two threads meet,
the registers are handed over and the call returns. The MMC thread copies the words one at a time,
its registers first and then `msg`, and writes the entry.

Left alone, the stores of a call are `mmc_log_entry_data` (`HobdSystem.run_loggerSteps`) and the
copies are `sel4_mr_recv` (`HobdSystem.run_copySteps`). But a call returns before its words have
been copied, and the next one stores into the same `msg`. So **the entries written are those of
the calls, one for each and in their order, in the runs where no word is copied after the next
call has stored its own; and they are so in every run exactly if no call has, in a word that both
calls store in `msg`, other data than the call before it** (`HobdSystem.logRun_iff`).

The header of an entry is in the first three words, and these travel in registers, so the size and
the time of an entry are right in any case; it is the data from the fifth byte on that is at risk.
And a word is not a byte: the last word of an entry has padding in it, which the next call may
overwrite without harm, and that is why the condition is about the data of the entry and not about
words (`HobdSystem.Compatible`).

The invariant of the runs that go well says of every word of the call that is being received where
it is: in the array of the MMC thread, or in the registers or `msg`, or overwritten by the next
call with something that does no harm (`HobdSystem.Receiving`). For the other direction a run is
built in which the next call stores all its words before any is copied
(`HobdSystem.exists_run_overtaken`).
-/

namespace HobdSystem

open LittleEndian Memory Traced

/-! ### The two threads -/

/-- The store of a word of a message. -/
def storeWord (c : LogCall) (idx : ℕ) (ipc : Ipc) : Option Ipc :=
  if idx ≤ 3 then ipc.setMR idx (c.word idx) else ipc.setMsg idx (c.word idx)

/-- Where the MMC thread is. -/
inductive MmcPoint
  /-- In `seL4_Recv`. -/
  | recv
  /-- In the loop of `sel4_mr_recv`, at an index. -/
  | copying (sizeWords : UInt32) (idx : ℕ)
  /-- At the checks of the entry in `g_msg_rx_buffer`. -/
  | writing
  deriving DecidableEq

/-- Both threads, and the array they share: a thread that logs stores its words in the same `msg`
that the MMC thread copies them from. -/
structure LogSystem where
  /-- The calls that have not returned. -/
  calls : List LogCall
  /-- How many words of the first of them are stored. -/
  stored : ℕ
  /-- The message registers of the thread that logs. -/
  loggerMr : Vector UInt32 4
  /-- `ipc_buffer->msg` of the MMC thread. -/
  msg : Vector UInt32 120
  point : MmcPoint
  /-- The message registers of the MMC thread. -/
  mmcMr : Vector UInt32 4
  msgRxBuffer : Vector UInt32 120

/-- Which thread runs. -/
inductive LogInput
  | logger
  | mmc
  deriving DecidableEq

/-- A step of `mmc_log_entry_data`. -/
def loggerStep (s : LogSystem) : Traced (List UInt8) LogSystem :=
  match s.calls with
  | [] => pure s
  | c :: _ => do
    require (decide (c.totalSizeBytes % 4 = 0))
    require (decide (c.totalSizeBytes ≤ mmcEntryDataSizeMax))
    if s.stored < (c.totalSizeBytes / 4).toNat then
      let ipc ← ofOption (storeWord c s.stored ⟨s.loggerMr, s.msg⟩)
      return { s with loggerMr := ipc.mr, msg := ipc.msg, stored := s.stored + 1 }
    -- in `seL4_Send`
    else return s

/-- A step of the MMC thread. What it writes is what it does. -/
def receiverStep (s : LogSystem) : Traced (List UInt8) LogSystem :=
  match s.point with
  | .recv =>
    match s.calls with
    | [] => pure s
    | c :: calls =>
      if s.stored = (c.totalSizeBytes / 4).toNat then
        pure { s with
          calls := calls, stored := 0, mmcMr := s.loggerMr
          point := .copying (c.totalSizeBytes / 4) 0 }
      else pure s
  | .copying sizeWords idx =>
    if idx < sizeWords.toNat then do
      let msgRxBuffer ←
        ofOption ((Ipc.word ⟨s.mmcMr, s.msg⟩ idx).bind (store s.msgRxBuffer idx))
      return { s with msgRxBuffer := msgRxBuffer, point := .copying sizeWords (idx + 1) }
    else pure { s with point := .writing }
  | .writing => do
    let mem := wordsBytes s.msgRxBuffer.toList
    require (decide ((entryAt mem).type ≠ mmcEntryTypeInvalid))
    require (decide ((entryAt mem).size.toUInt32 ≤ mmcEntryDataSizeMax))
    emit [mem.take (mmcEntryTotalSize (entryAt mem)).toNat]
    return { s with point := .recv }

/-- A step of either. -/
def logStep : LogInput → LogSystem → Traced (List UInt8) LogSystem
  | .logger => loggerStep
  | .mmc => receiverStep

/-- Some calls are to be made, and the MMC thread waits. The arrays hold anything. -/
def LogSystem.Starts (cs : List LogCall) (s : LogSystem) : Prop :=
  s.calls = cs ∧ s.stored = 0 ∧ s.point = .recv

/-- What is written in a run. -/
def logRun (s : LogSystem) (is : List LogInput) : Traced (List UInt8) LogSystem :=
  run logStep (pure s) is

/-! ### What is to hold -/

/-- A call that passes the checks on both sides, with a pointer to as many bytes as it says. -/
structure LogCall.Loggable (c : LogCall) : Prop where
  sizeOk : c.SizeOk
  data : c.dataSize.toNat ≤ c.data.length
  type : c.type ≠ mmcEntryTypeInvalid

/-- The entries written are those of the calls, in their order, and where the MMC thread waits,
the calls without an entry are the ones that have not returned. -/
def WritesInOrder (cs : List LogCall) (x : Traced (List UInt8) LogSystem) : Prop :=
  x.trace <+: cs.map (·.entry.bytes) ∧
    ∃ s, x.result = some s ∧ (s.point = .recv →
      cs.map (·.entry.bytes) = x.trace ++ s.calls.map (·.entry.bytes))

/-- A word of `msg` is copied, and the next call has stored its own there. The first four words
are in registers, and these the two threads do not share. -/
def Overtaken (m : LogSystem × LogInput) : Prop :=
  m.2 = .mmc ∧ ∃ sizeWords idx, m.1.point = .copying sizeWords idx ∧ idx < sizeWords.toNat ∧
    4 ≤ idx ∧ idx < m.1.stored

/-- Where the words of a call in `msg` take the place of those of the call before, they hold the
same data. It is a condition on the two calls alone, and says nothing about when they are made. -/
def Compatible (c c' : LogCall) : Prop :=
  ∀ j, 4 ≤ j → j < c.dataSize.toNat → j < 4 * c'.dataWords →
    paddedByte c'.data c'.dataSize j = paddedByte c.data c.dataSize j

/-! ### Bytes of words -/

theorem getElem?_wordsBytes (l : List UInt32) (b : ℕ) :
    (wordsBytes l)[b]? = l[b / 4]?.bind fun word => (bytes 4 word.toNat)[b % 4]? := by
  induction l generalizing b with
  | nil => rfl
  | cons word l ih =>
    have hcons : wordsBytes (word :: l) = bytes 4 word.toNat ++ wordsBytes l := List.flatMap_cons ..
    rw [hcons]
    rcases Nat.lt_or_ge b 4 with hb | hb
    · rw [List.getElem?_append_left (by rwa [length_bytes]), Nat.div_eq_of_lt hb,
        Nat.mod_eq_of_lt hb]
      rfl
    · rw [List.getElem?_append_right (by rwa [length_bytes]), length_bytes, ih,
        show b / 4 = (b - 4) / 4 + 1 by omega, show b % 4 = (b - 4) % 4 by omega,
        List.getElem?_cons_succ]

section Carries

variable (c : LogCall)

/-- A word that holds, at an index, the bytes of the entry of a call. -/
def LogCall.Carries (idx : ℕ) (word : UInt32) : Prop :=
  ∀ i < 4, 4 * idx + i < 12 + c.dataSize.toNat →
    (bytes 4 word.toNat)[i]? = c.entry.bytes[4 * idx + i]?

theorem LogCall.carries_word (hdata : c.dataSize.toNat ≤ c.data.length) (idx : ℕ) :
    c.Carries idx (c.word idx) := by
  intro i hi hlt
  have hidx : (4 * idx + i) / 4 = idx := by omega
  have hrange : idx < 3 + c.dataWords := by
    unfold LogCall.dataWords
    omega
  rw [← take_wordsBytes c hdata [], List.append_nil, List.getElem?_take_of_lt hlt,
    getElem?_wordsBytes, hidx, show (4 * idx + i) % 4 = i by omega, List.getElem?_map,
    List.getElem?_range hrange]
  rfl

theorem getElem?_bytes_word (idx : ℕ) {i : ℕ} (hi : i < 4) :
    (bytes 4 (c.word (idx + 3)).toNat)[i]? =
      some (paddedByte c.data c.dataSize (idx * 4 + i)) := by
  change (bytes 4 (dataWord c.data c.dataSize idx).toNat)[i]? = _
  rw [bytes_dataWord, List.getElem?_map, List.getElem?_range hi]
  rfl

theorem getElem?_entry_bytes (hdata : c.dataSize.toNat ≤ c.data.length) {j : ℕ}
    (hj : j < c.dataSize.toNat) :
    c.entry.bytes[12 + j]? = some (paddedByte c.data c.dataSize j) := by
  have h := c.carries_word hdata (j / 4 + 3) (j % 4) (by omega) (by omega)
  rw [getElem?_bytes_word c _ (by omega), show j / 4 * 4 + j % 4 = j by omega,
    show 4 * (j / 4 + 3) + j % 4 = 12 + j by omega] at h
  exact h.symm

/-- A word of a call that is compatible carries the bytes of the call before it. -/
theorem Compatible.carries {c c' : LogCall} (h : Compatible c c')
    (hdata : c.dataSize.toNat ≤ c.data.length) {idx : ℕ} (hmin : 4 ≤ idx)
    (hidx : idx < 3 + c'.dataWords) : c.Carries idx (c'.word idx) := by
  intro i hi hlt
  obtain ⟨k, rfl⟩ : ∃ k, idx = k + 3 := ⟨idx - 3, by omega⟩
  rw [getElem?_bytes_word c' k hi, show 4 * (k + 3) + i = 12 + (k * 4 + i) by omega,
    getElem?_entry_bytes c hdata (by omega), h _ (by omega) (by omega) (by omega)]

/-- An array whose words carry the bytes of an entry, as far as some index, begins with them. -/
theorem take_of_carries {l : List UInt32} {k : ℕ}
    (hwords : ∀ idx < 3 + c.dataWords, 4 * idx < k →
      ∃ word, l[idx]? = some word ∧ c.Carries idx word)
    (hk : k ≤ 12 + c.dataSize.toNat) : (wordsBytes l).take k = c.entry.bytes.take k := by
  refine List.ext_getElem? fun b => ?_
  rcases Nat.lt_or_ge b k with hb | hb
  · obtain ⟨word, hword, hcarries⟩ := hwords (b / 4)
      (by unfold LogCall.dataWords; omega) (by omega)
    rw [List.getElem?_take_of_lt hb, List.getElem?_take_of_lt hb, getElem?_wordsBytes, hword]
    have h := hcarries (b % 4) (by omega) (by omega)
    rwa [show 4 * (b / 4) + b % 4 = b by omega] at h
  · rw [List.getElem?_take_eq_none hb, List.getElem?_take_eq_none hb]

theorem length_entry_bytes (hdata : c.dataSize.toNat ≤ c.data.length) :
    c.entry.bytes.length = 12 + c.dataSize.toNat := by
  rw [MmcEntry.bytes, List.length_append, c.entry.length_header, ← c.length_entry hdata]
  rfl

/-- **The write of an entry whose header has come through.** The size is in the header, so as many
bytes are written as the entry has, and the data may still be another's. -/
theorem receiverStep_writing {c : LogCall} (hc : c.Loggable) {s : LogSystem}
    (hpoint : s.point = .writing)
    (hheader : ∀ idx < 3, ∃ word, s.msgRxBuffer[idx]? = some word ∧ c.Carries idx word) :
    receiverStep s =
      ⟨[(wordsBytes s.msgRxBuffer.toList).take (12 + c.dataSize.toNat)],
        some { s with point := .recv }⟩ := by
  have hsize : c.dataSize.toNat ≤ 456 := (sizeOk_iff c).mp hc.sizeOk
  have htake : (wordsBytes s.msgRxBuffer.toList).take 12 = c.entry.header := by
    rw [take_of_carries c (fun idx _ h => by
      rw [Vector.getElem?_toList]
      exact hheader idx (by omega)) (by omega), MmcEntry.bytes,
      List.take_left' c.entry.length_header]
  have hentry := entryAt_header c.entry ((wordsBytes s.msgRxBuffer.toList).drop 12)
  rw [← htake, List.take_append_drop] at hentry
  have htype : (entryAt (wordsBytes s.msgRxBuffer.toList)).type = c.type := by rw [hentry]; rfl
  have hlen : (entryAt (wordsBytes s.msgRxBuffer.toList)).size = c.dataSize := by rw [hentry]; rfl
  have htotal : (c.dataSize + 12).toNat = 12 + c.dataSize.toNat := by
    rw [UInt16.toNat_add]
    change (c.dataSize.toNat + 12) % 65536 = _
    omega
  have hmax : c.dataSize.toUInt32 ≤ mmcEntryDataSizeMax := by
    rw [UInt32.le_iff_toNat_le, UInt16.toNat_toUInt32]
    exact hsize.trans (by decide)
  rw [receiverStep, hpoint]
  simp only [htype, hlen, mmcEntryTotalSize, htotal, hc.type, hmax, decide_true, ne_eq,
    not_false_eq_true, require_true_bind, emit_bind]
  rfl

end Carries

/-! ### One step -/

/-- The store of one word: it is there, and no other word has changed, for either thread. -/
theorem storeWord_spec (c : LogCall) (ipc : Ipc) {idx : ℕ} (hidx : idx < 120) :
    ∃ ipc', storeWord c idx ipc = some ipc' ∧ ipc'.word idx = some (c.word idx) ∧
      (∀ j ≠ idx, ipc'.word j = ipc.word j) ∧
      ∀ mr j, j ≠ idx ∨ j ≤ 3 → Ipc.word ⟨mr, ipc'.msg⟩ j = Ipc.word ⟨mr, ipc.msg⟩ j := by
  unfold storeWord
  split_ifs with h3
  · obtain ⟨ipc', hset, hword, hother⟩ := setMR_spec ipc (c.word idx) (show idx < 4 by omega)
    have hmsg : ipc'.msg = ipc.msg := by
      rw [Ipc.setMR, store_of_lt ipc.mr _ (show idx < 4 by omega)] at hset
      rw [← Option.some.inj hset]
    exact ⟨ipc', hset, hword, hother, fun mr j _ => by rw [hmsg]⟩
  · obtain ⟨ipc', hset, hword, hother⟩ :=
      setMsg_spec ipc (c.word idx) (show 4 ≤ idx by omega) hidx
    refine ⟨ipc', hset, hword, hother, fun mr j hj => ?_⟩
    rcases Nat.lt_or_ge 3 j with hlt | hle
    · have h := hother j (hj.resolve_right (by omega))
      rw [Ipc.word, Ipc.word, if_neg (by omega), if_neg (by omega)] at h
      rw [Ipc.word, Ipc.word, if_neg (by omega), if_neg (by omega)]
      exact h
    · rw [Ipc.word, Ipc.word, if_pos hle, if_pos hle]

theorem toNat_totalSizeWords (c : LogCall) : (c.totalSizeBytes / 4).toNat = 3 + c.dataWords := by
  rw [UInt32.toNat_div, toNat_totalSizeBytes]
  exact Nat.mul_div_cancel _ (by decide)

theorem totalSizeBytes_aligned (c : LogCall) : c.totalSizeBytes % 4 = 0 := by
  rw [← UInt32.toNat_inj, UInt32.toNat_mod, toNat_totalSizeBytes]
  exact Nat.mul_mod_left _ _

theorem LogCall.SizeOk.words_le {c : LogCall} (h : c.SizeOk) : 3 + c.dataWords ≤ 120 := by
  have hsize : c.dataSize.toNat ≤ 456 := (sizeOk_iff c).mp h
  unfold LogCall.dataWords
  omega

/-- A step of a call that passes the check. -/
theorem loggerStep_cons {s : LogSystem} {c : LogCall} {calls : List LogCall}
    (hcalls : s.calls = c :: calls) (hok : c.SizeOk) :
    loggerStep s =
      if s.stored < 3 + c.dataWords then
        (ofOption (storeWord c s.stored ⟨s.loggerMr, s.msg⟩) >>= fun ipc =>
          pure { s with loggerMr := ipc.mr, msg := ipc.msg, stored := s.stored + 1 })
      else pure s := by
  rw [loggerStep, hcalls]
  have hmax : c.totalSizeBytes ≤ mmcEntryDataSizeMax := hok
  simp only [totalSizeBytes_aligned, hmax, decide_true, require_true_bind, toNat_totalSizeWords]

/-- The words of the first call that are stored are its own, in the registers and in the array,
and there are no more of them than it has. -/
structure Composed (s : LogSystem) : Prop where
  none : s.calls = [] → s.stored = 0
  le : ∀ c ∈ s.calls.head?, s.stored ≤ 3 + c.dataWords
  words : ∀ c ∈ s.calls.head?, ∀ j < s.stored, Ipc.word ⟨s.loggerMr, s.msg⟩ j = some (c.word j)

/-- The MMC thread has copied the words of a call below an index, as far as the entry goes, and
the others are still there, or the next call has stored its own. -/
structure Receiving (c : LogCall) (s : LogSystem) (idx : ℕ) : Prop where
  le : idx ≤ 3 + c.dataWords
  copied : ∀ j < idx, ∃ word, s.msgRxBuffer[j]? = some word ∧ c.Carries j word
  left : ∀ j, idx ≤ j → j < 3 + c.dataWords →
    Ipc.word ⟨s.mmcMr, s.msg⟩ j = some (c.word j) ∨ 4 ≤ j ∧ j < s.stored

/-- The entries of the calls before the ones at hand have been written. -/
def Written (cs : List LogCall) (t : List (List UInt8)) (left : List LogCall) : Prop :=
  ∃ past, cs = past ++ left ∧ t = past.map (·.entry.bytes)

/-- Where a run that has gone well is: the entries before the call at hand are written, and of
that call what has been copied is its own. -/
def Delivered (cs : List LogCall) (t : List (List UInt8)) (s : LogSystem) : Prop :=
  match s.point with
  | .recv => Written cs t s.calls
  | .copying sizeWords idx =>
    ∃ c, Written cs t (c :: s.calls) ∧ sizeWords.toNat = 3 + c.dataWords ∧ Receiving c s idx
  | .writing => ∃ c, Written cs t (c :: s.calls) ∧ Receiving c s (3 + c.dataWords)

/-- A copy of a word that the next call has stored does no harm: the two calls have the same data
where the one takes the place of the other. -/
def Harmless (cs : List LogCall) (m : LogSystem × LogInput) : Prop :=
  Overtaken m → ∀ past c c' rest, cs = past ++ c :: m.1.calls → m.1.calls = c' :: rest →
    Compatible c c'

section Step

variable {cs : List LogCall} {t : List (List UInt8)} {s : LogSystem}

theorem Written.mem {left : List LogCall} (h : Written cs t left) {c : LogCall} (hc : c ∈ left) :
    c ∈ cs := by
  obtain ⟨past, rfl, -⟩ := h
  exact List.mem_append_right past hc

theorem Written.succ {c : LogCall} {left : List LogCall} (h : Written cs t (c :: left)) :
    Written cs (t ++ [c.entry.bytes]) left := by
  obtain ⟨past, rfl, rfl⟩ := h
  exact ⟨past ++ [c], by simp, by simp⟩

/-- The calls that have not returned are among the calls. -/
theorem Delivered.mem (h : Delivered cs t s) {c : LogCall} (hc : c ∈ s.calls) : c ∈ cs := by
  unfold Delivered at h
  split at h
  · exact h.mem hc
  · obtain ⟨c', hw, -⟩ := h
    exact hw.mem (List.mem_cons_of_mem _ hc)
  · obtain ⟨c', hw, -⟩ := h
    exact hw.mem (List.mem_cons_of_mem _ hc)

/-- A store of the thread that logs leaves the words that are still to be copied, or takes the
place of one of them. -/
theorem Receiving.store {c : LogCall} {idx : ℕ} (h : Receiving c s idx) {ipc : Ipc}
    (hother : ∀ mr j, j ≠ s.stored ∨ j ≤ 3 →
      Ipc.word ⟨mr, ipc.msg⟩ j = Ipc.word ⟨mr, s.msg⟩ j) :
    Receiving c { s with loggerMr := ipc.mr, msg := ipc.msg, stored := s.stored + 1 } idx := by
  refine ⟨h.le, h.copied, fun j hj hlt => ?_⟩
  by_cases hnew : 4 ≤ j ∧ j = s.stored
  · exact .inr ⟨hnew.1, by dsimp only; omega⟩
  · rcases h.left j hj hlt with hword | ⟨hmin, hstored⟩
    · refine .inl ?_
      rw [← hword]
      exact hother _ j (by omega)
    · exact .inr ⟨hmin, by dsimp only; omega⟩

/-- **A step of the thread that logs.** -/
theorem loggerStep_delivered (hcs : ∀ c ∈ cs, c.Loggable) (hs : Composed s)
    (h : Delivered cs t s) :
    ∃ s', loggerStep s = ⟨[], some s'⟩ ∧ Composed s' ∧ Delivered cs t s' := by
  cases hcalls : s.calls with
  | nil =>
    refine ⟨s, ?_, hs, h⟩
    rw [loggerStep, hcalls]
    rfl
  | cons c calls =>
    have hc : c.Loggable := hcs c (h.mem (hcalls ▸ List.mem_cons_self))
    have hwords := hc.sizeOk.words_le
    rw [loggerStep_cons hcalls hc.sizeOk]
    split_ifs with hlt
    · obtain ⟨ipc, hstore, hword, hlow, hother⟩ :=
        storeWord_spec c ⟨s.loggerMr, s.msg⟩ (show s.stored < 120 by omega)
      refine ⟨{ s with loggerMr := ipc.mr, msg := ipc.msg, stored := s.stored + 1 }, ?_,
        ⟨fun hnil => absurd (hcalls.symm.trans hnil) (List.cons_ne_nil _ _), ?_, ?_⟩, ?_⟩
      · rw [hstore]
        rfl
      · intro d hd
        obtain rfl : c = d := by simpa [hcalls] using hd
        exact hlt
      · intro d hd j hj
        obtain rfl : c = d := by simpa [hcalls] using hd
        rcases Nat.lt_or_eq_of_le (Nat.le_of_lt_succ hj) with hj | rfl
        · exact (hlow j (by omega)).trans (hs.words c hd j hj)
        · exact hword
      · unfold Delivered at h ⊢
        dsimp only
        split at h
        next => exact h
        next =>
          obtain ⟨d, hw, hsize, hr⟩ := h
          exact ⟨d, hw, hsize, hr.store hother⟩
        next =>
          obtain ⟨d, hw, hr⟩ := h
          exact ⟨d, hw, hr.store hother⟩
    · exact ⟨s, rfl, hs, h⟩

/-- **The threads meet**: every word of the call is where the MMC thread looks for it, the first
four in the registers that are handed over and the others in `msg`. -/
theorem receiverStep_recv_delivered (hs : Composed s) (hpoint : s.point = .recv)
    (h : Delivered cs t s) :
    ∃ s', receiverStep s = ⟨[], some s'⟩ ∧ Composed s' ∧ Delivered cs t s' := by
  cases hcalls : s.calls with
  | nil =>
    refine ⟨s, ?_, hs, h⟩
    rw [receiverStep, hpoint, hcalls]
    rfl
  | cons c calls =>
    by_cases hmet : s.stored = 3 + c.dataWords
    · have hhead : c ∈ s.calls.head? := by rw [hcalls]; rfl
      have hw : Written cs t (c :: calls) := by
        rwa [Delivered, hpoint, hcalls] at h
      refine ⟨{ s with
        calls := calls, stored := 0, mmcMr := s.loggerMr
        point := .copying (c.totalSizeBytes / 4) 0 }, ?_,
        ⟨fun _ => rfl, fun _ _ => Nat.zero_le _, fun _ _ j hj => absurd hj (Nat.not_lt_zero j)⟩,
        c, hw, toNat_totalSizeWords c, Nat.zero_le _, fun j hj => absurd hj (Nat.not_lt_zero j),
        fun j _ hj => .inl (hs.words c hhead j (by omega))⟩
      rw [receiverStep, hpoint, hcalls]
      exact if_pos (hmet.trans (toNat_totalSizeWords c).symm)
    · refine ⟨s, ?_, hs, h⟩
      rw [receiverStep, hpoint, hcalls]
      exact if_neg fun heq => hmet (heq.trans (toNat_totalSizeWords c))

/-- **The word that is copied next** is that of the call, or one of the next call that does no
harm: it has the same data where the entry has some. -/
theorem Receiving.exists_word {c : LogCall} {sizeWords : UInt32} {idx : ℕ} (hr : Receiving c s idx)
    (hc : c.Loggable) (hs : Composed s) (hsafe : Harmless cs (s, .mmc))
    (hpoint : s.point = .copying sizeWords idx) (hsize : sizeWords.toNat = 3 + c.dataWords)
    (hw : Written cs t (c :: s.calls)) (hidx : idx < sizeWords.toNat) :
    ∃ word, Ipc.word ⟨s.mmcMr, s.msg⟩ idx = some word ∧ c.Carries idx word := by
  rcases hr.left idx le_rfl (by omega) with hword | ⟨hmin, hstored⟩
  · exact ⟨_, hword, c.carries_word hc.data idx⟩
  · cases hcalls : s.calls with
    | nil => exact absurd (hs.none hcalls) (by omega)
    | cons c' rest =>
      have hhead : c' ∈ s.calls.head? := by rw [hcalls]; rfl
      obtain ⟨past, hcs, -⟩ := hw
      have hcompat : Compatible c c' :=
        hsafe ⟨rfl, sizeWords, idx, hpoint, hidx, hmin, hstored⟩ past c c' rest hcs hcalls
      have hmsg : Ipc.word ⟨s.mmcMr, s.msg⟩ idx = Ipc.word ⟨s.loggerMr, s.msg⟩ idx := by
        rw [Ipc.word, Ipc.word, if_neg (by omega), if_neg (by omega)]
      refine ⟨c'.word idx, hmsg.trans (hs.words c' hhead idx hstored), ?_⟩
      exact hcompat.carries hc.data hmin (Nat.lt_of_lt_of_le hstored (hs.le c' hhead))

/-- A word that is stored at the index is one more that is copied. -/
theorem Receiving.copy {c : LogCall} {idx : ℕ} (hr : Receiving c s idx) {word : UInt32}
    (hcarries : c.Carries idx word) (hidx : idx < 3 + c.dataWords) (hbound : idx < 120)
    (point : MmcPoint) :
    Receiving c { s with msgRxBuffer := s.msgRxBuffer.set idx word hbound, point := point }
      (idx + 1) := by
  refine ⟨hidx, fun j hj => ?_, fun j hj hlt => hr.left j (by omega) hlt⟩
  rcases Nat.lt_or_eq_of_le (Nat.le_of_lt_succ hj) with hj | rfl
  · obtain ⟨word', hword', hcarries'⟩ := hr.copied j hj
    exact ⟨word', by rw [← hword']; exact Vector.getElem?_set_ne hbound (by omega), hcarries'⟩
  · exact ⟨word, Vector.getElem?_set_self hbound, hcarries⟩

/-- **A word is copied**, or the last one has been. It is a word of the call, or one that the next
call has stored and that carries the same bytes. -/
theorem receiverStep_copying_delivered {sizeWords : UInt32} {idx : ℕ}
    (hcs : ∀ c ∈ cs, c.Loggable) (hs : Composed s) (hpoint : s.point = .copying sizeWords idx)
    (h : Delivered cs t s) (hsafe : Harmless cs (s, .mmc)) :
    ∃ s', receiverStep s = ⟨[], some s'⟩ ∧ Composed s' ∧ Delivered cs t s' := by
  rw [Delivered, hpoint] at h
  obtain ⟨c, hw, hsize, hr⟩ := h
  have hc : c.Loggable := hcs c (hw.mem List.mem_cons_self)
  have hmax := hc.sizeOk.words_le
  by_cases hidx : idx < sizeWords.toNat
  · obtain ⟨word, hword, hcarries⟩ := hr.exists_word hc hs hsafe hpoint hsize hw hidx
    have hbound : idx < 120 := by omega
    refine ⟨{ s with
      msgRxBuffer := s.msgRxBuffer.set idx word hbound
      point := .copying sizeWords (idx + 1) }, ?_, ⟨hs.none, hs.le, hs.words⟩,
      c, hw, hsize, hr.copy hcarries (by omega) hbound _⟩
    rw [receiverStep, hpoint]
    dsimp only
    rw [if_pos hidx, hword, Option.bind_some, store_of_lt _ _ hbound]
    rfl
  · have hdone : idx = 3 + c.dataWords := Nat.le_antisymm hr.le (by omega)
    refine ⟨{ s with point := .writing }, ?_, ⟨hs.none, hs.le, hs.words⟩,
      c, hw, le_rfl, hdone ▸ hr.copied, hdone ▸ hr.left⟩
    rw [receiverStep, hpoint]
    exact if_neg hidx

/-- **The entry is written**, and it is the one of the call. -/
theorem receiverStep_writing_delivered (hcs : ∀ c ∈ cs, c.Loggable) (hs : Composed s)
    (hpoint : s.point = .writing) (h : Delivered cs t s) :
    ∃ s' entry, receiverStep s = ⟨[entry], some s'⟩ ∧ Composed s' ∧
      Delivered cs (t ++ [entry]) s' := by
  rw [Delivered, hpoint] at h
  obtain ⟨c, hw, hr⟩ := h
  have hc : c.Loggable := hcs c (hw.mem List.mem_cons_self)
  have hbytes : (wordsBytes s.msgRxBuffer.toList).take (12 + c.dataSize.toNat) =
      c.entry.bytes := by
    rw [take_of_carries c (fun idx hidx _ => by
      rw [Vector.getElem?_toList]
      exact hr.copied idx hidx) le_rfl, ← length_entry_bytes c hc.data, List.take_length]
  have hstep := receiverStep_writing hc hpoint fun idx hidx => hr.copied idx (by omega)
  rw [hbytes] at hstep
  exact ⟨_, _, hstep, ⟨hs.none, hs.le, hs.words⟩, hw.succ⟩

/-- **A step of the MMC thread that does no harm.** -/
theorem receiverStep_delivered (hcs : ∀ c ∈ cs, c.Loggable) (hs : Composed s)
    (h : Delivered cs t s) (hsafe : Harmless cs (s, .mmc)) :
    ∃ s', (receiverStep s).result = some s' ∧ Composed s' ∧
      Delivered cs (t ++ (receiverStep s).trace) s' := by
  cases hpoint : s.point with
  | recv =>
    obtain ⟨s', hstep, h'⟩ := receiverStep_recv_delivered hs hpoint h
    rw [hstep, List.append_nil]
    exact ⟨s', rfl, h'⟩
  | copying sizeWords idx =>
    obtain ⟨s', hstep, h'⟩ := receiverStep_copying_delivered hcs hs hpoint h hsafe
    rw [hstep, List.append_nil]
    exact ⟨s', rfl, h'⟩
  | writing =>
    obtain ⟨s', entry, hstep, h'⟩ := receiverStep_writing_delivered hcs hs hpoint h
    rw [hstep]
    exact ⟨s', rfl, h'⟩

end Step

/-! ### Runs without harm -/

theorem logStep_delivered {cs : List LogCall} (hcs : ∀ c ∈ cs, c.Loggable)
    (t : List (List UInt8)) (s : LogSystem) (i : LogInput) (h : Composed s ∧ Delivered cs t s)
    (hsafe : Harmless cs (s, i)) :
    ∃ s', (logStep i s).result = some s' ∧ Composed s' ∧
      Delivered cs (t ++ (logStep i s).trace) s' := by
  cases i with
  | logger =>
    obtain ⟨s', hstep, h'⟩ := loggerStep_delivered hcs h.1 h.2
    refine ⟨s', ?_⟩
    rw [logStep, hstep, List.append_nil]
    exact ⟨rfl, h'⟩
  | mmc => exact receiverStep_delivered hcs h.1 h.2 hsafe

theorem Delivered.writesInOrder {cs : List LogCall} {x : Traced (List UInt8) LogSystem}
    {s : LogSystem} (hres : x.result = some s) (h : Delivered cs x.trace s) :
    WritesInOrder cs x := by
  have hpast : ∀ {left}, Written cs x.trace left →
      cs.map (·.entry.bytes) = x.trace ++ left.map (·.entry.bytes) := by
    rintro left ⟨past, rfl, ht⟩
    rw [ht, List.map_append]
  unfold Delivered at h
  split at h
  next =>
    exact ⟨⟨_, (hpast h).symm⟩, s, hres, fun _ => hpast h⟩
  next hpoint =>
    obtain ⟨c, hw, -⟩ := h
    exact ⟨⟨_, (hpast hw).symm⟩, s, hres, fun hrecv => absurd (hpoint.symm.trans hrecv) nofun⟩
  next hpoint =>
    obtain ⟨c, hw, -⟩ := h
    exact ⟨⟨_, (hpast hw).symm⟩, s, hres, fun hrecv => absurd (hpoint.symm.trans hrecv) nofun⟩

/-- **A run that copies no word of the wrong call writes the entries of the calls.** -/
theorem logRun_of_harmless {cs : List LogCall} (hcs : ∀ c ∈ cs, c.Loggable) {s : LogSystem}
    (hs : s.Starts cs) (is : List LogInput)
    (hsafe : ∀ m ∈ history logStep (pure s) is, Harmless cs m) :
    WritesInOrder cs (logRun s is) := by
  obtain ⟨hcalls, hstored, hpoint⟩ := hs
  have hcomposed : Composed s := by
    refine ⟨fun _ => hstored, fun _ _ => by omega, fun _ _ j hj => absurd hj (by omega)⟩
  have hdelivered : Delivered cs [] s := by
    rw [Delivered, hpoint]
    exact ⟨[], hcalls.symm, rfl⟩
  obtain ⟨s', hres, -, h⟩ := run_of_history logStep (fun t s => Composed s ∧ Delivered cs t s)
    (logStep_delivered hcs) is (pure s) s rfl ⟨hcomposed, hdelivered⟩ hsafe
  exact h.writesInOrder hres

/-! ### The threads one after the other -/

/-- The stores of a call. -/
def storeSteps (c : LogCall) : List LogInput := List.replicate (3 + c.dataWords) .logger

/-- The stores of a call, and the step where the threads meet. -/
def sendSteps (c : LogCall) : List LogInput := storeSteps c ++ [.mmc]

/-- The copies of the words of a call, and the write. -/
def receiveSteps (c : LogCall) : List LogInput :=
  List.replicate (3 + c.dataWords) .mmc ++ [.mmc, .mmc]

section Alone

variable {t : List (List UInt8)} {s : LogSystem} {c : LogCall} {calls : List LogCall}

/-- The stores of a call, up to the send. -/
theorem mmcLogEntryData_eq (hok : c.SizeOk) (ipc : Ipc) :
    mmcLogEntryData c ipc =
      ((List.range (3 + c.dataWords)).foldlM (fun ipc idx => storeWord c idx ipc) ipc).map
        fun ipc => (c.totalSizeBytes / 4, ipc) := by
  have hloop : (c.totalSizeBytes / 4 - 3).toNat = c.dataWords := by
    rw [UInt32.toNat_sub, toNat_totalSizeWords]
    have hmax := hok.words_le
    change (2 ^ 32 - 3 + (3 + c.dataWords)) % 2 ^ 32 = _
    omega
  have hword : ∀ idx (ipc : Ipc), storeWord c (3 + idx) ipc =
      if idx = 0 then ipc.setMR (3 + idx) (dataWord c.data c.dataSize idx)
      else ipc.setMsg (3 + idx) (dataWord c.data c.dataSize idx) := by
    intro idx ipc
    rw [storeWord, Nat.add_comm 3 idx]
    split_ifs with h1 h2 h2
    · rfl
    · omega
    · omega
    · rfl
  have hthree : List.range 3 = [0, 1, 2] := rfl
  rw [List.range_add, List.foldlM_append, hthree]
  simp only [mmcLogEntryData, totalSizeBytes_aligned, hloop, hword, List.foldlM_map,
    List.foldlM_cons, List.foldlM_nil]
  rw [if_neg (by simp), if_neg (UInt32.not_lt.mpr hok)]
  simp [storeWord, LogCall.word, Option.map_eq_bind, Option.bind_assoc]

/-- **The stores of a call, left alone, are `mmc_log_entry_data`.** -/
theorem run_loggerSteps (hcalls : s.calls = c :: calls) (hstored : s.stored = 0) (hok : c.SizeOk)
    {n : UInt32} {ipc : Ipc} (h : mmcLogEntryData c ⟨s.loggerMr, s.msg⟩ = some (n, ipc)) :
    run logStep ⟨t, some s⟩ (storeSteps c) =
      ⟨t, some { s with loggerMr := ipc.mr, msg := ipc.msg, stored := 3 + c.dataWords }⟩ := by
  -- the words below an index are stored after as many steps
  suffices hsteps : ∀ k ≤ 3 + c.dataWords, ∀ ipc,
      (List.range k).foldlM (fun ipc idx => storeWord c idx ipc) ⟨s.loggerMr, s.msg⟩ = some ipc →
      run logStep ⟨t, some s⟩ (List.replicate k .logger) =
        ⟨t, some { s with loggerMr := ipc.mr, msg := ipc.msg, stored := k }⟩ by
    rw [mmcLogEntryData_eq hok] at h
    obtain ⟨ipc', hfold, heq⟩ := Option.map_eq_some_iff.mp h
    obtain ⟨-, rfl⟩ := Prod.mk.inj heq
    exact hsteps _ le_rfl _ hfold
  intro k
  induction k with
  | zero =>
    intro _ ipc hipc
    have hs : { s with stored := 0 } = s := by rw [← hstored]
    rw [← Option.some.inj hipc]
    exact congrArg (fun s => Traced.mk t (some s)) hs.symm
  | succ k ih =>
    intro hk ipc hipc
    rw [List.range_succ, List.foldlM_append] at hipc
    obtain ⟨ipc', hfold, hlast⟩ := Option.bind_eq_some_iff.mp hipc
    have hstore : storeWord c k ipc' = some ipc := by simpa using hlast
    have hrun := ih (by omega) ipc' hfold
    have hcons := loggerStep_cons
      (s := { s with loggerMr := ipc'.mr, msg := ipc'.msg, stored := k }) hcalls hok
    rw [if_pos (show k < 3 + c.dataWords by omega), hstore] at hcons
    rw [List.replicate_succ', run_concat logStep (by rw [hrun]), hrun, logStep, hcons]
    exact congrArg (Traced.mk · _) (List.append_nil t)

/-- **The copies of the MMC thread, left alone, are `sel4_mr_recv`.** -/
theorem run_copySteps {n : UInt32} (hpoint : s.point = .copying n 0)
    {msgRxBuffer : Vector UInt32 120}
    (h : sel4MrRecv ⟨s.mmcMr, s.msg⟩ n s.msgRxBuffer = some msgRxBuffer) :
    run logStep ⟨t, some s⟩ (List.replicate n.toNat .mmc) =
      ⟨t, some { s with msgRxBuffer := msgRxBuffer, point := .copying n n.toNat }⟩ := by
  suffices hsteps : ∀ k ≤ n.toNat, ∀ buffer,
      (List.range k).foldlM (fun buffer idx =>
        (Ipc.word ⟨s.mmcMr, s.msg⟩ idx).bind (store buffer idx)) s.msgRxBuffer = some buffer →
      run logStep ⟨t, some s⟩ (List.replicate k .mmc) =
        ⟨t, some { s with msgRxBuffer := buffer, point := .copying n k }⟩ from
    hsteps _ le_rfl _ h
  intro k
  induction k with
  | zero =>
    intro _ buffer hbuffer
    have hs : { s with point := .copying n 0 } = s := by rw [← hpoint]
    rw [← Option.some.inj hbuffer]
    exact congrArg (fun s => Traced.mk t (some s)) hs.symm
  | succ k ih =>
    intro hk buffer hbuffer
    rw [List.range_succ, List.foldlM_append] at hbuffer
    obtain ⟨buffer', hfold, hlast⟩ := Option.bind_eq_some_iff.mp hbuffer
    have hstore : (Ipc.word ⟨s.mmcMr, s.msg⟩ k).bind (store buffer' k) = some buffer := by
      simpa using hlast
    have hrun := ih (by omega) buffer' hfold
    rw [List.replicate_succ', run_concat logStep (by rw [hrun]), hrun, logStep, receiverStep]
    dsimp only
    rw [if_pos (show k < n.toNat by omega), hstore]
    exact congrArg (Traced.mk · _) (List.append_nil t)

/-- A call up to where the threads meet. -/
theorem run_send (hs : s.Starts (c :: calls)) (hok : c.SizeOk) :
    ∃ s', run logStep ⟨t, some s⟩ (sendSteps c) = ⟨t, some s'⟩ ∧
      s'.calls = calls ∧ s'.stored = 0 ∧ s'.point = .copying (c.totalSizeBytes / 4) 0 ∧
      ∀ j < 3 + c.dataWords, Ipc.word ⟨s'.mmcMr, s'.msg⟩ j = some (c.word j) := by
  obtain ⟨hcalls, hstored, hpoint⟩ := hs
  obtain ⟨n, ipc, hdata, -, hword⟩ := mmcLogEntryData_spec c ⟨s.loggerMr, s.msg⟩ hok
  have hrun := run_loggerSteps (t := t) hcalls hstored hok hdata
  refine ⟨{ s with
      calls := calls, stored := 0, loggerMr := ipc.mr, msg := ipc.msg, mmcMr := ipc.mr
      point := .copying (c.totalSizeBytes / 4) 0 }, ?_, rfl, rfl, rfl, hword⟩
  rw [sendSteps, run_concat logStep (by rw [hrun]), hrun, logStep, receiverStep]
  simp only [hpoint, hcalls, toNat_totalSizeWords, if_true, trace_pure, result_pure,
    List.append_nil]

/-- A whole message of the MMC thread, whatever the other thread has put in `msg`. -/
theorem run_receive (hc : c.Loggable) (hpoint : s.point = .copying (c.totalSizeBytes / 4) 0)
    (hheader : ∀ j < 3, Ipc.word ⟨s.mmcMr, s.msg⟩ j = some (c.word j)) :
    ∃ msgRxBuffer : Vector UInt32 120,
      run logStep ⟨t, some s⟩ (receiveSteps c) =
        ⟨t ++ [(wordsBytes msgRxBuffer.toList).take (12 + c.dataSize.toNat)],
          some { s with msgRxBuffer := msgRxBuffer, point := .recv }⟩ ∧
      ∀ j < 3 + c.dataWords, msgRxBuffer[j]? = Ipc.word ⟨s.mmcMr, s.msg⟩ j := by
  have hmax := hc.sizeOk.words_le
  have hread : ∀ j < 3 + c.dataWords, Ipc.word ⟨s.mmcMr, s.msg⟩ j =
      some ((Ipc.word ⟨s.mmcMr, s.msg⟩ j).getD 0) := by
    intro j hj
    rw [Ipc.word]
    split_ifs with h3
    · simp [show j < 4 by omega]
    · simp [show j < 120 by omega]
  obtain ⟨buffer, hfold, hlow, -⟩ :=
    getElem?_foldlM_store s.msgRxBuffer (3 + c.dataWords) hread hmax
  have hrecv : sel4MrRecv ⟨s.mmcMr, s.msg⟩ (c.totalSizeBytes / 4) s.msgRxBuffer = some buffer := by
    rw [sel4MrRecv, toNat_totalSizeWords]
    exact hfold
  have hcopy := run_copySteps (t := t) hpoint hrecv
  rw [toNat_totalSizeWords] at hcopy
  refine ⟨buffer, ?_, fun j hj => (hlow j hj).trans (hread j hj).symm⟩
  have hwrite := receiverStep_writing hc
    (s := { s with msgRxBuffer := buffer, point := .writing }) rfl fun j hj =>
      ⟨c.word j, by rw [hlow j (by omega), ← hread j (by omega), hheader j hj],
        c.carries_word hc.data j⟩
  rw [receiveSteps, run_append, hcopy, run_cons, mk_some_bind, logStep, receiverStep]
  dsimp only
  rw [if_neg (by rw [toNat_totalSizeWords]; exact Nat.lt_irrefl _), run_cons, run_nil]
  change (⟨t ++ [], some { s with msgRxBuffer := buffer, point := .writing }⟩ >>= receiverStep) = _
  rw [mk_some_bind, hwrite, List.append_nil]

/-- **Calls can be served one after the other.** -/
theorem exists_run_starts {past left : List LogCall} (hpast : ∀ c ∈ past, c.Loggable) :
    ∀ {t s}, s.Starts (past ++ left) →
      ∃ is t' s', run logStep ⟨t, some s⟩ is = ⟨t', some s'⟩ ∧ s'.Starts left := by
  induction past with
  | nil => exact fun {t s} hs => ⟨[], t, s, rfl, hs⟩
  | cons c past ih =>
    intro t s hs
    have hc := hpast c List.mem_cons_self
    obtain ⟨s₁, hsend, hcalls, hstored, hpoint, hwords⟩ := run_send (t := t) hs hc.sizeOk
    obtain ⟨buffer, hreceive, -⟩ :=
      run_receive (t := t) hc hpoint fun j hj => hwords j (by omega)
    obtain ⟨is, t', s', hrun, hs'⟩ := ih (fun d hd => hpast d (List.mem_cons_of_mem _ hd))
      (t := t ++ [(wordsBytes buffer.toList).take (12 + c.dataSize.toNat)])
      (s := { s₁ with msgRxBuffer := buffer, point := .recv }) ⟨hcalls, hstored, rfl⟩
    refine ⟨sendSteps c ++ receiveSteps c ++ is, t', s', ?_, hs'⟩
    rw [run_append, run_append, hsend, hreceive, hrun]

/-- **The next call can store all its words before any is copied**, and then the bytes of the
entry from the fifth word on are those of the next one, as far as that goes. -/
theorem exists_run_overtaken {c' : LogCall} (hs : s.Starts (c :: c' :: calls)) (hc : c.Loggable)
    (hc' : c'.SizeOk) :
    ∃ is written s', run logStep ⟨t, some s⟩ is = ⟨t ++ [written], some s'⟩ ∧
      ∀ idx, 4 ≤ idx → idx < 3 + c.dataWords → idx < 3 + c'.dataWords → ∀ i < 4,
        4 * idx + i < 12 + c.dataSize.toNat →
        written[4 * idx + i]? = (bytes 4 (c'.word idx).toNat)[i]? := by
  obtain ⟨s₁, hsend, hcalls, hstored, hpoint, hwords⟩ := run_send (t := t) hs hc.sizeOk
  obtain ⟨n, ipc, hdata, -, hwords'⟩ := mmcLogEntryData_spec c' ⟨s₁.loggerMr, s₁.msg⟩ hc'
  have hstore := run_loggerSteps (t := t) hcalls hstored hc' hdata
  have hheader : ∀ j < 3, Ipc.word ⟨s₁.mmcMr, ipc.msg⟩ j = some (c.word j) := by
    intro j hj
    rw [← hwords j (by omega), Ipc.word, Ipc.word, if_pos (by omega), if_pos (by omega)]
  obtain ⟨buffer, hreceive, hbuffer⟩ := run_receive (t := t) hc hpoint hheader
    (s := { s₁ with loggerMr := ipc.mr, msg := ipc.msg, stored := 3 + c'.dataWords })
  refine ⟨sendSteps c ++ storeSteps c' ++ receiveSteps c,
    (wordsBytes buffer.toList).take (12 + c.dataSize.toNat),
    { s₁ with
      loggerMr := ipc.mr, msg := ipc.msg, stored := 3 + c'.dataWords, msgRxBuffer := buffer
      point := .recv }, ?_, ?_⟩
  · rw [run_append, run_append, hsend, hstore]
    exact hreceive
  · intro idx hmin hidx hidx' i hi hlt
    have hword : buffer[idx]? = some (c'.word idx) := by
      rw [hbuffer idx hidx, ← hwords' idx hidx', Ipc.word, Ipc.word, if_neg (by omega),
        if_neg (by omega)]
    rw [List.getElem?_take_of_lt hlt, getElem?_wordsBytes, Vector.getElem?_toList,
      show (4 * idx + i) / 4 = idx by omega, show (4 * idx + i) % 4 = i by omega, hword]
    rfl

end Alone

/-- If the entries are right in every run, the calls are compatible. -/
theorem compatible_of_writesInOrder {cs past rest : List LogCall} {c c' : LogCall}
    (hcs : ∀ d ∈ cs, d.Loggable) {s : LogSystem} (hs : s.Starts cs)
    (h : ∀ is, WritesInOrder cs (logRun s is)) (hsplit : cs = past ++ c :: c' :: rest) :
    Compatible c c' := by
  subst hsplit
  have hc : c.Loggable := hcs c (by simp)
  have hc' : c'.Loggable := hcs c' (by simp)
  obtain ⟨is, t, s₁, hrun, hs₁⟩ := exists_run_starts (t := [])
    (fun d hd => hcs d (List.mem_append_left _ hd)) hs
  obtain ⟨js, written, s₂, hover, hbytes⟩ := exists_run_overtaken (t := t) hs₁ hc hc'.sizeOk
  -- what has been written before are the entries of the calls before
  have ht : t = past.map (·.entry.bytes) := by
    have hbefore := h is
    rw [logRun, pure_eq, hrun] at hbefore
    obtain ⟨-, s', hs', hall⟩ := hbefore
    obtain rfl := Option.some.inj hs'
    have heq := hall hs₁.2.2
    rw [hs₁.1, List.map_append] at heq
    exact (List.append_cancel_right heq).symm
  have hwritten : written = c.entry.bytes := by
    have hafter := (h (is ++ js)).1
    rw [logRun, pure_eq, run_append, hrun, hover, ht, List.map_append, List.map_cons] at hafter
    exact (List.cons_prefix_cons.mp ((List.prefix_append_right_inj _).mp hafter)).1
  intro j hmin hj hj'
  have hb := hbytes (j / 4 + 3) (by omega) (by unfold LogCall.dataWords; omega) (by omega) (j % 4)
    (by omega) (by omega)
  rw [hwritten, show 4 * (j / 4 + 3) + j % 4 = 12 + j by omega, getElem?_entry_bytes c hc.data hj,
    getElem?_bytes_word c' _ (by omega), show j / 4 * 4 + j % 4 = j by omega] at hb
  exact (Option.some.inj hb).symm

/-- **The entries are those of the calls** in a run where no word is copied after the next call
has stored its own, **and they are in every run exactly if calls that follow each other are
compatible**. -/
theorem logRun_iff (cs : List LogCall) (hcs : ∀ c ∈ cs, c.Loggable) (s : LogSystem)
    (hs : s.Starts cs) :
    (∀ is, (∀ m ∈ history logStep (pure s) is, ¬Overtaken m) → WritesInOrder cs (logRun s is)) ∧
      ((∀ is, WritesInOrder cs (logRun s is)) ↔ cs.IsChain Compatible) := by
  refine ⟨fun is hnot => ?_, fun h => ?_, fun h is => ?_⟩
  · exact logRun_of_harmless hcs hs is fun m hm hover => absurd hover (hnot m hm)
  · refine List.isChain_iff_forall_rel_of_append_cons_cons.mpr fun {c c' past rest} hsplit => ?_
    exact compatible_of_writesInOrder hcs hs h hsplit
  · refine logRun_of_harmless hcs hs is fun m _ _ past c c' rest hsplit hcalls => ?_
    rw [hcalls] at hsplit
    exact List.isChain_iff_forall_rel_of_append_cons_cons.mp h hsplit

/-- A call that logs five bytes, with the time of the call before it. -/
def fiveBytes (last : UInt8) : LogCall := ⟨1, 5, some 0, [0, 0, 0, 0, last], 0⟩

/-- The threads before some calls, with all arrays cleared. -/
def clearSystem (cs : List LogCall) : LogSystem :=
  ⟨cs, 0, Vector.replicate 4 0, Vector.replicate 120 0, .recv, Vector.replicate 4 0,
    Vector.replicate 120 0⟩

theorem clearSystem_starts (cs : List LogCall) : (clearSystem cs).Starts cs := ⟨rfl, rfl, rfl⟩

/-- The first call is made and meets the MMC thread, the second call is made up to its send, and
then the MMC thread goes on. -/
def overlapping : List LogInput :=
  List.replicate 5 .logger ++ [.mmc] ++ List.replicate 5 .logger ++ List.replicate 7 .mmc

theorem fiveBytes_loggable (last : UInt8) : (fiveBytes last).Loggable :=
  ⟨(sizeOk_iff _).mpr (show (5 : UInt16).toNat ≤ 456 by decide), le_rfl,
    show (1 : UInt16) ≠ mmcEntryTypeInvalid by decide⟩

/-- **The entry of a call with the last byte of the next one.** -/
theorem not_writesInOrder_overlapping :
    (∀ c ∈ [fiveBytes 1, fiveBytes 2], c.Loggable) ∧
      (clearSystem [fiveBytes 1, fiveBytes 2]).Starts [fiveBytes 1, fiveBytes 2] ∧
      (logRun (clearSystem [fiveBytes 1, fiveBytes 2]) overlapping).trace =
        [(fiveBytes 2).entry.bytes] ∧
      ¬WritesInOrder [fiveBytes 1, fiveBytes 2]
        (logRun (clearSystem [fiveBytes 1, fiveBytes 2]) overlapping) := by
  have htrace : (logRun (clearSystem [fiveBytes 1, fiveBytes 2]) overlapping).trace =
      [(fiveBytes 2).entry.bytes] := by decide +kernel
  refine ⟨?_, clearSystem_starts _, htrace, fun h => ?_⟩
  · exact List.forall_mem_cons.mpr ⟨fiveBytes_loggable 1,
      List.forall_mem_singleton.mpr (fiveBytes_loggable 2)⟩
  · have hprefix := h.1
    rw [htrace] at hprefix
    exact absurd (List.cons_prefix_cons.mp hprefix).1 (by decide)

theorem logRun_iff_fiveBytes :
    ((fiveBytes 1).Loggable ∧
      (clearSystem [fiveBytes 1, fiveBytes 1]).Starts [fiveBytes 1, fiveBytes 1]) ∧
      ∀ is, WritesInOrder [fiveBytes 1, fiveBytes 1]
        (logRun (clearSystem [fiveBytes 1, fiveBytes 1]) is) := by
  refine ⟨⟨fiveBytes_loggable 1, clearSystem_starts _⟩, ?_⟩
  refine (logRun_iff [fiveBytes 1, fiveBytes 1] (fun c hc => ?_) _
    (clearSystem_starts _)).2.mpr ?_
  · obtain rfl : c = fiveBytes 1 := by simpa using hc
    exact fiveBytes_loggable 1
  · exact List.isChain_pair.mpr fun _ _ _ _ => rfl

end HobdSystem

import HobdSystem.Ipc
import HobdSystem.Library.LittleEndian

/-!
# Calls to another thread

The model of `sel4_mr_send` and of the way the functions that a module offers to the other threads
make their calls. All of them have one shape: the arguments go into the message registers,
`seL4_Call` waits for the reply, and the label and the length of the reply are checked before its
words are read. `HobdSystem.checkedCall` is one such call, to a thread that answers messages in
some way `serve`. It has no result in two cases that a caller cannot tell from each other before
they happen: a check fails and `ZF_LOGF_IF` ends the program, or the thread that is called does
not reply, and the caller waits for ever.

The words of a reply are put where the caller reads them: up to four travel in registers, the
others are left in the array of the thread that answers, which the caller reads directly. That
works only as long as both sides agree on the number of words, and the sizes of the structures
they copy are where they could disagree. **What was sent is what is received**
(`HobdSystem.sel4MrRecv_of_word`) if the number of words is the one the receiver asks for and its
buffer has room for them.

**A call that is answered as it should be returns, with the words of the reply**
(`HobdSystem.checkedCall_spec`). That is the rule by which the clients of both modules are proved:
what is left for each of their functions is how the thread on the other side answers the one
message it sends. The rest of this file is about words: a timestamp is two of them, and two
counters of 16 bits share one.
-/

namespace HobdSystem

open LittleEndian Memory

/-- `sel4_mr_send`. -/
def sel4MrSend (words : List UInt32) (ipc : Ipc) : Option Ipc :=
  (List.range words.length).foldlM (fun ipc idx =>
    words[idx]?.bind fun word => if idx ≤ 3 then ipc.setMR idx word else ipc.setMsg idx word) ipc

/-- `seL4_GetMR`. -/
def Ipc.getMR (ipc : Ipc) (i : ℕ) : Option UInt32 := ipc.mr[i]?

/-- A call to a thread that answers messages by `serve`, from the arguments to the words of the
reply. There is no result where the program ends, or where the call is never answered. -/
def checkedCall {σ : Type*} (serve : IpcMessage → σ → Option (Option IpcReply × σ))
    (badge request response : UInt32) (args : List UInt32) (respLength : ℕ) (st : Ipc × σ) :
    Option (Ipc × σ) :=
  (sel4MrSend args st.1).bind fun ipc =>
    (serve ⟨badge, request, UInt32.ofNat args.length, ipc⟩ st.2).bind fun (reply, s) =>
      reply.bind fun reply =>
        if reply.label ≠ response then none
        else if reply.words.length ≠ respLength then none
        else (sel4MrSend reply.words ipc).map fun ipc => (ipc, s)

/-! ### Words -/

/-- **The words that are sent are there to be read**, and the other ones are as they were. The
invariant of the loop is that the words below the index are those of the message. -/
theorem sel4MrSend_spec (words : List UInt32) (ipc : Ipc) (h : words.length ≤ 120) :
    ∃ ipc', sel4MrSend words ipc = some ipc' ∧
      (∀ i < words.length, ipc'.word i = words[i]?) ∧
      ∀ i, words.length ≤ i → ipc'.word i = ipc.word i := by
  -- after `n` rounds the first `n` words are stored
  suffices hn : ∀ n ≤ words.length, ∃ ipc', (List.range n).foldlM (fun ipc idx =>
      words[idx]?.bind fun word =>
        if idx ≤ 3 then ipc.setMR idx word else ipc.setMsg idx word) ipc = some ipc' ∧
      (∀ i < n, ipc'.word i = words[i]?) ∧ ∀ i, n ≤ i → ipc'.word i = ipc.word i from
    hn _ (Nat.le_refl _)
  intro n
  induction n with
  | zero => exact fun _ => ⟨ipc, rfl, fun i hi => absurd hi (by omega), fun _ _ => rfl⟩
  | succ n ih =>
    intro hlen
    obtain ⟨ipc₁, hrun, hlow, hhigh⟩ := ih (by omega)
    obtain ⟨ipc₂, hset, hword, hother⟩ : ∃ ipc₂,
        (if n ≤ 3 then ipc₁.setMR n words[n] else ipc₁.setMsg n words[n]) = some ipc₂ ∧
        ipc₂.word n = some words[n] ∧ ∀ j ≠ n, ipc₂.word j = ipc₁.word j := by
      split_ifs with h3
      · exact setMR_spec ipc₁ _ (by omega)
      · exact setMsg_spec ipc₁ _ (by omega) (by omega)
    refine ⟨ipc₂, ?_, fun i hi => ?_, fun i hi => ?_⟩
    · rw [List.range_succ, List.foldlM_append, hrun]
      simp [List.getElem?_eq_getElem (show n < words.length by omega), hset]
    · rcases Nat.lt_or_eq_of_le (Nat.le_of_lt_succ hi) with hlt | rfl
      · rw [hother i (by omega), hlow i hlt]
      · rw [hword, List.getElem?_eq_getElem (by omega)]
    · rw [hother i (by omega), hhigh i (by omega)]

/-- **What was sent is what is received**, in an array that has room for it. The words may be in
the registers or in the array of the IPC buffer; the receiver reads them by their index in either
case. -/
theorem sel4MrRecv_of_word {n : ℕ} {ipc : Ipc} {words : List UInt32} (sizeWords : UInt32)
    (hlen : words.length = n) (hsize : sizeWords.toNat = n)
    (hword : ∀ i < n, ipc.word i = words[i]?) (buffer : Vector UInt32 n) :
    ∃ buffer', sel4MrRecv ipc sizeWords buffer = some buffer' ∧ buffer'.toList = words := by
  subst hlen
  have hread : ∀ i < words.length, ipc.word i = some (words.getD i 0) := fun i hi => by
    rw [hword i hi]
    simp [hi]
  obtain ⟨buffer', hrecv, hlist⟩ := foldlM_store buffer words.length hread (Nat.le_refl _)
  refine ⟨buffer', ?_, ?_⟩
  · rw [sel4MrRecv, hsize]
    exact hrecv
  · rw [hlist]
    refine List.ext_getElem (by simp) fun i hi hi' => ?_
    simp [hi']

/-- A register is a word. -/
theorem getMR_eq_word (ipc : Ipc) {i : ℕ} (h : i ≤ 3) : ipc.getMR i = ipc.word i := by
  rw [Ipc.getMR, Ipc.word, if_pos h]

theorem getMR0_of_word {ipc : Ipc} {word : UInt32} (h : ipc.word 0 = some word) :
    ipc.getMR0 = word := by
  have h0 : ipc.word 0 = some ipc.getMR0 := rfl
  exact Option.some.inj (h0.symm.trans h)

/-- Two words make up a timestamp. -/
theorem ofNat_words (t : UInt64) :
    UInt64.ofNat (t.toUInt32.toNat + 2 ^ 32 * (t >>> 32).toUInt32.toNat) = t := by
  have hlt : t.toNat < 2 ^ 64 := t.toNat_lt
  have hhigh : (t >>> 32).toNat = t.toNat / 2 ^ 32 := by
    rw [UInt64.toNat_shiftRight]
    exact Nat.shiftRight_eq_div_pow _ _
  rw [← UInt64.toNat_inj, UInt64.toNat_ofNat', UInt64.toNat_toUInt32, UInt64.toNat_toUInt32, hhigh]
  omega

/-- The two halves of a word. -/
theorem toUInt16_halves (low high : UInt16) :
    (low.toUInt32 ||| high.toUInt32 <<< 16).toUInt16 = low ∧
      ((low.toUInt32 ||| high.toUInt32 <<< 16) >>> 16).toUInt16 = high := by
  have hlow : low.toNat < 2 ^ 16 := low.toNat_lt
  have hhigh : high.toNat < 2 ^ 16 := high.toNat_lt
  have hword : (low.toUInt32 ||| high.toUInt32 <<< 16).toNat = low.toNat + 2 ^ 16 * high.toNat :=
    toNat_or_shiftLeft low.toUInt32 high.toUInt32 (show 16 < 32 by omega)
      (by rwa [UInt16.toNat_toUInt32])
      (by rw [UInt16.toNat_toUInt32]; change 65536 * _ < 4294967296; omega)
  constructor
  · rw [← UInt16.toNat_inj, UInt32.toNat_toUInt16, hword]
    omega
  · rw [← UInt16.toNat_inj, UInt32.toNat_toUInt16, UInt32.toNat_shiftRight, hword]
    change (low.toNat + 2 ^ 16 * high.toNat) >>> 16 % 2 ^ 16 = _
    rw [Nat.shiftRight_eq_div_pow]
    omega

/-! ### Calls -/

/-- **A call that is answered as it should be returns**, with the words of the reply. As it should
be is a reply with the label and the number of words that the caller checks for; everything else
ends the program or leaves it waiting. -/
theorem checkedCall_spec {σ : Type*} {serve : IpcMessage → σ → Option (Option IpcReply × σ)}
    {badge request response : UInt32} {args words : List UInt32} {respLength : ℕ} {s s' : σ}
    (ipc : Ipc) (hargs : args.length ≤ 4) (hwords : words.length = respLength)
    (hshort : respLength ≤ 4)
    (hserve : ∀ ipc', (∀ i < args.length, ipc'.word i = args[i]?) →
      serve ⟨badge, request, UInt32.ofNat args.length, ipc'⟩ s =
        some (some ⟨response, words⟩, s')) :
    ∃ ipc', checkedCall serve badge request response args respLength (ipc, s) =
        some (ipc', s') ∧ ∀ i < respLength, ipc'.word i = words[i]? := by
  subst hwords
  obtain ⟨ipc₁, hsend, hargs', -⟩ := sel4MrSend_spec args ipc (by omega)
  obtain ⟨ipc₂, hreply, hwords', -⟩ := sel4MrSend_spec words ipc₁ (by omega)
  refine ⟨ipc₂, ?_, hwords'⟩
  simp [checkedCall, hsend, hserve ipc₁ hargs', hreply]

end HobdSystem

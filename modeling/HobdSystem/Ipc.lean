import HobdSystem.Library.Memory

/-!
# Messages between threads

The model of `ipc_util.h` and `sel4_mr.h`, which every module of the system uses to talk to the
others. A thread receives the badge of the sender's endpoint, a label and some words, and may
answer with a label and words.

Where the words are depends on how many there are. The first four travel in message registers, and
the kernel moves them from the sender to the receiver. The others are in the array `msg` of an IPC
buffer: a sender puts them into the array of the *receiver*, which it has a pointer to, and the
kernel is not involved. `HobdSystem.Ipc` is both together, as the one thread finds them that
receives. A word of a message has an index that does not tell which of the two it is in, and
`HobdSystem.Ipc.word` reads it as `sel4_mr_recv` does.

Every store to a register and to the array is checked. That `sel4_mr_send` stays within the 120
words of an array is a fact about the messages the modules send, and it is not assumed: a store
behind the end has no result here, and the theorems about messages have the bound as a hypothesis
(`HobdSystem.setMR_spec`, `HobdSystem.setMsg_spec`). These two are the only facts about stores
that the rest of the development uses.
-/

namespace HobdSystem

open Memory

/-- `IPC_MSG_TYPE_ID`. -/
def ipcMsgTypeId (base id : UInt32) : UInt32 := (base <<< 8) + id

/-- The words of a message: the message registers, and the array `msg` of the receiver's IPC
buffer. The array keeps what earlier messages left in it, since a message overwrites only the
words that it has. -/
structure Ipc where
  mr : Vector UInt32 4
  msg : Vector UInt32 120

/-- `seL4_SetMR`. -/
def Ipc.setMR (ipc : Ipc) (i : ℕ) (word : UInt32) : Option Ipc :=
  (store ipc.mr i word).map fun mr => { ipc with mr := mr }

/-- `seL4_GetMR(0)`. -/
def Ipc.getMR0 (ipc : Ipc) : UInt32 := ipc.mr[0]

/-- A store to `ipc_buffer->msg`. -/
def Ipc.setMsg (ipc : Ipc) (i : ℕ) (word : UInt32) : Option Ipc :=
  (store ipc.msg i word).map fun msg => { ipc with msg := msg }

/-- What `sel4_mr_recv` reads at an index: a register for the first four words, the array for the
others. The first four elements of the array are never looked at. -/
def Ipc.word (ipc : Ipc) (idx : ℕ) : Option UInt32 :=
  if idx ≤ 3 then ipc.mr[idx]? else ipc.msg[idx]?

/-- `sel4_mr_recv`. -/
def sel4MrRecv {n : ℕ} (ipc : Ipc) (sizeWords : UInt32) (buffer : Vector UInt32 n) :
    Option (Vector UInt32 n) :=
  (List.range sizeWords.toNat).foldlM (fun buffer idx => (ipc.word idx).bind (store buffer idx))
    buffer

/-- A message as the thread receives it. The badge is that of the endpoint the sender has, and the
length is the number of words the sender says it has sent, which the receiver may check or not. -/
structure IpcMessage where
  badge : UInt32
  label : UInt32
  length : UInt32
  ipc : Ipc

/-- A reply. -/
structure IpcReply where
  label : UInt32
  words : List UInt32
  deriving DecidableEq, Repr

/-! ### Stores -/

/-- A store of one word, in a register or in the array: the word is there, and the other
words are as they were. -/
theorem setMR_spec (ipc : Ipc) {i : ℕ} (word : UInt32) (hi : i < 4) :
    ∃ ipc', ipc.setMR i word = some ipc' ∧ ipc'.word i = some word ∧
      ∀ j ≠ i, ipc'.word j = ipc.word j := by
  refine ⟨{ ipc with mr := ipc.mr.set i word hi }, ?_, ?_, fun j hj => ?_⟩
  · rw [Ipc.setMR, store_of_lt ipc.mr word hi]
    rfl
  · rw [Ipc.word, if_pos (by omega)]
    exact Vector.getElem?_set_self hi
  · unfold Ipc.word
    split_ifs
    · exact Vector.getElem?_set_ne hi (Ne.symm hj)
    · rfl

theorem setMsg_spec (ipc : Ipc) {i : ℕ} (word : UInt32) (hmin : 4 ≤ i) (hi : i < 120) :
    ∃ ipc', ipc.setMsg i word = some ipc' ∧ ipc'.word i = some word ∧
      ∀ j ≠ i, ipc'.word j = ipc.word j := by
  refine ⟨{ ipc with msg := ipc.msg.set i word hi }, ?_, ?_, fun j hj => ?_⟩
  · rw [Ipc.setMsg, store_of_lt ipc.msg word hi]
    rfl
  · rw [Ipc.word, if_neg (by omega)]
    exact Vector.getElem?_set_self hi
  · unfold Ipc.word
    split_ifs
    · rfl
    · exact Vector.getElem?_set_ne hi (Ne.symm hj)

end HobdSystem

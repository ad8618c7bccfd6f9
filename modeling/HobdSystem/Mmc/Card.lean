import HobdSystem.Mmc.FileRuns

/-!
# What is on the card

The FAT library is a submodule and is not part of the source, so what it makes of the calls it is
given has to be assumed. `HobdSystem.Card` is what we assume, and no more than that: a library that
keeps what is written through a handle in memory until the handle is closed or flushed, transfers
it in that call through the media functions, and reads the sectors it needs when it opens a file.

Whether sectors are transferred is up to the media functions, which do nothing and report a success
while the file is disabled. So there are two ways in which the card is not what the calls would
make one think, and the operations of `mmc_file.c` take both of them.

* **A handle is closed without the card.** The library believes that all has been transferred and
  forgets it; the card is as it was. This is what `mmc_file_set_enabled` does to an open file when
  it disables it.
* **A file is opened without the card.** The library has read nothing, so what it takes for the
  directory and for the end of the file is whatever its buffers held. **Nothing is known of the card
  from then on**, which is what `none` stands for in `HobdSystem.Card.bytes`. This is what
  `mmc_file_set_enabled` does when it enables a file that is disabled.

A handle that is overwritten is never closed, and what was written through it stays in memory for
good. The card as a whole is read off the record of the calls (`HobdSystem.FileIo.card`), each of
which has the file as it was when the call was made. That it has the card exactly if the call is
one that reaches it in the sense of the runs of file operations is
`HobdSystem.connected_iff_reachesCard`.
-/

namespace HobdSystem

variable {H : Type*}

/-- What is known of the log file, and of what the library still has in memory. -/
structure Card (H : Type*) where
  /-- The bytes of the log file on the card; `none` if nothing is known of them. -/
  bytes : Option (List UInt8)
  /-- What has been written through a handle and not been transferred. -/
  pending : H → List UInt8

/-- The media functions transfer what the library asks for in the course of the call. -/
def Issued.connected (c : Issued H) : Bool := decide (mmcFileGetEnabled c.file ≠ 0)

theorem connected_iff_reachesCard (c : Issued H) : c.connected = true ↔ ReachesCard c := by
  rw [Issued.connected, decide_eq_true_iff]
  constructor
  · intro hget
    have hen : c.file.enabled ≠ 0 := by
      intro hzero
      apply hget
      rw [mmcFileGetEnabled, hzero, ite_self]
    refine ⟨hen, fun fatSectorSize sector sectorCount moved => ?_⟩
    simp only [fatioMediaRead, fatioMediaWrite, fatioMedia, if_pos hget, and_self]
  · rintro ⟨-, hmoves⟩ hget
    have hread := (hmoves 0 0 0 0).1
    simp [fatioMediaRead, fatioMedia, hget] at hread

variable [DecidableEq H]

/-- The library is done with what was written through a handle: it has transferred it, or believes
that it has. -/
def Card.settle (connected : Bool) (ref : H) (x : Card H) : Card H where
  bytes := if connected then x.bytes.map (· ++ x.pending ref) else x.bytes
  pending := Function.update x.pending ref []

/-- **What a call of the library makes of the card.** A write or a flush that fails may have
transferred anything. -/
def Card.after (x : Card H) (c : Issued H) : Card H :=
  match c.call with
  | .fopen none => x
  | .fopen (some ref) =>
    -- without the card nothing has been read, and nothing is known of what is written later on
    ⟨if c.connected then x.bytes else none, Function.update x.pending ref []⟩
  | .fclose ref => x.settle c.connected ref
  | .remove status =>
    if status = 0 then { x with bytes := if c.connected then x.bytes.map fun _ => [] else none }
    else x
  | .fflush none _ | .fwrite _ _ _ none _ => x
  | .fflush (some ref) status =>
    if status = 0 then x.settle c.connected ref else { x with bytes := none }
  | .fwrite data size count (some ref) ret =>
    if ret = (size * count).toInt32 then
      { x with pending :=
          Function.update x.pending ref (x.pending ref ++ data.take (size * count).toNat) }
    else { x with bytes := none }

/-- The card after all calls made so far, if the file held some bytes when the system was switched
on. -/
def FileIo.card (start : List UInt8) (io : FileIo H) : Card H :=
  io.calls.foldl Card.after ⟨some start, fun _ => []⟩

section Calls

variable (start : List UInt8) (io : FileIo H) (r : FatResults H)

theorem card_issue (c : FatCall H) :
    (io.issue c).card start = (io.card start).after ⟨c, io.file⟩ := by
  rw [FileIo.card, issue_calls, List.foldl_append]
  rfl

theorem card_mmcFopen : (mmcFopen r io).2.card start =
    (io.card start).after ⟨.fopen (r.fopen io.handles), io.file⟩ :=
  card_issue start io _

theorem card_mmcFclose {io : FileIo H} {ref : H} (h : io.file.ref = some ref) :
    (mmcFclose io).card start = (io.card start).after ⟨.fclose ref, io.file⟩ := by
  unfold mmcFclose
  rw [h]
  exact card_issue start io _

end Calls

end HobdSystem

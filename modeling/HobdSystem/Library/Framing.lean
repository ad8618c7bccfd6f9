import HobdSystem.Library.ByteSum
import HobdSystem.Library.Run
import Mathlib.Tactic.SplitIfs

/-!
# Frames that carry their size and close with a checksum

A frame is a type byte, a size byte that counts the whole frame, a subtype byte and a rest whose
last byte brings the sum of the frame to zero modulo 256. A receiver turns some bytes down: a type
or a subtype it does not know, a size outside its bounds. What it turns down is a
`Framing.Format`, and this file relates the two ways there are to cut a stream into frames.

* `Framing.collect` takes **one byte at a time** and remembers the bytes of the frame that is
  open. This is what a program does that is given a byte whenever the line has one.
* `Framing.deframe` reads **the whole stream**: at the boundary of a frame it looks at the type,
  the size and the subtype and cuts the frame out in one piece. This is what a reader means who
  says which frames there are in a recording.

They say the same of every stream (`Framing.answers_collect`), whatever it is made of: noise, the
end of a frame whose beginning was missed, frames with wrong sums. The proof follows the recursion
of the reference, and the one case that takes work is a whole frame, which the receiver is led
through byte by byte (`Framing.run_rest`).

A stream has no marks in it that would say where a frame begins. A receiver that has lost the
boundary takes bytes from the middle of a frame for a header, and may miss frames that are there.
So what can be said of a delivery has to speak of the boundary, and the rest of the file follows
the open frame. It is always an end of the stream (`Framing.final_suffix`), its size byte is still
ahead (`Framing.Open`), and **where a stream ends with a delivery, its last bytes are those of the
frame and the receiver was at a boundary in front of them** (`Framing.delivered_last`). The
streams that leave no frame open and deliver nothing are those of `Framing.Drained`, a grammar of
what a receiver swallows without a trace.
-/

namespace Framing

open Bytes Run

/-- A framing: the type and subtype bytes a receiver turns down, and the bounds of the
size. A frame has at least a header and a checksum. -/
structure Format where
  rejectType : UInt8 → Bool
  rejectSubtype : UInt8 → Bool
  minSize : ℕ
  maxSize : ℕ
  four_le_minSize : 4 ≤ minSize

/-- What a receiver makes of a byte. Of a frame there is at most one report, at the byte that
completes it or at the one where it is given up. -/
inductive Verdict where
  /-- Nothing to report. -/
  | pending
  /-- The open frame is given up. -/
  | dropped
  /-- The byte completes a frame, and the frame sums to zero. -/
  | delivered (frame : List UInt8)
  /-- The byte completes a frame that does not sum to zero. -/
  | corrupt
  deriving DecidableEq, Repr

/-- The verdicts that count a frame as valid. -/
def Verdict.isValid : Verdict → Bool
  | .delivered _ => true
  | _ => false

/-- The verdicts that count a frame as invalid. -/
def Verdict.isInvalid : Verdict → Bool
  | .dropped => true
  | .corrupt => true
  | _ => false

/-- The frame a verdict delivers. -/
def Verdict.frame? : Verdict → Option (List UInt8)
  | .delivered f => some f
  | _ => none

/-- The verdict on a complete frame. -/
def close (frame : List UInt8) : Verdict :=
  if byteSum frame % 256 = 0 then .delivered frame else .corrupt

variable (fmt : Format)

/-- A size byte outside the bounds. -/
def Format.badSize (s : UInt8) : Prop := s.toNat < fmt.minSize ∨ fmt.maxSize < s.toNat

instance (s : UInt8) : Decidable (fmt.badSize s) := inferInstanceAs (Decidable (_ ∨ _))

/-! ### One byte at a time -/

/-- The receiver: a byte, after the bytes of the open frame. -/
def collect (b : UInt8) : List UInt8 → Verdict × List UInt8
  | [] => if fmt.rejectType b then (.pending, []) else (.pending, [b])
  | [t] => if fmt.badSize b then (.dropped, []) else (.pending, [t, b])
  | [t, s] => if fmt.rejectSubtype b then (.dropped, []) else (.pending, [t, s, b])
  | t :: s :: st :: body =>
      if body.length + 4 = s.toNat then (close (t :: s :: st :: (body ++ [b])), [])
      else (.pending, t :: s :: st :: (body ++ [b]))

/-! ### The whole stream -/

/-- The reference: the verdict on every byte of a stream, read from the boundary of a
frame. -/
def deframe : List UInt8 → List Verdict
  | [] => []
  | [t] => if fmt.rejectType t then .pending :: deframe [] else [.pending]
  | [t, s] =>
      if fmt.rejectType t then .pending :: deframe [s]
      else if fmt.badSize s then .pending :: .dropped :: deframe []
      else [.pending, .pending]
  | t :: s :: st :: l =>
      if fmt.rejectType t then .pending :: deframe (s :: st :: l)
      else if fmt.badSize s then .pending :: .dropped :: deframe (st :: l)
      else if fmt.rejectSubtype st then .pending :: .pending :: .dropped :: deframe l
      -- the stream ends inside the frame
      else if l.length + 3 < s.toNat then List.replicate (l.length + 3) .pending
      else List.replicate (s.toNat - 1) .pending ++
        close (t :: s :: st :: l.take (s.toNat - 3)) :: deframe (l.drop (s.toNat - 3))
termination_by l => l.length

variable {fmt}

theorem collect_body {t s st b : UInt8} {body : List UInt8} (h : body.length + 4 < s.toNat) :
    collect fmt b (t :: s :: st :: body) = (.pending, t :: s :: st :: (body ++ [b])) := by
  rw [collect, if_neg (by omega)]

theorem collect_close {t s st b : UInt8} {body : List UInt8} (h : body.length + 4 = s.toNat) :
    collect fmt b (t :: s :: st :: body) = (close (t :: s :: st :: (body ++ [b])), []) := by
  rw [collect, if_pos h]

/-- Bytes that do not complete the open frame are added to it. -/
theorem run_body (fmt : Format) (t s st : UInt8) : ∀ (l body : List UInt8),
    body.length + l.length + 3 < s.toNat →
      answers (collect fmt) (t :: s :: st :: body) l = List.replicate l.length .pending ∧
        final (collect fmt) (t :: s :: st :: body) l = t :: s :: st :: (body ++ l) := by
  intro l
  induction l with
  | nil => exact fun body _ => ⟨rfl, by simp⟩
  | cons b l ih =>
    intro body h
    rw [List.length_cons] at h
    have hb : collect fmt b (t :: s :: st :: body) = (.pending, t :: s :: st :: (body ++ [b])) :=
      collect_body (by omega)
    obtain ⟨hans, hfin⟩ := ih (body ++ [b]) (by simp; omega)
    rw [answers_cons, final_cons, hb]
    exact ⟨by rw [hans, List.length_cons, List.replicate_succ], by simp [hfin]⟩

/-- **The rest of a frame, from its header on**: every byte but the last is pending, and
the last one closes the frame. -/
theorem run_rest (fmt : Format) (t st : UInt8) {s : UInt8} {l : List UInt8}
    (hl : l.length + 3 = s.toNat) (hpos : l ≠ []) :
    answers (collect fmt) [t, s, st] l =
        List.replicate (l.length - 1) .pending ++ [close (t :: s :: st :: l)] ∧
      final (collect fmt) [t, s, st] l = [] := by
  obtain ⟨body, b, rfl⟩ : ∃ body b, l = body ++ [b] :=
    ⟨l.dropLast, l.getLast hpos, (List.dropLast_append_getLast hpos).symm⟩
  rw [List.length_append, List.length_singleton] at hl
  obtain ⟨hans, hfin⟩ := run_body fmt t s st body []
    (by simp; omega)
  have hlast : collect fmt b (t :: s :: st :: body) =
      (close (t :: s :: st :: (body ++ [b])), []) := collect_close (by omega)
  rw [answers_append, final_append, hans, hfin, List.nil_append, answers_cons, final_cons, hlast]
  simp

theorem not_badSize_four_le {s : UInt8} (h : ¬fmt.badSize s) : 4 ≤ s.toNat := by
  have := fmt.four_le_minSize
  unfold Format.badSize at h
  omega

/-- A stream that is long enough begins with a whole frame. -/
theorem take_frame (t st : UInt8) {s : UInt8} {l : List UInt8} (hs : ¬fmt.badSize s)
    (hlen : ¬l.length + 3 < s.toNat) :
    (l.take (s.toNat - 3)).length + 3 = s.toNat ∧
      t :: s :: st :: l = (t :: s :: st :: l.take (s.toNat - 3)) ++ l.drop (s.toNat - 3) := by
  have hfour : 4 ≤ s.toNat := not_badSize_four_le hs
  refine ⟨?_, by simp⟩
  rw [List.length_take]
  omega

/-- A frame, from the boundary in front of it on: its last byte closes it. -/
theorem run_frame {t s st : UInt8} {r : List UInt8} (ht : fmt.rejectType t = false)
    (hs : ¬fmt.badSize s) (hst : fmt.rejectSubtype st = false) (hlen : r.length + 3 = s.toNat) :
    answers (collect fmt) [] (t :: s :: st :: r) =
        List.replicate (s.toNat - 1) .pending ++ [close (t :: s :: st :: r)] ∧
      final (collect fmt) [] (t :: s :: st :: r) = [] := by
  have hfour : 4 ≤ s.toNat := not_badSize_four_le hs
  have hne : r ≠ [] := fun hc => by
    rw [hc, List.length_nil] at hlen
    omega
  obtain ⟨hans, hfin⟩ := run_rest fmt t st hlen hne
  rw [answers_cons, final_cons, collect, if_neg (by simp [ht]), answers_cons, final_cons, collect,
    if_neg hs, answers_cons, final_cons, collect, if_neg (by simp [hst]), hans, hfin,
    show s.toNat - 1 = (r.length - 1) + 1 + 1 + 1 by omega]
  exact ⟨by simp [List.replicate_succ], rfl⟩

/-- The first bytes of a frame, from the boundary in front of it on, are those of the open
frame. -/
theorem final_open {t s st : UInt8} {body : List UInt8} (ht : fmt.rejectType t = false)
    (hs : ¬fmt.badSize s) (hst : fmt.rejectSubtype st = false)
    (hlen : body.length + 3 < s.toNat) :
    final (collect fmt) [] (t :: s :: st :: body) = t :: s :: st :: body := by
  obtain ⟨-, hbody⟩ := run_body fmt t s st body [] (by simpa using hlen)
  rw [final_cons, collect, if_neg (by simp [ht]), final_cons, collect, if_neg hs, final_cons,
    collect, if_neg (by simp [hst]), hbody]
  rfl

/-- **The receiver that takes one byte at a time says what the reference says of the
whole stream.** -/
theorem answers_collect (l : List UInt8) : answers (collect fmt) [] l = deframe fmt l := by
  induction l using deframe.induct fmt with
  -- fewer than three bytes
  | case1 => rw [deframe, answers_nil]
  | case2 t h => rw [deframe, if_pos h, answers_cons, collect, if_pos h, deframe, answers_nil]
  | case3 t h => rw [deframe, if_neg h, answers_cons, collect, if_neg h, answers_nil]
  | case4 t s h ih => rw [deframe, if_pos h, ← ih, answers_cons, collect, if_pos h]
  | case5 t s h hs ih =>
    rw [deframe, if_neg h, if_pos hs, ← ih, answers_cons, collect, if_neg h, answers_cons,
      collect, if_pos hs]
  | case6 t s h hs =>
    rw [deframe, if_neg h, if_neg hs, answers_cons, collect, if_neg h, answers_cons, collect,
      if_neg hs, answers_nil]
  -- a header whose type, size or subtype is turned down
  | case7 t s st l h ih => rw [deframe, if_pos h, ← ih, answers_cons, collect, if_pos h]
  | case8 t s st l h hs ih =>
    rw [deframe, if_neg h, if_pos hs, ← ih, answers_cons, collect, if_neg h, answers_cons,
      collect, if_pos hs]
  | case9 t s st l h hs hst ih =>
    rw [deframe, if_neg h, if_neg hs, if_pos hst, ← ih, answers_cons, collect, if_neg h,
      answers_cons, collect, if_neg hs, answers_cons, collect, if_pos hst]
  -- the stream ends inside the frame
  | case10 t s st l h hs hst hlen =>
    obtain ⟨hans, -⟩ := run_body fmt t s st l [] (by simpa using hlen)
    rw [deframe, if_neg h, if_neg hs, if_neg hst, if_pos hlen, answers_cons, collect, if_neg h,
      answers_cons, collect, if_neg hs, answers_cons, collect, if_neg hst, hans]
    rfl
  -- a whole frame, and the stream behind it from the boundary on
  | case11 t s st l h hs hst hlen ih =>
    obtain ⟨htake, hsplit⟩ := take_frame t st hs hlen
    obtain ⟨hframe, hboundary⟩ := run_frame (by simpa using h) hs (by simpa using hst) htake
    rw [deframe, if_neg h, if_neg hs, if_neg hst, if_neg hlen, ← ih, hsplit, answers_append,
      hframe, hboundary]
    simp

/-! ### The open frame -/

/-- A frame that can be open: its size byte, when it has been read, is within bounds and
still ahead. -/
def Open (fmt : Format) (pre : List UInt8) : Prop :=
  ∀ t s l, pre = t :: s :: l → ¬fmt.badSize s ∧ l.length + 2 < s.toNat

theorem open_nil : Open fmt [] := fun _ _ _ h => by simp at h

/-- A frame that is complete: it is as long as its size byte says, and that is within
bounds. -/
def Complete (fmt : Format) (f : List UInt8) : Prop :=
  ∃ t s st l, f = t :: s :: st :: l ∧ ¬fmt.badSize s ∧ l.length + 3 = s.toNat

theorem Complete.length_le {f : List UInt8} (h : Complete fmt f) : f.length ≤ fmt.maxSize := by
  obtain ⟨t, s, st, l, rfl, hs, hlen⟩ := h
  rw [Format.badSize, not_or] at hs
  simp only [List.length_cons]
  omega

/-- A frame stays complete when a byte other than its size is changed. -/
theorem Complete.set {f : List UInt8} (h : Complete fmt f) {i : ℕ} (hi : i ≠ 1) (b : UInt8) :
    Complete fmt (f.set i b) := by
  obtain ⟨t, s, st, l, rfl, hs, hlen⟩ := h
  match i with
  | 0 => exact ⟨b, s, st, l, rfl, hs, hlen⟩
  | 1 => exact absurd rfl hi
  | 2 => exact ⟨t, s, b, l, rfl, hs, hlen⟩
  | i + 3 => exact ⟨t, s, st, l.set i b, rfl, hs, by rwa [List.length_set]⟩

/-- Two complete frames one of which begins with the other are equal. -/
theorem Complete.eq_of_append {f f' l l' : List UInt8} (h : Complete fmt f)
    (h' : Complete fmt f') (heq : f ++ l = f' ++ l') : f = f' := by
  obtain ⟨t, s, st, r, rfl, -, hlen⟩ := h
  obtain ⟨t', s', st', r', rfl, -, hlen'⟩ := h'
  obtain ⟨rfl, rfl, rfl, hr⟩ : t = t' ∧ s = s' ∧ st = st' ∧ r ++ l = r' ++ l' := by
    simpa using heq
  rw [(List.append_inj hr (by omega)).1]

/-- The open frame takes the byte or is over. -/
theorem collect_next (fmt : Format) (b : UInt8) (pre : List UInt8) :
    (collect fmt b pre).2 = pre ++ [b] ∨ (collect fmt b pre).2 = [] := by
  match pre with
  | [] => rw [collect]; split_ifs <;> simp
  | [t] => rw [collect]; split_ifs <;> simp
  | [t, s] => rw [collect]; split_ifs <;> simp
  | t :: s :: st :: body => rw [collect]; split_ifs <;> simp

/-- The open frame is the end of the stream. -/
theorem final_suffix (fmt : Format) (pre l : List UInt8) :
    final (collect fmt) pre l <:+ pre ++ l := by
  induction l generalizing pre with
  | nil =>
    rw [List.append_nil]
    exact List.suffix_rfl
  | cons b l ih =>
    have hl := ih (collect fmt b pre).2
    rcases collect_next fmt b pre with h | h
    · rw [h, ← List.append_cons] at hl
      rw [final_cons, h]
      exact hl
    · rw [h, List.nil_append] at hl
      rw [final_cons, h]
      exact (hl.trans (List.suffix_cons b l)).trans (List.suffix_append pre _)

theorem Open.collect {pre : List UInt8} (h : Open fmt pre) (b : UInt8) :
    Open fmt (collect fmt b pre).2 := by
  match pre with
  | [] =>
    rw [Framing.collect]
    split_ifs <;> exact fun t s l hc => by simp at hc
  | [t] =>
    rw [Framing.collect]
    split_ifs with hs
    · exact open_nil
    · rintro t' s' l heq
      obtain ⟨-, rfl, rfl⟩ : t = t' ∧ b = s' ∧ [] = l := by simpa using heq
      have := not_badSize_four_le hs
      exact ⟨hs, by simp; omega⟩
  | [t, s] =>
    rw [Framing.collect]
    split_ifs
    · exact open_nil
    · rintro t' s' l heq
      obtain ⟨-, rfl, rfl⟩ : t = t' ∧ s = s' ∧ [b] = l := by simpa using heq
      have hs := (h t s [] rfl).1
      have := not_badSize_four_le hs
      exact ⟨hs, by simp; omega⟩
  | t :: s :: st :: body =>
    rw [Framing.collect]
    split_ifs with hlen
    · exact open_nil
    · rintro t' s' l heq
      obtain ⟨-, rfl, rfl⟩ : t = t' ∧ s = s' ∧ st :: (body ++ [b]) = l := by simpa using heq
      obtain ⟨hs, hahead⟩ := h t s (st :: body) rfl
      rw [List.length_cons] at hahead
      exact ⟨hs, by simp; omega⟩

theorem Open.final {pre : List UInt8} (h : Open fmt pre) (l : List UInt8) :
    Open fmt (final (Framing.collect fmt) pre l) := by
  induction l generalizing pre with
  | nil => exact h
  | cons b l ih => exact ih (h.collect b)

/-- Only a frame whose header has been read is delivered. -/
theorem header_of_collect_delivered {pre f : List UInt8} {b : UInt8}
    (hf : (collect fmt b pre).1 = .delivered f) : ∃ t s st body, pre = t :: s :: st :: body := by
  match pre with
  | [] => rw [collect] at hf; split_ifs at hf
  | [t] => rw [collect] at hf; split_ifs at hf
  | [t, s] => rw [collect] at hf; split_ifs at hf
  | t :: s :: st :: body => exact ⟨t, s, st, body, rfl⟩

/-- **A byte delivers the frame it completes**, and that frame sums to zero. -/
theorem collect_delivered {pre f : List UInt8} {b : UInt8} (h : Open fmt pre)
    (hf : (collect fmt b pre).1 = .delivered f) :
    f = pre ++ [b] ∧ Complete fmt f ∧ byteSum f % 256 = 0 := by
  obtain ⟨t, s, st, body, rfl⟩ := header_of_collect_delivered hf
  rw [collect] at hf
  split_ifs at hf with hlen
  rw [close] at hf
  split_ifs at hf with hsum
  obtain rfl := Verdict.delivered.inj hf
  exact ⟨rfl, ⟨t, s, st, _, rfl, (h t s (st :: body) rfl).1, by simp; omega⟩, hsum⟩

/-- A delivery leaves no frame open. -/
theorem collect_delivered_next {pre f : List UInt8} {b : UInt8}
    (hf : (collect fmt b pre).1 = .delivered f) : (collect fmt b pre).2 = [] := by
  obtain ⟨t, s, st, body, rfl⟩ := header_of_collect_delivered hf
  rw [collect] at hf ⊢
  split_ifs at hf ⊢
  rfl

/-- Every frame a stream delivers is complete and sums to zero. -/
theorem delivered_complete {pre l f : List UInt8} {i : ℕ} (h : Open fmt pre)
    (hi : (answers (collect fmt) pre l)[i]? = some (.delivered f)) :
    Complete fmt f ∧ byteSum f % 256 = 0 := by
  rw [getElem?_answers] at hi
  obtain ⟨b, -, hv⟩ := Option.map_eq_some_iff.mp hi
  exact (collect_delivered (h.final _) hv).2

/-- **Where a frame delivered at the end of a stream began**: with the frame that was open,
or at a boundary inside the stream. -/
theorem delivered_last : ∀ {l pre f : List UInt8}, Open fmt pre →
    (answers (collect fmt) pre l).getLast? = some (.delivered f) →
    f = pre ++ l ∨ ∃ l₁ l₂, l = l₁ ++ l₂ ∧ l₁ ≠ [] ∧ final (collect fmt) pre l₁ = [] ∧ f = l₂ := by
  intro l
  induction l with
  | nil => exact fun _ h => by simp at h
  | cons b l ih =>
    intro pre f hopen hlast
    rcases List.eq_nil_or_concat l with rfl | hl
    · have hv : (collect fmt b pre).1 = .delivered f := by simpa using hlast
      exact Or.inl (collect_delivered hopen hv).1
    · have hne : l ≠ [] := by
        obtain ⟨l', b', rfl⟩ := hl
        simp
      have hne' : answers (collect fmt) (collect fmt b pre).2 l ≠ [] := by
        rw [← List.length_pos_iff, length_answers]
        exact List.length_pos_iff.mpr hne
      rw [answers_cons, List.getLast?_cons_of_ne_nil hne'] at hlast
      rcases ih (hopen.collect b) hlast with rfl | ⟨l₁, l₂, rfl, hl₁, hfin, hf⟩
      · rcases collect_next fmt b pre with hnext | hnext
        · exact Or.inl (by rw [hnext]; simp)
        · exact Or.inr ⟨[b], l, rfl, by simp, hnext, by rw [hnext]; rfl⟩
      · exact Or.inr ⟨b :: l₁, l₂, rfl, by simp, hfin, hf⟩

/-! ### Streams that leave nothing behind -/

/-- **The streams a receiver swallows without a trace**: pieces it turns down, and
complete frames that do not sum to zero. -/
inductive Drained (fmt : Format) : List UInt8 → Prop where
  | nil : Drained fmt []
  | skip {t : UInt8} {l : List UInt8} : fmt.rejectType t = true → Drained fmt l →
      Drained fmt (t :: l)
  | badSize {t s : UInt8} {l : List UInt8} : fmt.rejectType t = false → fmt.badSize s →
      Drained fmt l → Drained fmt (t :: s :: l)
  | badSubtype {t s st : UInt8} {l : List UInt8} : fmt.rejectType t = false →
      ¬fmt.badSize s → fmt.rejectSubtype st = true → Drained fmt l →
      Drained fmt (t :: s :: st :: l)
  | badSum {t s st : UInt8} {r l : List UInt8} : fmt.rejectType t = false →
      ¬fmt.badSize s → fmt.rejectSubtype st = false → r.length + 3 = s.toNat →
      byteSum (t :: s :: st :: r) % 256 ≠ 0 → Drained fmt l →
      Drained fmt (t :: s :: st :: (r ++ l))

/-- A drained stream leaves the receiver at a boundary and delivers nothing. -/
theorem Drained.run {l : List UInt8} (h : Drained fmt l) :
    final (collect fmt) [] l = [] ∧ ∀ f, .delivered f ∉ answers (collect fmt) [] l := by
  induction h with
  | nil => simp
  | skip ht _ ih => simpa [collect, ht] using ih
  | badSize ht hs _ ih => simpa [collect, ht, hs] using ih
  | badSubtype ht hs hst _ ih => simpa [collect, ht, hs, hst] using ih
  | @badSum t s st r l ht hs hst hlen hsum _ ih =>
    obtain ⟨hans, hfin⟩ := run_frame ht hs hst hlen
    have hsplit : t :: s :: st :: (r ++ l) = (t :: s :: st :: r) ++ l := by simp
    rw [hsplit, final_append, answers_append, hfin, hans, close, if_neg hsum]
    refine ⟨ih.1, fun f hf => ?_⟩
    rw [List.mem_append] at hf
    rcases hf with hf | hf
    · simp at hf
    · exact ih.2 f hf

/-- Only drained streams do. -/
theorem drained_of_run (l : List UInt8) (hfin : final (collect fmt) [] l = [])
    (hans : ∀ f, .delivered f ∉ answers (collect fmt) [] l) : Drained fmt l := by
  induction l using deframe.induct fmt with
  | case1 => exact .nil
  | case2 t h _ => exact .skip h .nil
  | case3 t h => simp [collect, h] at hfin
  | case4 t s h ih =>
    rw [final_cons, collect, if_pos h] at hfin
    rw [answers_cons, collect, if_pos h] at hans
    exact .skip h (ih hfin fun f hf => hans f (List.mem_cons_of_mem _ hf))
  | case5 t s h hs _ => exact .badSize (by simpa using h) hs .nil
  | case6 t s h hs => simp [collect, h, hs] at hfin
  | case7 t s st l h ih =>
    rw [final_cons, collect, if_pos h] at hfin
    rw [answers_cons, collect, if_pos h] at hans
    exact .skip h (ih hfin fun f hf => hans f (List.mem_cons_of_mem _ hf))
  | case8 t s st l h hs ih =>
    rw [final_cons, collect, if_neg h, final_cons, collect, if_pos hs] at hfin
    rw [answers_cons, collect, if_neg h, answers_cons, collect, if_pos hs] at hans
    exact .badSize (by simpa using h) hs
      (ih hfin fun f hf => hans f (List.mem_cons_of_mem _ (List.mem_cons_of_mem _ hf)))
  | case9 t s st l h hs hst ih =>
    rw [final_cons, collect, if_neg h, final_cons, collect, if_neg hs, final_cons, collect,
      if_pos hst] at hfin
    rw [answers_cons, collect, if_neg h, answers_cons, collect, if_neg hs, answers_cons, collect,
      if_pos hst] at hans
    exact .badSubtype (by simpa using h) hs hst (ih hfin fun f hf =>
      hans f (List.mem_cons_of_mem _ (List.mem_cons_of_mem _ (List.mem_cons_of_mem _ hf))))
  | case10 t s st l h hs hst hlen =>
    -- the stream ends inside the frame, so the frame is open
    obtain ⟨-, hrun⟩ := run_body fmt t s st l [] (by simpa using hlen)
    rw [final_cons, collect, if_neg h, final_cons, collect, if_neg hs, final_cons, collect,
      if_neg hst, hrun] at hfin
    simp at hfin
  | case11 t s st l h hs hst hlen ih =>
    obtain ⟨htake, hsplit⟩ := take_frame t st hs hlen
    obtain ⟨hframe, hboundary⟩ := run_frame (by simpa using h) hs (by simpa using hst) htake
    rw [hsplit, final_append, hboundary] at hfin
    rw [hsplit, answers_append, hframe, hboundary] at hans
    -- the frame is not delivered, so its bytes do not sum to zero
    have hsum : byteSum (t :: s :: st :: l.take (s.toNat - 3)) % 256 ≠ 0 := fun hc =>
      hans (t :: s :: st :: l.take (s.toNat - 3)) (by rw [close, if_pos hc]; simp)
    have hrest := ih hfin fun f hf => hans f (List.mem_append_right _ hf)
    have := Drained.badSum (by simpa using h) hs (by simpa using hst) htake hsum hrest
    rwa [List.take_append_drop] at this

end Framing

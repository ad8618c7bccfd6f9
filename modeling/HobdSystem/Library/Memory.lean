import Mathlib.Data.List.Basic

/-!
# Arrays with checked stores

An array of a program has a length that never changes, and a store behind its end is an error and
not a longer array. A model that has a list for an array loses both: there, a store behind the end
is silently dropped, or the list grows, and what would be an overrun in the program is a result
like any other. So an array is a `Vector` here, and `Memory.store` has no result if it is out of
bounds. A program that fills an array is then a computation in `Option`, and that it has a result
is a theorem: that all of its stores are within bounds.

Two loops that fill an array are computed, with their bounds.

* `Memory.foldlM_store` is the loop `for (i = 0; i < k; i++) mem[i] = read(i);`. If the reads have
  results and `k` is within bounds, the array is filled up to `k` and the rest of it is as it was.
  The invariant of the induction speaks of single elements (`Memory.getElem?_foldlM_store`), and
  `Memory.toList_eq` puts them together again.
* `Memory.copy` copies a list from an offset on, as `memcpy` does. `Memory.copy_eq` says where the
  list ends up, and that the rest is left alone.
-/

namespace Memory

variable {α : Type*} {n : ℕ}

/-- A store, which has no result if it is out of bounds: an overrun is an outcome that a proof
about the program has to exclude, and not one that the model hides. -/
def store (mem : Vector α n) (i : ℕ) (a : α) : Option (Vector α n) :=
  if h : i < n then some (mem.set i a h) else none

theorem store_of_lt (mem : Vector α n) {i : ℕ} (a : α) (h : i < n) :
    store mem i a = some (mem.set i a h) := dif_pos h

/-- An array whose first elements are known and whose rest is that of another one. -/
theorem toList_eq {mem mem' : Vector α n} {l : List α}
    (hlow : ∀ i < l.length, mem'[i]? = l[i]?) (hhigh : ∀ i, l.length ≤ i → mem'[i]? = mem[i]?) :
    mem'.toList = l ++ mem.toList.drop l.length := by
  refine List.ext_getElem? fun i => ?_
  rw [Vector.getElem?_toList]
  rcases Nat.lt_or_ge i l.length with hi | hi
  · rw [List.getElem?_append_left hi, hlow i hi]
  · rw [List.getElem?_append_right hi, List.getElem?_drop, Nat.add_sub_cancel' hi,
      Vector.getElem?_toList, hhigh i hi]

/-- The elements after a loop that stores at every index below `k` what it reads there. -/
theorem getElem?_foldlM_store (mem : Vector α n) {read : ℕ → Option α} {f : ℕ → α} (k : ℕ)
    (hread : ∀ i < k, read i = some (f i)) (hk : k ≤ n) :
    ∃ mem' : Vector α n,
      (List.range k).foldlM (fun m i => (read i).bind (store m i)) mem = some mem' ∧
        (∀ i < k, mem'[i]? = some (f i)) ∧ ∀ i, k ≤ i → mem'[i]? = mem[i]? := by
  induction k with
  | zero => exact ⟨mem, rfl, fun i hi => absurd hi (by omega), fun _ _ => rfl⟩
  | succ k ih =>
    obtain ⟨mem', hrun, hlow, hhigh⟩ := ih (fun i hi => hread i (by omega)) (by omega)
    refine ⟨mem'.set k (f k) (by omega), ?_, fun i hi => ?_, fun i hi => ?_⟩
    · rw [List.range_succ, List.foldlM_append, hrun]
      simp [hread k (by omega), store_of_lt mem' (f k) (show k < n by omega)]
    · rcases Nat.lt_or_eq_of_le (Nat.le_of_lt_succ hi) with hlt | rfl
      · rw [Vector.getElem?_set_ne _ (by omega), hlow i hlt]
      · rw [Vector.getElem?_set_self]
    · rw [Vector.getElem?_set_ne _ (by omega), hhigh i (by omega)]

/-- **Such a loop fills the array up to `k` and leaves the rest.** -/
theorem foldlM_store (mem : Vector α n) {read : ℕ → Option α} {f : ℕ → α} (k : ℕ)
    (hread : ∀ i < k, read i = some (f i)) (hk : k ≤ n) :
    ∃ mem' : Vector α n,
      (List.range k).foldlM (fun m i => (read i).bind (store m i)) mem = some mem' ∧
        mem'.toList = (List.range k).map f ++ mem.toList.drop k := by
  obtain ⟨mem', hrun, hlow, hhigh⟩ := getElem?_foldlM_store mem k hread hk
  have hlen : ((List.range k).map f).length = k := by simp
  have hlist : mem'.toList =
      (List.range k).map f ++ mem.toList.drop ((List.range k).map f).length := by
    refine toList_eq (fun i hi => ?_) fun i hi => hhigh i (by omega)
    rw [hlow i (by omega)]
    simp [show i < k by omega]
  rw [hlen] at hlist
  exact ⟨mem', hrun, hlist⟩

/-- A list copied into an array from an offset on, element by element. If it does not fit, there
is no result, whatever has been copied before the end of the array is come to. -/
def copy (mem : Vector α n) : ℕ → List α → Option (Vector α n)
  | _, [] => some mem
  | off, a :: l => (store mem off a).bind fun mem => copy mem (off + 1) l

/-- **A list that fits is copied in place**, and what is in front of it and behind it stays as it
was. -/
theorem copy_eq (l : List α) : ∀ (mem : Vector α n) {off : ℕ}, off + l.length ≤ n →
    ∃ mem' : Vector α n, copy mem off l = some mem' ∧
      mem'.toList = mem.toList.take off ++ l ++ mem.toList.drop (off + l.length) := by
  induction l with
  | nil => exact fun mem off _ => ⟨mem, rfl, by simp⟩
  | cons a l ih =>
    intro mem off h
    rw [List.length_cons] at h
    have hoff : off < n := by omega
    obtain ⟨mem', hcopy, hlist⟩ := ih (mem.set off a hoff) (show off + 1 + l.length ≤ n by omega)
    refine ⟨mem', by rw [copy, store_of_lt mem a hoff]; exact hcopy, ?_⟩
    have hlen : off < mem.toList.length := by rwa [Vector.length_toList]
    rw [hlist, Vector.toList_set, List.drop_set_of_lt (by omega),
      List.take_succ_eq_append_getElem (by rwa [List.length_set]), List.take_set_of_le (by omega),
      List.getElem_set_self, List.length_cons, Nat.add_right_comm]
    simp [Nat.add_assoc]

theorem copy_append (l l' : List α) : ∀ (mem : Vector α n) (off : ℕ),
    copy mem off (l ++ l') = (copy mem off l).bind fun mem => copy mem (off + l.length) l' := by
  induction l with
  | nil => exact fun mem off => rfl
  | cons a l ih =>
    intro mem off
    rw [List.cons_append, copy, copy, Option.bind_assoc, List.length_cons]
    simp only [ih, Nat.add_assoc, Nat.add_comm 1]

end Memory

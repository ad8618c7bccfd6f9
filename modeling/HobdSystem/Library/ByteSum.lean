import Mathlib.Data.List.Basic
import Mathlib.Tactic.Ring

/-!
# Sums of bytes

A frame that closes with a checksum byte is one whose bytes sum to zero modulo 256. The sum itself
is `Bytes.byteSum`, a natural number that does not wrap. That is what makes it possible to compare
programs that compute a checksum in different ways: whatever the width of an accumulator is, it
holds the remainder of this number, and the remainder modulo 256 is all that a checksum depends
on.

There are three ways to speak of a checksum, and this file takes one to the other.

* The accumulator of a program: `Bytes.sum16` adds up in 16 bits, and wraps from 258 bytes on if
  they are large. `Bytes.toNat_sum16` says what is left of the sum then, which is enough, since
  256 divides 65536.
* The byte that is sent: `Bytes.negByte` is the complement of the low byte of the accumulator, as
  it is computed in 16 bits and cut off to 8. That the complement of zero is zero, and not 256, is
  due to the cut. `Bytes.eq_negByte_iff` says that it is the one byte that closes the sum.
* The frame as a whole: that it sums to zero. `Bytes.byteSum_set_ne` is what a checksum is good
  for: a frame that sums to zero no longer does when one of its bytes is changed. Of the order of
  its bytes it says nothing (`Bytes.byteSum_perm`).
-/

namespace Bytes

/-- The sum of the bytes of a list, as a natural number: no accumulator of a program has it, but
the remainders that the accumulators have are all remainders of it. -/
def byteSum (l : List UInt8) : ℕ := (l.map UInt8.toNat).sum

@[simp] theorem byteSum_nil : byteSum [] = 0 := rfl

@[simp] theorem byteSum_cons (b : UInt8) (l : List UInt8) :
    byteSum (b :: l) = b.toNat + byteSum l := by
  simp [byteSum]

@[simp] theorem byteSum_append (l l' : List UInt8) :
    byteSum (l ++ l') = byteSum l + byteSum l' := by
  simp [byteSum]

theorem byteSum_le (l : List UInt8) : byteSum l ≤ 255 * l.length := by
  induction l with
  | nil => simp
  | cons b l ih =>
    have hb : b.toNat < 256 := b.toNat_lt
    rw [byteSum_cons, List.length_cons]
    omega

theorem byteSum_perm {l l' : List UInt8} (h : l.Perm l') : byteSum l = byteSum l' :=
  (h.map UInt8.toNat).sum_nat

/-- One byte is replaced by another. -/
theorem byteSum_set {l : List UInt8} {i : ℕ} {a : UInt8} (h : l[i]? = some a) (b : UInt8) :
    byteSum (l.set i b) + a.toNat = byteSum l + b.toNat := by
  obtain ⟨hi, rfl⟩ := List.getElem?_eq_some_iff.mp h
  have hl : byteSum l = byteSum (l.take i) + (l[i].toNat + byteSum (l.drop (i + 1))) := by
    rw [← byteSum_cons, ← byteSum_append, List.getElem_cons_drop, List.take_append_drop]
  rw [List.set_eq_take_append_cons_drop, if_pos hi, byteSum_append, byteSum_cons, hl]
  omega

/-- **A list that sums to zero no longer does when one of its bytes is changed.** Two bytes differ
by less than 256, so the sum cannot have gone round once. -/
theorem byteSum_set_ne {l : List UInt8} {i : ℕ} {a b : UInt8} (h : l[i]? = some a) (hne : b ≠ a)
    (hsum : byteSum l % 256 = 0) : byteSum (l.set i b) % 256 ≠ 0 := by
  have hset := byteSum_set h b
  have ha : a.toNat < 256 := a.toNat_lt
  have hb : b.toNat < 256 := b.toNat_lt
  have hval : b.toNat ≠ a.toNat := fun hc => hne (UInt8.toNat_inj.mp hc)
  omega

/-- Some byte brings any sum to zero modulo 256. -/
theorem exists_closing (n : ℕ) : ∃ c : UInt8, (n + c.toNat) % 256 = 0 := by
  refine ⟨UInt8.ofNat (256 - n % 256), ?_⟩
  rw [UInt8.toNat_ofNat']
  omega

/-- The last byte of a list that sums to zero. -/
theorem eq_of_byteSum {l : List UInt8} {c d : UInt8} (hc : byteSum (l ++ [c]) % 256 = 0)
    (hd : byteSum (l ++ [d]) % 256 = 0) : c = d := by
  rw [byteSum_append, byteSum_cons, byteSum_nil] at hc hd
  have hclt : c.toNat < 256 := c.toNat_lt
  have hdlt : d.toNat < 256 := d.toNat_lt
  exact UInt8.toNat_inj.mp (by omega)

/-- The sum of a list in a 16-bit accumulator. -/
def sum16 (cs : UInt16) (l : List UInt8) : UInt16 := l.foldl (fun cs b => cs + b.toUInt16) cs

theorem toNat_sum16 (cs : UInt16) (l : List UInt8) :
    (sum16 cs l).toNat = (cs.toNat + byteSum l) % 65536 := by
  induction l generalizing cs with
  | nil => simp [sum16, Nat.mod_eq_of_lt cs.toNat_lt]
  | cons b l ih =>
    have h := ih (cs + b.toUInt16)
    rw [sum16] at h
    rw [sum16, List.foldl_cons, h, byteSum_cons, UInt16.toNat_add, UInt8.toNat_toUInt16]
    omega

/-- The byte that brings a 16-bit sum to zero modulo 256, as a program computes it: the low byte
is subtracted from 256, which for a low byte of zero leaves 256 and is cut off to zero. -/
def negByte (cs : UInt16) : UInt8 := (0x0100 - (cs &&& 0x00FF)).toUInt8

theorem toNat_and_255 (cs : UInt16) : (cs &&& 0x00FF).toNat = cs.toNat % 256 := by
  rw [UInt16.toNat_and]
  exact Nat.and_two_pow_sub_one_eq_mod cs.toNat 8

theorem toNat_negByte (cs : UInt16) : (negByte cs).toNat = (256 - cs.toNat % 256) % 256 := by
  have hlt : cs.toNat % 256 < 256 := Nat.mod_lt _ (by norm_num)
  rw [negByte, UInt16.toNat_toUInt8, UInt16.toNat_sub, toNat_and_255]
  change (2 ^ 16 - cs.toNat % 256 + 256) % 2 ^ 16 % 2 ^ 8 = _
  omega

/-- **Exactly one byte closes a sum**: the complement of its low byte. So a checksum that is right
is determined by the bytes in front of it. -/
theorem eq_negByte_iff (cs : UInt16) (b : UInt8) :
    b = negByte cs ↔ (cs.toNat + b.toNat) % 256 = 0 := by
  have hb : b.toNat < 256 := b.toNat_lt
  rw [← UInt8.toNat_inj, toNat_negByte]
  omega

end Bytes

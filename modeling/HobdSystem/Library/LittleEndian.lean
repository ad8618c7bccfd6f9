import Mathlib.Data.List.Basic
import Mathlib.Tactic.Ring

/-!
# Numbers as bytes, the low byte first

The `n` low bytes of a number are `LittleEndian.bytes`, and the number a list of bytes stands for
is `LittleEndian.value`. The two are inverse to each other as far as the width allows: from a
number one gets back its remainder (`LittleEndian.value_bytes`), from a list of bytes the list
(`LittleEndian.bytes_value`).

Both are defined by recursion and for any width. A program has its widths fixed, and does not
compute either of them: it moves memory that was written as words and is read as bytes, or puts a
word together by shifting bytes into place. Two lemmas take such code to the definitions here.

* `LittleEndian.bytes_add` cuts a number in two. A field of eight bytes is two words of four, with
  the quotient in the second, and a message that is sent word by word has the bytes of the record
  it was copied from.
* `LittleEndian.toNat_or_shiftLeft` says that a byte that is shifted into a free place of a word
  is added to it. What has to be known is that the place is free and that nothing is shifted out;
  then `|||` is `+`, and a word that is assembled from four bytes is the `LittleEndian.value` of
  them.
-/

namespace LittleEndian

/-- The `n` low bytes of a number. -/
def bytes : ℕ → ℕ → List UInt8
  | 0, _ => []
  | n + 1, v => UInt8.ofNat v :: bytes n (v / 256)

/-- The number some bytes stand for. -/
def value (l : List UInt8) : ℕ := l.foldr (fun b v => b.toNat + 256 * v) 0

@[simp] theorem value_nil : value [] = 0 := rfl

@[simp] theorem value_cons (b : UInt8) (l : List UInt8) :
    value (b :: l) = b.toNat + 256 * value l := rfl

@[simp] theorem length_bytes (n v : ℕ) : (bytes n v).length = n := by
  induction n generalizing v with
  | zero => rfl
  | succ n ih => rw [bytes, List.length_cons, ih]

/-- The bytes behind the first `m` are those of the quotient. A number that is stored as two words
is cut in two in this way. -/
theorem bytes_add (m n v : ℕ) : bytes (m + n) v = bytes m v ++ bytes n (v / 256 ^ m) := by
  induction m generalizing v with
  | zero => simp [bytes]
  | succ m ih =>
    rw [Nat.succ_add_eq_add_succ, Nat.add_succ, bytes, bytes, ih, List.cons_append,
      Nat.div_div_eq_div_mul, Nat.pow_succ, Nat.mul_comm]

/-- Only the remainder modulo the width counts. -/
theorem bytes_mod (n v : ℕ) : bytes n (v % 256 ^ n) = bytes n v := by
  induction n generalizing v with
  | zero => rfl
  | succ n ih =>
    have hlow : v % 256 ^ (n + 1) % 256 = v % 256 :=
      Nat.mod_mod_of_dvd v (Dvd.intro_left _ (Nat.pow_succ ..).symm)
    have hhigh : v % 256 ^ (n + 1) / 256 = v / 256 % 256 ^ n := by
      rw [Nat.pow_succ, Nat.mul_comm, Nat.mod_mul_right_div_self]
    rw [bytes, bytes, hhigh, ih]
    congr 1
    rw [← UInt8.toNat_inj, UInt8.toNat_ofNat', UInt8.toNat_ofNat']
    exact hlow

theorem value_bytes (n v : ℕ) : value (bytes n v) = v % 256 ^ n := by
  induction n generalizing v with
  | zero => simp [bytes, Nat.mod_one]
  | succ n ih =>
    have hlow : v % 2 ^ 8 = v % 256 := rfl
    rw [bytes, value_cons, ih, UInt8.toNat_ofNat', hlow, Nat.pow_succ', Nat.mod_mul]

theorem value_lt (l : List UInt8) : value l < 256 ^ l.length := by
  induction l with
  | nil => simp
  | cons b l ih =>
    have hb : b.toNat < 256 := b.toNat_lt
    rw [value_cons, List.length_cons, Nat.pow_succ]
    omega

theorem bytes_value (l : List UInt8) : bytes l.length (value l) = l := by
  induction l with
  | nil => rfl
  | cons b l ih =>
    have hb : b.toNat < 256 := b.toNat_lt
    have hdiv : (b.toNat + 256 * value l) / 256 = value l := by omega
    rw [List.length_cons, bytes, value_cons, hdiv, ih]
    congr 1
    rw [← UInt8.toNat_inj, UInt8.toNat_ofNat']
    omega

theorem value_append (l l' : List UInt8) :
    value (l ++ l') = value l + 256 ^ l.length * value l' := by
  induction l with
  | nil => simp
  | cons b l ih =>
    rw [List.cons_append, value_cons, value_cons, ih, List.length_cons, Nat.pow_succ]
    ring

/-- A number put together of a low and a high part. -/
theorem bytes_add_mul {m n a b : ℕ} (ha : a < 256 ^ m) :
    bytes (m + n) (a + 256 ^ m * b) = bytes m a ++ bytes n b := by
  have hlow : (a + 256 ^ m * b) % 256 ^ m = a := by
    rw [Nat.add_mul_mod_self_left, Nat.mod_eq_of_lt ha]
  have hhigh : (a + 256 ^ m * b) / 256 ^ m = b := by
    rw [Nat.add_mul_div_left _ _ (Nat.pow_pos (by omega)), Nat.div_eq_of_lt ha, Nat.zero_add]
  rw [bytes_add, hhigh, ← bytes_mod, hlow]

/-- **What is shifted into a free place of a word is added to it.** The place is free if the word
is below `2 ^ k`, and nothing is shifted out if the byte is not wider than what is left of the
word. -/
theorem toNat_or_shiftLeft (w b : UInt32) {k : ℕ} (hk : k < 32) (hw : w.toNat < 2 ^ k)
    (hb : 2 ^ k * b.toNat < 2 ^ 32) :
    (w ||| b <<< UInt32.ofNat k).toNat = w.toNat + 2 ^ k * b.toNat := by
  have hshift : (UInt32.ofNat k).toNat % 32 = k := by
    rw [UInt32.toNat_ofNat']
    omega
  have hfits : b.toNat <<< k < 2 ^ 32 := by
    rw [Nat.shiftLeft_eq, Nat.mul_comm]
    exact hb
  rw [UInt32.toNat_or, UInt32.toNat_shiftLeft, hshift, Nat.mod_eq_of_lt hfits, Nat.or_comm,
    ← Nat.shiftLeft_add_eq_or_of_lt hw, Nat.shiftLeft_eq, Nat.mul_comm, Nat.add_comm]

end LittleEndian

import Mathlib.Algebra.BigOperators.Group.List.Basic
import AxiomGrid.Lib.PyStr

/-!
# Byte offsets in a text

Rust's `str` is indexed by bytes of its UTF-8 form: a slice whose ends are not at the ends of
characters panics, and so does one that runs past the end. A panic is `none` here.
-/

namespace Str

/-- `s.len()`. -/
def byteLength (s : Str) : ℕ := (s.map Char.utf8Size).sum

/-- `&s[n..]`. -/
def dropBytes : Str → ℕ → Option Str
  | [], n => if n = 0 then some [] else none
  | c :: s, n =>
    if n = 0 then some (c :: s)
    else if c.utf8Size ≤ n then dropBytes s (n - c.utf8Size)
    else none

/-- `&s[..n]`. -/
def takeBytes : Str → ℕ → Option Str
  | [], n => if n = 0 then some [] else none
  | c :: s, n =>
    if n = 0 then some []
    else if c.utf8Size ≤ n then (takeBytes s (n - c.utf8Size)).map (c :: ·)
    else none

/-- `&s[i..j]`. -/
def sliceBytes (s : Str) (i j : ℕ) : Option Str :=
  if i ≤ j then (dropBytes s i).bind fun t => takeBytes t (j - i) else none

/-- `s.replace_range(i..j, new)`. -/
def replaceRange (s : Str) (i j : ℕ) (new : Str) : Option Str := do
  let before ← takeBytes s i
  let after ← dropBytes s j
  some (before ++ new ++ after)

@[simp] lemma byteLength_nil : byteLength [] = 0 := rfl

@[simp] lemma byteLength_cons (c : Char) (s : Str) :
    byteLength (c :: s) = c.utf8Size + byteLength s := by
  simp [byteLength]

@[simp] lemma byteLength_append (a b : Str) :
    byteLength (a ++ b) = byteLength a + byteLength b := by
  simp [byteLength]

lemma length_le_byteLength (s : Str) : s.length ≤ byteLength s := by
  induction s with
  | nil => exact le_rfl
  | cons c s ih =>
    have hpos := c.utf8Size_pos
    rw [List.length_cons, byteLength_cons]
    omega

@[simp] lemma dropBytes_zero (s : Str) : dropBytes s 0 = some s := by
  cases s <;> rfl

@[simp] lemma takeBytes_zero (s : Str) : takeBytes s 0 = some [] := by
  cases s <;> rfl

/-- The bytes of a start of the text. -/
lemma takeBytes_append (a b : Str) : takeBytes (a ++ b) (byteLength a) = some a := by
  induction a with
  | nil => simp
  | cons c a ih =>
    have hpos := c.utf8Size_pos
    rw [List.cons_append, byteLength_cons, takeBytes, if_neg (by omega), if_pos (by omega),
      Nat.add_sub_cancel_left, ih]
    rfl

lemma dropBytes_append (a b : Str) : dropBytes (a ++ b) (byteLength a) = some b := by
  induction a with
  | nil => simp
  | cons c a ih =>
    have hpos := c.utf8Size_pos
    rw [List.cons_append, byteLength_cons, dropBytes, if_neg (by omega), if_pos (by omega),
      Nat.add_sub_cancel_left, ih]

/-- Behind an offset the offsets start again. -/
lemma dropBytes_add {s t : Str} {i : ℕ} (h : dropBytes s i = some t) (n : ℕ) :
    dropBytes s (i + n) = dropBytes t n := by
  induction s generalizing i with
  | nil =>
    rw [dropBytes] at h
    split_ifs at h with hi
    cases h
    rw [hi, Nat.zero_add]
  | cons c s ih =>
    rw [dropBytes] at h
    split_ifs at h with hi hc
    · cases h
      rw [hi, Nat.zero_add]
    · have hpos := c.utf8Size_pos
      rw [dropBytes, if_neg (by omega), if_pos (by omega), ← ih h]
      congr 1
      omega

lemma sliceBytes_add {s t : Str} {i : ℕ} (h : dropBytes s i = some t) (j k : ℕ) :
    sliceBytes s (i + j) (i + k) = sliceBytes t j k := by
  rw [sliceBytes, sliceBytes, dropBytes_add h, Nat.add_sub_add_left]
  simp only [Nat.add_le_add_iff_left]

/-- Replacing what follows a start of the text. -/
lemma replaceRange_append (a b new : Str) (n : ℕ) :
    replaceRange (a ++ b) (byteLength a) (byteLength a + n) new =
      (dropBytes b n).map fun after => a ++ new ++ after := by
  rw [replaceRange, takeBytes_append, dropBytes_add (dropBytes_append a b)]
  cases dropBytes b n <;> rfl

end Str

import Mathlib.Algebra.Order.Field.Rat
import Mathlib.Algebra.Order.Field.Basic
import Mathlib.Tactic.Linarith
import Mathlib.Tactic.NormNum
import Mathlib.Tactic.Positivity
import Mathlib.Logic.Function.Basic
import AxiomGrid.Lib.EditDistance
import AxiomGrid.Lib.IntBits
import AxiomGrid.Lib.PyStr

/-!
# Similarity ratios

`levenshtein_ratio` of `kernel/core/grounding.py`, which runs Myers' bit-vector algorithm on
unbounded integers, and the function of the same name in `kernel/core/verifier_standalone.py`, which
fills the table. Ratios are exact rationals.

Bit `i` of `positive` and `negative` says whether the column of the table goes up or down between
rows `i` and `i + 1`. The integers are not masked, so they are negative and have bits beyond the
length of the first string; the sum and the shifts only move information upwards, so these bits never
reach the rows of the table.
-/

namespace AxiomGrid.Grounding

open IntBits

/-! ### The bit vectors -/

/-- The dictionary `masks`: bit `i` of the mask of a character says whether it is the `i`-th
character of `s1`. -/
def masks (s1 : Str) : Char → ℤ :=
  s1.zipIdx.foldl
    (fun masks (p : Char × ℕ) =>
      Function.update masks p.1 (Int.lor (masks p.1) ((1 : ℤ) <<< p.2)))
    fun _ => 0

/-- The variables of the loop over `s2`. -/
structure Vectors where
  positive : ℤ
  negative : ℤ
  distance : ℤ

/-- One round of the loop. -/
def Vectors.step (masks : Char → ℤ) (highBit : ℤ) (v : Vectors) (char : Char) : Vectors :=
  let equal := masks char
  let vertical := Int.lor equal v.negative
  let horizontal := Int.lor (Int.xor (Int.land equal v.positive + v.positive) v.positive) equal
  let plus := Int.lor v.negative (Int.lnot (Int.lor horizontal v.positive))
  let minus := Int.land v.positive horizontal
  let distance :=
    if Int.land plus highBit ≠ 0 then v.distance + 1
    else if Int.land minus highBit ≠ 0 then v.distance - 1
    else v.distance
  let plus := Int.lor (plus <<< (1 : ℕ)) 1
  let minus := minus <<< (1 : ℕ)
  { positive := Int.lor minus (Int.lnot (Int.lor vertical plus))
    negative := Int.land plus vertical
    distance }

/-- The distance the bit-vector loop computes. -/
def bitDistance (s1 s2 : Str) : ℤ :=
  (s2.foldl (Vectors.step (masks s1) ((1 : ℤ) <<< (s1.length - 1)))
    ⟨(1 : ℤ) <<< s1.length - 1, 0, s1.length⟩).distance

/-! ### The masks -/

private lemma foldl_masks_testBit (xs : Str) (k : ℕ) (f : Char → ℤ) (c : Char) (i : ℕ) :
    (((xs.zipIdx k).foldl (fun masks (p : Char × ℕ) =>
      Function.update masks p.1 (Int.lor (masks p.1) ((1 : ℤ) <<< p.2))) f) c).testBit i =
      ((f c).testBit i || decide (k ≤ i ∧ xs[i - k]? = some c)) := by
  induction xs generalizing k f with
  | nil => simp
  | cons x xs ih =>
    rw [List.zipIdx_cons, List.foldl_cons, ih]
    have hget : (k ≤ i ∧ (x :: xs)[i - k]? = some c) ↔
        (k = i ∧ x = c) ∨ (k + 1 ≤ i ∧ xs[i - (k + 1)]? = some c) := by
      rcases lt_trichotomy k i with h | rfl | h
      · obtain ⟨d, rfl⟩ : ∃ d, i = k + 1 + d := ⟨i - (k + 1), by omega⟩
        rw [show k + 1 + d - k = d + 1 by omega, List.getElem?_cons_succ,
          show k + 1 + d - (k + 1) = d by omega]
        constructor
        · intro h
          exact .inr ⟨by omega, h.2⟩
        · rintro (h | h)
          · omega
          · exact ⟨by omega, h.2⟩
      · simp
      · constructor <;> intro <;> omega
    rw [Bool.eq_iff_iff, Bool.or_eq_true, Bool.or_eq_true, decide_eq_true_eq, decide_eq_true_eq, hget]
    by_cases hx : x = c
    · subst hx
      rw [Function.update_self, Int.testBit_lor, testBit_one_shiftLeft]
      simp only [Bool.or_eq_true, decide_eq_true_eq]
      tauto
    · rw [Function.update_of_ne (Ne.symm hx)]
      tauto

lemma masks_testBit (s1 : Str) (c : Char) (i : ℕ) :
    (masks s1 c).testBit i = decide (s1[i]? = some c) := by
  rw [masks, foldl_masks_testBit]
  simp [Int.testBit]

/-! ### One column -/

section

variable {m : ℕ} {prev : ℕ → ℕ}

/-- The vectors encode a column of the table with rows up to `m`. -/
structure Vectors.Encodes (v : Vectors) (m : ℕ) (col : ℕ → ℕ) : Prop where
  positive : ∀ i < m, v.positive.testBit i = decide (col (i + 1) = col i + 1)
  negative : ∀ i < m, v.negative.testBit i = decide (col (i + 1) + 1 = col i)
  distance : v.distance = col m

variable {v : Vectors} {equal : ℤ} {eq : ℕ → Bool}

/-- The carries of the sum are the rows where the next column is below the old one. -/
lemma carry_eq (hv : v.Encodes m prev) (hsmooth : Smooth prev)
    (heq : ∀ i < m, equal.testBit i = eq i) {i : ℕ} (hi : i ≤ m) :
    carry (Int.land equal v.positive) v.positive false i =
      decide (editNext eq prev i + 1 = prev i) := by
  induction i with
  | zero =>
    rw [carry, editNext, eq_comm, decide_eq_false_iff_not]
    omega
  | succ i ih =>
    have := hsmooth i
    have := editNext_horizontal eq hsmooth i
    rw [carry, ih (by omega), Int.testBit_land, hv.positive i hi, heq i hi, editNext_succ eq hsmooth,
      Bool.eq_iff_iff]
    cases eq i <;> simp [carryOut]
    · split <;> omega
    · omega

/-- Bit `i` of `horizontal`: a match, or a row where the next column is below the old one. -/
lemma horizontal_testBit (hv : v.Encodes m prev) (hsmooth : Smooth prev)
    (heq : ∀ i < m, equal.testBit i = eq i) {i : ℕ} (hi : i < m) :
    (Int.lor (Int.xor (Int.land equal v.positive + v.positive) v.positive) equal).testBit i =
      (eq i || decide (editNext eq prev i + 1 = prev i)) := by
  rw [Int.testBit_lor, Int.testBit_lxor, testBit_add, carry_eq hv hsmooth heq hi.le,
    Int.testBit_land, heq i hi]
  cases eq i <;> cases v.positive.testBit i <;> simp

/-- Bit `i` of `plus` and `minus` before the shift: the row below goes up or down between the two
columns. -/
lemma plus_minus_testBit (hv : v.Encodes m prev) (hsmooth : Smooth prev) {horizontal : ℤ}
    (hh : ∀ i < m, horizontal.testBit i = (eq i || decide (editNext eq prev i + 1 = prev i)))
    {i : ℕ} (hi : i < m) :
    (Int.lor v.negative (Int.lnot (Int.lor horizontal v.positive))).testBit i =
        decide (editNext eq prev (i + 1) = prev (i + 1) + 1) ∧
      (Int.land v.positive horizontal).testBit i =
        decide (editNext eq prev (i + 1) + 1 = prev (i + 1)) := by
  have := hsmooth i
  have := editNext_horizontal eq hsmooth i
  rw [Int.testBit_lor, Int.testBit_lnot, Int.testBit_lor, Int.testBit_land, hh i hi,
    hv.positive i hi, hv.negative i hi, editNext_succ eq hsmooth]
  constructor
  · rw [Bool.eq_iff_iff]
    cases eq i <;> simp
    · split <;> omega
    · omega
  · rw [Bool.eq_iff_iff]
    cases eq i <;> simp
    · split <;> omega
    · omega

/-- One round of the loop goes from one column to the next. -/
theorem Vectors.Encodes.step {masks : Char → ℤ} {c : Char} (hv : v.Encodes m prev)
    (hsmooth : Smooth prev) (hm : 0 < m) (heq : ∀ i < m, (masks c).testBit i = eq i) :
    (v.step masks ((1 : ℤ) <<< (m - 1)) c).Encodes m (editNext eq prev) := by
  have hh := fun i (hi : i < m) => horizontal_testBit hv hsmooth heq hi
  have hpm := fun i (hi : i < m) => plus_minus_testBit hv hsmooth hh hi
  -- after the shift, bit `i` speaks of row `i`; row 0 always goes up
  have hplus : ∀ i < m, (Int.lor (Int.lor v.negative (Int.lnot (Int.lor
      (Int.lor (Int.xor (Int.land (masks c) v.positive + v.positive) v.positive) (masks c))
        v.positive)) <<< (1 : ℕ)) 1).testBit i = decide (editNext eq prev i = prev i + 1) := by
    intro i hi
    rw [Int.testBit_lor]
    cases i with
    | zero => simp [editNext, testBit_zero]
    | succ i =>
      have hone : (1 : ℤ).testBit (i + 1) = false := by
        rw [testBit_succ]
        simp [Int.div2_val, Int.testBit]
      rw [testBit_shiftLeft_one_succ, hone, Bool.or_false]
      exact (hpm i (by omega)).1
  have hminus : ∀ i < m, (Int.land v.positive
      (Int.lor (Int.xor (Int.land (masks c) v.positive + v.positive) v.positive) (masks c)) <<<
        (1 : ℕ)).testBit i = decide (editNext eq prev i + 1 = prev i) := by
    intro i hi
    cases i with
    | zero =>
      rw [testBit_shiftLeft_one_zero, editNext, eq_comm, decide_eq_false_iff_not]
      omega
    | succ i =>
      rw [testBit_shiftLeft_one_succ]
      exact (hpm i (by omega)).2
  refine ⟨fun i hi => ?_, fun i hi => ?_, ?_⟩
  · have := hsmooth i
    have := editNext_horizontal eq hsmooth i
    simp only [Vectors.step]
    rw [Int.testBit_lor, Int.testBit_lnot, Int.testBit_lor, Int.testBit_lor (masks c), hplus i hi,
      hminus i hi, heq i hi, hv.negative i hi, editNext_succ eq hsmooth, Bool.eq_iff_iff]
    cases eq i <;> simp
    · split <;> omega
    · omega
  · have := hsmooth i
    have := editNext_horizontal eq hsmooth i
    simp only [Vectors.step]
    rw [Int.testBit_land, Int.testBit_lor (masks c), hplus i hi, heq i hi, hv.negative i hi,
      editNext_succ eq hsmooth, Bool.eq_iff_iff]
    cases eq i <;> simp
    · split <;> omega
    · omega
  · -- the last row is the one the high bit shows
    obtain ⟨k, rfl⟩ : ∃ k, m = k + 1 := ⟨m - 1, by omega⟩
    obtain ⟨hp, hn⟩ := hpm k (by omega)
    have := editNext_horizontal eq hsmooth (k + 1)
    have := hv.distance
    simp only [Vectors.step, Nat.add_sub_cancel, land_one_shiftLeft_ne_zero, hp, hn,
      decide_eq_true_eq]
    split
    · omega
    · split <;> omega

end

/-! ### The loop computes the table -/

/-- The bit-vector loop computes the edit distance. -/
theorem bitDistance_eq {s1 : Str} (h : s1 ≠ []) (s2 : Str) :
    bitDistance s1 s2 = editDistance s1 s2 := by
  have hm : 0 < s1.length := List.length_pos_of_ne_nil h
  have hinv : (s2.foldl (Vectors.step (masks s1) ((1 : ℤ) <<< (s1.length - 1)))
      ⟨(1 : ℤ) <<< s1.length - 1, 0, s1.length⟩).Encodes s1.length (editColumn s1 s2) := by
    induction s2 using List.reverseRecOn with
    | nil =>
      refine ⟨fun i hi => ?_, fun i hi => ?_, rfl⟩
      · rw [List.foldl_nil, testBit_one_shiftLeft_sub_one]
        simp [editColumn_nil, hi]
      · rw [List.foldl_nil, editColumn_nil, eq_comm, decide_eq_false_iff_not.mpr]
        · simp [Int.testBit]
        · simp only [id]
          omega
    | append_singleton s2 c ih =>
      rw [List.foldl_append, List.foldl_cons, List.foldl_nil, editColumn_concat]
      exact ih.step (editColumn_smooth s1 s2) hm fun i _ => masks_testBit s1 c i
  exact hinv.distance

/-! ### The ratios -/

/-- `_LEVENSHTEIN_MAX_LEN`. -/
def levenshteinMaxLen : ℕ := 200

/-- `1.0 - distance / max(len(s1), len(s2))`. -/
def ratioOf (distance : ℤ) (s1 s2 : Str) : ℚ := 1 - distance / (max s1.length s2.length : ℕ)

/-- `levenshtein_ratio(s1, s2)` of `grounding`. -/
def levenshteinRatio (u : UnicodeData) (s1 s2 : Str) : ℚ :=
  let s1 := Str.lower u s1
  let s2 := Str.lower u s2
  if s1 = s2 then 1
  else if s1.length = 0 ∨ s2.length = 0 then 0
  else if (min s1.length s2.length : ℚ) / (max s1.length s2.length : ℚ) < 1 / 2 then 0
  else
    let s1 := s1.take levenshteinMaxLen
    let s2 := s2.take levenshteinMaxLen
    ratioOf (bitDistance s1 s2) s1 s2

end AxiomGrid.Grounding

/-- `levenshtein_ratio(s1, s2)` of `verifier_standalone`. -/
def AxiomGrid.Standalone.levenshteinRatio (u : UnicodeData) (s1 s2 : Str) : ℚ :=
  let s1 := Str.lower u s1
  let s2 := Str.lower u s2
  if s1 = s2 then 1
  else if s1.length = 0 ∨ s2.length = 0 then 0
  else Grounding.ratioOf ((lastColumn s1 s2).getD s1.length 0 : ℕ) s1 s2

namespace AxiomGrid.Grounding

/-- The length-ratio exit is taken on the lower-cased strings. -/
def LengthExit (s1 s2 : Str) : Prop :=
  s1 ≠ s2 ∧ s1 ≠ [] ∧ s2 ≠ [] ∧ 2 * min s1.length s2.length < max s1.length s2.length

/-- The comparison of the code in natural numbers. -/
lemma lengthRatio_lt_half {s1 s2 : Str} (h1 : s1 ≠ []) :
    (min s1.length s2.length : ℚ) / (max s1.length s2.length : ℚ) < 1 / 2 ↔
      2 * min s1.length s2.length < max s1.length s2.length := by
  have hpos : 0 < s1.length := List.length_pos_of_ne_nil h1
  have hmax : (0 : ℚ) < (max s1.length s2.length : ℕ) := by
    exact_mod_cast lt_of_lt_of_le hpos (le_max_left _ _)
  rw [← Nat.cast_min, ← Nat.cast_max, div_lt_div_iff₀ hmax two_pos, one_mul]
  constructor
  · intro h
    have h' : min s1.length s2.length * 2 < max s1.length s2.length := by exact_mod_cast h
    omega
  · intro h
    have h' : min s1.length s2.length * 2 < max s1.length s2.length := by omega
    exact_mod_cast h'

lemma ratioOf_self (s : Str) : ratioOf (editDistance s s) s s = 1 := by
  simp [ratioOf]

lemma ratioOf_nil_left {s : Str} (h : s ≠ []) : ratioOf (editDistance [] s) [] s = 0 := by
  have hpos : (s.length : ℚ) ≠ 0 := by simpa using h
  simp [ratioOf, editDistance_nil_left, hpos]

lemma ratioOf_nil_right {s : Str} (h : s ≠ []) : ratioOf (editDistance s []) s [] = 0 := by
  have hpos : (s.length : ℚ) ≠ 0 := by simpa using h
  simp [ratioOf, editDistance_nil_right, hpos]

/-- Without the length-ratio exit the code returns the ratio of the edit distance of the lower-cased
and truncated strings. -/
theorem levenshteinRatio_eq (u : UnicodeData) (s1 s2 : Str)
    (h : ¬LengthExit (Str.lower u s1) (Str.lower u s2)) :
    let t1 := (Str.lower u s1).take levenshteinMaxLen
    let t2 := (Str.lower u s2).take levenshteinMaxLen
    levenshteinRatio u s1 s2 = ratioOf (editDistance t1 t2) t1 t2 := by
  simp only [levenshteinRatio]
  generalize Str.lower u s1 = t1 at *
  generalize Str.lower u s2 = t2 at *
  have htake : ∀ t : Str, t ≠ [] → t.take levenshteinMaxLen ≠ [] := by
    intro t ht hnil
    rcases List.take_eq_nil_iff.mp hnil with h | h
    · exact absurd h (by decide)
    · exact ht h
  split
  · rename_i heq
    subst heq
    exact (ratioOf_self _).symm
  · rename_i hne
    split
    · rename_i hempty
      rcases hempty with h1 | h2
      · obtain rfl := List.length_eq_zero_iff.mp h1
        rw [List.take_nil, ratioOf_nil_left (htake t2 (Ne.symm hne))]
      · obtain rfl := List.length_eq_zero_iff.mp h2
        rw [List.take_nil, ratioOf_nil_right (htake t1 hne)]
    · rename_i hempty
      rw [not_or, List.length_eq_zero_iff, List.length_eq_zero_iff] at hempty
      rw [if_neg, bitDistance_eq (htake t1 hempty.1)]
      rw [lengthRatio_lt_half hempty.1]
      exact fun hlt => h ⟨hne, hempty.1, hempty.2, hlt⟩

lemma levenshteinRatio_of_exit {u : UnicodeData} {s1 s2 : Str}
    (h : LengthExit (Str.lower u s1) (Str.lower u s2)) : levenshteinRatio u s1 s2 = 0 := by
  obtain ⟨hne, hne1, hne2, hlt⟩ := h
  have hempty : ¬((Str.lower u s1).length = 0 ∨ (Str.lower u s2).length = 0) := by
    rw [not_or, List.length_eq_zero_iff, List.length_eq_zero_iff]
    exact ⟨hne1, hne2⟩
  simp only [levenshteinRatio]
  rw [if_neg hne, if_neg hempty, if_pos ((lengthRatio_lt_half hne1).mpr hlt)]

/-- The table version returns the ratio of the edit distance of the lower-cased strings. -/
theorem standaloneRatio_eq (u : UnicodeData) (s1 s2 : Str) :
    Standalone.levenshteinRatio u s1 s2 = ratioOf (editDistance (Str.lower u s1) (Str.lower u s2))
      (Str.lower u s1) (Str.lower u s2) := by
  simp only [Standalone.levenshteinRatio, getD_lastColumn]
  generalize Str.lower u s1 = t1
  generalize Str.lower u s2 = t2
  split
  · rename_i heq
    subst heq
    exact (ratioOf_self _).symm
  · rename_i hne
    split
    · rename_i hempty
      rcases hempty with h1 | h2
      · obtain rfl := List.length_eq_zero_iff.mp h1
        rw [ratioOf_nil_left (Ne.symm hne)]
      · obtain rfl := List.length_eq_zero_iff.mp h2
        rw [ratioOf_nil_right hne]
    · rfl

/-- Strings of very different length have a ratio below one half. -/
lemma ratioOf_lt_half {s1 s2 : Str} (h : LengthExit s1 s2) :
    ratioOf (editDistance s1 s2) s1 s2 < 1 / 2 := by
  obtain ⟨-, -, -, hlen⟩ := h
  obtain ⟨h1, h2⟩ := length_sub_le_editDistance s1 s2
  have hmax : (0 : ℚ) < (max s1.length s2.length : ℕ) := by
    exact_mod_cast lt_of_le_of_lt (Nat.zero_le _) hlen
  have hd : (max s1.length s2.length : ℕ) < 2 * editDistance s1 s2 := by omega
  have hd' : ((max s1.length s2.length : ℕ) : ℚ) < 2 * editDistance s1 s2 := by exact_mod_cast hd
  rw [ratioOf, Int.cast_natCast, sub_lt_comm, lt_div_iff₀ hmax]
  linarith

lemma ratioOf_le_one (s1 s2 : Str) : ratioOf (editDistance s1 s2) s1 s2 ≤ 1 := by
  have hpos : (0 : ℚ) ≤ (editDistance s1 s2 : ℚ) / (max s1.length s2.length : ℕ) := by positivity
  rw [ratioOf, Int.cast_natCast]
  linarith

/-- The ratio of a string to a longer one is at most that of their lengths. -/
lemma ratioOf_le_length {s1 s2 : Str} (h : s1.length ≤ s2.length) (hne : s2 ≠ []) :
    ratioOf (editDistance s1 s2) s1 s2 ≤ s1.length / s2.length := by
  have hpos : (0 : ℚ) < s2.length := by exact_mod_cast List.length_pos_of_ne_nil hne
  have hd : (s2.length : ℚ) ≤ editDistance s1 s2 + s1.length := by
    exact_mod_cast (length_sub_le_editDistance s1 s2).2
  rw [ratioOf, Int.cast_natCast, max_eq_right h, le_div_iff₀ hpos, sub_mul, div_mul_cancel₀ _ hpos.ne']
  linarith

/-- On strings that are not cut, a threshold above one half is reached by both versions or by none. -/
lemma le_levenshteinRatio_iff {u : UnicodeData} {s1 s2 : Str} {threshold : ℚ}
    (h1 : (Str.lower u s1).length ≤ levenshteinMaxLen)
    (h2 : (Str.lower u s2).length ≤ levenshteinMaxLen) (ht : 1 / 2 < threshold) :
    threshold ≤ levenshteinRatio u s1 s2 ↔ threshold ≤ Standalone.levenshteinRatio u s1 s2 := by
  by_cases hexit : LengthExit (Str.lower u s1) (Str.lower u s2)
  · have hlt := ratioOf_lt_half hexit
    rw [levenshteinRatio_of_exit hexit, standaloneRatio_eq]
    constructor
    · intro h
      linarith
    · intro h
      linarith
  · rw [levenshteinRatio_eq u s1 s2 hexit, standaloneRatio_eq, List.take_of_length_le h1,
      List.take_of_length_le h2]

/-- What the bit-vector version returns. Unless it takes the length-ratio exit it is one minus the
edit distance over the longer length, on the lower-cased and truncated strings. When the lower-cased
strings have at most 200 characters, the exit does not change whether a threshold above one half is
reached, and neither does using the table version instead. -/
theorem levenshtein_ratio_exact (u : UnicodeData) (s1 s2 : Str) :
    let t1 := Str.lower u s1
    let t2 := Str.lower u s2
    let c1 := t1.take levenshteinMaxLen
    let c2 := t2.take levenshteinMaxLen
    (¬LengthExit t1 t2 →
      levenshteinRatio u s1 s2 = 1 - (editDistance c1 c2 : ℚ) / (max c1.length c2.length : ℕ)) ∧
    (t1.length ≤ levenshteinMaxLen → t2.length ≤ levenshteinMaxLen → ∀ threshold : ℚ,
      1 / 2 < threshold →
      (threshold ≤ levenshteinRatio u s1 s2 ↔
        threshold ≤ 1 - (editDistance c1 c2 : ℚ) / (max c1.length c2.length : ℕ)) ∧
      (threshold ≤ levenshteinRatio u s1 s2 ↔ threshold ≤ Standalone.levenshteinRatio u s1 s2)) := by
  intro t1 t2 c1 c2
  have hratio : ¬LengthExit t1 t2 →
      levenshteinRatio u s1 s2 = 1 - (editDistance c1 c2 : ℚ) / (max c1.length c2.length : ℕ) := by
    intro h
    rw [levenshteinRatio_eq u s1 s2 h, ratioOf, Int.cast_natCast]
  refine ⟨hratio, fun h1 h2 threshold ht => ?_⟩
  have hc1 : c1 = t1 := List.take_of_length_le h1
  have hc2 : c2 = t2 := List.take_of_length_le h2
  have htable : Standalone.levenshteinRatio u s1 s2 =
      1 - (editDistance c1 c2 : ℚ) / (max c1.length c2.length : ℕ) := by
    rw [standaloneRatio_eq, hc1, hc2, ratioOf, Int.cast_natCast]
  have hiff := le_levenshteinRatio_iff h1 h2 ht
  rw [htable] at hiff ⊢
  exact ⟨hiff, hiff⟩

/-- "Kitten" against "sitten": the exit is not taken, and the threshold 3/5 is reached in both
versions. -/
theorem levenshtein_ratio_exact_kitten :
    levenshteinRatio asciiData "Kitten".toList "sitten".toList = 5 / 6 ∧
    3 / 5 ≤ Standalone.levenshteinRatio asciiData "Kitten".toList "sitten".toList := by
  have hlower : Str.lower asciiData "Kitten".toList = "kitten".toList := by decide
  have hlower' : Str.lower asciiData "sitten".toList = "sitten".toList := by decide
  obtain ⟨hratio, hthreshold⟩ := levenshtein_ratio_exact asciiData "Kitten".toList "sitten".toList
  rw [hlower, hlower'] at hratio hthreshold
  have hexit : ¬LengthExit "kitten".toList "sitten".toList := by
    rintro ⟨-, -, -, h⟩
    exact absurd h (by decide)
  have hdistance : editDistance ("kitten".toList.take levenshteinMaxLen)
      ("sitten".toList.take levenshteinMaxLen) = 1 := by decide
  have hlength : max ("kitten".toList.take levenshteinMaxLen).length
      ("sitten".toList.take levenshteinMaxLen).length = 6 := by decide
  have hvalue : levenshteinRatio asciiData "Kitten".toList "sitten".toList = 5 / 6 := by
    rw [hratio hexit, hdistance, hlength]
    norm_num
  refine ⟨hvalue, ?_⟩
  apply ((hthreshold (by decide) (by decide) (3 / 5) (by norm_num)).2).mp
  rw [hvalue]
  norm_num

/-- 101 characters; in lower case the dotted capital I is two characters. -/
def dotted (c : Char) : Str := List.replicate 100 'İ' ++ [c]

/-- The lower case of such a string, with the dotted letters in pairs. -/
lemma lower_go_dotted (before : Str) (n : ℕ) {c : Char} (hsigma : c ≠ 'Σ') (hdotted : c ≠ 'İ') :
    Str.lower.go asciiData before (List.replicate n 'İ' ++ [c]) =
      (List.replicate n ['i', '\u0307']).flatten ++ [c.toLower] := by
  induction n generalizing before with
  | zero => simp [Str.lower.go, Str.lowerChar, hsigma, hdotted, asciiData]
  | succ n ih =>
    rw [List.replicate_succ, List.cons_append, Str.lower.go, ih, List.replicate_succ,
      List.flatten_cons, List.append_assoc]
    rfl

lemma length_pairs (n : ℕ) : (List.replicate n ['i', '\u0307']).flatten.length = n * 2 := by
  simp

lemma lower_dotted {c : Char} (hsigma : c ≠ 'Σ') (hdotted : c ≠ 'İ') :
    Str.lower asciiData (dotted c) = (List.replicate 100 ['i', '\u0307']).flatten ++ [c.toLower] :=
  lower_go_dotted [] 100 hsigma hdotted

/-- The bound on the lower-cased lengths is needed: two strings of 101 characters that differ in the
last one are cut before it, and reach the threshold 1 that the table version does not reach. -/
theorem levenshtein_ratio_cut :
    (dotted 'a').length ≤ 200 ∧ (dotted 'b').length ≤ 200 ∧
    ¬(1 ≤ levenshteinRatio asciiData (dotted 'a') (dotted 'b') ↔
      1 ≤ Standalone.levenshteinRatio asciiData (dotted 'a') (dotted 'b')) := by
  have hlower := lower_dotted (c := 'a') (by decide) (by decide)
  have hlower' := lower_dotted (c := 'b') (by decide) (by decide)
  have hlen : (Str.lower asciiData (dotted 'a')).length = 201 := by
    rw [hlower, List.length_append, length_pairs, List.length_singleton]
  have hlen' : (Str.lower asciiData (dotted 'b')).length = 201 := by
    rw [hlower', List.length_append, length_pairs, List.length_singleton]
  have hcut : (Str.lower asciiData (dotted 'a')).take levenshteinMaxLen =
      (Str.lower asciiData (dotted 'b')).take levenshteinMaxLen := by
    have hpairs : (List.replicate 100 ['i', '\u0307']).flatten.length = levenshteinMaxLen :=
      length_pairs 100
    rw [hlower, hlower', List.take_left' hpairs, List.take_left' hpairs]
  have hne : Str.lower asciiData (dotted 'a') ≠ Str.lower asciiData (dotted 'b') := by
    rw [hlower, hlower']
    intro h
    exact absurd (List.append_cancel_left h) (by decide)
  have hexit : ¬LengthExit (Str.lower asciiData (dotted 'a')) (Str.lower asciiData (dotted 'b')) := by
    rintro ⟨-, -, -, h⟩
    rw [hlen, hlen'] at h
    exact absurd h (by decide)
  have hone : levenshteinRatio asciiData (dotted 'a') (dotted 'b') = 1 := by
    rw [levenshteinRatio_eq _ _ _ hexit, hcut, ratioOf_self]
  have hless : Standalone.levenshteinRatio asciiData (dotted 'a') (dotted 'b') < 1 := by
    have hpos : 0 < editDistance (Str.lower asciiData (dotted 'a'))
        (Str.lower asciiData (dotted 'b')) :=
      Nat.pos_of_ne_zero fun h => hne (eq_of_editDistance_eq_zero h)
    rw [standaloneRatio_eq, ratioOf, hlen, hlen', Int.cast_natCast]
    exact sub_lt_self _ (div_pos (Nat.cast_pos.mpr hpos) (by norm_num))
  refine ⟨by simp [dotted], by simp [dotted], fun h => ?_⟩
  rw [hone] at h
  exact absurd (h.mp le_rfl) (not_le.mpr hless)

end AxiomGrid.Grounding

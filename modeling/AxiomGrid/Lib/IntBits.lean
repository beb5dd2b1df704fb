import Mathlib.Data.Int.Bitwise
import Mathlib.Tactic.Ring

/-!
# Bits of sums of integers

Unbounded integers in two's complement. Bit `i` of a sum is the exclusive or of the bits of the
summands and of the carry into position `i`, which depends on lower bits only: what the high bits of
the summands are does not matter to the low bits of the sum.
-/

namespace IntBits

open Int

/-- The carry out of one position. -/
def carryOut (x y c : Bool) : Bool := (x && y) || (c && (x || y))

/-- The carry into position `i` of `x + y` with the carry `c` into position 0. -/
def carry (x y : ℤ) (c : Bool) : ℕ → Bool
  | 0 => c
  | i + 1 => carryOut (x.testBit i) (y.testBit i) (carry x y c i)

lemma testBit_zero (x : ℤ) : x.testBit 0 = x.bodd := by
  conv_lhs => rw [← bit_decomp x]
  rw [testBit_bit_zero]

lemma testBit_succ (x : ℤ) (i : ℕ) : x.testBit (i + 1) = x.div2.testBit i := by
  conv_lhs => rw [← bit_decomp x]
  rw [testBit_bit_succ]

/-- Dropping the lowest position moves its carry into the front. -/
lemma carry_succ (x y : ℤ) (c : Bool) (i : ℕ) :
    carry x y c (i + 1) = carry x.div2 y.div2 (carryOut x.bodd y.bodd c) i := by
  induction i with
  | zero => rw [carry, carry, carry, testBit_zero, testBit_zero]
  | succ i ih => rw [carry, ih, testBit_succ, testBit_succ, ← carry]

/-- The lowest position of a sum, and what it leaves for the others. -/
lemma add_carry_div2 (x y : ℤ) (c : Bool) :
    (x + y + cond c 1 0).bodd = xor (xor x.bodd y.bodd) c ∧
      (x + y + cond c 1 0).div2 = x.div2 + y.div2 + cond (carryOut x.bodd y.bodd c) 1 0 := by
  constructor
  · cases c <;> simp
  · have hx := bodd_add_div2 x
    have hy := bodd_add_div2 y
    rw [div2_val]
    generalize hxd : x.div2 = x' at *
    generalize hyd : y.div2 = y' at *
    generalize x.bodd = bx at *
    generalize y.bodd = by' at *
    cases bx <;> cases by' <;> cases c <;> simp only [carryOut, cond] at * <;> simp <;> omega

/-- The bits of a sum. -/
theorem testBit_add_carry (x y : ℤ) (c : Bool) (i : ℕ) :
    (x + y + cond c 1 0).testBit i = xor (xor (x.testBit i) (y.testBit i)) (carry x y c i) := by
  induction i generalizing x y c with
  | zero => rw [testBit_zero, testBit_zero, testBit_zero, carry, (add_carry_div2 x y c).1]
  | succ i ih =>
    rw [testBit_succ, (add_carry_div2 x y c).2, ih, carry_succ, testBit_succ x, testBit_succ y]

theorem testBit_add (x y : ℤ) (i : ℕ) :
    (x + y).testBit i = xor (xor (x.testBit i) (y.testBit i)) (carry x y false i) := by
  have h := testBit_add_carry x y false i
  rwa [cond_false, add_zero] at h

/-! ### Shifts and single bits -/

lemma shiftLeft_one_eq_bit (x : ℤ) : x <<< (1 : ℕ) = bit false x := by
  rw [Int.shiftLeft_eq, bit_val, cond_false]
  ring

@[simp] lemma testBit_shiftLeft_one_zero (x : ℤ) : (x <<< (1 : ℕ)).testBit 0 = false := by
  rw [shiftLeft_one_eq_bit, testBit_bit_zero]

@[simp] lemma testBit_shiftLeft_one_succ (x : ℤ) (i : ℕ) :
    (x <<< (1 : ℕ)).testBit (i + 1) = x.testBit i := by
  rw [shiftLeft_one_eq_bit, testBit_bit_succ]

lemma testBit_one_shiftLeft (k i : ℕ) : ((1 : ℤ) <<< k).testBit i = decide (k = i) := by
  have h : (1 : ℤ) <<< k = ((2 ^ k : ℕ) : ℤ) := by
    rw [Int.shiftLeft_eq]
    simp
  rw [h]
  exact Nat.testBit_two_pow

lemma testBit_one_shiftLeft_sub_one (m i : ℕ) :
    ((1 : ℤ) <<< m - 1).testBit i = decide (i < m) := by
  have h : (1 : ℤ) <<< m - 1 = ((2 ^ m - 1 : ℕ) : ℤ) := by
    rw [Int.shiftLeft_eq, Nat.cast_sub Nat.one_le_two_pow]
    simp
  rw [h]
  exact Nat.testBit_two_pow_sub_one m i

/-- The test `x & (1 << k)`. -/
lemma land_one_shiftLeft_ne_zero {x : ℤ} {k : ℕ} :
    land x ((1 : ℤ) <<< k) ≠ 0 ↔ x.testBit k = true := by
  have hbit : ∀ i, (land x ((1 : ℤ) <<< k)).testBit i = (x.testBit i && decide (k = i)) := by
    intro i
    rw [testBit_land, testBit_one_shiftLeft]
  constructor
  · intro hne
    -- a conjunction with a natural number is a natural number
    have hnat : ∃ n : ℕ, land x ((1 : ℤ) <<< k) = n := by
      have h : (1 : ℤ) <<< k = ((2 ^ k : ℕ) : ℤ) := by
        rw [Int.shiftLeft_eq]
        simp
      rw [h]
      cases x with
      | ofNat m => exact ⟨_, rfl⟩
      | negSucc m => exact ⟨_, rfl⟩
    obtain ⟨n, hn⟩ := hnat
    have hn0 : n ≠ 0 := by
      rintro rfl
      exact hne hn
    obtain ⟨i, hi⟩ := Nat.exists_testBit_of_ne_zero hn0
    have hi' : (land x ((1 : ℤ) <<< k)).testBit i = true := by
      rw [hn]
      exact hi
    rw [hbit, Bool.and_eq_true, decide_eq_true_eq] at hi'
    obtain ⟨hx, rfl⟩ := hi'
    exact hx
  · intro hx hzero
    have hk := hbit k
    rw [hzero, hx] at hk
    simp [testBit] at hk

end IntBits

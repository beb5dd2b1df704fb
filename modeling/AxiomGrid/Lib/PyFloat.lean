import Mathlib.Data.Rat.Defs
import Mathlib.Algebra.Order.Ring.Rat

/-!
# Floats in exact arithmetic

The values of a Python `float` with rounding left out: a finite value is an exact rational, and the
infinities and NaN are kept because their comparisons are what guards get wrong. Every ordering
test against NaN is false, and `min` and `max` are the built-ins, which return their first argument
unless the second one is strictly smaller (larger).
-/

/-- A float: an exact rational, an infinity, or NaN. -/
inductive PyFloat where
  | fin (q : ℚ)
  | inf (negative : Bool)
  | nan
  deriving DecidableEq, Repr

namespace PyFloat

instance : Inhabited PyFloat := ⟨fin 0⟩

instance : NatCast PyFloat := ⟨fun n => fin n⟩

/-- `x < y`; false as soon as one side is NaN. -/
def lt : PyFloat → PyFloat → Bool
  | fin p, fin q => p < q
  | fin _, inf neg => !neg
  | inf neg, fin _ => neg
  | inf neg, inf neg' => neg && !neg'
  | _, _ => false

/-- `x <= y`; false as soon as one side is NaN. -/
def le : PyFloat → PyFloat → Bool
  | fin p, fin q => p ≤ q
  | fin _, inf neg => !neg
  | inf neg, fin _ => neg
  | inf neg, inf neg' => neg || !neg'
  | _, _ => false

/-- `x == y`; NaN differs from everything, itself included. -/
def eq : PyFloat → PyFloat → Bool
  | fin p, fin q => p == q
  | inf neg, inf neg' => neg == neg'
  | _, _ => false

/-- `min(x, y)`. -/
def min (x y : PyFloat) : PyFloat := if lt y x then y else x

/-- `max(x, y)`. -/
def max (x y : PyFloat) : PyFloat := if lt x y then y else x

def neg : PyFloat → PyFloat
  | fin q => fin (-q)
  | inf s => inf !s
  | nan => nan

def add : PyFloat → PyFloat → PyFloat
  | fin p, fin q => fin (p + q)
  | inf s, fin _ => inf s
  | fin _, inf s => inf s
  | inf s, inf s' => if s = s' then inf s else nan
  | _, _ => nan

def sub (x y : PyFloat) : PyFloat := add x (neg y)

/-- The product; an infinity times zero is NaN. -/
def mul : PyFloat → PyFloat → PyFloat
  | fin p, fin q => fin (p * q)
  | inf s, fin q => if q = 0 then nan else inf (s ^^ decide (q < 0))
  | fin p, inf s => if p = 0 then nan else inf (s ^^ decide (p < 0))
  | inf s, inf s' => inf (s ^^ s')
  | _, _ => nan

/-- The quotient by a divisor that the caller has checked to be nonzero. -/
def div : PyFloat → PyFloat → PyFloat
  | fin p, fin q => fin (p / q)
  | fin _, inf _ => fin 0
  | inf s, fin q => inf (s ^^ decide (q < 0))
  | _, _ => nan

/-- `math.isfinite`. -/
def isFinite : PyFloat → Bool
  | fin _ => true
  | _ => false

@[simp] lemma lt_fin (p q : ℚ) : lt (fin p) (fin q) = decide (p < q) := rfl

@[simp] lemma le_fin (p q : ℚ) : le (fin p) (fin q) = decide (p ≤ q) := rfl

@[simp] lemma sub_fin (p q : ℚ) : sub (fin p) (fin q) = fin (p - q) := by
  simp [sub, neg, add, sub_eq_add_neg]

@[simp] lemma min_fin (p q : ℚ) : min (fin p) (fin q) = fin (Min.min p q) := by
  simp only [min, lt_fin, decide_eq_true_eq]
  split_ifs with h
  · rw [min_eq_right h.le]
  · rw [min_eq_left (not_lt.mp h)]

@[simp] lemma max_fin (p q : ℚ) : max (fin p) (fin q) = fin (Max.max p q) := by
  simp only [max, lt_fin, decide_eq_true_eq]
  split_ifs with h
  · rw [max_eq_right h.le]
  · rw [max_eq_left (not_lt.mp h)]

/-! ### Rounding and printing -/

/-- The nearest integer; ties go to the even one. -/
def roundHalfEven (q : ℚ) : ℤ :=
  let below := q.floor
  let rest := q - below
  if rest < 1 / 2 then below
  else if 1 / 2 < rest then below + 1
  else if below % 2 = 0 then below
  else below + 1

/-- `round(x, places)`. -/
def round (places : ℕ) : PyFloat → PyFloat
  | fin q => fin (roundHalfEven (q * 10 ^ places) / 10 ^ places)
  | x => x

/-- `f"{q:.placesf}"` for a positive number of places. -/
def fixedRat (places : ℕ) (q : ℚ) : String :=
  let n := (roundHalfEven (|q| * 10 ^ places)).toNat
  let fraction := (toString (n % 10 ^ places)).toList
  (if q < 0 then "-" else "") ++ toString (n / 10 ^ places) ++ "." ++
    String.ofList (List.replicate (places - fraction.length) '0' ++ fraction)

/-- `f"{x:.placesf}"`. -/
def fixed (places : ℕ) : PyFloat → String
  | fin q => fixedRat places q
  | inf negative => if negative then "-inf" else "inf"
  | nan => "nan"

/-! ### Reading a float from text -/

/-- Digits of a number, underscores allowed between two digits; `none` when the text is not of that
form. The result is the value and the number of digits. -/
def digits (digit : Char → Option ℕ) : List Char → Option (ℕ × ℕ)
  | cs => go cs 0 0 false
where
  /-- `pending` is set right after an underscore: a digit must follow. -/
  go : List Char → ℕ → ℕ → Bool → Option (ℕ × ℕ)
  | [], value, count, pending => if pending then none else some (value, count)
  | c :: cs, value, count, pending =>
    match digit c with
    | some d => go cs (10 * value + d) (count + 1) false
    | none => if c = '_' ∧ 0 < count ∧ ¬pending then go cs value count true else none

/-- A sign and what follows it. -/
def sign : List Char → Bool × List Char
  | '-' :: cs => (true, cs)
  | '+' :: cs => (false, cs)
  | cs => (false, cs)

/-- The exponent part, after the letter `e`. -/
def exponent (digit : Char → Option ℕ) (cs : List Char) : Option ℤ :=
  let (negative, ds) := sign cs
  match digits digit ds with
  | some (n, count) => if count = 0 then none else some (if negative then -n else n)
  | none => none

/-- A decimal number without sign: digits, an optional fraction and an optional exponent. -/
def decimal (digit : Char → Option ℕ) (cs : List Char) : Option ℚ := do
  let mantissa := cs.takeWhile fun c => c ≠ 'e' ∧ c ≠ 'E'
  let exp ← match cs.drop mantissa.length with
    | [] => some 0
    | _ :: ds => exponent digit ds
  let whole := mantissa.takeWhile (· ≠ '.')
  let (n, k) ← digits digit whole
  let (m, l) ← digits digit (mantissa.drop (whole.length + 1))
  if k + l = 0 then none
  else some ((n + m / (10 : ℚ) ^ l) * (10 : ℚ) ^ exp)

/-- `float(text)` on a text without surrounding whitespace. -/
def parse (digit : Char → Option ℕ) (cs : List Char) : Option PyFloat :=
  let (negative, body) := sign cs
  let word := String.ofList (body.map Char.toLower)
  if word = "inf" ∨ word = "infinity" then some (inf negative)
  else if word = "nan" then some nan
  else (decimal digit body).map fun q => fin (if negative then -q else q)

end PyFloat

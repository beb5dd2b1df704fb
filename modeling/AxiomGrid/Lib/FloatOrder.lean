import AxiomGrid.Lib.PyFloat
import Mathlib.Order.WithBot

/-!
# The order of floats

Away from NaN the comparisons of floats are those of a linear order, the rationals between two
infinities. NaN is below, above and equal to nothing, and it survives every operation.
-/

namespace PyFloat

/-- The place of a float in the order; that of NaN means nothing. -/
def place : PyFloat → WithBot (WithTop ℚ)
  | fin q => ((q : WithTop ℚ) : WithBot (WithTop ℚ))
  | inf negative => if negative then ⊥ else (⊤ : WithTop ℚ)
  | nan => ⊥

lemma lt_iff {x y : PyFloat} : lt x y = true ↔ x ≠ nan ∧ y ≠ nan ∧ x.place < y.place := by
  cases x with
  | nan => simp [lt]
  | fin p =>
    cases y with
    | nan => simp [lt]
    | fin q => simp [place]
    | inf neg =>
      have htop : ((p : WithTop ℚ) : WithBot (WithTop ℚ)) < (⊤ : WithTop ℚ) :=
        WithBot.coe_lt_coe.mpr (WithTop.coe_lt_top p)
      cases neg with
      | true => simp [lt, place]
      | false => exact iff_of_true rfl ⟨nofun, nofun, htop⟩
  | inf neg =>
    cases y with
    | nan => simp [lt]
    | fin q => cases neg <;> simp [lt, place]
    | inf neg' => cases neg <;> cases neg' <;> simp [lt, place]

lemma le_iff {x y : PyFloat} : le x y = true ↔ x ≠ nan ∧ y ≠ nan ∧ x.place ≤ y.place := by
  cases x with
  | nan => simp [le]
  | fin p =>
    cases y with
    | nan => simp [le]
    | fin q => simp [place]
    | inf neg => cases neg <;> simp [le, place]
  | inf neg =>
    cases y with
    | nan => simp [le]
    | fin q => cases neg <;> simp [le, place]
    | inf neg' => cases neg <;> cases neg' <;> simp [le, place]

lemma eq_iff {x y : PyFloat} : eq x y = true ↔ x ≠ nan ∧ y ≠ nan ∧ x.place = y.place := by
  cases x with
  | nan => simp [eq]
  | fin p =>
    cases y with
    | nan => simp [eq]
    | fin q => simp [eq, place]
    | inf neg => cases neg <;> simp [eq, place]
  | inf neg =>
    cases y with
    | nan => simp [eq]
    | fin q => cases neg <;> simp [eq, place]
    | inf neg' => cases neg <;> cases neg' <;> simp [eq, place]

variable {x y z : PyFloat}

lemma lt_of_le_of_lt (h : le x y = true) (h' : lt y z = true) : lt x z = true := by
  rw [le_iff] at h
  rw [lt_iff] at h' ⊢
  exact ⟨h.1, h'.2.1, h.2.2.trans_lt h'.2.2⟩

lemma lt_of_lt_of_le (h : lt x y = true) (h' : le y z = true) : lt x z = true := by
  rw [le_iff] at h'
  rw [lt_iff] at h ⊢
  exact ⟨h.1, h'.2.1, h.2.2.trans_le h'.2.2⟩

lemma le_of_lt (h : lt x y = true) : le x y = true := by
  rw [lt_iff] at h
  exact le_iff.mpr ⟨h.1, h.2.1, h.2.2.le⟩

lemma lt_trans (h : lt x y = true) (h' : lt y z = true) : lt x z = true :=
  lt_of_le_of_lt (le_of_lt h) h'

/-- Of two floats that are numbers one is at most the other. -/
lemma le_of_not_lt (hx : x ≠ nan) (hy : y ≠ nan) (h : lt x y = false) : le y x = true := by
  refine le_iff.mpr ⟨hy, hx, not_lt.mp fun hlt => ?_⟩
  rw [lt_iff.mpr ⟨hx, hy, hlt⟩] at h
  cases h

lemma not_lt_of_le (h : le x y = true) : lt y x = false := by
  rw [Bool.eq_false_iff, Ne, lt_iff]
  exact fun hlt => not_lt.mpr (le_iff.mp h).2.2 hlt.2.2

/-! ### Not a number -/

@[simp] lemma neg_nan : neg nan = nan := rfl

@[simp] lemma add_nan (x : PyFloat) : add x nan = nan := by cases x <;> rfl

@[simp] lemma nan_add (x : PyFloat) : add nan x = nan := by cases x <;> rfl

@[simp] lemma sub_nan (x : PyFloat) : sub x nan = nan := add_nan x

@[simp] lemma nan_sub (x : PyFloat) : sub nan x = nan := nan_add (neg x)

@[simp] lemma mul_nan (x : PyFloat) : mul x nan = nan := by cases x <;> rfl

@[simp] lemma nan_mul (x : PyFloat) : mul nan x = nan := by cases x <;> rfl

@[simp] lemma div_nan (x : PyFloat) : div x nan = nan := by cases x <;> rfl

lemma eq_of_place_eq (hx : x ≠ nan) (hy : y ≠ nan) (h : x.place = y.place) : x = y := by
  cases x with
  | nan => exact absurd rfl hx
  | fin p =>
    cases y with
    | nan => exact absurd rfl hy
    | fin q => simpa [place] using h
    | inf neg => cases neg <;> simp [place] at h
  | inf neg =>
    cases y with
    | nan => exact absurd rfl hy
    | fin q => cases neg <;> simp [place] at h
    | inf neg' => cases neg <;> cases neg' <;> simp [place] at h ⊢

lemma eq_of_not_lt (hx : x ≠ nan) (hy : y ≠ nan) (h : lt x y = false) (h' : lt y x = false) :
    x = y :=
  eq_of_place_eq hx hy (le_antisymm (le_iff.mp (le_of_not_lt hy hx h')).2.2
    (le_iff.mp (le_of_not_lt hx hy h)).2.2)

/-- Between numbers it does not matter which argument the built-ins return on a tie. -/
lemma max_comm (hx : x ≠ nan) (hy : y ≠ nan) : max x y = max y x := by
  rw [max, max]
  split_ifs with h h' h'
  · rw [not_lt_of_le (le_of_lt h)] at h'
    cases h'
  · rfl
  · rfl
  · exact eq_of_not_lt hx hy (Bool.eq_false_iff.mpr h) (Bool.eq_false_iff.mpr h')

lemma min_comm (hx : x ≠ nan) (hy : y ≠ nan) : min x y = min y x := by
  rw [min, min]
  split_ifs with h h' h'
  · rw [not_lt_of_le (le_of_lt h)] at h'
    cases h'
  · rfl
  · rfl
  · exact eq_of_not_lt hx hy (Bool.eq_false_iff.mpr h') (Bool.eq_false_iff.mpr h)

lemma add_comm (x y : PyFloat) : add x y = add y x := by
  cases x with
  | nan => simp
  | fin p =>
    cases y with
    | nan => simp
    | fin q => exact congrArg fin (Rat.add_comm p q)
    | inf neg => rfl
  | inf neg =>
    cases y with
    | nan => simp
    | fin q => rfl
    | inf neg' => cases neg <;> cases neg' <;> rfl

end PyFloat

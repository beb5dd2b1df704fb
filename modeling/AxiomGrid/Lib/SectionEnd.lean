import Mathlib.Data.List.Basic
import Mathlib.Tactic.Common

/-!
# The end of a section

A section begins behind the first element that satisfies one test, and goes on to the next element that
satisfies another one. Where the tests are guesses, satisfied by more elements than they should be, the
section ends early, unless the two elements that bound it are right.
-/

namespace SectionEnd

variable {α : Type*} (begins ends : α → Bool)

/-- The index of the element that ends the section, or the length. -/
def sectionEnd (xs : List α) : ℕ :=
  match xs.findIdx? begins with
  | none => xs.length
  | some i => i + 1 + (xs.drop (i + 1)).findIdx ends

/-- The elements that the section stands between, if both are there. -/
def bounds : List α → Option (α × α)
  | [] => none
  | x :: xs => if begins x then (xs.find? ends).map (x, ·) else bounds xs

variable {begins ends} {xs : List α}

@[simp] lemma sectionEnd_nil : sectionEnd begins ends [] = 0 := rfl

lemma sectionEnd_cons (x : α) (xs : List α) :
    sectionEnd begins ends (x :: xs) =
      if begins x then xs.findIdx ends + 1 else sectionEnd begins ends xs + 1 := by
  rw [sectionEnd, sectionEnd, List.findIdx?_cons]
  split_ifs with h
  · simp only [Nat.zero_add, List.drop_one, List.tail_cons, Nat.add_comm]
  · cases hfind : xs.findIdx? begins with
    | none => simp
    | some i => simp [Nat.add_right_comm]

lemma sectionEnd_le_length (xs : List α) : sectionEnd begins ends xs ≤ xs.length := by
  induction xs with
  | nil => exact Nat.le_refl _
  | cons x xs ih =>
    rw [sectionEnd_cons, List.length_cons]
    split_ifs
    · exact Nat.succ_le_succ List.findIdx_le_length
    · exact Nat.succ_le_succ ih

/-- The section goes to the end exactly if nothing ends it. -/
lemma sectionEnd_eq_length_iff : sectionEnd begins ends xs = xs.length ↔ bounds begins ends xs = none := by
  induction xs with
  | nil => exact iff_of_true rfl rfl
  | cons x xs ih =>
    rw [sectionEnd_cons, bounds, List.length_cons]
    split_ifs
    · rw [Nat.add_right_cancel_iff, List.findIdx_eq_length, Option.map_eq_none_iff, List.find?_eq_none]
      simp only [Bool.not_eq_true]
    · rw [Nat.add_right_cancel_iff, ih]

/-- A section before the end of the list is ended by an element there. -/
lemma ends_of_drop {y : α} {after : List α} (h : xs.drop (sectionEnd begins ends xs) = y :: after) :
    ends y = true := by
  induction xs with
  | nil => cases h
  | cons x xs ih =>
    rw [sectionEnd_cons] at h
    split_ifs at h
    · rw [List.drop_succ_cons] at h
      have hget : xs[xs.findIdx ends]? = some y := by rw [← List.head?_drop, h, List.head?_cons]
      exact List.findIdx_of_getElem?_eq_some hget
    · exact ih h

@[simp] lemma bounds_map {β : Type*} (f : β → α) (ys : List β) :
    bounds begins ends (ys.map f) = (bounds (begins ∘ f) (ends ∘ f) ys).map (Prod.map f f) := by
  induction ys with
  | nil => rfl
  | cons y ys ih =>
    rw [List.map_cons, bounds, bounds, ih]
    cases hy : begins (f y) with
    | false => simp [hy]
    | true => simp [hy, Function.comp_def]

lemma sectionEnd_map {β : Type*} (f : β → α) (ys : List β) :
    sectionEnd begins ends (ys.map f) = sectionEnd (begins ∘ f) (ends ∘ f) ys := by
  simp only [sectionEnd, List.findIdx?_map, List.length_map, ← List.map_drop, List.findIdx_map]

/-! ### Guesses -/

section

variable {begins' ends' : α → Bool}

/-- A guessed end comes first, and it is the right one if its element is. -/
lemma findIdx_eq_iff (hends : ∀ x, ends x = true → ends' x = true) :
    xs.findIdx ends' = xs.findIdx ends ↔ ∀ y, xs.find? ends' = some y → ends y = true := by
  induction xs with
  | nil => simp
  | cons x xs ih =>
    rw [List.findIdx_cons, List.findIdx_cons, List.find?_cons]
    cases hguess : ends' x with
    | true =>
      cases hx : ends x with
      | true => simp [hx]
      | false => simp [hx]
    | false =>
      have hx : ends x = false := Bool.eq_false_iff.mpr fun h => by rw [hends x h] at hguess; cases hguess
      simp [hx, ih]

/-- What ends the section may come before it begins. -/
lemma findIdx_eq_sectionEnd_iff (hbegins : ∀ x, begins x = true → ends' x = true) :
    xs.findIdx ends' = sectionEnd begins ends xs ↔ xs.find? ends' = none := by
  induction xs with
  | nil => simp
  | cons x xs ih =>
    rw [List.findIdx_cons, sectionEnd_cons, List.find?_cons]
    cases hguess : ends' x with
    | true =>
      refine iff_of_false ?_ (Option.some_ne_none x)
      cases begins x <;> simp
    | false =>
      have hx : begins x = false :=
        Bool.eq_false_iff.mpr fun h => by rw [hbegins x h] at hguess; cases hguess
      simp [hx, ih]

lemma findIdx_le_sectionEnd (hbegins : ∀ x, begins x = true → ends' x = true) :
    xs.findIdx ends' ≤ sectionEnd begins ends xs := by
  induction xs with
  | nil => exact Nat.le_refl _
  | cons x xs ih =>
    rw [List.findIdx_cons, sectionEnd_cons]
    cases hguess : ends' x with
    | true => exact Nat.zero_le _
    | false =>
      have hx : begins x = false :=
        Bool.eq_false_iff.mpr fun h => by rw [hbegins x h] at hguess; cases hguess
      rw [hx]
      exact Nat.succ_le_succ ih

variable (hbegins : ∀ x, begins x = true → begins' x = true) (hends : ∀ x, ends x = true → ends' x = true)
  (hboth : ∀ x, begins' x = true → ends' x = true)

include hbegins hends hboth

/-- A guessed section ends early. -/
lemma sectionEnd_le : sectionEnd begins' ends' xs ≤ sectionEnd begins ends xs := by
  induction xs with
  | nil => exact Nat.le_refl _
  | cons x xs ih =>
    rw [sectionEnd_cons, sectionEnd_cons]
    split_ifs with hguess hx hx
    · exact Nat.succ_le_succ (List.findIdx_le_findIdx fun y _ => hends y)
    · exact Nat.succ_le_succ (findIdx_le_sectionEnd fun y h => hboth y (hbegins y h))
    · exact absurd (hbegins x hx) hguess
    · exact Nat.succ_le_succ ih

/-- A guessed section is the right one exactly if the elements that it stands between are right. -/
lemma sectionEnd_eq_iff :
    sectionEnd begins' ends' xs = sectionEnd begins ends xs ↔
      ∀ x y, bounds begins' ends' xs = some (x, y) → begins x = true ∧ ends y = true := by
  induction xs with
  | nil => simp [bounds]
  | cons x xs ih =>
    rw [sectionEnd_cons, sectionEnd_cons, bounds]
    split_ifs with hguess hx hx
    · rw [Nat.add_right_cancel_iff, findIdx_eq_iff hends]
      simp only [Option.map_eq_some_iff, Prod.mk.injEq]
      constructor
      · rintro hright _ _ ⟨y, hy, rfl, rfl⟩
        exact ⟨hx, hright y hy⟩
      · exact fun hright y hy => (hright x y ⟨y, hy, rfl, rfl⟩).2
    · rw [Nat.add_right_cancel_iff, findIdx_eq_sectionEnd_iff fun y h => hboth y (hbegins y h)]
      cases hfind : xs.find? ends' with
      | none => simp
      | some y => simp [hx]
    · exact absurd (hbegins x hx) hguess
    · rw [Nat.add_right_cancel_iff, ih]

end

end SectionEnd

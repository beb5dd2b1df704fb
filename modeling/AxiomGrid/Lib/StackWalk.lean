import Mathlib.Algebra.BigOperators.Group.List.Basic
import Mathlib.Algebra.GroupWithZero.Nat
import Mathlib.Logic.Relation
import Mathlib.Tactic.Common

/-!
# Walks with an explicit stack

A loop that takes the element on top of a stack, may stop there with a verdict, and else pushes the
children of the element. Which verdict the walk ends with depends on the order; whether it stops does
not.
-/

/-- What a walk does at an element. -/
structure StackWalk (α β : Type*) where
  /-- The verdict with which the walk stops. -/
  stop : α → Option β
  /-- What is pushed, the last on top. -/
  children : α → List α

namespace StackWalk

variable {α β : Type*} (walk : StackWalk α β)

/-- The loop, with the top of the stack first: `none` when it has not ended after the turns, and no
verdict when the stack is empty. -/
def run : ℕ → List α → Option (Option β)
  | _, [] => some none
  | 0, _ :: _ => none
  | turns + 1, x :: stack =>
    match walk.stop x with
    | some verdict => some (some verdict)
    | none => run turns ((walk.children x).reverse ++ stack)

/-- The element `y` is pushed where `x` is taken from the stack. -/
def Child (x y : α) : Prop := y ∈ walk.children x

/-- The walk stops at an element, or somewhere below it. -/
def Stops (x : α) : Prop := ∃ y, Relation.ReflTransGen walk.Child x y ∧ (walk.stop y).isSome

variable {walk}

lemma stops_iff {x : α} :
    walk.Stops x ↔ (walk.stop x).isSome ∨ ∃ y ∈ walk.children x, walk.Stops y := by
  constructor
  · rintro ⟨z, hreach, hstop⟩
    obtain rfl | ⟨y, hy, hreach⟩ := Relation.ReflTransGen.cases_head hreach
    · exact .inl hstop
    · exact .inr ⟨y, hy, z, hreach, hstop⟩
  · rintro (hstop | ⟨y, hy, z, hreach, hstop⟩)
    · exact ⟨x, .refl, hstop⟩
    · exact ⟨z, .head hy hreach, hstop⟩

/-- More turns change nothing. -/
lemma run_mono {turns turns' : ℕ} {stack : List α} {result : Option β}
    (h : walk.run turns stack = some result) (hle : turns ≤ turns') :
    walk.run turns' stack = some result := by
  induction turns generalizing stack turns' with
  | zero =>
    cases stack with
    | nil => rwa [run] at h ⊢
    | cons x stack => cases h
  | succ turns ih =>
    cases stack with
    | nil => rwa [run] at h ⊢
    | cons x stack =>
      obtain ⟨turns', rfl⟩ := Nat.exists_eq_succ_of_ne_zero (by omega : turns' ≠ 0)
      rw [run] at h ⊢
      cases hstop : walk.stop x with
      | some verdict => rwa [hstop] at h
      | none =>
        rw [hstop] at h
        exact ih h (by omega)

/-- Where the children of an element are together smaller than it, the walk ends, and it stops exactly
if there is something to stop at. -/
theorem exists_run {size : α → ℕ} (hsize : ∀ x, ((walk.children x).map size).sum < size x)
    {turns : ℕ} {stack : List α} (hturns : (stack.map size).sum ≤ turns) :
    ∃ result, walk.run turns stack = some result ∧
      (result.isSome = true ↔ ∃ x ∈ stack, walk.Stops x) ∧
      ∀ verdict ∈ result, ∃ x, walk.stop x = some verdict := by
  induction turns generalizing stack with
  | zero =>
    cases stack with
    | nil => exact ⟨none, rfl, by simp, by simp⟩
    | cons x stack =>
      have hx := hsize x
      rw [List.map_cons, List.sum_cons] at hturns
      omega
  | succ turns ih =>
    cases stack with
    | nil => exact ⟨none, rfl, by simp, by simp⟩
    | cons x stack =>
      rw [run]
      cases hstop : walk.stop x with
      | some verdict =>
        refine ⟨some verdict, rfl, iff_of_true rfl ⟨x, List.mem_cons_self, ?_⟩, ?_⟩
        · exact stops_iff.mpr (.inl (by rw [hstop]; rfl))
        · intro verdict' hverdict
          exact ⟨x, hstop.trans hverdict⟩
      | none =>
        have hx := hsize x
        rw [List.map_cons, List.sum_cons] at hturns
        have hpushed : (((walk.children x).reverse ++ stack).map size).sum ≤ turns := by
          rw [List.map_append, List.map_reverse, List.sum_append, List.sum_reverse]
          omega
        obtain ⟨result, hrun, hiff, hfrom⟩ := ih hpushed
        refine ⟨result, hrun, hiff.trans ?_, hfrom⟩
        simp only [List.mem_append, List.mem_reverse, List.mem_cons, or_and_right, exists_or,
          exists_eq_left]
        rw [stops_iff (x := x), hstop]
        simp

end StackWalk

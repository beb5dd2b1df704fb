import AxiomGrid.Lib.Transition

/-!
# What a history has seen since

The past operator *since* over a list of events: an event with the property `P` has happened, and
none with the property `bad` after it. A history is split where a result speaks of the order in which
two events happened.
-/

namespace List

variable {α : Type*} {bad P Q : α → Prop} {xs ys : List α} {x : α}

/-- An entry of `xs` has `P`, and no later entry is bad. -/
def Since (bad P : α → Prop) (xs : List α) : Prop :=
  ∃ before x behind, xs = before ++ x :: behind ∧ P x ∧ ∀ y ∈ behind, ¬ bad y

@[simp] lemma since_nil : ¬ Since bad P [] := by
  rintro ⟨before, x, behind, h, -⟩
  simp at h

lemma since_concat_of (hx : P x) : Since bad P (xs ++ [x]) := ⟨xs, x, [], rfl, hx, by simp⟩

/-- A new entry either has the property itself or is not bad and leaves things as they were. -/
lemma since_concat : Since bad P (xs ++ [x]) ↔ P x ∨ (¬ bad x ∧ Since bad P xs) := by
  constructor
  · rintro ⟨before, y, behind, h, hy, hbehind⟩
    obtain ⟨rfl, rfl⟩ | ⟨behind, rfl, rfl⟩ := concat_eq_append_cons h
    · exact .inl hy
    · exact .inr ⟨hbehind x (by simp), before, y, behind, rfl, hy, fun z hz => hbehind z (by simp [hz])⟩
  · rintro (hx | ⟨hx, before, y, behind, rfl, hy, hbehind⟩)
    · exact since_concat_of hx
    · refine ⟨before, y, behind ++ [x], by simp, hy, fun z hz => ?_⟩
      obtain hz | rfl := mem_append.mp hz |>.imp id mem_singleton.mp
      · exact hbehind z hz
      · exact hx

/-- Behind a bad entry the property has come back. -/
lemma Since.exists_of_bad (h : Since bad P (xs ++ x :: ys)) (hx : bad x) (hnot : ¬ P x) :
    ∃ y ∈ ys, P y := by
  induction ys using reverseRecOn with
  | nil =>
    obtain h | ⟨hgood, -⟩ := since_concat.mp h
    · exact absurd h hnot
    · exact absurd hx hgood
  | append_singleton ys y ih =>
    rw [show xs ++ x :: (ys ++ [y]) = (xs ++ x :: ys) ++ [y] by simp] at h
    obtain h | ⟨-, h⟩ := since_concat.mp h
    · exact ⟨y, by simp, h⟩
    · obtain ⟨z, hz, hPz⟩ := ih h
      exact ⟨z, by simp [hz], hPz⟩

end List

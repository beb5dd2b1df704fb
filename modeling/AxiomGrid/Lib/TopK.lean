import Mathlib.Data.List.Sort
import Mathlib.Order.Defs.LinearOrder

/-!
# The best `k` elements of a list

A selection of the best `k` elements is described by what is left out: together they are the whole
list, and nothing that is left out scores higher than anything selected. A selection that first cuts
the list at `k` and ranks only what it kept is one exactly when the cut loses nothing better.
-/

variable {α β : Type*} [LE β]

/-- `result` holds the `k` elements of `all` with the highest scores, or all of them when they are
fewer. -/
def TopK (score : α → β) (k : ℕ) (all result : List α) : Prop :=
  ∃ rest, (result ++ rest).Perm all ∧ result.length = min k all.length ∧
    ∀ a ∈ result, ∀ b ∈ rest, score b ≤ score a

/-- What is kept of the first `k` rows is the best of all rows when no later row is better. -/
lemma topK_iff_of_perm_take {score : α → β} {k : ℕ} {all rows result : List α}
    (hrows : rows.Perm all) (hresult : result.Perm (rows.take k)) :
    TopK score k all result ↔ ∀ a ∈ rows.take k, ∀ b ∈ rows.drop k, score b ≤ score a := by
  have hparts : (result ++ rows.drop k).Perm all := by
    rw [← List.take_append_drop k rows] at hrows
    exact (hresult.append_right _).trans hrows
  have hlength : result.length = min k all.length := by
    rw [hresult.length_eq, List.length_take, hrows.length_eq]
  constructor
  · rintro ⟨rest, hperm, -, hbest⟩ a ha b hb
    have hrest : rest.Perm (rows.drop k) :=
      (List.perm_append_left_iff result).mp (hperm.trans hparts.symm)
    exact hbest a (hresult.mem_iff.mpr ha) b (hrest.mem_iff.mpr hb)
  · intro hbest
    exact ⟨rows.drop k, hparts, hlength, fun a ha b hb => hbest a (hresult.mem_iff.mp ha) b hb⟩

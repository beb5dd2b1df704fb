import AxiomGrid.Lib.StableSort
import Mathlib.Order.OrderDual

/-!
# Sorting by scores that are listed beside

A list is sorted by scores that stand in another list. If both lists have the same scores, up to their
order, then the result is sorted by its own scores exactly if each element stood beside its own score.
-/

namespace StableSort

variable {α β : Type*} [LinearOrder β]

/-- The pairs by their scores, the best first. -/
def bestFirst (scored : List (β × α)) : List (β × α) :=
  sortBy (fun x => OrderDual.toDual x.1) scored

lemma bestFirst_perm (scored : List (β × α)) : (bestFirst scored).Perm scored := sortBy_perm scored

lemma pairwise_bestFirst (scored : List (β × α)) :
    (bestFirst scored).Pairwise fun x y => y.1 ≤ x.1 :=
  @pairwise_sortBy (β × α) βᵒᵈ _ (fun x => OrderDual.toDual x.1) scored

/-- The elements by their scores, the best first. -/
def ranked (scored : List (β × α)) : List α := (bestFirst scored).map Prod.snd

lemma ranked_perm (scored : List (β × α)) : (ranked scored).Perm (scored.map Prod.snd) :=
  (bestFirst_perm scored).map Prod.snd

lemma pairwise_ranked_iff {score : α → β} {scored : List (β × α)}
    (h : (scored.map Prod.fst).Perm (scored.map fun x => score x.2)) :
    (ranked scored).Pairwise (fun a b => score b ≤ score a) ↔ ∀ x ∈ scored, x.1 = score x.2 := by
  have hperm := bestFirst_perm scored
  have hbest := pairwise_bestFirst scored
  rw [ranked, List.pairwise_map]
  constructor
  · intro hsorted x hx
    have hsame : ((bestFirst scored).map Prod.fst).Perm ((bestFirst scored).map fun x => score x.2) :=
      ((hperm.map _).trans h).trans (hperm.map _).symm
    have heq : (bestFirst scored).map Prod.fst = (bestFirst scored).map fun x => score x.2 := by
      refine hsame.eq_of_pairwise (fun a b _ _ hab hba => le_antisymm hba hab) ?_ ?_
      · exact List.pairwise_map.mpr hbest
      · exact List.pairwise_map.mpr hsorted
    exact List.map_inj_left.mp heq x (hperm.mem_iff.mpr hx)
  · intro hscored
    refine hbest.imp_of_mem fun {a b} ha hb hab => ?_
    rw [← hscored a (hperm.mem_iff.mp ha), ← hscored b (hperm.mem_iff.mp hb)]
    exact hab

end StableSort

import Mathlib.Data.List.Permutation
import Mathlib.Order.Defs.LinearOrder

/-!
# Sorting by a key

`sorted(xs, key=key)`. The sort is stable, so it says nothing about the order of elements whose keys
agree: the result depends on the order of the input exactly when two different elements share a key.
-/

namespace StableSort

variable {α β : Type*} [LinearOrder β]

/-- `sorted(xs, key=key)`. -/
def sortBy (key : α → β) (xs : List α) : List α := xs.mergeSort fun a b => decide (key a ≤ key b)

variable {key : α → β}

lemma sortBy_perm (xs : List α) : (sortBy key xs).Perm xs := List.mergeSort_perm _ _

lemma le_key_trans (a b c : α) (hab : decide (key a ≤ key b) = true)
    (hbc : decide (key b ≤ key c) = true) : decide (key a ≤ key c) = true :=
  decide_eq_true ((of_decide_eq_true hab).trans (of_decide_eq_true hbc))

lemma le_key_total (a b : α) : (decide (key a ≤ key b) || decide (key b ≤ key a)) = true := by
  simpa using le_total (key a) (key b)

lemma pairwise_sortBy (xs : List α) : (sortBy key xs).Pairwise fun a b => key a ≤ key b :=
  (List.pairwise_mergeSort le_key_trans le_key_total xs).imp of_decide_eq_true

lemma sortBy_eq_self {xs : List α} (h : xs.Pairwise fun a b => key a ≤ key b) :
    sortBy key xs = xs :=
  List.mergeSort_of_pairwise (h.imp decide_eq_true)

lemma map_sortBy {γ : Type*} {f : γ → α} (xs : List γ) :
    (sortBy (key ∘ f) xs).map f = sortBy key (xs.map f) :=
  List.map_mergeSort fun _ _ _ _ => rfl

/-- Elements of one key keep their order. -/
lemma filter_sortBy (xs : List α) (k : β) :
    (sortBy key xs).filter (fun a => decide (key a = k)) = xs.filter fun a => decide (key a = k) := by
  have hsorted : (xs.filter fun a => decide (key a = k)).Pairwise
      fun a b => decide (key a ≤ key b) = true := by
    refine List.pairwise_of_forall_mem_list fun a ha b hb => decide_eq_true ?_
    rw [of_decide_eq_true (List.mem_filter.mp ha).2, of_decide_eq_true (List.mem_filter.mp hb).2]
  have hsub := (List.sublist_mergeSort le_key_trans le_key_total hsorted
    List.filter_sublist).filter fun a => decide (key a = k)
  rw [List.filter_filter] at hsub
  simp only [Bool.and_self] at hsub
  exact (hsub.eq_of_length ((sortBy_perm xs).filter _).length_eq.symm).symm

lemma sortBy_eq_of_perm {xs ys : List α} (hkey : ∀ a ∈ xs, ∀ b ∈ xs, key a = key b → a = b)
    (h : xs.Perm ys) : sortBy key ys = sortBy key xs := by
  refine List.Perm.eq_of_pairwise (fun a b ha hb hab hba => ?_) (pairwise_sortBy ys)
    (pairwise_sortBy xs) (((sortBy_perm ys).trans h.symm).trans (sortBy_perm xs).symm)
  have ha' : a ∈ xs := h.mem_iff.mpr ((sortBy_perm ys).mem_iff.mp ha)
  exact hkey a ha' b ((sortBy_perm xs).mem_iff.mp hb) (le_antisymm hab hba)

/-- Sorting by a key forgets the order of the input exactly when the key tells its elements apart. -/
theorem forall_perm_sortBy_iff (xs : List α) :
    (∀ ys, xs.Perm ys → sortBy key ys = sortBy key xs) ↔
      ∀ a ∈ xs, ∀ b ∈ xs, key a = key b → a = b := by
  classical
  refine ⟨fun h a ha b hb hkey => ?_, fun hkey ys hys => sortBy_eq_of_perm hkey hys⟩
  by_contra hab
  have hb' : b ∈ xs.erase a := (List.mem_erase_of_ne fun hba => hab hba.symm).mpr hb
  have hperm : xs.Perm (a :: b :: (xs.erase a).erase b) :=
    (List.perm_cons_erase ha).trans ((List.perm_cons_erase hb').cons a)
  have hsame := (h _ (hperm.trans (.swap b a _))).trans (h _ hperm).symm
  have hfilter := congrArg (List.filter fun c => decide (key c = key a)) hsame
  rw [filter_sortBy, filter_sortBy, List.filter_cons_of_pos (by simp [hkey]),
    List.filter_cons_of_pos (by simp), List.filter_cons_of_pos (by simp),
    List.filter_cons_of_pos (by simp [hkey])] at hfilter
  exact hab (List.cons.inj hfilter).1.symm

end StableSort

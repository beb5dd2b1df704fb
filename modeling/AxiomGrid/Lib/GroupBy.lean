import AxiomGrid.Lib.Dict

/-!
# Groups of a list

The dictionary from keys to the elements of a list that have them, as a loop over `setdefault` and
`append` builds it: no group is empty, and each keeps the order of the list.
-/

namespace Dict

variable {α κ : Type*} [DecidableEq κ]

/-- `groups.setdefault(key(x), []).append(x)` for each element. -/
def group (key : α → κ) (xs : List α) : Dict κ (List α) :=
  xs.foldl (fun groups x => groups.set (key x) ((groups.get? (key x)).getD [] ++ [x])) []

variable {key : α → κ}

lemma group_concat (xs : List α) (x : α) :
    group key (xs ++ [x]) =
      (group key xs).set (key x) (((group key xs).get? (key x)).getD [] ++ [x]) := by
  rw [group, List.foldl_append]
  rfl

lemma nodup_group (xs : List α) : ((group key xs).map Prod.fst).Nodup := by
  induction xs using List.reverseRecOn with
  | nil => exact List.nodup_nil
  | append_singleton xs x ih =>
    rw [group_concat]
    exact nodup_set ih _ _

lemma getD_group (xs : List α) (k : κ) :
    ((group key xs).get? k).getD [] = xs.filter fun x => key x = k := by
  induction xs using List.reverseRecOn with
  | nil => rfl
  | append_singleton xs x ih =>
    rw [group_concat, get?_set, List.filter_append]
    by_cases hx : key x = k
    · simp [hx, ih]
    · simp [hx, ih]

lemma ne_nil_of_mem_group {xs : List α} {entry : κ × List α} (h : entry ∈ group key xs) :
    entry.2 ≠ [] := by
  induction xs using List.reverseRecOn with
  | nil => cases h
  | append_singleton xs x ih =>
    rw [group_concat] at h
    rcases mem_set h with rfl | h
    · simp
    · exact ih h

/-- A group holds the elements with its key. -/
lemma mem_group {xs : List α} {k : κ} {ys : List α} :
    (k, ys) ∈ group key xs ↔ ys = xs.filter (fun x => key x = k) ∧ ys ≠ [] := by
  constructor
  · intro h
    have hget := get?_of_mem (nodup_group xs) h
    refine ⟨?_, ne_nil_of_mem_group h⟩
    rw [← getD_group, hget, Option.getD_some]
  · rintro ⟨rfl, hne⟩
    rw [← getD_group] at hne ⊢
    cases hget : (group key xs).get? k with
    | none => rw [hget] at hne; exact absurd rfl hne
    | some ys => exact mem_of_get? hget

end Dict

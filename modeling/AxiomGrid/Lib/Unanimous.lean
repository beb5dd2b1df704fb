import Mathlib.Data.List.Dedup

/-!
# Unanimous values

The value of a list whose elements are all the same. It depends on which elements the list has, and
further elements can remove it, but not replace it.
-/

namespace Unanimous

variable {α β : Type*} [DecidableEq β]

/-- The first element whose value is the value of all. -/
def pick (value : α → β) (xs : List α) : Option α :=
  if (xs.map value).dedup.length = 1 then xs.head? else none

/-- The value that all elements have. -/
def common (vs : List β) : Option β := pick id vs

variable {value : α → β} {xs : List α} {vs ws : List β} {v w : β}

lemma length_dedup_eq_one_iff : vs.dedup.length = 1 ↔ ∃ v, v ∈ vs ∧ ∀ w ∈ vs, w = v := by
  rw [List.length_eq_one_iff]
  constructor
  · rintro ⟨v, hv⟩
    have hmem : ∀ w, w ∈ vs ↔ w = v := fun w => by rw [← List.mem_dedup, hv, List.mem_singleton]
    exact ⟨v, (hmem v).mpr rfl, fun w hw => (hmem w).mp hw⟩
  · rintro ⟨v, hv, hall⟩
    refine ⟨v, List.perm_singleton.mp ?_⟩
    rw [List.perm_ext_iff_of_nodup (List.nodup_dedup vs) (List.nodup_singleton v)]
    intro w
    rw [List.mem_dedup, List.mem_singleton]
    exact ⟨hall w, fun h => h ▸ hv⟩

lemma pick_map : (pick value xs).map value = common (xs.map value) := by
  rw [pick, common, pick, List.map_id]
  split_ifs
  · rw [List.head?_map]
  · rfl

lemma mem_of_pick {x : α} (h : pick value xs = some x) : x ∈ xs := by
  rw [pick] at h
  split_ifs at h
  exact List.mem_of_mem_head? h

lemma common_eq_some_iff : common vs = some v ↔ v ∈ vs ∧ ∀ w ∈ vs, w = v := by
  rw [common, pick, List.map_id]
  constructor
  · intro h
    split_ifs at h with hone
    obtain ⟨u, -, hall⟩ := length_dedup_eq_one_iff.mp hone
    have hv := List.mem_of_mem_head? h
    exact ⟨hv, fun w hw => (hall w hw).trans (hall v hv).symm⟩
  · rintro ⟨hv, hall⟩
    rw [if_pos (length_dedup_eq_one_iff.mpr ⟨v, hv, hall⟩)]
    cases vs with
    | nil => cases hv
    | cons w ws => rw [List.head?_cons, hall w List.mem_cons_self]

/-- The order of the elements does not matter, nor how often each of them occurs. -/
lemma common_congr (h : ∀ v, v ∈ vs ↔ v ∈ ws) : common vs = common ws := by
  refine Option.ext fun v => ?_
  simp only [common_eq_some_iff, h]

/-- Two different values leave none. -/
lemma common_eq_none_of_ne (hv : v ∈ vs) (hw : w ∈ vs) (hne : v ≠ w) : common vs = none := by
  rw [Option.eq_none_iff_forall_ne_some]
  intro u hu
  obtain ⟨-, hall⟩ := common_eq_some_iff.mp hu
  exact hne ((hall v hv).trans (hall w hw).symm)

/-- Further elements do not make it another value. -/
lemma common_eq_of_subset (hsub : vs ⊆ ws) (hv : common vs = some v) (hw : common ws = some w) :
    w = v := by
  obtain ⟨hmem, -⟩ := common_eq_some_iff.mp hv
  obtain ⟨-, hall⟩ := common_eq_some_iff.mp hw
  exact (hall v (hsub hmem)).symm

end Unanimous

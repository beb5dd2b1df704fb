import Mathlib.Data.List.Induction
import Mathlib.Data.List.Nodup
import Mathlib.Data.List.Perm.Subperm

/-!
# Dictionaries in insertion order

A dictionary is the list of its items in the order in which their keys were first inserted.
Assigning to a key that is present keeps its place.
-/

/-- The items of a dictionary. -/
abbrev Dict (κ ν : Type*) := List (κ × ν)

namespace Dict

variable {κ ν α : Type*} [DecidableEq κ]

/-- `d.get(k)`. -/
def get? (d : Dict κ ν) (k : κ) : Option ν :=
  match d with
  | [] => none
  | (k', v) :: d => if k' = k then some v else get? d k

/-- `d[k] = v`. -/
def set (d : Dict κ ν) (k : κ) (v : ν) : Dict κ ν :=
  match d with
  | [] => [(k, v)]
  | (k', v') :: d => if k' = k then (k, v) :: d else (k', v') :: set d k v

lemma get?_set (d : Dict κ ν) (k : κ) (v : ν) (k' : κ) :
    (d.set k v).get? k' = if k = k' then some v else d.get? k' := by
  induction d with
  | nil => simp [set, get?]
  | cons p d ih =>
    obtain ⟨l, w⟩ := p
    by_cases hl : l = k
    · subst hl
      rw [set, if_pos rfl, get?, get?]
      split_ifs <;> rfl
    · rw [set, if_neg hl, get?, get?, ih]
      by_cases hk : l = k'
      · rw [if_pos hk, if_neg (fun h => hl (hk.trans h.symm))]
        simp [hk]
      · rw [if_neg hk, if_neg hk]

/-- Assigning the items of a list, each under its key, in turn. -/
def setAll (d : Dict κ α) (key : α → κ) (xs : List α) : Dict κ α :=
  xs.foldl (fun d x => d.set (key x) x) d

/-- A key that some item of the list has leads to an item of the list with that key. -/
lemma get?_setAll_of_mem (d : Dict κ α) (key : α → κ) {xs : List α} {k : κ}
    (h : ∃ x ∈ xs, key x = k) : ∃ x ∈ xs, key x = k ∧ (d.setAll key xs).get? k = some x := by
  induction xs using List.reverseRecOn with
  | nil =>
    obtain ⟨x, hx, -⟩ := h
    cases hx
  | append_singleton xs y ih =>
    rw [setAll, List.foldl_append, List.foldl_cons, List.foldl_nil, get?_set]
    by_cases hy : key y = k
    · rw [if_pos hy]
      exact ⟨y, by simp, hy, rfl⟩
    · rw [if_neg hy]
      obtain ⟨x, hx, hk⟩ := h
      rw [List.mem_append, List.mem_singleton] at hx
      obtain hx | rfl := hx
      · obtain ⟨z, hz, hzk, hget⟩ := ih ⟨x, hx, hk⟩
        exact ⟨z, List.mem_append_left _ hz, hzk, hget⟩
      · exact absurd hk hy

/-- When the keys are distinct, every item of the list is found under its key. -/
lemma get?_setAll_of_nodup (d : Dict κ α) (key : α → κ) {xs : List α} (hnodup : (xs.map key).Nodup)
    {x : α} (hx : x ∈ xs) : (d.setAll key xs).get? (key x) = some x := by
  obtain ⟨y, hy, hkey, hget⟩ := get?_setAll_of_mem d key ⟨x, hx, rfl⟩
  rw [hget, List.inj_on_of_nodup_map hnodup hy hx hkey]

/-- What a key leads to is the last item with that key. -/
lemma get?_setAll (d : Dict κ α) (key : α → κ) (xs : List α) (k : κ) :
    (d.setAll key xs).get? k = ((xs.filter fun x => key x = k).getLast?).or (d.get? k) := by
  induction xs generalizing d with
  | nil => rfl
  | cons x xs ih =>
    rw [setAll, List.foldl_cons, ← setAll, ih, get?_set, List.filter_cons]
    by_cases hx : key x = k
    · rw [if_pos hx, if_pos (by simpa using hx), List.getLast?_cons]
      cases (xs.filter fun x => key x = k).getLast? <;> rfl
    · rw [if_neg hx, if_neg (by simpa using hx)]

/-! ### Entries -/

lemma mem_of_get? {d : Dict κ ν} {k : κ} {v : ν} (h : d.get? k = some v) : (k, v) ∈ d := by
  induction d with
  | nil => cases h
  | cons p d ih =>
    obtain ⟨k', v'⟩ := p
    rw [get?] at h
    split_ifs at h with hk
    · cases h
      rw [hk]
      exact List.mem_cons_self
    · exact List.mem_cons_of_mem _ (ih h)

lemma get?_eq_none {d : Dict κ ν} {k : κ} (h : ∀ entry ∈ d, entry.1 ≠ k) : d.get? k = none := by
  cases hget : d.get? k with
  | none => rfl
  | some v => exact absurd rfl (h _ (mem_of_get? hget))

lemma exists_get?_of_mem {d : Dict κ ν} {entry : κ × ν} (h : entry ∈ d) :
    ∃ v, d.get? entry.1 = some v := by
  induction d with
  | nil => cases h
  | cons p d ih =>
    rw [get?]
    split_ifs with hk
    · exact ⟨p.2, rfl⟩
    · obtain rfl | h := List.mem_cons.mp h
      · exact absurd rfl hk
      · exact ih h

lemma mem_set {d : Dict κ ν} {k : κ} {v : ν} {entry : κ × ν} (h : entry ∈ d.set k v) :
    entry = (k, v) ∨ entry ∈ d := by
  induction d with
  | nil => exact .inl (List.mem_singleton.mp h)
  | cons p d ih =>
    rw [set] at h
    split_ifs at h
    · exact (List.mem_cons.mp h).imp_right (List.mem_cons_of_mem p)
    · obtain rfl | h := List.mem_cons.mp h
      · exact .inr List.mem_cons_self
      · exact (ih h).imp_right (List.mem_cons_of_mem p)

/-- Assigning to a key that is not present appends. -/
lemma set_of_new {d : Dict κ ν} {k : κ} (h : ∀ entry ∈ d, entry.1 ≠ k) (v : ν) :
    d.set k v = d ++ [(k, v)] := by
  induction d with
  | nil => rfl
  | cons p d ih =>
    rw [List.forall_mem_cons] at h
    rw [set, if_neg h.1, ih h.2]
    rfl

lemma setAll_of_new {d : Dict κ α} {key : α → κ} {xs : List α} (hnodup : (xs.map key).Nodup)
    (hnew : ∀ entry ∈ d, ∀ x ∈ xs, entry.1 ≠ key x) :
    d.setAll key xs = d ++ xs.map fun x => (key x, x) := by
  induction xs generalizing d with
  | nil => simp [setAll]
  | cons x xs ih =>
    rw [List.map_cons, List.nodup_cons] at hnodup
    have hx : ∀ entry ∈ d, entry.1 ≠ key x := fun entry hentry => hnew entry hentry x
      List.mem_cons_self
    rw [setAll, List.foldl_cons, set_of_new hx, ← setAll, ih hnodup.2, List.append_assoc]
    · rfl
    · intro entry hentry y hy
      rw [List.mem_append, List.mem_singleton] at hentry
      obtain hentry | rfl := hentry
      · exact hnew entry hentry y (List.mem_cons_of_mem x hy)
      · intro heq
        exact hnodup.1 (List.mem_map.mpr ⟨y, hy, heq.symm⟩)

/-! ### Keys -/

/-- Keeping the items that satisfy a test. -/
lemma get?_filter {d : Dict κ ν} (hd : (d.map Prod.fst).Nodup) (p : κ × ν → Bool) (k : κ) :
    get? (d.filter p) k = (d.get? k).filter fun v => p (k, v) := by
  induction d with
  | nil => rfl
  | cons q d ih =>
    obtain ⟨l, w⟩ := q
    rw [List.map_cons, List.nodup_cons] at hd
    rw [List.filter_cons, get?]
    by_cases hl : l = k
    · subst hl
      have hnone : get? (d.filter p) l = none := by
        apply get?_eq_none
        intro entry hentry heq
        exact hd.1 (List.mem_map.mpr ⟨entry, List.mem_of_mem_filter hentry, heq⟩)
      by_cases hp : p (l, w) = true
      · simp [hp, get?, Option.filter_some]
      · simp [hp, hnone, Option.filter_some]
    · rw [if_neg hl, ← ih hd.2]
      split_ifs
      · rw [get?, if_neg hl]
      · rfl

/-- Assigning to a key that is present changes no key. -/
lemma map_fst_set_of_mem {d : Dict κ ν} {k : κ} (h : k ∈ d.map Prod.fst) (v : ν) :
    (d.set k v).map Prod.fst = d.map Prod.fst := by
  induction d with
  | nil => cases h
  | cons p d ih =>
    rw [set]
    split_ifs with hk
    · simp [hk]
    · rw [List.map_cons, List.map_cons, ih]
      rw [List.map_cons, List.mem_cons] at h
      exact h.resolve_left (Ne.symm hk)

lemma map_fst_set_of_not_mem {d : Dict κ ν} {k : κ} (h : k ∉ d.map Prod.fst) (v : ν) :
    (d.set k v).map Prod.fst = d.map Prod.fst ++ [k] := by
  rw [set_of_new, List.map_append, List.map_singleton]
  intro entry hentry heq
  exact h (List.mem_map.mpr ⟨entry, hentry, heq⟩)

lemma nodup_set {d : Dict κ ν} (hd : (d.map Prod.fst).Nodup) (k : κ) (v : ν) :
    ((d.set k v).map Prod.fst).Nodup := by
  by_cases hk : k ∈ d.map Prod.fst
  · rwa [map_fst_set_of_mem hk]
  · rw [map_fst_set_of_not_mem hk]
    rw [← List.concat_eq_append]
    exact hd.concat hk

/-- The dictionary filled with items whose keys differ is the list of them. -/
lemma foldl_set_of_nodup {items : List (κ × ν)} (h : (items.map Prod.fst).Nodup) :
    items.foldl (fun d item => set d item.1 item.2) [] = items := by
  induction items using List.reverseRecOn with
  | nil => rfl
  | append_singleton items item ih =>
    rw [List.map_append, List.nodup_append] at h
    rw [List.foldl_append, ih h.1, List.foldl_cons, List.foldl_nil, set_of_new]
    intro entry hentry
    exact h.2.2 _ (List.mem_map_of_mem hentry) _ (by simp)

/-! ### Equality -/

lemma get?_of_mem {d : Dict κ ν} (hd : (d.map Prod.fst).Nodup) {entry : κ × ν} (h : entry ∈ d) :
    d.get? entry.1 = some entry.2 := by
  induction d with
  | nil => cases h
  | cons p d ih =>
    rw [List.map_cons, List.nodup_cons] at hd
    rw [get?]
    obtain rfl | h := List.mem_cons.mp h
    · rw [if_pos rfl]
    · have hne : p.1 ≠ entry.1 := fun heq => hd.1 (heq ▸ List.mem_map_of_mem h)
      rw [if_neg hne]
      exact ih hd.2 h

/-- `d == d'`: as many items, and each of `d` with the same value in `d'`. -/
def same [DecidableEq ν] (d d' : Dict κ ν) : Bool :=
  d.length = d'.length ∧ ∀ entry ∈ d, d'.get? entry.1 = some entry.2

/-- Dictionaries are equal if every key has the same value in both. -/
lemma same_iff [DecidableEq ν] {d d' : Dict κ ν} (hd : (d.map Prod.fst).Nodup)
    (hd' : (d'.map Prod.fst).Nodup) : d.same d' = true ↔ ∀ k, d.get? k = d'.get? k := by
  rw [same, decide_eq_true_eq]
  have hkey : ∀ {d : Dict κ ν} {k : κ}, k ∈ d.map Prod.fst ↔ ∃ v, d.get? k = some v := by
    intro d k
    constructor
    · intro hk
      obtain ⟨entry, hentry, rfl⟩ := List.mem_map.mp hk
      exact exists_get?_of_mem hentry
    · rintro ⟨v, hv⟩
      exact List.mem_map_of_mem (f := Prod.fst) (mem_of_get? hv)
  constructor
  · rintro ⟨hlength, hall⟩ k
    -- no key of the second is missing in the first, which has as many
    have hsub : d.map Prod.fst ⊆ d'.map Prod.fst := by
      intro k hk
      obtain ⟨entry, hentry, rfl⟩ := List.mem_map.mp hk
      exact hkey.mpr ⟨_, hall entry hentry⟩
    have hperm : (d.map Prod.fst).Perm (d'.map Prod.fst) :=
      (List.Nodup.subperm hd hsub).perm_of_length_le (by simp [hlength])
    cases hget : d.get? k with
    | some v => exact (hall _ (mem_of_get? hget)).symm
    | none =>
      cases hget' : d'.get? k with
      | none => rfl
      | some v =>
        obtain ⟨w, hw⟩ := hkey.mp (hperm.mem_iff.mpr (hkey.mpr ⟨v, hget'⟩))
        rw [hget] at hw
        cases hw
  · intro h
    have hperm : (d.map Prod.fst).Perm (d'.map Prod.fst) := by
      refine (List.perm_ext_iff_of_nodup hd hd').mpr fun k => ?_
      rw [hkey, hkey, h]
    refine ⟨by simpa using hperm.length_eq, fun entry hentry => ?_⟩
    rw [← h]
    exact get?_of_mem hd hentry

end Dict

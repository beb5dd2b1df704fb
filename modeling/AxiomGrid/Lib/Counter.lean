import AxiomGrid.Lib.Dict
import Mathlib.Algebra.BigOperators.Group.Finset.Piecewise
import Mathlib.Algebra.GroupWithZero.Nat
import Mathlib.Data.Finset.Dedup

/-!
# Counters

Dictionaries of counts, with 0 for what is not there, and comprehensions over the items of a dictionary.
-/

namespace Dict

variable {κ μ ν : Type*} [DecidableEq κ]

/-- `counter.get(k, 0)`. -/
def count (d : Dict κ ℕ) (k : κ) : ℕ := (d.get? k).getD 0

/-- `sum(counter.values())`. -/
def total (d : Dict κ ℕ) : ℕ := (d.map Prod.snd).sum

/-- The values that a function has for the items, less those for which it has none. -/
def choose (f : κ → ν → Option μ) (d : Dict κ ν) : Dict κ μ :=
  d.filterMap fun item => (f item.1 item.2).map (item.1, ·)

/-- Each key of the dictionary gets a count that depends on its old one. -/
def adjust (f : ℕ → ν → ℕ) (changes : Dict κ ν) (d : Dict κ ℕ) : Dict κ ℕ :=
  changes.foldl (fun d change => d.set change.1 (f (count d change.1) change.2)) d

variable {d : Dict κ ℕ}

lemma count_cons (k : κ) (v : ℕ) (d : Dict κ ℕ) (k' : κ) :
    count ((k, v) :: d) k' = if k = k' then v else count d k' := by
  rw [count, get?]
  split_ifs <;> rfl

lemma count_set (d : Dict κ ℕ) (k : κ) (v : ℕ) (k' : κ) :
    count (d.set k v) k' = if k = k' then v else count d k' := by
  rw [count, get?_set]
  split_ifs <;> rfl

lemma count_eq_zero {k : κ} (h : k ∉ d.map Prod.fst) : count d k = 0 := by
  rw [count, get?_eq_none]
  · rfl
  · rintro entry hentry rfl
    exact h (List.mem_map_of_mem hentry)

lemma total_set (d : Dict κ ℕ) (k : κ) (v : ℕ) : total (d.set k v) + count d k = total d + v := by
  induction d with
  | nil => simp [set, total, count, get?]
  | cons entry d ih =>
    obtain ⟨l, w⟩ := entry
    rw [set, count_cons]
    split_ifs with hl
    · simp only [total, List.map_cons, List.sum_cons]
      omega
    · simp only [total, List.map_cons, List.sum_cons] at ih ⊢
      omega

/-- The counts add up to the total. -/
lemma sum_count (hd : (d.map Prod.fst).Nodup) {T : Finset κ} (hT : ∀ k ∈ d.map Prod.fst, k ∈ T) :
    ∑ k ∈ T, count d k = total d := by
  induction d with
  | nil => exact Finset.sum_eq_zero fun _ _ => rfl
  | cons entry d ih =>
    obtain ⟨k, v⟩ := entry
    obtain ⟨hnew, hd⟩ := List.nodup_cons.mp hd
    have hk : k ∈ T := hT k List.mem_cons_self
    have hcount : ∀ k', count ((k, v) :: d) k' = (if k = k' then v else 0) + count d k' := by
      intro k'
      rw [count_cons]
      split_ifs with heq
      · rw [← heq, count_eq_zero hnew, Nat.add_zero]
      · rw [Nat.zero_add]
    simp only [hcount]
    rw [Finset.sum_add_distrib, Finset.sum_ite_eq, if_pos hk,
      ih hd fun k' hk' => hT k' (List.mem_cons_of_mem _ hk')]
    rfl

/-! ### Comprehensions -/

section

variable {f : κ → ν → Option μ} {items : Dict κ ν}

/-- `{k: g(k, v) for k, v in items}`. -/
lemma get?_map (g : κ → ν → μ) (items : Dict κ ν) (k : κ) :
    get? (items.map fun item => (item.1, g item.1 item.2)) k = (get? items k).map (g k) := by
  induction items with
  | nil => rfl
  | cons item items ih =>
    obtain ⟨l, v⟩ := item
    rw [List.map_cons, get?, get?]
    split_ifs with hl
    · rw [hl]
      rfl
    · exact ih

omit [DecidableEq κ] in
lemma mem_keys_choose {k : κ} (h : k ∈ (choose f items).map Prod.fst) : k ∈ items.map Prod.fst := by
  obtain ⟨⟨k', v⟩, hmem, rfl⟩ := List.mem_map.mp h
  obtain ⟨item, hitem, hvalue⟩ := List.mem_filterMap.mp hmem
  obtain ⟨v', -, heq⟩ := Option.map_eq_some_iff.mp hvalue
  exact List.mem_map.mpr ⟨item, hitem, congrArg Prod.fst heq⟩

omit [DecidableEq κ] in
lemma nodup_choose (h : (items.map Prod.fst).Nodup) : ((choose f items).map Prod.fst).Nodup := by
  induction items with
  | nil => exact List.nodup_nil
  | cons item items ih =>
    obtain ⟨hnew, hnodup⟩ := List.nodup_cons.mp h
    rw [choose, List.filterMap_cons]
    cases f item.1 item.2 with
    | none => exact ih hnodup
    | some v => exact List.nodup_cons.mpr ⟨fun hmem => hnew (mem_keys_choose hmem), ih hnodup⟩

lemma get?_choose (h : (items.map Prod.fst).Nodup) (k : κ) :
    get? (choose f items) k = (get? items k).bind (f k) := by
  induction items with
  | nil => rfl
  | cons item items ih =>
    obtain ⟨l, v⟩ := item
    obtain ⟨hnew, hnodup⟩ := List.nodup_cons.mp h
    have hrest : choose f ((l, v) :: items) =
        ((f l v).map (l, ·)).toList ++ choose f items := by
      rw [choose, List.filterMap_cons]
      cases f l v <;> rfl
    rw [hrest, get?]
    split_ifs with hl
    · subst hl
      cases hvalue : f l v with
      | some w => simp [get?, hvalue]
      | none =>
        have hnone : get? items l = none := by
          apply get?_eq_none
          intro entry hentry heq
          have hkey : entry.1 ∈ items.map Prod.fst := List.mem_map_of_mem hentry
          exact hnew (heq ▸ hkey)
        rw [Option.map_none, Option.toList_none, List.nil_append, ih hnodup, hnone, Option.bind_some,
          hvalue]
        rfl
    · cases f l v with
      | none => exact ih hnodup
      | some w =>
        rw [Option.map_some, Option.toList_some, List.singleton_append, get?, if_neg hl]
        exact ih hnodup

end

/-! ### Changes -/

section

variable {f : ℕ → ν → ℕ} {changes : Dict κ ν}

lemma nodup_adjust (hd : (d.map Prod.fst).Nodup) : ((adjust f changes d).map Prod.fst).Nodup := by
  induction changes generalizing d with
  | nil => exact hd
  | cons change changes ih => exact ih (nodup_set hd _ _)

lemma mem_keys_adjust {k : κ} (h : k ∈ (adjust f changes d).map Prod.fst) :
    k ∈ d.map Prod.fst ∨ k ∈ changes.map Prod.fst := by
  induction changes generalizing d with
  | nil => exact .inl h
  | cons change changes ih =>
    obtain h | h := ih h
    · by_cases hmem : change.1 ∈ d.map Prod.fst
      · rw [map_fst_set_of_mem hmem] at h
        exact .inl h
      · rw [map_fst_set_of_not_mem hmem, List.mem_append, List.mem_singleton] at h
        obtain h | rfl := h
        · exact .inl h
        · exact .inr List.mem_cons_self
    · exact .inr (List.mem_cons_of_mem _ h)

lemma count_adjust (h : (changes.map Prod.fst).Nodup) (k : κ) :
    count (adjust f changes d) k = ((get? changes k).map (f (count d k))).getD (count d k) := by
  induction changes generalizing d with
  | nil => rfl
  | cons change changes ih =>
    obtain ⟨hnew, hnodup⟩ := List.nodup_cons.mp h
    rw [adjust, List.foldl_cons, ← adjust, ih hnodup, count_set, get?]
    split_ifs with hk
    · have hnone : get? changes k = none := by
        apply get?_eq_none
        rintro entry hentry rfl
        exact hnew (hk ▸ List.mem_map_of_mem hentry)
      rw [hnone, hk]
      rfl
    · rfl

end

end Dict

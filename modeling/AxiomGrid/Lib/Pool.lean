import Mathlib.Data.List.Perm.Basic

/-!
# Taking elements out of a pool

The first element of a list that passes a test is taken out. The test may raise, and then nothing is
taken.
-/

namespace Pool

variable {α β ε : Type}

/-- The pool without the first element that passes; `none` if there is none. -/
def take (test : α → Except ε Bool) : List α → Except ε (Option (List α))
  | [] => .ok none
  | x :: xs => do
    if ← test x then .ok (some xs)
    else (take test xs).map (Option.map (x :: ·))

/-- What is taken is an element that passes. -/
lemma perm_of_take {test : α → Except ε Bool} {pool rest : List α}
    (h : take test pool = .ok (some rest)) : ∃ x, pool.Perm (x :: rest) ∧ test x = .ok true := by
  induction pool generalizing rest with
  | nil => cases h
  | cons x xs ih =>
    rw [take] at h
    cases hx : test x with
    | error e =>
      rw [hx] at h
      cases h
    | ok passes =>
      rw [hx] at h
      cases passes with
      | true =>
        cases h
        exact ⟨x, .refl _, hx⟩
      | false =>
        cases hxs : take test xs with
        | error e =>
          rw [hxs] at h
          cases h
        | ok found =>
          rw [hxs] at h
          cases found with
          | none => cases h
          | some rest' =>
            cases h
            obtain ⟨y, hperm, hy⟩ := ih hxs
            exact ⟨y, (hperm.cons x).trans (.swap y x rest'), hy⟩

/-- If the test compares a key and does not raise, an element with the key is found, and the keys of
the rest are the others. -/
lemma exists_take {test : α → Except ε Bool} {key : α → β} [DecidableEq β] {want : β}
    {wants : List β} {pool : List α} (htest : ∀ x ∈ pool, test x = .ok (decide (key x = want)))
    (hperm : (pool.map key).Perm (want :: wants)) :
    ∃ rest, take test pool = .ok (some rest) ∧ rest ⊆ pool ∧ (rest.map key).Perm wants := by
  induction pool generalizing wants with
  | nil => simpa using hperm.length_eq
  | cons x xs ih =>
    rw [List.forall_mem_cons] at htest
    by_cases hx : key x = want
    · refine ⟨xs, ?_, List.subset_cons_self x xs, ?_⟩
      · simp [take, htest.1, hx, bind, Except.bind]
      · rw [List.map_cons, hx] at hperm
        exact hperm.cons_inv
    · -- the key is found further on, and that of the first element is among the others
      have hmem : key x ∈ wants := by
        have hkey := hperm.subset (List.mem_cons_self (a := key x))
        exact (List.mem_cons.mp hkey).resolve_left hx
      have hrest : (xs.map key).Perm (want :: wants.erase (key x)) := by
        have hwants := List.perm_cons_erase hmem
        exact (hperm.trans ((hwants.cons want).trans (.swap _ _ _))).cons_inv
      obtain ⟨rest, htake, hsub, hkeys⟩ := ih htest.2 hrest
      refine ⟨x :: rest, ?_, List.cons_subset_cons x hsub, ?_⟩
      · simp [take, htest.1, hx, htake, bind, Except.bind, Except.map]
      · exact (hkeys.cons _).trans (List.perm_cons_erase hmem).symm

end Pool

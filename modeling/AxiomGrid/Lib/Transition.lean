import Mathlib.Data.List.Induction
import Mathlib.Algebra.Order.Group.Int
import Mathlib.Algebra.Order.BigOperators.Group.List
import Mathlib.Tactic.Abel

/-!
# Runs of a partial step function

A system is given by a partial function `step : σ → α → Option σ`: in state `s` the action `a` is
enabled when `step s a` is defined. A run is a list of actions, each enabled in the state the
previous ones lead to. An interleaving of several parties is a run whose actions name the party.

The invariant rules below are the only inductions over runs that a client needs: an invariant may
speak about the state alone, or about the state together with the actions that led to it.
-/

namespace Transition

variable {σ α : Type*} (step : σ → α → Option σ)

/-- The state after the actions `as`, if each of them is enabled in turn. -/
def run (s : σ) : List α → Option σ
  | [] => some s
  | a :: as => (step s a).bind fun s' => run s' as

@[simp] lemma run_nil (s : σ) : run step s [] = some s := rfl

@[simp] lemma run_cons (s : σ) (a : α) (as : List α) :
    run step s (a :: as) = (step s a).bind fun s' => run step s' as := rfl

lemma run_append (s : σ) (as bs : List α) :
    run step s (as ++ bs) = (run step s as).bind fun s' => run step s' bs := by
  induction as generalizing s with
  | nil => rfl
  | cons a as ih =>
    simp only [List.cons_append, run_cons]
    cases step s a with
    | none => rfl
    | some s' => exact ih s'

lemma run_concat {s s' : σ} {as : List α} {a : α} (h : run step s (as ++ [a]) = some s') :
    ∃ t, run step s as = some t ∧ step t a = some s' := by
  rw [run_append, Option.bind_eq_some_iff] at h
  obtain ⟨t, ht, ha⟩ := h
  refine ⟨t, ht, ?_⟩
  simpa using ha

/-- A property of the state and of the history of actions that holds initially and is kept by
every step holds after every run. -/
theorem run_induction {P : List α → σ → Prop} {s₀ : σ} (init : P [] s₀)
    (keep : ∀ as s a s', run step s₀ as = some s → P as s → step s a = some s' → P (as ++ [a]) s')
    {as : List α} {s : σ} (h : run step s₀ as = some s) : P as s := by
  induction as using List.reverseRecOn generalizing s with
  | nil =>
    cases h
    exact init
  | append_singleton as a ih =>
    obtain ⟨t, ht, ha⟩ := run_concat step h
    exact keep as t a s ht (ih ht) ha

/-- The invariant rule: what every step preserves, every run preserves. -/
theorem run_invariant {P : σ → Prop} (keep : ∀ s a s', P s → step s a = some s' → P s')
    {s s' : σ} {as : List α} (hs : P s) (h : run step s as = some s') : P s' :=
  run_induction step (P := fun _ t => P t) hs (fun _ t a t' _ ht ha => keep t a t' ht ha) h

/-- Every action of the run is taken in a state where `ok` allows it. -/
def Each (ok : σ → α → Prop) (s : σ) : List α → Prop
  | [] => True
  | a :: as => ok s a ∧ ∀ s' ∈ step s a, Each ok s' as

instance Each.decidable {ok : σ → α → Prop} [∀ s a, Decidable (ok s a)] (s : σ) :
    (as : List α) → Decidable (Each step ok s as)
  | [] => inferInstanceAs (Decidable True)
  | a :: as =>
    match h : step s a with
    | none => decidable_of_iff (ok s a) (by simp [Each, h])
    | some s' =>
      have : Decidable (Each step ok s' as) := Each.decidable s' as
      decidable_of_iff (ok s a ∧ Each step ok s' as) (by simp [Each, h])

/-- The invariant rule for the runs all of whose actions are allowed. -/
theorem run_invariant_of_each {ok : σ → α → Prop} {P : σ → Prop}
    (keep : ∀ s a s', P s → ok s a → step s a = some s' → P s')
    {s s' : σ} {as : List α} (hs : P s) (hok : Each step ok s as) (h : run step s as = some s') :
    P s' := by
  induction as generalizing s with
  | nil =>
    cases h
    exact hs
  | cons a as ih =>
    obtain ⟨t, ht, hrun⟩ := Option.bind_eq_some_iff.mp h
    exact ih (keep s a t hs hok.1 ht) (hok.2 t ht) hrun

end Transition

namespace List

variable {α β : Type*}

/-- Replacing one element of a list changes the sum of a weight by the difference of the two
weights. -/
lemma sum_map_set [AddCommMonoid β] (f : α → β) {xs : List α} {i : ℕ} {x : α}
    (h : xs[i]? = some x) (y : α) :
    ((xs.set i y).map f).sum + f x = (xs.map f).sum + f y := by
  induction xs generalizing i with
  | nil => simp at h
  | cons z zs ih =>
    cases i with
    | zero =>
      obtain rfl : z = x := by simpa using h
      simp only [set_cons_zero, map_cons, sum_cons]
      abel
    | succ i =>
      have h' : zs[i]? = some x := by simpa using h
      simp only [set_cons_succ, map_cons, sum_cons, add_assoc, ih h']

/-- Replacing one element of a list changes a count by that element and the new one. -/
lemma countP_set_add (p : α → Bool) {xs : List α} {i : ℕ} {x : α} (h : xs[i]? = some x) (y : α) :
    (xs.set i y).countP p + (p x).toNat = xs.countP p + (p y).toNat := by
  have hsum : ∀ zs : List α, zs.countP p = (zs.map fun z => (p z).toNat).sum := by
    intro zs
    induction zs with
    | nil => rfl
    | cons z zs ih =>
      rw [countP_cons, map_cons, sum_cons, ih, add_comm]
      cases p z <;> rfl
  rw [hsum, hsum]
  exact sum_map_set _ h y

/-- Where a given entry of a list lies relative to its last entry. -/
lemma concat_eq_append_cons {xs pre post : List α} {x y : α} (h : xs ++ [x] = pre ++ y :: post) :
    (xs = pre ∧ x = y) ∨ ∃ post', post = post' ++ [x] ∧ xs = pre ++ y :: post' := by
  rcases eq_nil_or_concat' post with rfl | ⟨post', z, rfl⟩
  · obtain ⟨h₁, h₂⟩ := append_inj' h rfl
    exact .inl ⟨h₁, by simpa using h₂⟩
  · rw [show pre ++ y :: (post' ++ [z]) = (pre ++ y :: post') ++ [z] by simp] at h
    obtain ⟨h₁, h₂⟩ := append_inj' h rfl
    obtain rfl : x = z := by simpa using h₂
    exact .inr ⟨post', rfl, h₁⟩

end List

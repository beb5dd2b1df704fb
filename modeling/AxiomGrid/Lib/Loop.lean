import Mathlib.Data.List.Basic
import Mathlib.Order.Lattice

/-!
# Loops that leave early and loops that keep the best

A `for` loop that may return from its function is `List.foldlM` in `Except`: `.error` is the value
returned, `.ok` the state with which the loop ends. A loop that keeps the best element seen so far is
`bestBy`.
-/

universe v

variable {α β ε : Type*}

namespace Except

@[simp] lemma ok_bind {ε : Type*} {α β : Type v} (a : α) (f : α → Except ε β) :
    (Except.ok a >>= f) = f a := rfl

@[simp] lemma error_bind {ε : Type*} {α β : Type v} (e : ε) (f : α → Except ε β) :
    ((Except.error e : Except ε α) >>= f) = .error e := rfl

@[simp] lemma pure_eq {ε : Type*} {α : Type v} (a : α) : (pure a : Except ε α) = .ok a := rfl

@[simp] lemma map_eq_ok {ε : Type*} {α β : Type v} (f : α → β) (a : α) :
    (Except.ok a : Except ε α).map f = .ok (f a) := rfl

lemma of_bind_eq_ok {ε : Type*} {α β : Type v} {x : Except ε α} {f : α → Except ε β} {b : β}
    (h : x >>= f = .ok b) : ∃ a, x = .ok a ∧ f a = .ok b := by
  cases x with
  | error e => cases h
  | ok a => exact ⟨a, rfl, h⟩

lemma of_map_eq_ok {ε : Type*} {α β : Type v} {x : Except ε α} {f : α → β} {b : β}
    (h : x.map f = .ok b) : ∃ a, x = .ok a ∧ f a = b := by
  cases x with
  | error e => cases h
  | ok a =>
    cases h
    exact ⟨a, rfl, rfl⟩

lemma of_bind_eq_error {ε : Type*} {α β : Type v} {x : Except ε α} {f : α → Except ε β} {e : ε}
    (h : x >>= f = .error e) : x = .error e ∨ ∃ a, x = .ok a ∧ f a = .error e := by
  cases x with
  | error e' =>
    cases h
    exact .inl rfl
  | ok a => exact .inr ⟨a, rfl, h⟩

end Except

namespace List

/-- A loop that leaves early does so in the body of one of its elements. -/
lemma exists_of_foldlM_error {f : β → α → Except ε β} {xs : List α} {b : β} {e : ε}
    (h : xs.foldlM f b = .error e) : ∃ x ∈ xs, ∃ b', f b' x = .error e := by
  induction xs generalizing b with
  | nil => cases h
  | cons x xs ih =>
    rw [foldlM_cons] at h
    cases hx : f b x with
    | error e' =>
      rw [hx] at h
      cases h
      exact ⟨x, mem_cons_self, b, hx⟩
    | ok b' =>
      rw [hx] at h
      obtain ⟨y, hy, b'', hb⟩ := ih h
      exact ⟨y, mem_cons_of_mem x hy, b'', hb⟩

/-- A loop that runs to its end has run the body on every element. -/
lemma forall_of_foldlM_ok {f : β → α → Except ε β} {xs : List α} {b b' : β}
    (h : xs.foldlM f b = .ok b') : ∀ x ∈ xs, ∃ b₁ b₂, f b₁ x = .ok b₂ := by
  induction xs generalizing b with
  | nil =>
    intro x hx
    cases hx
  | cons x xs ih =>
    rw [foldlM_cons] at h
    intro y hy
    cases hx : f b x with
    | error e =>
      rw [hx] at h
      cases h
    | ok b₁ =>
      rw [hx] at h
      cases hy with
      | head => exact ⟨b, b₁, hx⟩
      | tail _ hy => exact ih h y hy

/-- A property that every turn keeps holds where the loop ends. -/
lemma invariant_of_foldlM_ok {f : β → α → Except ε β} {P : β → Prop}
    (hstep : ∀ b x b', P b → f b x = .ok b' → P b') {xs : List α} {b b' : β} (hb : P b)
    (h : xs.foldlM f b = .ok b') : P b' := by
  induction xs generalizing b with
  | nil =>
    cases h
    exact hb
  | cons x xs ih =>
    rw [List.foldlM_cons] at h
    obtain ⟨mid, hmid, h⟩ := Except.of_bind_eq_ok h
    exact ih (hstep b x mid hb hmid) h

/-- A comprehension succeeds with good values iff it does so on every element. -/
lemma mapM_ok_iff {β : Type v} {f : α → Except ε β} {P : β → Prop} {xs : List α} :
    (∃ ys, xs.mapM f = .ok ys ∧ ∀ y ∈ ys, P y) ↔ ∀ x ∈ xs, ∃ y, f x = .ok y ∧ P y := by
  induction xs with
  | nil => exact ⟨fun _ x hx => absurd hx not_mem_nil, fun _ => ⟨[], rfl, by simp⟩⟩
  | cons x xs ih =>
    rw [forall_mem_cons, ← ih]
    constructor
    · rintro ⟨ys, h, hall⟩
      rw [mapM_cons] at h
      obtain ⟨y, hy, h⟩ := Except.of_bind_eq_ok h
      obtain ⟨ys, hys, h⟩ := Except.of_bind_eq_ok h
      cases h
      rw [forall_mem_cons] at hall
      exact ⟨⟨y, hy, hall.1⟩, ys, hys, hall.2⟩
    · rintro ⟨⟨y, hy, hP⟩, ys, hys, hall⟩
      refine ⟨y :: ys, ?_, forall_mem_cons.mpr ⟨hP, hall⟩⟩
      simp only [mapM_cons, hy, hys, Except.ok_bind, Except.pure_eq]

/-- The loop `if eligible(x) and score(x) > best: best, found = score(x), x`. -/
def bestBy (lt : β → β → Bool) (eligible : α → Bool) (score : α → β) (start : β) (xs : List α) :
    β × Option α :=
  xs.foldl (fun best x => if eligible x && lt best.1 (score x) then (score x, some x) else best)
    (start, none)

/-- What such a loop finds is an eligible element, and the best score is its score. -/
lemma of_bestBy_eq_some {lt : β → β → Bool} {eligible : α → Bool} {score : α → β} {start : β}
    {xs : List α} {x : α} (h : (bestBy lt eligible score start xs).2 = some x) :
    x ∈ xs ∧ eligible x = true ∧ (bestBy lt eligible score start xs).1 = score x := by
  -- the start of the loop finds nothing; every later best is an element seen
  have hinv : ∀ (ys : List α) (best : β × Option α),
      (∀ y, best.2 = some y → y ∈ xs ∧ eligible y = true ∧ best.1 = score y) →
      (∀ y ∈ ys, y ∈ xs) →
      ∀ y, (ys.foldl (fun best x =>
          if eligible x && lt best.1 (score x) then (score x, some x) else best) best).2 = some y →
        y ∈ xs ∧ eligible y = true ∧ (ys.foldl (fun best x =>
          if eligible x && lt best.1 (score x) then (score x, some x) else best) best).1 = score y := by
    intro ys
    induction ys with
    | nil =>
      intro best hbest _
      exact hbest
    | cons z zs ih =>
      intro best hbest hmem
      rw [foldl_cons]
      apply ih
      · intro y hy
        split_ifs at hy ⊢ with hz
        · cases hy
          exact ⟨hmem z mem_cons_self, (Bool.and_eq_true_iff.mp hz).1, rfl⟩
        · exact hbest y hy
      · intro y hy
        exact hmem y (mem_cons_of_mem z hy)
  apply hinv xs (start, none)
  · intro y hy
    cases hy
  · intro y hy
    exact hy
  · exact h

section

variable [LinearOrder β] {eligible : α → Bool} {score : α → β} {start : β} {xs : List α} {x : α}

/-- An element that is not better changes nothing. -/
lemma bestBy_foldl_of_le {best : β × Option α} (h : ∀ x ∈ xs, score x ≤ best.1) :
    xs.foldl (fun best x => if eligible x && decide (best.1 < score x) then (score x, some x)
      else best) best = best := by
  induction xs with
  | nil => rfl
  | cons x xs ih =>
    rw [forall_mem_cons] at h
    rw [foldl_cons, if_neg (by simp [h.1]), ih h.2]

/-- The best score does not decrease, and in the end it is that of the element found. -/
lemma bestBy_foldl_spec (eligible : α → Bool) (score : α → β) (xs : List α) (best : β × Option α) :
    let final := xs.foldl (fun best x =>
      if eligible x && decide (best.1 < score x) then (score x, some x) else best) best
    best.1 ≤ final.1 ∧ (∀ x ∈ xs, eligible x = true → score x ≤ final.1) ∧
      (final = best ∨ best.1 < final.1 ∧ ∃ x ∈ xs, eligible x = true ∧ final = (score x, some x)) := by
  induction xs generalizing best with
  | nil => exact ⟨le_rfl, by simp, .inl rfl⟩
  | cons x xs ih =>
    rw [foldl_cons]
    split_ifs with hx
    · rw [Bool.and_eq_true, decide_eq_true_eq] at hx
      obtain ⟨hle, hall, hcases⟩ := ih (score x, some x)
      have hlt := lt_of_lt_of_le hx.2 hle
      refine ⟨le_of_lt hlt, ?_, .inr ⟨hlt, ?_⟩⟩
      · rw [forall_mem_cons]
        exact ⟨fun _ => hle, hall⟩
      · rcases hcases with heq | ⟨-, y, hy, heligible, heq⟩
        · exact ⟨x, mem_cons_self, hx.1, heq⟩
        · exact ⟨y, mem_cons_of_mem x hy, heligible, heq⟩
    · obtain ⟨hle, hall, hcases⟩ := ih best
      refine ⟨hle, ?_, ?_⟩
      · rw [forall_mem_cons]
        refine ⟨fun heligible => ?_, hall⟩
        rw [heligible, Bool.true_and, decide_eq_true_eq, not_lt] at hx
        exact le_trans hx hle
      · rcases hcases with heq | ⟨hlt, y, hy, hfound⟩
        · exact .inl heq
        · exact .inr ⟨hlt, y, mem_cons_of_mem x hy, hfound⟩

/-- A bound above the start is reached exactly when an eligible element reaches it. -/
lemma le_bestBy_iff {bound : β} (h : start < bound) :
    bound ≤ (bestBy (fun p q => decide (p < q)) eligible score start xs).1 ↔
      ∃ x ∈ xs, eligible x = true ∧ bound ≤ score x := by
  obtain ⟨-, hall, hcases⟩ := bestBy_foldl_spec eligible score xs (start, none)
  constructor
  · intro hbound
    rcases hcases with heq | ⟨-, x, hx, heligible, heq⟩
    · rw [bestBy, heq] at hbound
      exact absurd hbound (not_le.mpr h)
    · rw [bestBy, heq] at hbound
      exact ⟨x, hx, heligible, hbound⟩
  · rintro ⟨x, hx, heligible, hscore⟩
    exact le_trans hscore (hall x hx heligible)

/-- What the loop finds is better than the start. -/
lemma lt_of_bestBy_eq_some
    (h : (bestBy (fun p q => decide (p < q)) eligible score start xs).2 = some x) :
    start < score x := by
  obtain ⟨-, -, hcases⟩ := bestBy_foldl_spec eligible score xs (start, none)
  rcases hcases with heq | ⟨hlt, y, -, -, heq⟩
  · rw [bestBy, heq] at h
    cases h
  · rw [bestBy, heq] at h
    cases h
    rwa [heq] at hlt

/-- A loop that finds nothing ends as it started. -/
lemma bestBy_of_eq_none
    (h : (bestBy (fun p q => decide (p < q)) eligible score start xs).2 = none) :
    bestBy (fun p q => decide (p < q)) eligible score start xs = (start, none) := by
  obtain ⟨-, -, hcases⟩ := bestBy_foldl_spec eligible score xs (start, none)
  rcases hcases with heq | ⟨-, y, -, -, heq⟩
  · exact heq
  · rw [bestBy, heq] at h
    cases h

/-- A first element that no other one beats is found. -/
lemma bestBy_cons_of_le (heligible : eligible x = true) (hstart : start < score x)
    (h : ∀ y ∈ xs, score y ≤ score x) :
    bestBy (fun p q => decide (p < q)) eligible score start (x :: xs) = (score x, some x) := by
  rw [bestBy, foldl_cons, if_pos (by simp [heligible, hstart])]
  exact bestBy_foldl_of_le h

end

end List

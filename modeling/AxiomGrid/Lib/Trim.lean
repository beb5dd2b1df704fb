import Mathlib.Data.List.DropRight
import Mathlib.Data.List.Infix

/-!
# Trimming

A list without the elements at its ends that satisfy a test.
-/

namespace List

variable {α : Type*} (p : α → Bool)

/-- `s.trim()`, where `p` holds of the white space. -/
def trim (s : List α) : List α := (s.dropWhile p).rdropWhile p

variable {p} {s : List α}

@[simp] lemma trim_nil : ([] : List α).trim p = [] := rfl

/-- What is trimmed away satisfies the test. -/
lemma exists_trim (s : List α) : ∃ left right, s = left ++ s.trim p ++ right ∧
    (∀ x ∈ left, p x = true) ∧ ∀ x ∈ right, p x = true := by
  refine ⟨s.takeWhile p, (s.dropWhile p).rtakeWhile p, ?_, ?_, ?_⟩
  · rw [trim, append_assoc, rdropWhile_append_rtakeWhile, takeWhile_append_dropWhile]
  · exact fun x hx => mem_takeWhile_imp hx
  · exact fun x hx => mem_rtakeWhile_imp hx

lemma trim_infix (s : List α) : s.trim p <:+: s :=
  ( rdropWhile_prefix p _).isInfix.trans (dropWhile_suffix p).isInfix

/-- What does not satisfy the test is kept. -/
lemma filter_trim {q : α → Bool} (h : ∀ x, q x = true → p x = false) (s : List α) :
    (s.trim p).filter q = s.filter q := by
  have hnone : ∀ t : List α, (∀ x ∈ t, p x = true) → t.filter q = [] := by
    intro t ht
    rw [filter_eq_nil_iff]
    intro x hx hq
    have hp := ht x hx
    rw [h x hq] at hp
    cases hp
  obtain ⟨left, right, hs, hleft, hright⟩ := exists_trim (p := p) s
  conv_rhs => rw [hs]
  rw [filter_append, filter_append, hnone left hleft, hnone right hright, nil_append, append_nil]

lemma mem_trim {x : α} (h : p x = false) : x ∈ s.trim p ↔ x ∈ s := by
  have hfilter : x ∈ (s.trim p).filter (fun y => !p y) ↔ x ∈ s.filter (fun y => !p y) := by
    rw [filter_trim fun y hy => by simpa using hy]
  simpa [h] using hfilter

lemma infix_dropWhile {w : List α} (hne : w ≠ []) (hhead : ∀ x ∈ w.head?, p x = false)
    (h : w <:+: s) : w <:+: s.dropWhile p := by
  induction s with
  | nil => exact h
  | cons x s ih =>
    cases hx : p x with
    | false => rwa [dropWhile_cons_of_neg (by simp [hx])]
    | true =>
      rw [dropWhile_cons_of_pos hx]
      refine ih ((infix_cons_iff.mp h).resolve_left fun hbegins => ?_)
      obtain ⟨y, w, rfl⟩ := exists_cons_of_ne_nil hne
      obtain ⟨rfl, -⟩ := cons_prefix_cons.mp hbegins
      rw [hhead y rfl] at hx
      cases hx

/-- A part whose ends do not satisfy the test is kept. -/
lemma infix_trim {w : List α} (hne : w ≠ []) (hhead : ∀ x ∈ w.head?, p x = false)
    (hlast : ∀ x ∈ w.getLast?, p x = false) (h : w <:+: s) : w <:+: s.trim p := by
  rw [trim, rdropWhile, ← reverse_infix, reverse_reverse]
  refine infix_dropWhile (by simpa using hne) ?_ ( reverse_infix.mpr (infix_dropWhile hne hhead h))
  rwa [head?_reverse]

/-- No end of a trimmed list satisfies the test. -/
lemma ends_trim (s : List α) :
    (∀ x ∈ (s.trim p).head?, p x = false) ∧ ∀ x ∈ (s.trim p).getLast?, p x = false := by
  constructor
  · intro x hx
    obtain ⟨rest, hrest⟩ := rdropWhile_prefix p (s.dropWhile p)
    cases htrim : s.trim p with
    | nil =>
      rw [htrim] at hx
      cases hx
    | cons y t =>
      rw [htrim] at hx
      obtain rfl := Option.some.inj hx
      rw [← trim, htrim, cons_append] at hrest
      have hne : s.dropWhile p ≠ [] := by simp [← hrest]
      have hhead := head_dropWhile_not p hne
      simpa [← hrest] using hhead
  · intro x hx
    have hne : s.trim p ≠ [] := by
      intro h
      rw [h] at hx
      cases hx
    rw [getLast?_eq_some_getLast hne] at hx
    obtain rfl := Option.some.inj hx
    exact Bool.eq_false_iff.mpr (rdropWhile_last_not p _ hne)

/-- Nothing is trimmed from a list whose ends do not satisfy the test. -/
lemma trim_eq_self (hhead : ∀ x ∈ s.head?, p x = false) (hlast : ∀ x ∈ s.getLast?, p x = false) :
    s.trim p = s := by
  have hdrop : s.dropWhile p = s := by
    cases s with
    | nil => rfl
    | cons y s => exact dropWhile_cons_of_neg (by simp [hhead y rfl])
  rw [trim, hdrop, rdropWhile_eq_self_iff]
  intro hne
  simpa using hlast _ (getLast?_eq_some_getLast hne)

@[simp] lemma trim_trim (s : List α) : (s.trim p).trim p = s.trim p :=
  trim_eq_self (ends_trim s).1 (ends_trim s).2

end List

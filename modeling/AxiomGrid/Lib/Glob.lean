import Mathlib.Data.List.Basic
import Mathlib.Data.List.Infix

/-!
# Glob patterns

A pattern over any alphabet, with one letter that stands for every text. The pattern has to match the
whole text.
-/

namespace Glob

variable {α : Type*} [DecidableEq α] (star : α)

/-- A text that a pattern matches. -/
def Matches : List α → List α → Prop
  | [], text => text = []
  | c :: pattern, text =>
    if c = star then ∃ front rest, text = front ++ rest ∧ Matches pattern rest
    else ∃ rest, text = c :: rest ∧ Matches pattern rest

variable {star}

lemma matches_star_cons {pattern text : List α} :
    Matches star (star :: pattern) text ↔
      ∃ front rest, text = front ++ rest ∧ Matches star pattern rest := by
  rw [Matches, if_pos rfl]

lemma matches_letter_cons {c : α} (hc : c ≠ star) {pattern text : List α} :
    Matches star (c :: pattern) text ↔ ∃ rest, text = c :: rest ∧ Matches star pattern rest := by
  rw [Matches, if_neg hc]

/-- Two patterns one after the other match the texts that are cut between them. -/
lemma matches_append {p q text : List α} :
    Matches star (p ++ q) text ↔ ∃ a b, text = a ++ b ∧ Matches star p a ∧ Matches star q b := by
  induction p generalizing text with
  | nil =>
    constructor
    · exact fun h => ⟨[], text, rfl, rfl, h⟩
    · rintro ⟨_, b, rfl, rfl, h⟩
      exact h
  | cons c p ih =>
    by_cases hc : c = star
    · subst hc
      rw [List.cons_append, matches_star_cons]
      constructor
      · rintro ⟨front, rest, rfl, h⟩
        obtain ⟨a, b, rfl, ha, hb⟩ := ih.mp h
        exact ⟨front ++ a, b, by simp, matches_star_cons.mpr ⟨front, a, rfl, ha⟩, hb⟩
      · rintro ⟨a, b, rfl, ha, hb⟩
        obtain ⟨front, rest, rfl, hrest⟩ := matches_star_cons.mp ha
        exact ⟨front, rest ++ b, by simp, ih.mpr ⟨rest, b, rfl, hrest, hb⟩⟩
    · rw [List.cons_append, matches_letter_cons hc]
      constructor
      · rintro ⟨rest, rfl, h⟩
        obtain ⟨a, b, rfl, ha, hb⟩ := ih.mp h
        exact ⟨c :: a, b, rfl, (matches_letter_cons hc).mpr ⟨a, rfl, ha⟩, hb⟩
      · rintro ⟨a, b, rfl, ha, hb⟩
        obtain ⟨rest, rfl, hrest⟩ := (matches_letter_cons hc).mp ha
        exact ⟨rest ++ b, rfl, ih.mpr ⟨rest, b, rfl, hrest, hb⟩⟩

/-- A pattern without the star matches itself. -/
lemma matches_literal {t : List α} (h : star ∉ t) {text : List α} : Matches star t text ↔ text = t := by
  induction t generalizing text with
  | nil => exact Iff.rfl
  | cons c t ih =>
    rw [List.mem_cons, not_or] at h
    simp only [matches_letter_cons (Ne.symm h.1), ih h.2]
    constructor
    · rintro ⟨_, rfl, rfl⟩
      rfl
    · rintro rfl
      exact ⟨t, rfl, rfl⟩

/-- Stars match every text. -/
lemma matches_stars (n : ℕ) (text : List α) : Matches star (List.replicate (n + 1) star) text := by
  induction n with
  | zero => exact matches_star_cons.mpr ⟨text, [], by simp, rfl⟩
  | succ n ih => exact matches_star_cons.mpr ⟨[], text, rfl, ih⟩

/-- A star may stand for no text. -/
lemma matches_filter (pattern : List α) :
    Matches star pattern (pattern.filter fun c => decide (c ≠ star)) := by
  induction pattern with
  | nil => rfl
  | cons c pattern ih =>
    by_cases hc : c = star
    · rw [List.filter_cons_of_neg (by simpa using hc), hc]
      exact matches_star_cons.mpr ⟨[], _, rfl, ih⟩
    · rw [List.filter_cons_of_pos (by simpa using hc)]
      exact (matches_letter_cons hc).mpr ⟨_, rfl, ih⟩

lemma matches_stars_append (n : ℕ) {t text : List α} (h : star ∉ t) :
    Matches star (List.replicate (n + 1) star ++ t) text ↔ t <:+ text := by
  rw [matches_append]
  constructor
  · rintro ⟨a, b, rfl, -, hb⟩
    rw [(matches_literal h).mp hb]
    exact List.suffix_append a t
  · rintro ⟨a, rfl⟩
    exact ⟨a, t, rfl, matches_stars n a, (matches_literal h).mpr rfl⟩

lemma isPrefix_of_matches {p t text : List α} (h : star ∉ t) (hm : Matches star (t ++ p) text) :
    t <+: text := by
  obtain ⟨a, b, rfl, ha, -⟩ := matches_append.mp hm
  rw [(matches_literal h).mp ha]
  exact List.prefix_append t b

lemma matches_stars_append_stars (m n : ℕ) {t text : List α} (h : star ∉ t) :
    Matches star (List.replicate (m + 1) star ++ t ++ List.replicate (n + 1) star) text ↔
      t <:+: text := by
  rw [matches_append]
  simp only [matches_stars_append m h, matches_stars, and_true]
  constructor
  · rintro ⟨_, b, rfl, a, rfl⟩
    exact ⟨a, b, rfl⟩
  · rintro ⟨a, b, rfl⟩
    exact ⟨a ++ t, b, rfl, List.suffix_append a t⟩

end Glob

import Mathlib.Data.List.MinMax
import Mathlib.Tactic.Common

/-!
# Tables of words

A text is compared with the words of a table in order, and the first word it begins with is taken. If no
word is the beginning of a later one, this is the longest word that the text begins with.
-/

namespace PrefixTable

variable {α κ : Type*} [DecidableEq α] (word : κ → List α)

/-- The first entry whose word the text begins with. -/
def first (table : List κ) (text : List α) : Option κ :=
  table.find? fun k => (word k).isPrefixOf text

/-- No word is the beginning of a later one. -/
def LongestFirst (table : List κ) : Prop := table.Pairwise fun k k' => ¬ word k <+: word k'

instance (table : List κ) : Decidable (LongestFirst word table) :=
  inferInstanceAs (Decidable (table.Pairwise _))

variable {word} {table : List κ} {text : List α} {k : κ}

lemma of_first (h : first word table text = some k) : k ∈ table ∧ word k <+: text :=
  ⟨List.mem_of_find?_eq_some h, by simpa using List.find?_some h⟩

lemma first_eq_none : first word table text = none ↔ ∀ k ∈ table, ¬ word k <+: text := by
  simp [first]

/-- Every other word that the text begins with is shorter than the first one. -/
lemma length_lt_of_first (hordered : LongestFirst word table) (h : first word table text = some k)
    {k' : κ} (hk' : k' ∈ table) (hbegins : word k' <+: text) :
    k' = k ∨ (word k').length < (word k).length := by
  induction table with
  | nil => cases hk'
  | cons head table ih =>
    obtain ⟨hhead, htail⟩ := List.pairwise_cons.mp hordered
    rw [first, List.find?_cons] at h
    cases hmatch : (word head).isPrefixOf text with
    | true =>
      rw [hmatch] at h
      obtain rfl := Option.some.inj h
      rcases List.mem_cons.mp hk' with rfl | hlater
      · exact .inl rfl
      · -- both begin the text, and the earlier one does not begin the later one
        refine .inr (lt_of_not_ge fun hle => hhead k' hlater ?_)
        exact List.prefix_of_prefix_length_le (List.isPrefixOf_iff_prefix.mp hmatch) hbegins hle
    | false =>
      rw [hmatch] at h
      rcases List.mem_cons.mp hk' with rfl | hlater
      · rw [← List.isPrefixOf_iff_prefix, hmatch] at hbegins
        cases hbegins
      · exact ih htail h hlater

/-- The first entry is the longest of those that the text begins with and a test accepts, if the test
accepts it. -/
lemma argmax_of_first (hordered : LongestFirst word table) (h : first word table text = some k)
    {p : κ → Bool} (hp : p k = true) :
    (table.filter fun k => (word k).isPrefixOf text && p k).argmax (fun k => (word k).length) =
      some k := by
  obtain ⟨hmem, hbegins⟩ := of_first h
  have hin : k ∈ table.filter fun k => (word k).isPrefixOf text && p k := by
    simp [hmem, hbegins, hp]
  cases hmax : (table.filter fun k => (word k).isPrefixOf text && p k).argmax
      (fun k => (word k).length) with
  | none =>
    rw [List.argmax_eq_none] at hmax
    rw [hmax] at hin
    cases hin
  | some best =>
    have hbest := List.argmax_mem hmax
    simp only [List.mem_filter, Bool.and_eq_true, List.isPrefixOf_iff_prefix] at hbest
    rcases length_lt_of_first hordered h hbest.1 hbest.2.1 with rfl | hshort
    · rfl
    · exact absurd (List.le_of_mem_argmax hin hmax) hshort.not_ge

end PrefixTable

import Mathlib.Data.List.DropRight

/-!
# Words of a text

The words of a list are its longest pieces without a separator. They are taken apart wherever the list
is cut outside of them, and dropping the last word and what follows it drops the last of the words.
-/

namespace Words

variable {α : Type*} (sep : α → Bool)

/-- `s.split_whitespace()`, where `sep` holds of the separators. -/
def words (s : List α) : List (List α) := (s.splitOnP sep).filter (· ≠ [])

/-- A cut between two lists that does not go through a word. -/
def Between (a b : List α) : Prop := (∀ x ∈ a.getLast?, sep x = true) ∨ ∀ x ∈ b.head?, sep x = true

variable {sep} {a b s w : List α} {x : α}

@[simp] lemma words_nil : words sep ([] : List α) = [] := rfl

lemma words_append_cons (hx : sep x = true) (a b : List α) :
    words sep (a ++ x :: b) = words sep a ++ words sep b := by
  rw [words, List.splitOnP_append_cons a b hx, List.filter_append]
  rfl

lemma words_cons (hx : sep x = true) (b : List α) : words sep (x :: b) = words sep b := by
  simpa using words_append_cons hx [] b

lemma words_concat (hx : sep x = true) (a : List α) : words sep (a ++ [x]) = words sep a := by
  simpa using words_append_cons hx a []

lemma words_of_forall_sep (h : ∀ x ∈ s, sep x = true) : words sep s = [] := by
  induction s with
  | nil => rfl
  | cons x s ih =>
    rw [List.forall_mem_cons] at h
    rw [words_cons h.1, ih h.2]

/-- One word. -/
lemma words_of_forall_not_sep (hne : w ≠ []) (h : ∀ x ∈ w, sep x = false) : words sep w = [w] := by
  rw [words, List.splitOnP_eq_singleton h, List.filter_singleton]
  simp [hne]

lemma between_nil_left : Between sep [] b := .inl (by simp)

lemma between_nil_right : Between sep a [] := .inr (by simp)

lemma words_append (h : Between sep a b) : words sep (a ++ b) = words sep a ++ words sep b := by
  obtain h | h := h
  · obtain rfl | ⟨a, x, rfl⟩ := a.eq_nil_or_concat'
    · rfl
    · have hx : sep x = true := h x (by simp)
      rw [List.append_assoc, List.singleton_append, words_append_cons hx, words_concat hx]
  · cases b with
    | nil => simp
    | cons x b =>
      have hx : sep x = true := h x rfl
      rw [words_append_cons hx, words_cons hx]

/-! ### From the end -/

/-- What is left where the last word, or the separators at the end, are dropped ends at a cut. -/
lemma getLast?_rdropWhile (p : α → Bool) (s : List α) :
    ∀ x ∈ (s.rdropWhile p).getLast?, p x = false := by
  intro x hx
  obtain ⟨hne, rfl⟩ := List.mem_getLast?_eq_getLast hx
  exact Bool.eq_false_iff.mpr (List.rdropWhile_last_not p s hne)

/-- Dropping the separators at the end keeps the words. -/
lemma words_rdropWhile_sep (s : List α) : words sep (s.rdropWhile sep) = words sep s := by
  have hend : ∀ x ∈ s.rtakeWhile sep, sep x = true := fun x hx => by
    rw [List.rtakeWhile, List.mem_reverse] at hx
    exact List.mem_takeWhile_imp hx
  have hcut : Between sep (s.rdropWhile sep) (s.rtakeWhile sep) :=
    .inr fun x hx => hend x (List.mem_of_mem_head? hx)
  have hwords := words_append hcut
  rw [List.rdropWhile_append_rtakeWhile, words_of_forall_sep hend, List.append_nil] at hwords
  exact hwords.symm

/-- A list that ends with a word: what is before it, and the word. -/
lemma words_eq_concat (hne : s ≠ []) (hlast : ∀ x ∈ s.getLast?, sep x = false) :
    words sep s =
      words sep (s.rdropWhile fun x => !sep x) ++ [s.rtakeWhile fun x => !sep x] := by
  have hword : ∀ x ∈ s.rtakeWhile fun x => !sep x, sep x = false := fun x hx => by
    rw [List.rtakeWhile, List.mem_reverse] at hx
    simpa using List.mem_takeWhile_imp hx
  have hcut : Between sep (s.rdropWhile fun x => !sep x) (s.rtakeWhile fun x => !sep x) :=
    .inl fun x hx => by simpa using getLast?_rdropWhile (fun x => !sep x) s x hx
  have htake : (s.rtakeWhile fun x => !sep x) ≠ [] := by
    rw [Ne, List.rtakeWhile_eq_nil_iff]
    intro h
    exact h hne (by simpa using hlast _ (List.getLast_mem_getLast? hne))
  rw [← words_of_forall_not_sep htake hword, ← words_append hcut,
    List.rdropWhile_append_rtakeWhile]

/-- Dropping the separators at the end, and then the last word. -/
theorem words_dropLast (s : List α) :
    words sep ((s.rdropWhile sep).rdropWhile fun x => !sep x) = (words sep s).dropLast := by
  rw [← words_rdropWhile_sep s]
  by_cases hnil : s.rdropWhile sep = []
  · rw [hnil]
    rfl
  · rw [words_eq_concat hnil (getLast?_rdropWhile sep s), List.dropLast_concat]

/-! ### From the start -/

variable (sep) in
/-- The first word with the separators before it and the one behind it. -/
def firstWord (s : List α) : List α :=
  let rest := s.dropWhile sep
  s.takeWhile sep ++ rest.takeWhile (fun x => !sep x) ++ (rest.dropWhile fun x => !sep x).take 1

lemma head?_dropWhile (p : α → Bool) (s : List α) :
    ∀ x ∈ (s.dropWhile p).head?, p x = false := by
  intro x hx
  have hhead := List.head?_dropWhile_not p s
  rw [hx] at hhead
  exact hhead

variable (sep) in
/-- A text is its first word, as far as there is one, and what follows it. -/
lemma firstWord_spec (s : List α) :
    ∃ v w rest, s = v ++ w ++ rest ∧ (∀ x ∈ v, sep x = true) ∧ (∀ x ∈ w, sep x = false) ∧
      (∀ x ∈ rest.head?, sep x = true) ∧ (w = [] → rest = []) ∧
      firstWord sep s = v ++ w ++ rest.take 1 := by
  refine ⟨s.takeWhile sep, (s.dropWhile sep).takeWhile fun x => !sep x,
    (s.dropWhile sep).dropWhile fun x => !sep x, ?_, fun x hx => List.mem_takeWhile_imp hx,
    fun x hx => by simpa using List.mem_takeWhile_imp hx, fun x hx => ?_, fun hnil => ?_, rfl⟩
  · rw [List.append_assoc, List.takeWhile_append_dropWhile, List.takeWhile_append_dropWhile]
  · simpa using head?_dropWhile _ _ x hx
  · cases hrest : s.dropWhile sep with
    | nil => rfl
    | cons c cs =>
      have hc : sep c = false := head?_dropWhile sep s c (by rw [hrest]; rfl)
      simp [hrest, hc] at hnil

/-- The first word and what follows it, where what follows begins with a separator. -/
lemma words_first {v w rest : List α} (hv : ∀ x ∈ v, sep x = true) (hw : ∀ x ∈ w, sep x = false)
    (hrest : ∀ x ∈ rest.head?, sep x = true) :
    words sep (v ++ w ++ rest) = (if w = [] then [] else [w]) ++ words sep rest := by
  have hvw : Between sep v (w ++ rest) := .inl fun x hx => hv x (List.mem_of_getLast? hx)
  rw [List.append_assoc, words_append hvw, words_of_forall_sep hv, List.nil_append,
    words_append (.inr hrest)]
  split_ifs with hempty
  · rw [hempty]
    rfl
  · rw [words_of_forall_not_sep hempty hw]

/-- The separator behind the first word. -/
lemma words_append_take_one {rest : List α} (hrest : ∀ x ∈ rest.head?, sep x = true) (s : List α) :
    words sep (s ++ rest.take 1) = words sep s := by
  cases rest with
  | nil => rw [List.take_nil, List.append_nil]
  | cons c cs => exact words_concat (hrest c rfl) s

lemma words_firstWord (s : List α) : words sep (firstWord sep s) = (words sep s).take 1 := by
  obtain ⟨v, w, rest, rfl, hv, hw, hrest, hnil, hfirst⟩ := firstWord_spec sep s
  have hword := @words_first α sep v w [] hv hw (by simp)
  rw [List.append_nil, words_nil, List.append_nil] at hword
  rw [hfirst, words_append_take_one hrest, hword, words_first hv hw hrest]
  split_ifs with hempty
  · rw [hnil hempty]
    rfl
  · rfl

/-- What is added to the last word makes no word of its own. -/
lemma length_words_append {a w : List α} (hne : a ≠ []) (hlast : ∀ x ∈ a.getLast?, sep x = false)
    (hw : ∀ x ∈ w, sep x = false) : (words sep (a ++ w)).length = (words sep a).length := by
  have hdrop : (a ++ w).rdropWhile (fun x => !sep x) = a.rdropWhile fun x => !sep x := by
    rw [List.rdropWhile, List.rdropWhile, List.reverse_append, List.dropWhile_append_of_pos]
    simpa using hw
  have hlast' : ∀ x ∈ (a ++ w).getLast?, sep x = false := by
    intro x hx
    rw [List.getLast?_append, Option.mem_def, Option.or_eq_some_iff] at hx
    exact hx.elim (fun hx => hw x (List.mem_of_getLast? hx)) fun hx => hlast x hx.2
  rw [words_eq_concat (by simp [hne]) hlast', words_eq_concat hne hlast, hdrop, List.length_append,
    List.length_append]
  rfl

variable (sep) in
/-- The cut behind the first word. -/
lemma firstWord_cut (s : List α) :
    ∃ t, s = firstWord sep s ++ t ∧
      (t = [] ∨ ∃ x, (firstWord sep s).getLast? = some x ∧ sep x = true) := by
  obtain ⟨v, w, rest, hs, -, -, hrest, -, hfirst⟩ := firstWord_spec sep s
  refine ⟨rest.drop 1, by rw [hfirst, List.append_assoc, List.take_append_drop, hs], ?_⟩
  cases rest with
  | nil => exact .inl rfl
  | cons c cs =>
    refine .inr ⟨c, ?_, hrest c rfl⟩
    rw [hfirst, List.take_one, List.head?_cons, Option.toList_some, List.getLast?_concat]

/-- Adding the first word of a text adds it to the words exactly when the cut before it does not go
through a word. -/
theorem words_append_firstWord_iff {a b : List α} :
    words sep (a ++ firstWord sep b) = words sep a ++ (words sep b).take 1 ↔ Between sep a b := by
  obtain ⟨t, hb, -⟩ := firstWord_cut sep b
  constructor
  · intro h
    by_contra hcut
    simp only [Between, not_or, not_forall, Bool.not_eq_true] at hcut
    obtain ⟨⟨x, hx, hlast⟩, y, hy, hhead⟩ := hcut
    have hne : a ≠ [] := by
      rintro rfl
      cases hx
    have hlast' : ∀ z ∈ a.getLast?, sep z = false := by
      intro z hz
      rw [hx] at hz
      exact Option.some.inj hz ▸ hlast
    obtain ⟨v, w, rest, hs, hv, hw, hrest, hnil, hfirst⟩ := firstWord_spec sep b
    have hvnil : v = [] := by
      cases v with
      | nil => rfl
      | cons c v =>
        rw [hs] at hy
        rw [← Option.some.inj hy, hv c List.mem_cons_self] at hhead
        cases hhead
    have hwne : w ≠ [] := by
      rintro rfl
      rw [hs, hvnil, hnil rfl] at hy
      cases hy
    -- the first word of `b` goes into the last word of `a`
    rw [hfirst, hs, words_first hv hw hrest, if_neg hwne, hvnil, List.nil_append, ← List.append_assoc,
      words_append_take_one hrest] at h
    have hlength := congrArg List.length h
    rw [length_words_append hne hlast' hw] at hlength
    simp at hlength
  · intro h
    rw [← words_firstWord]
    refine words_append (h.imp_right fun hhead x hx => hhead x ?_)
    rw [hb]
    cases hfirst : firstWord sep b with
    | nil => simp [hfirst] at hx
    | cons c cs => simpa [hfirst] using hx

end Words

import Mathlib.Data.List.DropRight
import AxiomGrid.Lib.Dict
import AxiomGrid.Lib.Glob
import AxiomGrid.Lib.PyStr

/-!
# File permissions of agents

`RbacTable` of `phantom-core/src/identity.rs`: each agent is granted some patterns, and it may touch
the paths that one of them matches. `glob_match` does not match patterns: it tests for the end of a
path if the pattern begins with `*.`, and otherwise for a part of it, with the stars at the two ends
of the pattern taken off.

It agrees with globbing for the patterns that are `Plain` and for no others.
-/

namespace AxiomGrid.Phantom.Rbac

/-! ### The table -/

/-- `RbacTable`. -/
structure RbacTable where
  rules : Dict String (List String)

/-- `RbacTable::new`. -/
def RbacTable.new : RbacTable := ⟨[]⟩

/-- `RbacTable::allow`. -/
def RbacTable.allow (table : RbacTable) (agentId : String) (patterns : List String) : RbacTable :=
  ⟨table.rules.set agentId ((table.rules.get? agentId).getD [] ++ patterns)⟩

/-- `pattern.trim_matches('*')`. -/
def trimStars (pattern : Str) : Str := (pattern.dropWhile (· == '*')).rdropWhile (· == '*')

/-- `glob_match`. -/
def globMatch (pattern path : String) : Bool :=
  if pattern = "*" ∨ pattern = "**" then true
  else if "*.".toList.isPrefixOf pattern.toList then pattern.toList.tail.isSuffixOf path.toList
  else Str.contains (trimStars pattern.toList) path.toList

/-- `RbacTable::is_allowed`. -/
def RbacTable.isAllowed (table : RbacTable) (agentId filePath : String) : Bool :=
  match table.rules.get? agentId with
  | none => false
  | some patterns => patterns.any fun pattern => globMatch pattern filePath

/-- The table behind some calls of `allow`. -/
def tableOf (calls : List (String × List String)) : RbacTable :=
  calls.foldl (fun table call => table.allow call.1 call.2) RbacTable.new

/-- The patterns that the calls grant to an agent. -/
def granted (calls : List (String × List String)) (agentId : String) : List String :=
  (calls.filter fun call => call.1 = agentId).flatMap Prod.snd

lemma getD_rules_tableOf (calls : List (String × List String)) (agentId : String) :
    ((tableOf calls).rules.get? agentId).getD [] = granted calls agentId := by
  induction calls using List.reverseRecOn with
  | nil => rfl
  | append_singleton calls call ih =>
    rw [tableOf, List.foldl_append, List.foldl_cons, List.foldl_nil, granted, List.filter_append,
      List.flatMap_append, ← granted, ← tableOf, RbacTable.allow, Dict.get?_set]
    split_ifs with hagent
    · rw [hagent, Option.getD_some, ih]
      simp [hagent]
    · rw [ih]
      simp [hagent]

/-- A path is allowed if one of the patterns that were granted to the agent passes the test. -/
lemma isAllowed_tableOf (calls : List (String × List String)) (agentId filePath : String) :
    (tableOf calls).isAllowed agentId filePath = true ↔
      ∃ pattern ∈ granted calls agentId, globMatch pattern filePath = true := by
  rw [← getD_rules_tableOf, RbacTable.isAllowed]
  cases (tableOf calls).rules.get? agentId <;> simp

/-! ### Patterns -/

/-- The test of `glob_match`. -/
def Passes (pattern path : Str) : Prop :=
  if ['*', '.'] <+: pattern then pattern.tail <:+ path else trimStars pattern <:+: path

lemma trimStars_replicate (n : ℕ) : trimStars (List.replicate n '*') = [] := by
  have hall : ∀ c ∈ List.replicate n '*', (c == '*') = true := by
    simp
  rw [trimStars, List.dropWhile_eq_nil_iff.mpr hall, List.rdropWhile_nil]

lemma trimStars_literal (m n : ℕ) {t : Str} (hne : t ≠ []) (h : '*' ∉ t) :
    trimStars (List.replicate m '*' ++ t ++ List.replicate n '*') = t := by
  have hfront : ∀ c ∈ List.replicate m '*', (c == '*') = true := by
    simp
  have hback : (t ++ List.replicate n '*').rdropWhile (· == '*') = t := by
    induction n with
    | zero =>
      rw [List.replicate_zero, List.append_nil, List.rdropWhile_eq_self_iff]
      intro ht hstar
      exact h (by simpa [beq_iff_eq.mp hstar] using List.getLast_mem ht)
    | succ n ih =>
      rw [List.replicate_succ', ← List.append_assoc, List.rdropWhile_concat_pos _ _ _ (by simp), ih]
  obtain ⟨c, t, rfl⟩ := List.exists_cons_of_ne_nil hne
  have hc : (c == '*') = false := by
    simp only [List.mem_cons, not_or] at h
    simpa using Ne.symm h.1
  rw [trimStars, List.append_assoc, List.dropWhile_append_of_pos hfront, List.cons_append,
    List.dropWhile_cons, hc, if_neg Bool.false_ne_true, ← List.cons_append, hback]

/-- A pattern is what is left of it with stars around it. -/
lemma exists_stars (pattern : Str) :
    ∃ m n, pattern = List.replicate m '*' ++ trimStars pattern ++ List.replicate n '*' := by
  let front := pattern.takeWhile (· == '*')
  let back := (pattern.dropWhile (· == '*')).rtakeWhile (· == '*')
  have hfront : front = List.replicate front.length '*' := by
    apply List.eq_replicate_of_mem
    intro c hc
    simpa using List.mem_takeWhile_imp (p := fun x => x == '*') hc
  have hback : back = List.replicate back.length '*' := by
    apply List.eq_replicate_of_mem
    intro c hc
    simpa using List.mem_rtakeWhile_imp (p := fun x => x == '*') hc
  refine ⟨front.length, back.length, ?_⟩
  rw [← hfront, ← hback, trimStars, List.append_assoc, List.rdropWhile_append_rtakeWhile,
    List.takeWhile_append_dropWhile]

lemma globMatch_iff {pattern path : String} :
    globMatch pattern path = true ↔ Passes pattern.toList path.toList := by
  rw [globMatch, Passes]
  by_cases hstars : pattern = "*" ∨ pattern = "**"
  · obtain ⟨n, hn⟩ : ∃ n, pattern.toList = List.replicate n '*' := by
      rcases hstars with rfl | rfl
      · exact ⟨1, rfl⟩
      · exact ⟨2, rfl⟩
    have hdot : ¬['*', '.'] <+: pattern.toList := by
      intro h
      have hmem : '.' ∈ pattern.toList := h.subset (by simp)
      rw [hn] at hmem
      exact absurd (List.eq_of_mem_replicate hmem) (by decide)
    rw [if_pos hstars, if_neg hdot, hn, trimStars_replicate]
    simp
  · rw [if_neg hstars]
    split_ifs with h h' h'
    · exact List.isSuffixOf_iff_suffix
    · exact absurd (List.isPrefixOf_iff_prefix.mp h) h'
    · exact absurd (List.isPrefixOf_iff_prefix.mpr h') h
    · exact Str.contains_iff

/-- The patterns that `glob_match` reads as globbing does: stars alone, the end of a path behind `*.`,
and a part of a path between stars. -/
inductive Plain : Str → Prop
  | stars (n : ℕ) : Plain (List.replicate (n + 1) '*')
  | extension {t : Str} : '*' ∉ t → Plain ('*' :: '.' :: t)
  | part (m n : ℕ) {t : Str} : t ≠ [] → '*' ∉ t → (m = 0 → t.head? ≠ some '.') →
    Plain (List.replicate (m + 1) '*' ++ t ++ List.replicate (n + 1) '*')

lemma not_dot_prefix (m : ℕ) {t : Str} (ht : t.head? ≠ some '.' ∨ m ≠ 0) :
    ¬['*', '.'] <+: List.replicate (m + 1) '*' ++ t := by
  cases m with
  | zero =>
    rintro ⟨rest, hrest⟩
    cases hrest
    simp at ht
  | succ m =>
    rintro ⟨rest, ⟨⟩⟩

/-- A plain pattern passes the test on the paths that it matches. -/
lemma passes_iff_of_plain {pattern : Str} (h : Plain pattern) (path : Str) :
    Passes pattern path ↔ Glob.Matches '*' pattern path := by
  cases h with
  | stars n =>
    have hdot := not_dot_prefix n (t := []) (.inl (by simp))
    rw [List.append_nil] at hdot
    rw [Passes, if_neg hdot, trimStars_replicate]
    simp [Glob.matches_stars]
  | @extension t ht =>
    have hdot : ['*', '.'] <+: '*' :: '.' :: t := ⟨t, rfl⟩
    have ht' : '*' ∉ '.' :: t := by simpa using ht
    rw [Passes, if_pos hdot]
    exact (Glob.matches_stars_append 0 ht').symm
  | @part m n t hne ht hdot =>
    have hhead : (t ++ List.replicate (n + 1) '*').head? = t.head? := by
      obtain ⟨c, t, rfl⟩ := List.exists_cons_of_ne_nil hne
      rfl
    have hprefix := not_dot_prefix m (t := t ++ List.replicate (n + 1) '*') <| by
      rw [hhead]
      exact (Classical.em (m = 0)).imp hdot id
    rw [← List.append_assoc] at hprefix
    rw [Passes, if_neg hprefix, trimStars_literal _ _ hne ht, Glob.matches_stars_append_stars m n ht]

/-- A path without a star on which a test for a text with a star fails. -/
lemma not_passes_filter {pattern : Str} (h : Passes pattern (pattern.filter fun c => decide (c ≠ '*'))) :
    if ['*', '.'] <+: pattern then '*' ∉ pattern.tail else '*' ∉ trimStars pattern := by
  have hno : '*' ∉ pattern.filter fun c => decide (c ≠ '*') := by
    simp
  rw [Passes] at h
  split_ifs at h ⊢ with hdot
  · exact fun hmem => hno (h.subset hmem)
  · exact fun hmem => hno (h.subset hmem)

lemma exists_ne_char (c : Char) : ∃ d : Char, d ≠ c := by
  by_cases hc : c = 'a'
  · exact ⟨'b', by simp [hc]⟩
  · exact ⟨'a', Ne.symm hc⟩

/-- A pattern that does not begin with a star: the test ignores what stands before its text. -/
lemma not_forall_of_front {t p : Str} (ht : '*' ∉ t) (hne : t ≠ []) :
    ¬∀ path, t <:+: path ↔ Glob.Matches '*' (List.replicate 0 '*' ++ t ++ p) path := by
  intro h
  obtain ⟨c, t, rfl⟩ := List.exists_cons_of_ne_nil hne
  obtain ⟨d, hd⟩ := exists_ne_char c
  have hmatch := (h (d :: c :: t)).mp (List.suffix_cons d (c :: t)).isInfix
  obtain ⟨rest, hrest⟩ := Glob.isPrefix_of_matches ht hmatch
  rw [List.cons_append, List.cons.injEq] at hrest
  exact hd hrest.1.symm

/-- A pattern that does not end with a star: the test ignores what stands behind its text. -/
lemma not_forall_of_back (m : ℕ) {t : Str} (ht : '*' ∉ t) (hne : t ≠ []) :
    ¬∀ path, t <:+: path ↔
      Glob.Matches '*' (List.replicate (m + 1) '*' ++ t ++ List.replicate 0 '*') path := by
  intro h
  obtain ⟨d, hd⟩ := exists_ne_char (t.getLast hne)
  have hmatch := (h (t ++ [d])).mp (List.prefix_append t [d]).isInfix
  rw [List.replicate_zero, List.append_nil, Glob.matches_stars_append m ht] at hmatch
  obtain ⟨front, hfront⟩ := hmatch
  have hlast := congrArg List.getLast? hfront
  rw [List.getLast?_append_of_ne_nil _ hne, List.getLast?_concat, List.getLast?_eq_some_getLast hne,
    Option.some.injEq] at hlast
  exact hd hlast.symm

/-- The patterns with which the test agrees with globbing on every path are plain. -/
lemma plain_of_passes_iff {pattern : Str}
    (h : ∀ path, Passes pattern path ↔ Glob.Matches '*' pattern path) : Plain pattern := by
  -- The path that is left when every star stands for nothing rules out a star in the tested text.
  have hno := not_passes_filter ((h _).mpr (Glob.matches_filter pattern))
  by_cases hdot : ['*', '.'] <+: pattern
  · rw [if_pos hdot] at hno
    obtain ⟨t, rfl⟩ := hdot
    exact .extension fun hmem => hno (by simpa using hmem)
  · rw [if_neg hdot] at hno
    simp only [Passes, if_neg hdot] at h
    obtain ⟨m, n, hpattern⟩ := exists_stars pattern
    generalize ht : trimStars pattern = t at h hno hpattern
    subst hpattern
    by_cases hne : t = []
    · subst hne
      rw [List.append_nil, List.replicate_append_replicate] at h ⊢
      cases hmn : m + n with
      | zero =>
        rw [hmn] at h
        have hempty := (h ['a']).mp (List.nil_infix)
        cases hempty
      | succ k => exact .stars k
    · cases m with
      | zero => exact absurd h (not_forall_of_front hno hne)
      | succ m =>
        cases n with
        | zero => exact absurd h (not_forall_of_back m hno hne)
        | succ n =>
          refine .part m n hne hno ?_
          rintro rfl hhead
          obtain ⟨t, rfl⟩ := List.head?_eq_some_iff.mp hhead
          exact hdot ⟨t ++ List.replicate (n + 1) '*', rfl⟩

/-! ### Permissions -/

/-- Some pattern that was granted to the agent matches the whole path. -/
def GlobAllowed (calls : List (String × List String)) (agentId filePath : String) : Prop :=
  ∃ pattern ∈ granted calls agentId, Glob.Matches '*' pattern.toList filePath.toList

/-- An agent with plain patterns alone may touch the paths that its patterns match, and a pattern
grants exactly the paths that it matches only if it is plain. -/
theorem isAllowed_iff_glob (agentId : String) :
    (∀ calls, (∀ pattern ∈ granted calls agentId, Plain pattern.toList) →
      ∀ filePath, (tableOf calls).isAllowed agentId filePath = true ↔
        GlobAllowed calls agentId filePath) ∧
      ∀ pattern : String,
        (∀ filePath, (tableOf [(agentId, [pattern])]).isAllowed agentId filePath = true ↔
          GlobAllowed [(agentId, [pattern])] agentId filePath) ↔ Plain pattern.toList := by
  have hplain (calls : List (String × List String))
      (h : ∀ pattern ∈ granted calls agentId, Plain pattern.toList) (filePath : String) :
      (tableOf calls).isAllowed agentId filePath = true ↔ GlobAllowed calls agentId filePath := by
    rw [isAllowed_tableOf, GlobAllowed]
    refine exists_congr fun pattern => and_congr_right fun hmem => ?_
    rw [globMatch_iff, passes_iff_of_plain (h pattern hmem)]
  refine ⟨hplain, fun pattern => ?_⟩
  have hgranted : granted [(agentId, [pattern])] agentId = [pattern] := by
    simp [granted]
  constructor
  · intro h
    refine plain_of_passes_iff fun path => ?_
    have hpath := h (String.ofList path)
    rw [isAllowed_tableOf, GlobAllowed, hgranted] at hpath
    simpa [globMatch_iff] using hpath
  · intro h
    refine hplain _ ?_
    rw [hgranted, List.forall_mem_singleton]
    exact h

lemma plain_extension : Plain "*.md".toList := .extension (t := "md".toList) (by decide)

theorem isAllowed_iff_glob_extension :
    (∀ pattern ∈ granted [("known", ["*.md"])] "known", Plain pattern.toList) ∧
      ((tableOf [("known", ["*.md"])]).isAllowed "known" "notes.md" = true ↔
        GlobAllowed [("known", ["*.md"])] "known" "notes.md") := by
  have hplain : ∀ pattern ∈ granted [("known", ["*.md"])] "known", Plain pattern.toList := by
    intro pattern hmem
    have hpattern : pattern = "*.md" := by simpa [granted] using hmem
    rw [hpattern]
    exact plain_extension
  exact ⟨hplain, (isAllowed_iff_glob "known").1 _ hplain "notes.md"⟩

/-- The pattern of a folder grants a path that has the folder inside it. -/
theorem isAllowed_private_document :
    (tableOf [("known", ["/allowed/*"])]).isAllowed "known" "/private/allowed/document" = true ∧
      ¬GlobAllowed [("known", ["/allowed/*"])] "known" "/private/allowed/document" := by
  refine ⟨by decide, ?_⟩
  rintro ⟨pattern, hmem, hmatch⟩
  have hpattern : pattern = "/allowed/*" := by simpa [granted] using hmem
  subst hpattern
  have hprefix := Glob.isPrefix_of_matches (t := "/allowed/".toList) (p := ['*']) (by decide) hmatch
  exact absurd hprefix (by decide)

end AxiomGrid.Phantom.Rbac

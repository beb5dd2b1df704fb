import AxiomGrid.Lib.Regex

/-!
# Regular expressions with numbered groups

Patterns with several groups, references to what a group has matched, and repetition of a pattern.
Their parts without groups are the patterns of `Regex`. A group that a match fills holds a piece of the
text that was matched.
-/

namespace Regex

/-- Patterns with numbered groups. -/
inductive Grouped where
  /-- A pattern without groups. -/
  | plain (r : Pattern)
  | seq (r s : Grouped)
  | alt (r s : Grouped)
  /-- `r*`, or `r*?` when it is not greedy. -/
  | star (greedy : Bool) (r : Grouped)
  /-- The group of a number. -/
  | group (n : ℕ) (r : Grouped)
  /-- `\n`. -/
  | again (n : ℕ)

instance : Coe Pattern Grouped := ⟨.plain⟩

namespace Grouped

/-- One pattern after the other. -/
def concat : List Grouped → Grouped
  | [] => .plain .empty
  | [r] => r
  | r :: rs => .seq r (concat rs)

/-- `r₁|r₂|…`. -/
def oneOf : List Grouped → Grouped
  | [] => .plain (.char fun _ => false)
  | [r] => r
  | r :: rs => .alt r (oneOf rs)

/-- `r+`. -/
def plus (r : Grouped) : Grouped := .seq r (.star true r)

/-- `r?`. -/
def opt (r : Grouped) : Grouped := .alt r (.plain .empty)

end Grouped

/-- A position in a text, with the groups that are filled, the last one first. -/
structure Cursor where
  before : Str
  rest : Str
  groups : List (ℕ × Str) := []

/-- What a group holds. -/
def Cursor.group? (s : Cursor) (n : ℕ) : Option Str := s.groups.lookup n

/-- Up to `fuel` steps, each of which reads something. -/
def repeated (greedy : Bool) (step : Cursor → List Cursor) : ℕ → Cursor → List Cursor
  | 0, s => [s]
  | fuel + 1, s =>
    let more := ((step s).filter fun s' => s'.rest.length < s.rest.length).flatMap
      (repeated greedy step fuel)
    if greedy then more ++ [s] else s :: more

/-- The ways to match a pattern with groups at a position, in the order in which they are tried. -/
def walk : Grouped → Cursor → List Cursor
  | .plain r, s => (run r ⟨s.before, s.rest, none⟩).map fun t => ⟨t.before, t.rest, s.groups⟩
  | .seq r t, s => (walk r s).flatMap (walk t)
  | .alt r t, s => walk r s ++ walk t s
  | .star greedy r, s => repeated greedy (walk r) s.rest.length s
  | .group n r, s =>
    (walk r s).map fun s' =>
      { s' with groups := (n, s.rest.take (s.rest.length - s'.rest.length)) :: s'.groups }
  | .again n, s =>
    match s.group? n with
    | none => []
    | some g =>
      if g.isPrefixOf s.rest then [⟨g.reverse ++ s.before, s.rest.drop g.length, s.groups⟩] else []

/-- `re.fullmatch(r, s)`. -/
def fullmatch (r : Grouped) (s : Str) : Option Cursor :=
  (walk r ⟨[], s, []⟩).find? fun t => t.rest = []

/-- `re.match(r, s)`. -/
def matchGroups (r : Grouped) (s : Str) : Option Cursor := (walk r ⟨[], s, []⟩).head?

/-- The leftmost match from a position on. -/
def searchGroupsFrom (r : Grouped) (before : Str) : Str → Option Cursor
  | [] => (walk r ⟨before, [], []⟩).head?
  | c :: cs =>
    (walk r ⟨before, c :: cs, []⟩).head? <|> searchGroupsFrom r (c :: before) cs

/-- `re.search(r, s)`. -/
def searchGroups (r : Grouped) (s : Str) : Option Cursor := searchGroupsFrom r [] s

/-- The pattern matches the whole text. -/
def isFullmatch (r : Grouped) (s : Str) : Bool := (fullmatch r s).isSome

/-! ### What a group holds -/

/-- The step reads a text, of which the groups that it fills are pieces. -/
structure Steps (s s' : Cursor) (w : Str) : Prop where
  rest : s.rest = w ++ s'.rest
  groups : ∀ n g, (n, g) ∈ s'.groups → (n, g) ∈ s.groups ∨ g <:+: w

lemma Steps.refl (s : Cursor) : Steps s s [] := ⟨rfl, fun _ _ h => .inl h⟩

lemma Steps.trans {s s' s'' : Cursor} {w w' : Str} (h : Steps s s' w) (h' : Steps s' s'' w') :
    Steps s s'' (w ++ w') := by
  refine ⟨by rw [h.rest, h'.rest, List.append_assoc], fun n g hg => ?_⟩
  obtain hg | hg := h'.groups n g hg
  · exact (h.groups n g hg).imp_right fun hg => hg.trans (List.prefix_append _ _).isInfix
  · exact .inr (hg.trans (List.suffix_append _ _).isInfix)

lemma repeated_steps {greedy : Bool} {step : Cursor → List Cursor}
    (hstep : ∀ {s s'}, s' ∈ step s → ∃ w, Steps s s' w) {fuel : ℕ} {s s' : Cursor}
    (h : s' ∈ repeated greedy step fuel s) : ∃ w, Steps s s' w := by
  induction fuel generalizing s with
  | zero =>
    rw [repeated, List.mem_singleton] at h
    exact ⟨[], h ▸ Steps.refl s⟩
  | succ fuel ih =>
    have hcases : s' = s ∨ ∃ mid ∈ step s, s' ∈ repeated greedy step fuel mid := by
      rw [repeated] at h
      split_ifs at h
      · rw [List.mem_append, List.mem_singleton, List.mem_flatMap] at h
        obtain ⟨mid, hmid, hs'⟩ | h := h
        · exact .inr ⟨mid, List.mem_of_mem_filter hmid, hs'⟩
        · exact .inl h
      · rw [List.mem_cons, List.mem_flatMap] at h
        obtain h | ⟨mid, hmid, hs'⟩ := h
        · exact .inl h
        · exact .inr ⟨mid, List.mem_of_mem_filter hmid, hs'⟩
    obtain rfl | ⟨mid, hmid, hs'⟩ := hcases
    · exact ⟨[], Steps.refl s'⟩
    · obtain ⟨w, hw⟩ := hstep hmid
      obtain ⟨w', hw'⟩ := ih hs'
      exact ⟨w ++ w', hw.trans hw'⟩

/-- A match reads a piece of the text, and what its groups hold are pieces of that. -/
lemma walk_steps {r : Grouped} {s s' : Cursor} (h : s' ∈ walk r s) : ∃ w, Steps s s' w := by
  induction r generalizing s s' with
  | plain r =>
    rw [walk, List.mem_map] at h
    obtain ⟨t, ht, rfl⟩ := h
    obtain ⟨w, hw⟩ := run_reads ht
    exact ⟨w, hw.rest, fun _ _ h => .inl h⟩
  | seq r t ihr iht =>
    rw [walk, List.mem_flatMap] at h
    obtain ⟨mid, hmid, hs'⟩ := h
    obtain ⟨w, hw⟩ := ihr hmid
    obtain ⟨w', hw'⟩ := iht hs'
    exact ⟨w ++ w', hw.trans hw'⟩
  | alt r t ihr iht =>
    rw [walk, List.mem_append] at h
    exact h.elim ihr iht
  | star greedy r ih => exact repeated_steps (fun h => ih h) h
  | group n r ih =>
    rw [walk, List.mem_map] at h
    obtain ⟨mid, hmid, rfl⟩ := h
    obtain ⟨w, hw⟩ := ih hmid
    have htake : s.rest.take (s.rest.length - mid.rest.length) = w := by
      rw [hw.rest, List.length_append, Nat.add_sub_cancel, List.take_left]
    refine ⟨w, hw.rest, fun m g hg => ?_⟩
    obtain heq | hg := List.mem_cons.mp hg
    · rw [htake] at heq
      cases heq
      exact .inr (List.infix_refl _)
    · exact hw.groups m g hg
  | again n =>
    rw [walk] at h
    split at h
    · cases h
    · rename_i g hg
      split_ifs at h with hprefix
      · obtain ⟨t, ht⟩ := List.isPrefixOf_iff_prefix.mp hprefix
        rw [List.mem_singleton] at h
        refine ⟨g, ?_, fun m g' hg' => .inl (by rwa [h] at hg')⟩
        rw [h, ← ht, List.drop_left]
      · cases h

/-- A group of a walk from the start of a text is a piece of the text. -/
lemma infix_of_walk {r : Grouped} {before s : Str} {m : Cursor} (h : m ∈ walk r ⟨before, s, []⟩)
    {n : ℕ} {g : Str} (hg : m.group? n = some g) : g <:+: s := by
  obtain ⟨w, hw⟩ := walk_steps h
  have hmem : (n, g) ∈ m.groups := by
    obtain ⟨l, l', hsplit, -⟩ := List.lookup_eq_some_iff.mp hg
    rw [hsplit]
    simp
  obtain hnil | hpart := hw.groups n g hmem
  · cases hnil
  · exact hpart.trans ⟨[], m.rest, by rw [List.nil_append]; exact hw.rest.symm⟩

lemma infix_of_fullmatch {r : Grouped} {s : Str} {m : Cursor} (h : fullmatch r s = some m) {n : ℕ}
    {g : Str} (hg : m.group? n = some g) : g <:+: s :=
  infix_of_walk (List.mem_of_find?_eq_some h) hg

lemma infix_of_matchGroups {r : Grouped} {s : Str} {m : Cursor} (h : matchGroups r s = some m) {n : ℕ}
    {g : Str} (hg : m.group? n = some g) : g <:+: s :=
  infix_of_walk (List.mem_of_mem_head? h) hg

lemma infix_of_searchGroups {r : Grouped} {s : Str} {m : Cursor} (h : searchGroups r s = some m)
    {n : ℕ} {g : Str} (hg : m.group? n = some g) : g <:+: s := by
  suffices hfrom : ∀ (before s : Str), searchGroupsFrom r before s = some m → g <:+: s from hfrom [] s h
  intro before s h
  induction s generalizing before with
  | nil => exact infix_of_walk (List.mem_of_mem_head? h) hg
  | cons c cs ih =>
    rw [searchGroupsFrom] at h
    cases hhead : (walk r ⟨before, c :: cs, []⟩).head? with
    | some m' =>
      rw [hhead] at h
      cases h
      exact infix_of_walk (List.mem_of_mem_head? hhead) hg
    | none =>
      rw [hhead] at h
      exact (ih _ h).trans (List.suffix_cons _ _).isInfix

end Regex

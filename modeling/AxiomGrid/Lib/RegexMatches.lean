import AxiomGrid.Lib.Regex

/-!
# What a pattern matches

`Matches r before w after` says, without a matcher, that `r` matches the text `w` where it stands
between `before`, last character first, and `after`. The backtracking matcher finds a match exactly
where there is one, and the leftmost match is the first place that has one.
-/

namespace Regex

/-- The pattern matches `w` between `before` and `after`. -/
def Matches : Pattern → Str → Str → Str → Prop
  | .empty, _, w, _ => w = []
  | .char p, _, w, _ => ∃ c, w = [c] ∧ p c = true
  | .seq r t, before, w, after =>
    ∃ v v', w = v ++ v' ∧ Matches r before v (v' ++ after) ∧ Matches t (v.reverse ++ before) v' after
  | .alt r t, before, w, after => Matches r before w after ∨ Matches t before w after
  | .many _ p, _, w, _ => ∀ c ∈ w, p c = true
  | .capture r, before, w, after => Matches r before w after
  | .start, before, w, _ => w = [] ∧ before = []
  | .stop, _, w, after => w = [] ∧ (after = [] ∨ after = ['\n'])
  | .lookbehind p, before, w, _ => w = [] ∧ before.head?.any p = true
  | .boundary p, before, w, after => w = [] ∧ before.head?.any p ≠ after.head?.any p

/-- The pattern matches nowhere in the text, which stands behind `before`. -/
def NoMatch (r : Pattern) (before s : Str) : Prop :=
  ∀ x w y, s = x ++ w ++ y → ¬Matches r (x.reverse ++ before) w y

/-! ### The matcher -/

lemma mem_repeats {greedy : Bool} {p : Char → Bool} {group : Option Str} {before w after : Str}
    (h : ∀ c ∈ w, p c = true) :
    ⟨w.reverse ++ before, after, group⟩ ∈ repeats greedy p group before (w ++ after) := by
  induction w generalizing before with
  | nil =>
    cases after with
    | nil => simp [repeats]
    | cons c cs =>
      rw [List.nil_append, repeats]
      split_ifs <;> simp
  | cons c w ih =>
    rw [List.forall_mem_cons] at h
    have hmore := @ih (c :: before) h.2
    rw [List.cons_append, repeats, if_pos h.1, List.reverse_cons, List.append_assoc,
      List.singleton_append]
    split_ifs <;> simp [hmore]

/-- The matcher finds what matches. -/
lemma mem_run_of_matches {r : Pattern} {before w after : Str} (h : Matches r before w after)
    (group : Option Str) :
    ∃ group', ⟨w.reverse ++ before, after, group'⟩ ∈ run r ⟨before, w ++ after, group⟩ := by
  induction r generalizing before w after group with
  | empty =>
    obtain rfl : w = [] := h
    exact ⟨group, by simp [run]⟩
  | char p =>
    obtain ⟨c, rfl, hc⟩ := h
    exact ⟨group, by simp [run, hc]⟩
  | seq r t ihr iht =>
    obtain ⟨v, v', rfl, hv, hv'⟩ := h
    obtain ⟨mid, hmid⟩ := ihr hv group
    obtain ⟨group', hend⟩ := iht hv' mid
    refine ⟨group', ?_⟩
    rw [run, List.mem_flatMap, List.append_assoc, List.reverse_append, List.append_assoc]
    exact ⟨_, hmid, hend⟩
  | alt r t ihr iht =>
    obtain h | h := h
    · obtain ⟨group', hmem⟩ := ihr h group
      exact ⟨group', by rw [run]; exact List.mem_append_left _ hmem⟩
    · obtain ⟨group', hmem⟩ := iht h group
      exact ⟨group', by rw [run]; exact List.mem_append_right _ hmem⟩
  | many greedy p => exact ⟨group, mem_repeats h⟩
  | capture r ih =>
    obtain ⟨group', hmem⟩ := ih h group
    exact ⟨_, by rw [run]; exact List.mem_map_of_mem hmem⟩
  | start =>
    obtain ⟨rfl, rfl⟩ := h
    exact ⟨group, by simp [run]⟩
  | stop =>
    obtain ⟨rfl, h⟩ := h
    exact ⟨group, by simp [run, h]⟩
  | lookbehind p =>
    obtain ⟨rfl, h⟩ := h
    exact ⟨group, by simp [run, h]⟩
  | boundary p =>
    obtain ⟨rfl, h⟩ := h
    exact ⟨group, by simp [run, h]⟩

lemma matches_of_mem_repeats {greedy : Bool} {p : Char → Bool} {group : Option Str}
    {before rest : Str} {s' : State} (h : s' ∈ repeats greedy p group before rest) :
    ∃ w, rest = w ++ s'.rest ∧ s'.before = w.reverse ++ before ∧ ∀ c ∈ w, p c = true := by
  have hreads := repeats_reads h
  exact ⟨_, hreads.rest, hreads.before, hreads.within (fun c => p c = true) fun _ => id⟩

/-- What the matcher finds matches. -/
lemma matches_of_mem_run {r : Pattern} {s s' : State} (h : s' ∈ run r s) :
    ∃ w, s.rest = w ++ s'.rest ∧ s'.before = w.reverse ++ s.before ∧
      Matches r s.before w s'.rest := by
  induction r generalizing s s' with
  | empty =>
    rw [run, List.mem_singleton] at h
    exact ⟨[], by rw [h]; rfl, by rw [h]; rfl, rfl⟩
  | char p =>
    obtain ⟨before, rest, group⟩ := s
    cases rest with
    | nil => cases h
    | cons c cs =>
      simp only [run] at h
      split_ifs at h with hc
      · rw [List.mem_singleton] at h
        exact ⟨[c], by rw [h]; rfl, by rw [h]; rfl, c, rfl, hc⟩
      · cases h
  | seq r t ihr iht =>
    rw [run, List.mem_flatMap] at h
    obtain ⟨mid, hmid, hs'⟩ := h
    obtain ⟨w, hrest, hbefore, hw⟩ := ihr hmid
    obtain ⟨w', hrest', hbefore', hw'⟩ := iht hs'
    rw [hrest'] at hw
    rw [hbefore] at hw'
    exact ⟨w ++ w', by rw [hrest, hrest', List.append_assoc],
      by rw [hbefore', hbefore, List.reverse_append, List.append_assoc], w, w', rfl, hw, hw'⟩
  | alt r t ihr iht =>
    rw [run, List.mem_append] at h
    obtain h | h := h
    · obtain ⟨w, hrest, hbefore, hw⟩ := ihr h
      exact ⟨w, hrest, hbefore, .inl hw⟩
    · obtain ⟨w, hrest, hbefore, hw⟩ := iht h
      exact ⟨w, hrest, hbefore, .inr hw⟩
  | many greedy p => exact matches_of_mem_repeats h
  | capture r ih =>
    rw [run, List.mem_map] at h
    obtain ⟨mid, hmid, rfl⟩ := h
    obtain ⟨w, hw⟩ := ih hmid
    exact ⟨w, hw⟩
  | start =>
    simp only [run] at h
    split_ifs at h with hbefore
    · obtain rfl := List.mem_singleton.mp h
      exact ⟨[], rfl, rfl, rfl, hbefore⟩
    · cases h
  | stop =>
    simp only [run] at h
    split_ifs at h with hrest
    · obtain rfl := List.mem_singleton.mp h
      exact ⟨[], rfl, rfl, rfl, hrest⟩
    · cases h
  | lookbehind p =>
    simp only [run] at h
    split_ifs at h with hbefore
    · obtain rfl := List.mem_singleton.mp h
      exact ⟨[], rfl, rfl, rfl, hbefore⟩
    · cases h
  | boundary p =>
    simp only [run] at h
    split_ifs at h with heq
    · cases h
    · obtain rfl := List.mem_singleton.mp h
      exact ⟨[], rfl, rfl, rfl, heq⟩

/-! ### The first match -/

lemma matchAt_eq_none_iff {r : Pattern} {before rest : Str} :
    matchAt r before rest = none ↔ ∀ w after, rest = w ++ after → ¬Matches r before w after := by
  rw [matchAt, Option.map_eq_none_iff, List.head?_eq_none_iff]
  constructor
  · rintro hrun w after rfl h
    obtain ⟨group', hmem⟩ := mem_run_of_matches h none
    rw [hrun] at hmem
    cases hmem
  · intro h
    refine List.eq_nil_iff_forall_not_mem.mpr fun s' hs' => ?_
    obtain ⟨w, hrest, -, hw⟩ := matches_of_mem_run hs'
    exact h w s'.rest hrest hw

lemma matches_of_matchAt {r : Pattern} {before rest : Str} {m : Match}
    (h : matchAt r before rest = some m) : Matches r before m.text m.rest := by
  rw [matchAt, Option.map_eq_some_iff] at h
  obtain ⟨s', hs', rfl⟩ := h
  obtain ⟨w, hrest, -, hw⟩ := matches_of_mem_run (List.mem_of_mem_head? hs')
  have htext : rest.take (rest.length - s'.rest.length) = w := by
    rw [show rest = w ++ s'.rest from hrest, List.length_append, Nat.add_sub_cancel, List.take_left]
  simp only [htext]
  exact hw

/-- Where a text can be cut: at its first character, or behind it. -/
lemma noMatch_cons_iff {r : Pattern} {before cs : Str} {c : Char} :
    NoMatch r before (c :: cs) ↔
      (∀ w after, c :: cs = w ++ after → ¬Matches r before w after) ∧ NoMatch r (c :: before) cs := by
  constructor
  · refine fun h => ⟨fun w after hw => h [] w after hw, fun x w y hs hw => ?_⟩
    exact h (c :: x) w y (congrArg (c :: ·) hs) (by simpa using hw)
  · rintro ⟨hhere, hmore⟩ x w y hs hw
    cases x with
    | nil => exact hhere w y hs hw
    | cons d x =>
      simp only [List.cons_append, List.cons.injEq] at hs
      obtain ⟨rfl, hs⟩ := hs
      exact hmore x w y hs (by simpa using hw)

/-- A search fails exactly when there is no match. -/
theorem searchFrom_eq_none_iff {r : Pattern} {before rest : Str} :
    searchFrom r before rest = none ↔ NoMatch r before rest := by
  induction rest generalizing before with
  | nil =>
    rw [searchFrom, matchAt_eq_none_iff]
    constructor
    · intro h x w y hs hw
      rw [eq_comm, List.append_eq_nil_iff, List.append_eq_nil_iff] at hs
      obtain ⟨⟨rfl, rfl⟩, rfl⟩ := hs
      exact h [] [] rfl hw
    · exact fun h w after hw => h [] w after hw
  | cons c cs ih =>
    rw [noMatch_cons_iff, ← matchAt_eq_none_iff, ← ih, searchFrom]
    split
    · rename_i m hm
      simp [hm]
    · rename_i hnone
      simp [hnone]

/-- A search finds a match with none before it. -/
theorem searchFrom_first {r : Pattern} {before rest : Str} {m : Match}
    (h : searchFrom r before rest = some m) :
    Matches r (m.skipped.reverse ++ before) m.text m.rest ∧
      ∀ x w y, rest = x ++ w ++ y → x.length < m.skipped.length →
        ¬Matches r (x.reverse ++ before) w y := by
  induction rest generalizing before m with
  | nil =>
    rw [searchFrom] at h
    rw [(matchAt_spec h).1]
    exact ⟨matches_of_matchAt h, by simp⟩
  | cons c cs ih =>
    obtain hat | ⟨hnone, m', hm', rfl⟩ := searchFrom_cons_eq_some h
    · rw [(matchAt_spec hat).1]
      exact ⟨matches_of_matchAt hat, by simp⟩
    · obtain ⟨hmatch, hfirst⟩ := ih hm'
      refine ⟨by simpa using hmatch, fun x w y hs hlt => ?_⟩
      cases x with
      | nil => exact matchAt_eq_none_iff.mp hnone w y hs
      | cons d x =>
        simp only [List.cons_append, List.cons.injEq] at hs
        obtain ⟨rfl, hs⟩ := hs
        simpa using hfirst x w y hs (Nat.lt_of_succ_lt_succ hlt)

end Regex

import AxiomGrid.Grounding.Cascade
import AxiomGrid.Lib.PyLower

/-!
# The window scans

Both versions of `best_fuzzy_match` return the best of the windows they compare. The version of
`kernel/core/grounding.py` compares at most `_MAX_WINDOWS` of them, over all lengths together, and
compares only the first 200 characters; the version of `kernel/core/verifier_standalone.py` compares
every window as a whole.

A target with fewer than 200 times the threshold characters cannot come near a window with more than 200:
the missing characters alone cost more than the threshold allows. So cutting never matters there.
-/

namespace AxiomGrid.Grounding

open Pipeline

section

variable (u : UnicodeData)

/-! ### What is compared -/

/-- The span of a window: from the start of its first word to the end of its last one. -/
def windowSpan (wordsSpans : List (ℕ × ℕ)) (w : ℕ × ℕ) : Option (ℕ × ℕ) :=
  let window := (wordsSpans.take (w.2 + w.1)).drop w.2
  match window.head?, window.getLast? with
  | some first, some last => some (first.1, last.2)
  | _, _ => none

/-- The text of a window as it is compared. -/
def spanText (text : Str) (span : ℕ × ℕ) : Str := normalizeText u (Str.slice text span.1 span.2)

/-- The windows of the text for a value of this many words, all of them. -/
def allWindows (value text : Str) : List (ℕ × ℕ) :=
  windows List.range (Str.split (normalizeText u value)).length (Str.wordSpans text).length

/-- The windows that the capped scan compares. -/
def sampledWindows (value text : Str) : List (ℕ × ℕ) :=
  (windows windowStarts (Str.split (normalizeText u value)).length
    (Str.wordSpans text).length).take maxWindows

def allSpans (value text : Str) : List (ℕ × ℕ) :=
  (allWindows u value text).filterMap (windowSpan (Str.wordSpans text))

def sampledSpans (value text : Str) : List (ℕ × ℕ) :=
  (sampledWindows u value text).filterMap (windowSpan (Str.wordSpans text))

lemma scanWindow_eq (ratioWith : Str → ℚ) (text : Str) (wordsSpans : List (ℕ × ℕ)) (best : BestSpan)
    (w : ℕ × ℕ) :
    scanWindow u ratioWith text wordsSpans w.1 best w.2 =
      match windowSpan wordsSpans w with
      | some span =>
        if best.ratio < ratioWith (spanText u text span) then
          ⟨ratioWith (spanText u text span), span⟩
        else best
      | none => best := by
  simp only [scanWindow, windowSpan, spanText]
  cases ((wordsSpans.take (w.2 + w.1)).drop w.2).head? <;>
    cases ((wordsSpans.take (w.2 + w.1)).drop w.2).getLast? <;> rfl

/-- The scan keeps the best of the spans. -/
lemma scan_eq_bestBy (ratioWith : Str → ℚ) (text : Str) (wordsSpans wins : List (ℕ × ℕ)) :
    let best := (wins.filterMap (windowSpan wordsSpans)).bestBy (fun p q => decide (p < q))
      (fun _ => true) (fun span => ratioWith (spanText u text span)) (0 : ℚ)
    wins.foldl (fun best (w : ℕ × ℕ) => scanWindow u ratioWith text wordsSpans w.1 best w.2)
      ⟨0, 0, 0⟩ = ⟨best.1, best.2.getD (0, 0)⟩ := by
  suffices hgo : ∀ (best : BestSpan) (found : Option (ℕ × ℕ)), best.span = found.getD (0, 0) →
      let final := (wins.filterMap (windowSpan wordsSpans)).foldl
        (fun (best : ℚ × Option (ℕ × ℕ)) span =>
          if true && decide (best.1 < ratioWith (spanText u text span)) then
            (ratioWith (spanText u text span), some span) else best) (best.ratio, found)
      wins.foldl (fun best (w : ℕ × ℕ) => scanWindow u ratioWith text wordsSpans w.1 best w.2)
        best = ⟨final.1, final.2.getD (0, 0)⟩ from hgo ⟨0, 0, 0⟩ none rfl
  induction wins with
  | nil =>
    intro best found hspan
    simp only [List.foldl_nil, List.filterMap_nil, ← hspan]
  | cons w wins ih =>
    intro best found hspan
    rw [List.foldl_cons, List.filterMap_cons, scanWindow_eq]
    cases windowSpan wordsSpans w with
    | none => exact ih best found hspan
    | some span =>
      rw [List.foldl_cons]
      by_cases hbetter : best.ratio < ratioWith (spanText u text span)
      · rw [if_pos (by simpa using hbetter)]
        simp only [if_pos hbetter]
        exact ih ⟨ratioWith (spanText u text span), span⟩ (some span) rfl
      · rw [if_neg (by simpa using hbetter)]
        simp only [if_neg hbetter]
        exact ih best found hspan

/-- The best of the sampled spans. -/
def bestSampled (value text : Str) : ℚ × Option (ℕ × ℕ) :=
  (sampledSpans u value text).bestBy (fun p q => decide (p < q)) (fun _ => true)
    (fun span => levenshteinRatio u (normalizeText u value) (spanText u text span)) 0

/-- The best of all spans, compared as a whole. -/
def bestOfAll (value text : Str) : ℚ × Option (ℕ × ℕ) :=
  (allSpans u value text).bestBy (fun p q => decide (p < q)) (fun _ => true)
    (fun span => Standalone.levenshteinRatio u (normalizeText u value) (spanText u text span)) 0

/-- A text without words has no windows. -/
lemma windows_zero (starts : ℕ → List ℕ) (n : ℕ) : windows starts n 0 = [] := by
  have hlengths : windowLengths n 0 = [] := by
    simp only [windowLengths]
    rw [show min (0 + 1) (n + 3) - max 1 (n - 1) = 0 by omega]
    rfl
  rw [windows, hlengths]
  rfl

lemma bestFuzzyMatch_eq {value : Str} (text : Str) (h : normalizeText u value ≠ []) :
    bestFuzzyMatch u value text =
      ⟨(bestSampled u value text).1, (bestSampled u value text).2.getD (0, 0)⟩ := by
  simp only [bestFuzzyMatch, if_neg h]
  split_ifs with hwords
  · rw [bestSampled, sampledSpans, sampledWindows, hwords, List.length_nil, windows_zero]
    rfl
  · exact scan_eq_bestBy u _ text _ _

lemma standalone_bestFuzzyMatch_eq {value : Str} (text : Str) (h : normalizeText u value ≠ []) :
    Standalone.bestFuzzyMatch u value text =
      ⟨(bestOfAll u value text).1, (bestOfAll u value text).2.getD (0, 0)⟩ := by
  have hvalue : Standalone.normalizeText u value ≠ [] := h
  simp only [Standalone.bestFuzzyMatch, if_neg hvalue]
  split_ifs with hwords
  · rw [bestOfAll, allSpans, allWindows, hwords, List.length_nil, windows_zero]
    rfl
  · exact scan_eq_bestBy u _ text _ _

/-- The capped scan reaches a bound exactly when one of the sampled windows does. -/
lemma le_bestFuzzyMatch_iff {bound : ℚ} (hbound : 0 < bound) (value text : Str) :
    bound ≤ (bestFuzzyMatch u value text).ratio ↔ normalizeText u value ≠ [] ∧
      ∃ span ∈ sampledSpans u value text,
        bound ≤ levenshteinRatio u (normalizeText u value) (spanText u text span) := by
  by_cases hvalue : normalizeText u value = []
  · simp only [bestFuzzyMatch, hvalue, if_true, ne_eq, not_true, false_and, iff_false, not_le]
    exact hbound
  · rw [bestFuzzyMatch_eq u text hvalue, bestSampled, List.le_bestBy_iff hbound]
    simp [hvalue]

/-- The exhaustive scan reaches a bound exactly when one of all windows does. -/
lemma le_standalone_bestFuzzyMatch_iff {bound : ℚ} (hbound : 0 < bound) (value text : Str) :
    bound ≤ (Standalone.bestFuzzyMatch u value text).ratio ↔ normalizeText u value ≠ [] ∧
      ∃ span ∈ allSpans u value text,
        bound ≤ Standalone.levenshteinRatio u (normalizeText u value) (spanText u text span) := by
  by_cases hvalue : normalizeText u value = []
  · simp only [Standalone.bestFuzzyMatch, Standalone.normalizeText, hvalue, if_true, ne_eq, not_true,
      false_and, iff_false, not_le]
    exact hbound
  · rw [standalone_bestFuzzyMatch_eq u text hvalue, bestOfAll, List.le_bestBy_iff hbound]
    simp [hvalue]

lemma bestSampled_eq_some {value text : Str} {span : ℕ × ℕ}
    (h : (bestSampled u value text).2 = some span) :
    span ∈ sampledSpans u value text ∧ (bestSampled u value text).1 =
      levenshteinRatio u (normalizeText u value) (spanText u text span) := by
  unfold bestSampled at h ⊢
  obtain ⟨hmem, -, hratio⟩ := List.of_bestBy_eq_some h
  exact ⟨hmem, hratio⟩

lemma bestSampled_eq_none {value text : Str} (h : (bestSampled u value text).2 = none) :
    (bestSampled u value text).1 = 0 := by
  unfold bestSampled at h ⊢
  rw [List.bestBy_of_eq_none h]

/-- A ratio above zero is that of a sampled window. -/
lemma span_of_bestFuzzyMatch {value text : Str} (h : 0 < (bestFuzzyMatch u value text).ratio) :
    (bestFuzzyMatch u value text).span ∈ sampledSpans u value text ∧
      (bestFuzzyMatch u value text).ratio = levenshteinRatio u (normalizeText u value)
        (spanText u text (bestFuzzyMatch u value text).span) := by
  have hvalue : normalizeText u value ≠ [] := by
    intro hnil
    simp [bestFuzzyMatch, hnil] at h
  rw [bestFuzzyMatch_eq u text hvalue] at h ⊢
  cases hfound : (bestSampled u value text).2 with
  | none =>
    rw [bestSampled_eq_none u hfound] at h
    exact absurd h (lt_irrefl 0)
  | some span =>
    simp only [Option.getD_some]
    exact bestSampled_eq_some u hfound

/-! ### Cutting at 200 characters -/

variable {u} {s1 s2 : Str} {bound : ℚ}

/-- Cutting cannot matter for the bound: the first string is too short to come near a longer one, or
neither is cut. -/
def Uncut (bound : ℚ) (s1 s2 : Str) : Prop :=
  (s1.length : ℚ) < levenshteinMaxLen * bound ∨
    (s1.length ≤ levenshteinMaxLen ∧ s2.length ≤ levenshteinMaxLen)

lemma levenshteinRatio_le_one (u : UnicodeData) (s1 s2 : Str) : levenshteinRatio u s1 s2 ≤ 1 := by
  by_cases hexit : LengthExit (Str.lower u s1) (Str.lower u s2)
  · rw [levenshteinRatio_of_exit hexit]
    norm_num
  · rw [levenshteinRatio_eq u s1 s2 hexit]
    exact ratioOf_le_one _ _

/-- A string that is cut is too far from a first string this short. -/
lemma levenshteinRatio_lt (h1 : (Str.lower u s1).length ≤ levenshteinMaxLen)
    (hshort : ((Str.lower u s1).length : ℚ) < levenshteinMaxLen * bound)
    (h2 : levenshteinMaxLen < (Str.lower u s2).length) : levenshteinRatio u s1 s2 < bound := by
  have hpos : (0 : ℚ) < levenshteinMaxLen := by norm_num [levenshteinMaxLen]
  have hbound : 0 < bound := by
    have hnonneg : (0 : ℚ) ≤ (Str.lower u s1).length := Nat.cast_nonneg _
    exact pos_of_mul_pos_right (hnonneg.trans_lt hshort) hpos.le
  by_cases hexit : LengthExit (Str.lower u s1) (Str.lower u s2)
  · rwa [levenshteinRatio_of_exit hexit]
  · have hcut : ((Str.lower u s2).take levenshteinMaxLen).length = levenshteinMaxLen := by
      rw [List.length_take]
      omega
    have hne : (Str.lower u s2).take levenshteinMaxLen ≠ [] := by
      rw [← List.length_pos_iff_ne_nil, hcut]
      decide
    rw [levenshteinRatio_eq u s1 s2 hexit, List.take_of_length_le h1]
    refine (ratioOf_le_length (by omega) hne).trans_lt ?_
    rw [hcut, div_lt_iff₀ hpos, mul_comm]
    exact hshort

/-- The same as a whole. -/
lemma standaloneRatio_lt (h1 : (Str.lower u s1).length ≤ levenshteinMaxLen)
    (hshort : ((Str.lower u s1).length : ℚ) < levenshteinMaxLen * bound)
    (h2 : levenshteinMaxLen < (Str.lower u s2).length) :
    Standalone.levenshteinRatio u s1 s2 < bound := by
  have hpos : (0 : ℚ) < levenshteinMaxLen := by norm_num [levenshteinMaxLen]
  have hnonneg : (0 : ℚ) ≤ (Str.lower u s1).length := Nat.cast_nonneg _
  have hne : Str.lower u s2 ≠ [] := by
    rw [← List.length_pos_iff_ne_nil]
    omega
  have hlength : (levenshteinMaxLen : ℚ) ≤ (Str.lower u s2).length := by exact_mod_cast h2.le
  rw [standaloneRatio_eq]
  refine (ratioOf_le_length (by omega) hne).trans_lt ?_
  calc ((Str.lower u s1).length : ℚ) / (Str.lower u s2).length
      ≤ (Str.lower u s1).length / levenshteinMaxLen := div_le_div_of_nonneg_left hnonneg hpos hlength
    _ < bound := by
      rw [div_lt_iff₀ hpos, mul_comm]
      exact hshort

/-- A ratio above zero that is not cut is the ratio of the whole strings. -/
lemma levenshteinRatio_eq_standalone (h1 : (Str.lower u s1).length ≤ levenshteinMaxLen)
    (h2 : (Str.lower u s2).length ≤ levenshteinMaxLen) (hpos : 0 < levenshteinRatio u s1 s2) :
    levenshteinRatio u s1 s2 = Standalone.levenshteinRatio u s1 s2 := by
  have hexit : ¬LengthExit (Str.lower u s1) (Str.lower u s2) := by
    intro hexit
    rw [levenshteinRatio_of_exit hexit] at hpos
    exact absurd hpos (lt_irrefl 0)
  rw [levenshteinRatio_eq u s1 s2 hexit, standaloneRatio_eq, List.take_of_length_le h1,
    List.take_of_length_le h2]

/-- Strings that reach the bound are not cut. -/
lemma Uncut.lengths (h : Uncut bound (Str.lower u s1) (Str.lower u s2))
    (hreach : bound ≤ levenshteinRatio u s1 s2) :
    (Str.lower u s1).length ≤ levenshteinMaxLen ∧ (Str.lower u s2).length ≤ levenshteinMaxLen := by
  rcases h with hshort | h
  · have h1 : (Str.lower u s1).length ≤ levenshteinMaxLen := by
      have hone : bound ≤ 1 := hreach.trans (levenshteinRatio_le_one u s1 s2)
      have hle : ((Str.lower u s1).length : ℚ) ≤ levenshteinMaxLen := by
        have hmax : (0 : ℚ) ≤ levenshteinMaxLen := Nat.cast_nonneg _
        nlinarith
      exact_mod_cast hle
    refine ⟨h1, ?_⟩
    by_contra h2
    exact absurd hreach (not_le.mpr (levenshteinRatio_lt h1 hshort (by omega)))
  · exact h

/-- A bound that is reached with an uncut ratio above zero is reached by the whole strings. -/
lemma le_standalone_of_uncut (h : Uncut bound (Str.lower u s1) (Str.lower u s2))
    (hpos : 0 < levenshteinRatio u s1 s2) (hreach : bound ≤ levenshteinRatio u s1 s2) :
    bound ≤ Standalone.levenshteinRatio u s1 s2 := by
  obtain ⟨h1, h2⟩ := h.lengths hreach
  rwa [← levenshteinRatio_eq_standalone h1 h2 hpos]

/-- Where cutting cannot matter, a bound above one half is reached by both versions or by none. -/
lemma le_ratio_iff_of_uncut (hhalf : 1 / 2 < bound) (hone : bound ≤ 1)
    (h : Uncut bound (Str.lower u s1) (Str.lower u s2)) :
    bound ≤ levenshteinRatio u s1 s2 ↔ bound ≤ Standalone.levenshteinRatio u s1 s2 := by
  have hlengths : bound ≤ Standalone.levenshteinRatio u s1 s2 →
      (Str.lower u s1).length ≤ levenshteinMaxLen ∧ (Str.lower u s2).length ≤ levenshteinMaxLen := by
    intro hreach
    rcases h with hshort | h
    · have h1 : (Str.lower u s1).length ≤ levenshteinMaxLen := by
        have hle : ((Str.lower u s1).length : ℚ) ≤ levenshteinMaxLen := by
          have hmax : (0 : ℚ) ≤ levenshteinMaxLen := Nat.cast_nonneg _
          nlinarith
        exact_mod_cast hle
      refine ⟨h1, ?_⟩
      by_contra h2
      exact absurd hreach (not_le.mpr (standaloneRatio_lt h1 hshort (by omega)))
    · exact h
  constructor
  · intro hreach
    obtain ⟨h1, h2⟩ := h.lengths hreach
    exact (le_levenshteinRatio_iff h1 h2 hhalf).mp hreach
  · intro hreach
    obtain ⟨h1, h2⟩ := hlengths hreach
    exact (le_levenshteinRatio_iff h1 h2 hhalf).mpr hreach

/-! ### Fuzzy anchors -/

lemma mem_unwords {c : Char} {words : List Str} (h : c ∈ Str.unwords words) :
    c = ' ' ∨ ∃ word ∈ words, c ∈ word := by
  rw [Str.unwords] at h
  induction words with
  | nil => cases h
  | cons word words ih =>
    cases words with
    | nil => exact .inr ⟨word, List.mem_singleton_self word, by simpa using h⟩
    | cons next words =>
      rw [List.intercalate_cons_cons, List.append_assoc, List.mem_append, List.mem_append,
        List.mem_singleton] at h
      rcases h with h | rfl | h
      · exact .inr ⟨word, List.mem_cons_self, h⟩
      · exact .inl rfl
      · rcases ih h with rfl | ⟨word', hword', hc⟩
        · exact .inl rfl
        · exact .inr ⟨word', List.mem_cons_of_mem word hword', hc⟩

/-- A normalised text is in lower case. -/
lemma lower_normalizeText (hu : Str.LowerStable u) (s : Str) :
    Str.lower u (normalizeText u s) = normalizeText u s := by
  refine Str.lower_eq_self fun c hc => ?_
  rcases mem_unwords (List.mem_of_mem_filter hc) with rfl | ⟨word, hword, hc⟩
  · exact hu.blank
  · have hfilter := List.mem_of_mem_filter (Str.mem_of_mem_split hword hc)
    exact hu.of_mem_lower ((Str.infix_strip _).subset hfilter)

variable {emb : Embeddings} {self : GroundingVerifierImpl} {value sourceSpan target : Str}
  {chunks : List Chunk}

/-- The normalised target is shorter than 200 times the bound, or neither it nor a window that is
compared with it has more than 200 characters. -/
def NoCut (u : UnicodeData) (bound : ℚ) (target : Str) (chunks : List Chunk) : Prop :=
  ((normalizeText u target).length : ℚ) < levenshteinMaxLen * bound ∨
    ((normalizeText u target).length ≤ levenshteinMaxLen ∧ ∀ chunk ∈ chunks,
      ∀ span ∈ sampledSpans u target chunk.text,
        (spanText u chunk.text span).length ≤ levenshteinMaxLen)

lemma NoCut.uncut (hu : Str.LowerStable u) (h : NoCut u bound target chunks) {chunk : Chunk}
    (hchunk : chunk ∈ chunks) {span : ℕ × ℕ} (hspan : span ∈ sampledSpans u target chunk.text) :
    Uncut bound (Str.lower u (normalizeText u target)) (Str.lower u (spanText u chunk.text span)) := by
  rw [lower_normalizeText hu, spanText, lower_normalizeText hu]
  rcases h with hshort | ⟨htarget, hall⟩
  · exact .inl hshort
  · exact .inr ⟨htarget, hall chunk hchunk span hspan⟩

/-- The anchor of the second stage is a sampled window of a chunk whose ratio is above zero and reaches
the threshold. -/
lemma exists_of_fuzzyStage {anchor : Anchor} (h : fuzzyStage u self target chunks = some anchor) :
    ∃ chunk ∈ chunks, ∃ span ∈ sampledSpans u target chunk.text,
      anchor = anchorAt chunk span ∧
      0 < levenshteinRatio u (normalizeText u target) (spanText u chunk.text span) ∧
      self.fuzzyThreshold ≤
        levenshteinRatio u (normalizeText u target) (spanText u chunk.text span) := by
  rw [fuzzyStage, Option.map_eq_some_iff] at h
  obtain ⟨chunk, hbest, rfl⟩ := h
  have hpos := List.lt_of_bestBy_eq_some hbest
  obtain ⟨hchunk, hthreshold, -⟩ := List.of_bestBy_eq_some hbest
  obtain ⟨hspan, hratio⟩ := span_of_bestFuzzyMatch u hpos
  rw [hratio] at hpos
  rw [decide_eq_true_eq, hratio] at hthreshold
  exact ⟨chunk, hchunk, _, hspan, rfl, hpos, hthreshold⟩

/-- A chunk that is the only one is found when it reaches the threshold. -/
lemma fuzzyStage_singleton {chunk : Chunk} (hpos : 0 < self.fuzzyThreshold)
    (h : self.fuzzyThreshold ≤ (bestFuzzyMatch u target chunk.text).ratio) :
    fuzzyStage u self target [chunk] =
      some (anchorAt chunk (bestFuzzyMatch u target chunk.text).span) := by
  have hbest : [chunk].bestBy (fun p q => decide (p < q))
      (fun chunk => self.fuzzyThreshold ≤ (bestFuzzyMatch u target chunk.text).ratio)
      (fun chunk => (bestFuzzyMatch u target chunk.text).ratio) (0 : ℚ) =
        ((bestFuzzyMatch u target chunk.text).ratio, some chunk) :=
    List.bestBy_cons_of_le (decide_eq_true h) (hpos.trans_le h) (by simp)
  rw [fuzzyStage, hbest, Option.map_some]

/-- A fuzzy match is the result when the text is not found as it is. -/
lemma verify_of_fuzzyStage {anchor : Anchor} (hchunks : chunks ≠ []) (hvalue : Str.strip value ≠ [])
    (hexact : exactStage u value chunks = none) (hfuzzy : fuzzyStage u self value chunks = some anchor)
    (henabled : GroundingMethod.fuzzy ∉ self.disabledStages) :
    verify u emb self value [] chunks = (.fuzzy, [anchor]) := by
  simp [verify, firstStage, stage, hchunks, hvalue, hexact, hfuzzy, henabled]

/-- 184 characters. -/
def longTarget : Str := List.replicate 183 'a' ++ ['b']

/-- The target with a mark in it that normalisation removes, and 17 characters behind it. -/
def longChunk : Chunk where
  chunkId := []
  text := List.replicate 183 'a' ++ ['!', 'b'] ++ List.replicate 17 'c'

lemma length_longTarget : longTarget.length = 184 := by
  rw [longTarget, List.length_append, List.length_replicate, List.length_singleton]

lemma length_longTarget_append (n : ℕ) : (longTarget ++ List.replicate n 'c').length = 184 + n := by
  rw [List.length_append, length_longTarget, List.length_replicate]

/-- What the stages compute of the sample. -/
lemma longChunk_values :
    normalizeText asciiData longTarget = longTarget ∧
      Str.strip longTarget ≠ [] ∧
      Str.lower asciiData longTarget = longTarget ∧
      Str.lower asciiData (longTarget ++ List.replicate 17 'c') = longTarget ++ List.replicate 17 'c' ∧
      spanText asciiData longChunk.text (0, 202) = longTarget ++ List.replicate 17 'c' ∧
      sampledSpans asciiData longTarget longChunk.text = [(0, 202)] ∧
      exactStage asciiData longTarget [longChunk] = none := by
  decide +kernel

lemma normalizeText_longTarget : normalizeText asciiData longTarget = longTarget := longChunk_values.1

lemma spanText_longChunk :
    spanText asciiData longChunk.text (0, 202) = longTarget ++ List.replicate 17 'c' :=
  longChunk_values.2.2.2.2.1

/-- The first 200 characters of the window are 16 insertions away from the target. -/
lemma le_ratio_longChunk : 92 / 100 ≤ levenshteinRatio asciiData (normalizeText asciiData longTarget)
    (spanText asciiData longChunk.text (0, 202)) := by
  obtain ⟨-, -, hlower', hlower, -⟩ := longChunk_values
  have hexit : ¬LengthExit longTarget (longTarget ++ List.replicate 17 'c') := by
    rintro ⟨-, -, -, h⟩
    rw [length_longTarget_append, length_longTarget] at h
    omega
  rw [normalizeText_longTarget, spanText_longChunk, levenshteinRatio_eq, hlower, hlower']
  · have hcut : (longTarget ++ List.replicate 17 'c').take levenshteinMaxLen =
        longTarget ++ List.replicate 16 'c' := by
      rw [List.take_append, List.take_of_length_le (by rw [length_longTarget]; decide),
        length_longTarget, List.take_replicate]
      rfl
    have hd : editDistance longTarget (longTarget ++ List.replicate 16 'c') ≤ 16 := by
      simpa using editDistance_append_le longTarget longTarget (List.replicate 16 'c')
    have hd' : (editDistance longTarget (longTarget ++ List.replicate 16 'c') : ℚ) ≤ 16 := by
      exact_mod_cast hd
    rw [List.take_of_length_le (by rw [length_longTarget]; decide), hcut, ratioOf,
      length_longTarget_append, length_longTarget, Int.cast_natCast, le_sub_comm,
      div_le_iff₀ (by norm_num)]
    refine hd'.trans ?_
    norm_num
  · rwa [hlower, hlower']

/-- The only window of the chunk is its only word. -/
lemma bestFuzzyMatch_longChunk : 92 / 100 ≤ (bestFuzzyMatch asciiData longTarget longChunk.text).ratio ∧
    (bestFuzzyMatch asciiData longTarget longChunk.text).span = (0, 202) := by
  have hspans : sampledSpans asciiData longTarget longChunk.text = [(0, 202)] :=
    longChunk_values.2.2.2.2.2.1
  have hnormal : normalizeText asciiData longTarget ≠ [] := by
    rw [normalizeText_longTarget, ← List.length_pos_iff_ne_nil, length_longTarget]
    decide
  have hreach : 92 / 100 ≤ (bestFuzzyMatch asciiData longTarget longChunk.text).ratio := by
    rw [le_bestFuzzyMatch_iff asciiData (by norm_num), hspans]
    exact ⟨hnormal, (0, 202), List.mem_singleton_self _, le_ratio_longChunk⟩
  have hspan := (span_of_bestFuzzyMatch asciiData (lt_of_lt_of_le (by norm_num) hreach)).1
  rw [hspans, List.mem_singleton] at hspan
  exact ⟨hreach, hspan⟩

/-- A chunk with a slip in one letter. -/
def slipChunk : Chunk where
  chunkId := []
  text := "payment due by the end of Januery".toList

/-- A window of one of the lengths is one of all windows. -/
lemma length_le_windows {n total length : ℕ} (h : length ∈ windowLengths n total) :
    total - length + 1 ≤ (windows List.range n total).length := by
  have hsub : ((List.range (total - length + 1)).map fun i => (length, i)).Sublist
      (windows List.range n total) := by
    rw [windows, List.flatMap_def]
    exact List.sublist_flatten_of_mem (List.mem_map_of_mem h)
  simpa using hsub.length_le

/-- Up to `_MAX_WINDOWS` windows in all, nothing is left out. -/
lemma sampledWindows_eq {value text : Str} (h : (allWindows u value text).length ≤ maxWindows) :
    sampledWindows u value text = allWindows u value text := by
  unfold allWindows at h
  have hsame : windows windowStarts (Str.split (normalizeText u value)).length
      (Str.wordSpans text).length = allWindows u value text := by
    rw [allWindows, windows, windows]
    refine List.flatMap_congr fun length hlength => ?_
    rw [windowStarts, if_pos ((length_le_windows hlength).trans h)]
  rw [sampledWindows, hsame, allWindows, List.take_of_length_le h]

/-- The windows that decide about the bound are the same for both scans: one that reaches it as a whole is
matched by one that is sampled, and one that is sampled does not reach it only because it is cut. -/
structure Preserved (u : UnicodeData) (bound : ℚ) (value text : Str) : Prop where
  found : ∀ span ∈ allSpans u value text,
    bound ≤ Standalone.levenshteinRatio u (normalizeText u value) (spanText u text span) →
    ∃ span' ∈ sampledSpans u value text,
      bound ≤ levenshteinRatio u (normalizeText u value) (spanText u text span')
  genuine : ∀ span ∈ sampledSpans u value text,
    bound ≤ levenshteinRatio u (normalizeText u value) (spanText u text span) →
    ∃ span' ∈ allSpans u value text,
      bound ≤ Standalone.levenshteinRatio u (normalizeText u value) (spanText u text span')

lemma scans_agree_iff (hbound : 0 < bound) (value text : Str) :
    (bound ≤ (bestFuzzyMatch u value text).ratio ↔
        bound ≤ (Standalone.bestFuzzyMatch u value text).ratio) ↔
      (normalizeText u value ≠ [] → Preserved u bound value text) := by
  rw [le_bestFuzzyMatch_iff u hbound, le_standalone_bestFuzzyMatch_iff u hbound]
  constructor
  · intro h hvalue
    simp only [hvalue, ne_eq, not_false_eq_true, true_and] at h
    exact ⟨fun span hspan hreach => h.mpr ⟨span, hspan, hreach⟩,
      fun span hspan hreach => h.mp ⟨span, hspan, hreach⟩⟩
  · intro h
    refine and_congr_right fun hvalue => ⟨?_, ?_⟩
    · rintro ⟨span, hspan, hreach⟩
      exact (h hvalue).genuine span hspan hreach
    · rintro ⟨span, hspan, hreach⟩
      exact (h hvalue).found span hspan hreach

/-- With few enough windows, none of which is cut, the two scans compare the same. -/
lemma preserved_of_uncut {value text : Str} (hhalf : 1 / 2 < bound) (hone : bound ≤ 1)
    (hwindows : (allWindows u value text).length ≤ maxWindows)
    (hcut : ∀ span ∈ allSpans u value text,
      Uncut bound (Str.lower u (normalizeText u value)) (Str.lower u (spanText u text span))) :
    Preserved u bound value text := by
  have hspans : sampledSpans u value text = allSpans u value text := by
    rw [sampledSpans, sampledWindows_eq hwindows, allSpans]
  constructor
  · intro span hspan hreach
    rw [hspans]
    exact ⟨span, hspan, (le_ratio_iff_of_uncut hhalf hone (hcut span hspan)).mpr hreach⟩
  · intro span hspan hreach
    rw [hspans] at hspan
    exact ⟨span, hspan, (le_ratio_iff_of_uncut hhalf hone (hcut span hspan)).mp hreach⟩

lemma take_drop_one {α : Type*} (xs : List α) (i : ℕ) :
    (xs.take (i + 1)).drop i = xs[i]?.toList := by
  rw [List.drop_take, Nat.add_sub_cancel_left, List.take_one, List.head?_drop]

/-- The window of one word. -/
lemma windowSpan_one (wordsSpans : List (ℕ × ℕ)) (i : ℕ) :
    windowSpan wordsSpans (1, i) = wordsSpans[i]? := by
  simp only [windowSpan, take_drop_one]
  cases wordsSpans[i]? <;> rfl

/-- 500 words of one letter and the value after them. -/
def longText : Str := (List.replicate 500 ['a', ' ']).flatten ++ "zz".toList

/-- A letter of the text is compared as it is, and a blank as nothing. -/
lemma normalizeText_longText {c : Char} (h : c ∈ longText) :
    normalizeText asciiData [c] ∈ [[], ['a'], ['z']] := by
  have ha : normalizeText asciiData ['a'] = ['a'] := by rfl
  have hblank : normalizeText asciiData [' '] = [] := by rfl
  have hz : normalizeText asciiData ['z'] = ['z'] := by rfl
  rw [longText, List.mem_append] at h
  obtain h | h := h
  · obtain ⟨word, hword, hc⟩ := List.mem_flatten.mp h
    rw [List.eq_of_mem_replicate hword, List.mem_cons, List.mem_singleton] at hc
    obtain rfl | rfl := hc
    · simp [ha]
    · simp [hblank]
  · obtain rfl : c = 'z' := by simpa using h
    simp [hz]

/-- What the two scans compute of the text. -/
lemma longText_values :
    (∀ w ∈ sampledWindows asciiData "zz".toList longText, w.1 = 1 ∧ w.2 < 500) ∧
      (∀ span ∈ (Str.wordSpans longText).take 500, span.2 = span.1 + 1) ∧
      (1, 500) ∈ allWindows asciiData "zz".toList longText ∧
      windowSpan (Str.wordSpans longText) (1, 500) = some (1000, 1002) ∧
      spanText asciiData longText (1000, 1002) = "zz".toList ∧
      (∀ t ∈ [[], ['a'], ['z']],
        ¬92 / 100 ≤ levenshteinRatio asciiData (normalizeText asciiData "zz".toList) t) ∧
      92 / 100 ≤ Standalone.levenshteinRatio asciiData (normalizeText asciiData "zz".toList)
        "zz".toList := by
  decide +kernel

/-- A window that the capped scan compares is one letter of the text. -/
lemma spanText_longText {span : ℕ × ℕ} (h : span ∈ sampledSpans asciiData "zz".toList longText) :
    spanText asciiData longText span ∈ [[], ['a'], ['z']] := by
  obtain ⟨w, hw, hspan⟩ := List.mem_filterMap.mp h
  obtain ⟨hsampled, hwidth, -⟩ := longText_values
  obtain ⟨length, i⟩ := w
  obtain ⟨rfl, hi⟩ := hsampled _ hw
  have hone : span.2 = span.1 + 1 := by
    rw [windowSpan_one] at hspan
    refine hwidth span (List.mem_of_getElem? (i := i) ?_)
    rwa [List.getElem?_take_of_lt hi]
  rw [spanText, Str.slice, hone, take_drop_one]
  cases hc : longText[span.1]? with
  | none => exact List.mem_cons_self
  | some c => exact normalizeText_longText (List.mem_of_getElem? hc)

end

end AxiomGrid.Grounding

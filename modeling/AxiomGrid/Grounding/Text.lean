import Mathlib.Data.Finset.Dedup
import Mathlib.Data.Finset.Card
import AxiomGrid.Grounding.Levenshtein

/-!
# Text helpers of the verifiers

`normalize_text` and `best_fuzzy_match` of `kernel/core/grounding.py` and of
`kernel/core/verifier_standalone.py`. The two modules hold the same `normalize_text`; their window
scans differ in the ratio they compute and in the cap on the number of windows.
-/

namespace AxiomGrid.Grounding

variable (u : UnicodeData)

/-- The class `[^\w\s\-\.]` of the punctuation that is removed. -/
def isPunctuation (c : Char) : Bool :=
  !(u.isAlnum c || c == '_' || Str.isSpace c || c == '-' || c == '.')

def isCurrency (c : Char) : Bool := c == '$' || c == '€' || c == '£' || c == '¥'

/-- `normalize_text`. -/
def normalizeText (text : Str) : Str :=
  let text := Str.strip (Str.lower u text)
  let text := text.filter fun c => !isPunctuation u c
  let text := Str.unwords (Str.split text)
  text.filter fun c => !isCurrency c

/-! ### Windows of words -/

/-- The best window so far: `best_ratio` and `best_span`. -/
structure BestSpan where
  ratio : ℚ
  span : ℕ × ℕ
  deriving DecidableEq

/-- The body of the scan: compare the window of `length` words from word `i` on. The windows that
are scanned end inside the text, so the slice of spans is never empty. -/
def scanWindow (ratioWith : Str → ℚ) (text : Str) (wordsSpans : List (ℕ × ℕ)) (length : ℕ)
    (best : BestSpan) (i : ℕ) : BestSpan :=
  let window := (wordsSpans.take (i + length)).drop i
  match window.head?, window.getLast? with
  | some first, some last =>
    let ratio := ratioWith (normalizeText u (Str.slice text first.1 last.2))
    if best.ratio < ratio then ⟨ratio, first.1, last.2⟩ else best
  | _, _ => best

/-- `range(max(1, n - 1), min(total + 1, n + 3))`. -/
def windowLengths (n total : ℕ) : List ℕ :=
  let start := max 1 (n - 1)
  List.range' start (min (total + 1) (n + 3) - start)

def maxWindows : ℕ := 500

/-- The start positions of the windows of one length: all of them, or `_MAX_WINDOWS` evenly spaced
ones. -/
def windowStarts (numWindows : ℕ) : List ℕ :=
  if numWindows ≤ maxWindows then List.range numWindows
  else (List.range maxWindows).map fun i => i * numWindows / maxWindows

/-- The windows of all lengths in the order of the scan, as pairs of length and start position. -/
def windows (starts : ℕ → List ℕ) (n total : ℕ) : List (ℕ × ℕ) :=
  (windowLengths n total).flatMap fun length =>
    (starts (total - length + 1)).map fun i => (length, i)

/-- `best_fuzzy_match` of the grounding cascade. The counter `windows_scanned` stops the scan over
all lengths after `_MAX_WINDOWS` windows. -/
def bestFuzzyMatch (value text : Str) : BestSpan :=
  let valNorm := normalizeText u value
  if valNorm = [] then ⟨0, 0, 0⟩
  else
    let n := (Str.split valNorm).length
    let wordsSpans := Str.wordSpans text
    if wordsSpans = [] then ⟨0, 0, 0⟩
    else
      ((windows windowStarts n wordsSpans.length).take maxWindows).foldl
        (fun best (length, i) =>
          scanWindow u (levenshteinRatio u valNorm) text wordsSpans length best i) ⟨0, 0, 0⟩

end AxiomGrid.Grounding

namespace AxiomGrid.Standalone

open AxiomGrid.Grounding (BestSpan scanWindow windows)

variable (u : UnicodeData)

/-- `normalize_text` of the standalone verifier. -/
def normalizeText (text : Str) : Str := Grounding.normalizeText u text

/-- `best_fuzzy_match` of the standalone verifier, which scans every window. -/
def bestFuzzyMatch (value text : Str) : BestSpan :=
  let valNorm := normalizeText u value
  if valNorm = [] then ⟨0, 0, 0⟩
  else
    let n := (Str.split valNorm).length
    let wordsSpans := Str.wordSpans text
    if wordsSpans = [] then ⟨0, 0, 0⟩
    else
      (windows List.range n wordsSpans.length).foldl
        (fun best (length, i) =>
          scanWindow u (levenshteinRatio u valNorm) text wordsSpans length best i) ⟨0, 0, 0⟩

/-- `jaccard_similarity`. -/
def jaccardSimilarity (s1 s2 : Str) : ℚ :=
  let tokens1 := (Str.split (normalizeText u s1)).toFinset
  let tokens2 := (Str.split (normalizeText u s2)).toFinset
  if tokens1 = ∅ ∧ tokens2 = ∅ then 1
  else if tokens1 = ∅ ∨ tokens2 = ∅ then 0
  else (tokens1 ∩ tokens2).card / (tokens1 ∪ tokens2).card

/-- `semantic_re_verify`. -/
def semanticReVerify (claimedQuote regionText : Str) : Bool :=
  let claimWords := (Str.split (normalizeText u claimedQuote)).toFinset
  let regionWords := (Str.split (normalizeText u regionText)).toFinset
  let claimContent := claimWords.filter fun w => 2 < w.length
  if claimContent = ∅ then 0 < claimWords.card && 0 < (claimWords ∩ regionWords).card
  else 0 < (claimContent ∩ regionWords).card

/-- The re-verification asks for a word that the quote and the region share. -/
lemma exists_shared_word {claimedQuote regionText : Str}
    (h : semanticReVerify u claimedQuote regionText = true) :
    ∃ w ∈ Str.split (normalizeText u claimedQuote), w ∈ Str.split (normalizeText u regionText) := by
  simp only [semanticReVerify] at h
  split_ifs at h with hcontent
  · rw [Bool.and_eq_true, decide_eq_true_eq, decide_eq_true_eq] at h
    obtain ⟨w, hw⟩ := Finset.card_pos.mp h.2
    rw [Finset.mem_inter, List.mem_toFinset, List.mem_toFinset] at hw
    exact ⟨w, hw⟩
  · rw [decide_eq_true_eq] at h
    obtain ⟨w, hw⟩ := Finset.card_pos.mp h
    rw [Finset.mem_inter, Finset.mem_filter, List.mem_toFinset, List.mem_toFinset] at hw
    exact ⟨w, hw.1.1, hw.2⟩

end AxiomGrid.Standalone

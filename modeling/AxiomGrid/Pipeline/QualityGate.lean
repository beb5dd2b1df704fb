import Mathlib.Tactic.Linarith
import Mathlib.Tactic.NormNum
import Mathlib.Algebra.Order.Field.Rat
import AxiomGrid.Pipeline.DataModel

/-!
# Quality gate

`LocalQualityGate.check` of `kernel/sidecar/quality_gate.py`. Confidences are floats without rounding,
NaN and the infinities included.
-/

namespace AxiomGrid.Pipeline

/-- `search_similar_corrections` of a store of past corrections. -/
abbrev CorrectionLookup := Str → Str → ℕ → List Correction

/-- A gate; the constructor refuses `block_threshold >= flag_threshold`. -/
structure LocalQualityGate where
  correctionStore : CorrectionLookup
  flagThreshold : PyFloat := .fin (1 / 2)
  blockThreshold : PyFloat := .fin (1 / 5)
  ordered : flagThreshold.le blockThreshold = false

/-- How much a verdict lets through. -/
def GateVerdict.permissiveness : GateVerdict → ℕ
  | block => 0
  | flag => 1
  | pass => 2

namespace LocalQualityGate

/-- The gate with its default thresholds. -/
def ofStore (correctionStore : CorrectionLookup) : LocalQualityGate where
  correctionStore := correctionStore
  ordered := by decide +kernel

variable (r : PyRepr) (self : LocalQualityGate)

/-- The grounding check fails. -/
def isUngrounded (extraction : Extraction) : Bool :=
  extraction.chunkId = [] ∨ Str.strip extraction.chunkId = [] ∨ extraction.method = .block ∨
    extraction.anchors = []

def ungroundedReason : String :=
  "UNGROUNDED: extraction has no chunk_id, has grounding method BLOCK, or has no anchors — " ++
    "value is not traceable to source."

/-- The reason given for a past correction that contradicts the value. -/
def conflictReason (value : Str) (corr : Correction) : String :=
  "CORRECTION_CONFLICT: prior correction (corr_id=" ++ String.ofList corr.corrId ++ ") changed '" ++
    String.ofList corr.original ++ "' → '" ++ String.ofList corr.corrected ++
    "', but current value is '" ++ String.ofList value ++ "'."

/-- `_calibrate_with_corrections`: the calibrated confidence and the reasons it adds. -/
def calibrateWithCorrections (extraction : Extraction) (confidence : PyFloat) :
    PyFloat × List String :=
  let corrections := self.correctionStore extraction.fieldName extraction.value 5
  let conflicts := corrections.filter fun corr => corr.corrected ≠ extraction.value
  let contradictions := conflicts.length
  let reasons := conflicts.map (conflictReason extraction.value)
  if 0 < contradictions then
    let totalPenalty := PyFloat.mul (contradictions : PyFloat) (.fin (15 / 100))
    (confidence.sub totalPenalty,
      reasons ++ ["CONFIDENCE_LOWERED: " ++ toString contradictions ++
        " contradicting correction(s), penalty=" ++ totalPenalty.fixed 2 ++ "."])
  else (confidence, reasons)

/-- `_route_verdict`: the verdict and the reasons it adds. -/
def routeVerdict (confidence : PyFloat) : GateVerdict × List String :=
  if confidence.lt self.blockThreshold then
    (.block, ["VERDICT_BLOCK: confidence " ++ confidence.fixed 4 ++ " < block_threshold " ++
      r.float self.blockThreshold ++ "."])
  else if confidence.lt self.flagThreshold then
    (.flag, ["VERDICT_FLAG: confidence " ++ confidence.fixed 4 ++ " < flag_threshold " ++
      r.float self.flagThreshold ++ ". Routing to human_review."])
  else (.pass, [])

/-- The confidence after the grounding check, the calibration and the clamp. -/
def calibrated (extraction : Extraction) : PyFloat :=
  let confidence :=
    if isUngrounded extraction then
      PyFloat.min extraction.confidence (self.blockThreshold.sub (.fin (1 / 100)))
    else extraction.confidence
  let confidence := (self.calibrateWithCorrections extraction confidence).1
  PyFloat.max (.fin 0) (PyFloat.min (.fin 1) confidence)

/-- `check`. -/
def check (extraction : Extraction) : GateResult :=
  let confidence := self.calibrated extraction
  let verdict := self.routeVerdict r confidence
  { verdict := verdict.1
    calibratedConfidence := confidence.round 4
    reasons :=
      (if isUngrounded extraction then [ungroundedReason] else []) ++
        -- the reasons of the calibration do not depend on the confidence
        (self.calibrateWithCorrections extraction extraction.confidence).2 ++ verdict.2 }

/-! ### Routing -/

/-- How many past corrections contradict the value. -/
def contradictions (extraction : Extraction) : ℕ :=
  ((self.correctionStore extraction.fieldName extraction.value 5).filter
    fun corr => corr.corrected ≠ extraction.value).length

/-- A confidence after `n` contradictions; only a finite one can be lowered. -/
def lowered (n : ℕ) : PyFloat → PyFloat
  | .fin q => .fin (q - n * (15 / 100))
  | x => x

/-- The clamp to `[0, 1]`. NaN is not below one, so that `min(1.0, nan)` is one. -/
def clamp : PyFloat → ℚ
  | .fin q => max 0 (min 1 q)
  | .inf negative => if negative then 0 else 1
  | .nan => 1

lemma calibrateWithCorrections_fst (extraction : Extraction) (confidence : PyFloat) :
    (self.calibrateWithCorrections extraction confidence).1 =
      lowered (self.contradictions extraction) confidence := by
  simp only [calibrateWithCorrections]
  rw [← contradictions]
  split_ifs with h
  · cases confidence with
    | fin q => exact PyFloat.sub_fin _ _
    | inf negative => rfl
    | nan => rfl
  · cases confidence with
    | fin q => simp [lowered, Nat.eq_zero_of_not_pos h]
    | inf negative => rfl
    | nan => rfl

lemma max_min_eq (x : PyFloat) :
    PyFloat.max (.fin 0) (PyFloat.min (.fin 1) x) = .fin (clamp x) := by
  cases x with
  | fin q => rw [PyFloat.min_fin, PyFloat.max_fin, clamp]
  | inf negative => cases negative <;> rfl
  | nan => rfl

/-- The confidence after the grounding check. -/
def grounded (extraction : Extraction) : PyFloat :=
  if isUngrounded extraction then
    PyFloat.min extraction.confidence (self.blockThreshold.sub (.fin (1 / 100)))
  else extraction.confidence

lemma calibrated_eq (extraction : Extraction) :
    self.calibrated extraction =
      .fin (clamp (lowered (self.contradictions extraction) (self.grounded extraction))) := by
  rw [← max_min_eq, ← calibrateWithCorrections_fst]
  rfl

lemma verdict_eq (extraction : Extraction) :
    (self.check r extraction).verdict = (self.routeVerdict r
      (.fin (clamp (lowered (self.contradictions extraction) (self.grounded extraction))))).1 := by
  rw [← calibrated_eq]
  rfl

lemma routeVerdict_eq_block_iff (x : PyFloat) :
    (self.routeVerdict r x).1 = .block ↔ x.lt self.blockThreshold = true := by
  simp only [routeVerdict]
  split_ifs with hblock hflag
  · exact iff_of_true rfl hblock
  · exact iff_of_false nofun hblock
  · exact iff_of_false nofun hblock

/-! ### Ungrounded extractions -/

variable {self}

/-- The clamped confidence of an ungrounded extraction is below a positive block threshold, unless
it is NaN. -/
lemma clamp_lt_of_ungrounded (hpos : PyFloat.lt (.fin 0) self.blockThreshold = true)
    {extraction : Extraction} (hungrounded : isUngrounded extraction = true)
    (hnan : extraction.confidence ≠ .nan) (n : ℕ) :
    PyFloat.lt (.fin (clamp (lowered n (self.grounded extraction)))) self.blockThreshold = true := by
  rw [grounded, if_pos hungrounded]
  have hpenalty : (0 : ℚ) ≤ n * (15 / 100) := by positivity
  cases hblock : self.blockThreshold with
  | nan => rw [hblock] at hpos; cases hpos
  | inf negative =>
    rw [hblock] at hpos
    cases negative with
    | true => cases hpos
    | false => rfl
  | fin β =>
    rw [hblock, PyFloat.lt_fin, decide_eq_true_eq] at hpos
    have hlt : ∀ q ≤ β - 1 / 100, clamp (lowered n (.fin q)) < β := by
      intro q hq
      apply max_lt hpos
      calc min 1 (q - n * (15 / 100)) ≤ q - n * (15 / 100) := min_le_right _ _
        _ ≤ q := sub_le_self _ hpenalty
        _ ≤ β - 1 / 100 := hq
        _ < β := by linarith
    rw [PyFloat.sub_fin, PyFloat.lt_fin, decide_eq_true_eq]
    cases hconf : extraction.confidence with
    | nan => exact absurd hconf hnan
    | fin q =>
      rw [PyFloat.min_fin]
      exact hlt _ (min_le_right _ _)
    | inf negative =>
      cases negative with
      | true => exact hpos
      | false => exact hlt _ le_rfl

/-- An ungrounded extraction whose confidence is NaN is routed as if it were certain. -/
lemma clamp_of_nan {extraction : Extraction} (hungrounded : isUngrounded extraction = true)
    (hnan : extraction.confidence = .nan) (n : ℕ) :
    clamp (lowered n (self.grounded extraction)) = 1 := by
  have hmin : ∀ x, PyFloat.min .nan x = .nan := by
    intro x
    cases x <;> rfl
  rw [grounded, if_pos hungrounded, hnan, hmin]
  rfl

lemma check_ungrounded_iff (hpos : PyFloat.lt (.fin 0) self.blockThreshold = true)
    {extraction : Extraction} (hungrounded : isUngrounded extraction = true) :
    (self.check r extraction).verdict = .block ↔
      extraction.confidence ≠ .nan ∨ PyFloat.lt (.fin 1) self.blockThreshold = true := by
  rw [verdict_eq, routeVerdict_eq_block_iff]
  by_cases hnan : extraction.confidence = .nan
  · rw [clamp_of_nan hungrounded hnan]
    simp [hnan]
  · exact iff_of_true (clamp_lt_of_ungrounded hpos hungrounded hnan _) (.inl hnan)

/-- With the default thresholds an ungrounded extraction of finite confidence is blocked. -/
lemma check_ungrounded {lookup : CorrectionLookup} {extraction : Extraction}
    (hfinite : extraction.confidence.isFinite = true)
    (hungrounded : isUngrounded extraction = true) :
    ((ofStore lookup).check r extraction).verdict = .block := by
  have hpos : PyFloat.lt (.fin 0) (ofStore lookup).blockThreshold = true := by
    simp [ofStore]
  apply (check_ungrounded_iff r hpos hungrounded).mpr
  left
  intro hnan
  rw [hnan] at hfinite
  cases hfinite

/-! ### Contradictions -/

lemma clamp_lowered_anti (x : PyFloat) {m n : ℕ} (h : m ≤ n) :
    clamp (lowered n x) ≤ clamp (lowered m x) := by
  cases x with
  | fin q =>
    have hcast : (m : ℚ) ≤ n := by exact_mod_cast h
    apply max_le_max le_rfl
    apply min_le_min le_rfl
    linarith
  | inf negative => exact le_rfl
  | nan => exact le_rfl

lemma routeVerdict_mono {p q : ℚ} (h : p ≤ q) :
    (self.routeVerdict r (.fin p)).1.permissiveness ≤
      (self.routeVerdict r (.fin q)).1.permissiveness := by
  have hlt : ∀ t, PyFloat.lt (.fin q) t = true → PyFloat.lt (.fin p) t = true := by
    intro t ht
    cases t with
    | fin t =>
      rw [PyFloat.lt_fin, decide_eq_true_eq] at ht ⊢
      exact h.trans_lt ht
    | inf negative => exact ht
    | nan => exact ht
  simp only [routeVerdict]
  by_cases hblock : PyFloat.lt (.fin q) self.blockThreshold = true
  · rw [if_pos hblock, if_pos (hlt _ hblock)]
  · rw [if_neg hblock]
    by_cases hflag : PyFloat.lt (.fin q) self.flagThreshold = true
    · rw [if_pos hflag, if_pos (hlt _ hflag)]
      split_ifs
      · exact Nat.zero_le _
      · exact le_rfl
    · rw [if_neg hflag]
      split_ifs
      · exact Nat.zero_le _
      · exact Nat.le_succ 1
      · exact le_rfl

/-- The same gate over another history. -/
def withHistory (self : LocalQualityGate) (history : List Correction) : LocalQualityGate :=
  { self with correctionStore := fun _ _ _ => history }

lemma contradictions_withHistory (history : List Correction) (extraction : Extraction) :
    (self.withHistory history).contradictions extraction =
      (history.filter fun corr => corr.corrected ≠ extraction.value).length := rfl

/-- One more contradiction in the history never makes the verdict more permissive. -/
lemma check_add_contradiction (before after : List Correction) {corr : Correction}
    {extraction : Extraction} (hcorr : corr.corrected ≠ extraction.value) :
    ((self.withHistory (before ++ corr :: after)).check r extraction).verdict.permissiveness ≤
      ((self.withHistory (before ++ after)).check r extraction).verdict.permissiveness := by
  rw [verdict_eq, verdict_eq]
  apply routeVerdict_mono
  apply clamp_lowered_anti
  rw [contradictions_withHistory, contradictions_withHistory]
  rw [List.filter_append, List.filter_append, List.filter_cons_of_pos (by simpa using hcorr)]
  simp only [List.length_append, List.length_cons]
  omega

/-- What is asked of the gate on one extraction: it blocks what is not grounded, and a further
contradiction never makes it let more through. -/
def FailClosed (self : LocalQualityGate) (extraction : Extraction) : Prop :=
  ∀ history : List Correction,
    (isUngrounded extraction = true →
      ((self.withHistory history).check r extraction).verdict = .block) ∧
    ∀ before after corr, history = before ++ after → corr.corrected ≠ extraction.value →
      ((self.withHistory (before ++ corr :: after)).check r extraction).verdict.permissiveness ≤
        ((self.withHistory history).check r extraction).verdict.permissiveness

/-- The gate fails closed except on an ungrounded extraction whose confidence is NaN, under a block
threshold of at most one: NaN survives `min` and the penalties, and the clamp turns it into one. -/
theorem failClosed_iff (hpos : PyFloat.lt (.fin 0) self.blockThreshold = true)
    (extraction : Extraction) :
    FailClosed r self extraction ↔ (isUngrounded extraction = true →
      extraction.confidence ≠ .nan ∨ PyFloat.lt (.fin 1) self.blockThreshold = true) := by
  have hblock : ∀ history, isUngrounded extraction = true →
      (((self.withHistory history).check r extraction).verdict = .block ↔
        extraction.confidence ≠ .nan ∨ PyFloat.lt (.fin 1) self.blockThreshold = true) :=
    fun history h => @check_ungrounded_iff r (self.withHistory history) hpos extraction h
  constructor
  · intro h hungrounded
    exact (hblock [] hungrounded).mp ((h []).1 hungrounded)
  · intro h history
    refine ⟨fun hungrounded => (hblock history hungrounded).mpr (h hungrounded), ?_⟩
    rintro before after corr rfl hcorr
    exact check_add_contradiction r before after hcorr

namespace Sample

/-- No corrections. -/
def gate : LocalQualityGate := ofStore fun _ _ _ => []

/-- A value that no chunk supports, with a confidence that is not a number. -/
def guess : Extraction where
  extId := []
  value := "42".toList
  confidence := .nan

def plain : PyRepr where
  float := fun _ => ""
  str := id

end Sample

theorem failClosed_iff_sample :
    FailClosed Sample.plain Sample.gate { Sample.guess with confidence := .inf false } :=
  (failClosed_iff Sample.plain (by decide +kernel) _).mpr fun _ => .inl nofun

/-- A value without chunk, method or anchors passes the gate. -/
theorem passes_ungrounded_nan :
    PyFloat.lt (.fin 0) Sample.gate.blockThreshold = true ∧
      isUngrounded Sample.guess = true ∧
      (Sample.gate.check Sample.plain Sample.guess).verdict = .pass ∧
      ¬ FailClosed Sample.plain Sample.gate Sample.guess := by
  have hpass : (Sample.gate.check Sample.plain Sample.guess).verdict = .pass := by decide +kernel
  refine ⟨by decide +kernel, by decide, hpass, ?_⟩
  intro h
  have hblock := (h []).1 (by decide)
  exact absurd (hblock.symm.trans hpass) nofun

end LocalQualityGate

end AxiomGrid.Pipeline

import AxiomGrid.Grounding.Text
import AxiomGrid.Lib.Loop
import AxiomGrid.Lib.PyFloat

/-!
# The standalone verifier

`StandaloneVerifier.verify` of `kernel/core/verifier_standalone.py`: a claimed quote and bounding box
are checked against the stored regions of a document in four stages. Coordinates, scores and
thresholds are exact rationals.

A stage is a computation in `Except Verified`: it stops with the acceptance it returns, or hands the
best scores seen so far to the next stage.
-/

namespace AxiomGrid.Standalone

/-! ### Data -/

/-- `VerifyMethod`. -/
inductive VerifyMethod where
  | exact
  | fuzzy
  | semantic
  | visual
  | block
  deriving DecidableEq, Repr

/-- `RejectReason`. -/
inductive RejectReason where
  | offPage
  | emptyQuote
  | noMatch
  | bboxMismatch
  | whitespace
  deriving DecidableEq, Repr

/-- A bounding box; one with its corners the wrong way round cannot be constructed. -/
structure BBox where
  x0 : ℚ
  y0 : ℚ
  x1 : ℚ
  y1 : ℚ
  x_le : x0 ≤ x1
  y_le : y0 ≤ y1
  deriving DecidableEq

def BBox.area (b : BBox) : ℚ := (b.x1 - b.x0) * (b.y1 - b.y0)

/-- A region of the stored geometry. -/
structure StoredRegion where
  text : Str
  bbox : BBox
  page : ℤ := 1
  regionId : Str := []
  deriving DecidableEq

structure PageBounds where
  width : ℚ
  height : ℚ

/-- The claim was accepted. -/
structure Verified where
  method : VerifyMethod
  matchedText : Str
  matchedBbox : BBox
  matchedRegionId : Str
  similarity : ℚ
  iou : ℚ
  page : ℤ := 1
  deriving DecidableEq

/-- The claim was rejected. -/
structure Rejected where
  reason : RejectReason
  bestSimilarity : ℚ
  bestIou : ℚ
  detail : String := ""
  deriving DecidableEq

/-- What `verify` returns. -/
inductive Verdict where
  | verified (v : Verified)
  | rejected (r : Rejected)
  deriving DecidableEq

/-! ### Geometry -/

/-- `compute_iou`. -/
def computeIou (a b : BBox) : ℚ :=
  let ix0 := max a.x0 b.x0
  let iy0 := max a.y0 b.y0
  let ix1 := min a.x1 b.x1
  let iy1 := min a.y1 b.y1
  let interW := ix1 - ix0
  let interH := iy1 - iy0
  if interW ≤ 0 ∨ interH ≤ 0 then 0
  else
    let interArea := interW * interH
    let unionArea := a.area + b.area - interArea
    if unionArea ≤ 0 then 0 else interArea / unionArea

/-- `bbox_within_page`. -/
def bboxWithinPage (bbox : BBox) : Option PageBounds → Bool
  | none => true
  | some page =>
    if bbox.x0 < 0 ∨ bbox.y0 < 0 then false
    else !(page.width < bbox.x1 || page.height < bbox.y1)

/-- `bbox_over_whitespace` at its default threshold 0.1. -/
def bboxOverWhitespace (claimedBbox : BBox) (regions : List StoredRegion) : Bool :=
  regions.all fun region => computeIou claimedBbox region.bbox < 1 / 10

/-! ### The cascade -/

/-- The thresholds of a verifier. -/
structure StandaloneVerifier where
  fuzzyThreshold : ℚ := 92 / 100
  semanticThreshold : ℚ := 86 / 100
  visualIouThreshold : ℚ := 1 / 2

/-- The variables `best_sim` and `best_iou` that the stages share. -/
structure Best where
  sim : ℚ
  iou : ℚ

/-- The acceptance of a region. -/
def accept (method : VerifyMethod) (region : StoredRegion) (similarity iou : ℚ) : Verified where
  method := method
  matchedText := region.text
  matchedBbox := region.bbox
  matchedRegionId := region.regionId
  similarity := similarity
  iou := iou
  page := region.page

section

variable (u : UnicodeData) (self : StandaloneVerifier) (claimedQuote : Str) (claimedBbox : BBox)

/-- EXACT: the first region that contains the normalised quote and overlaps the box. -/
def exactStage (storedGeometry : List StoredRegion) (best : Best) : Except Verified Best :=
  storedGeometry.foldlM
    (fun best region =>
      if Str.contains (normalizeText u claimedQuote) (normalizeText u region.text) then
        let iou := computeIou claimedBbox region.bbox
        if self.visualIouThreshold ≤ iou then .error (accept .exact region 1 iou)
        else .ok ⟨1, max best.iou iou⟩
      else .ok best)
    best

/-- FUZZY: the region with the best ratio over all regions, if it reaches the threshold. -/
def fuzzyStage (storedGeometry : List StoredRegion) (best : Best) : Except Verified Best :=
  let (bestFuzzyRatio, bestFuzzyRegion) :=
    storedGeometry.bestBy (fun p q => decide (p < q)) (fun _ => true)
      (fun region => (bestFuzzyMatch u claimedQuote region.text).ratio) (0 : ℚ)
  match bestFuzzyRegion with
  | none => .ok best
  | some region =>
    if self.fuzzyThreshold ≤ bestFuzzyRatio then
      let iou := computeIou claimedBbox region.bbox
      if self.visualIouThreshold ≤ iou then .error (accept .fuzzy region bestFuzzyRatio iou)
      else .ok ⟨max best.sim bestFuzzyRatio, max best.iou iou⟩
    else .ok best

/-- SEMANTIC: the region with the best Jaccard similarity, if it reaches the threshold and shares a
word with the quote. -/
def semanticStage (storedGeometry : List StoredRegion) (best : Best) : Except Verified Best :=
  let (bestSemScore, bestSemRegion) :=
    storedGeometry.bestBy (fun p q => decide (p < q)) (fun _ => true)
      (fun region => jaccardSimilarity u claimedQuote region.text) (0 : ℚ)
  match bestSemRegion with
  | none => .ok best
  | some region =>
    if self.semanticThreshold ≤ bestSemScore then
      let best := { best with sim := max best.sim bestSemScore }
      if semanticReVerify u claimedQuote region.text then
        let iou := computeIou claimedBbox region.bbox
        if self.visualIouThreshold ≤ iou then .error (accept .semantic region bestSemScore iou)
        else .ok { best with iou := max best.iou iou }
      else .ok best
    else .ok best

/-- VISUAL: the first region that overlaps the box and contains the quote, verbatim or by ratio. -/
def visualStage (storedGeometry : List StoredRegion) (best : Best) : Except Verified Best :=
  storedGeometry.foldlM
    (fun best region =>
      let iou := computeIou claimedBbox region.bbox
      let best := { best with iou := max best.iou iou }
      if self.visualIouThreshold ≤ iou then
        if Str.contains (normalizeText u claimedQuote) (normalizeText u region.text) then
          .error (accept .visual region 1 iou)
        else
          let fuzzyRatio := (bestFuzzyMatch u claimedQuote region.text).ratio
          if self.fuzzyThreshold ≤ fuzzyRatio then .error (accept .visual region fuzzyRatio iou)
          else .ok best
      else .ok best)
    best

/-- BLOCK: the reason of the rejection. `repr` prints a float. -/
def block (repr : ℚ → String) (storedGeometry : List StoredRegion) (best : Best) : Rejected :=
  let sim := PyFloat.fixedRat 3 best.sim
  let iou := PyFloat.fixedRat 3 best.iou
  let (reason, detail) :=
    if self.fuzzyThreshold ≤ best.sim ∨ self.semanticThreshold ≤ best.sim then
      (RejectReason.bboxMismatch,
        "text matched (sim=" ++ sim ++ ") but bbox IoU=" ++ iou ++ " < " ++
          repr self.visualIouThreshold)
    else if self.visualIouThreshold ≤ best.iou then
      (.noMatch,
        "bbox overlapped (IoU=" ++ iou ++ ") but text didn't match (best_sim=" ++ sim ++ ")")
    else if bboxOverWhitespace claimedBbox storedGeometry then
      (.whitespace, "bbox over whitespace, no region overlap (best_iou=" ++ iou ++ ")")
    else (.noMatch, "no match (best_sim=" ++ sim ++ ", best_iou=" ++ iou ++ ")")
  { reason, bestSimilarity := best.sim, bestIou := best.iou, detail }

/-- The stages in their order. -/
def cascade (storedGeometry : List StoredRegion) : Except Verified Best := do
  let best ← exactStage u self claimedQuote claimedBbox storedGeometry ⟨0, 0⟩
  let best ← fuzzyStage u self claimedQuote claimedBbox storedGeometry best
  let best ← semanticStage u self claimedQuote claimedBbox storedGeometry best
  visualStage u self claimedQuote claimedBbox storedGeometry best

def BBox.repr (repr : ℚ → String) (b : BBox) : String :=
  "BBox(x0=" ++ repr b.x0 ++ ", y0=" ++ repr b.y0 ++ ", x1=" ++ repr b.x1 ++ ", y1=" ++ repr b.y1 ++ ")"

def PageBounds.repr (repr : ℚ → String) (page : PageBounds) : String :=
  "PageBounds(width=" ++ repr page.width ++ ", height=" ++ repr page.height ++ ")"

/-- The detail of an OFF_PAGE rejection. -/
def offPageDetail (repr : ℚ → String) (page : Option PageBounds) : String :=
  "bbox " ++ claimedBbox.repr repr ++ " outside page " ++ page.elim "None" (PageBounds.repr repr)

/-- `StandaloneVerifier.verify`. -/
def verify (repr : ℚ → String) (storedGeometry : List StoredRegion)
    (pageBounds : Option PageBounds) : Verdict :=
  if storedGeometry = [] then .rejected ⟨.noMatch, 0, 0, "no stored geometry"⟩
  else if pageBounds.isSome ∧ bboxWithinPage claimedBbox pageBounds = false then
    .rejected ⟨.offPage, 0, 0, offPageDetail claimedBbox repr pageBounds⟩
  else if normalizeText u claimedQuote = [] then
    .rejected ⟨.emptyQuote, 0, 0, "claimed quote is empty after normalization"⟩
  else
    match cascade u self claimedQuote claimedBbox storedGeometry with
    | .error v => .verified v
    | .ok best => .rejected (block self claimedBbox repr storedGeometry best)

/-! ### What an acceptance says -/

/-- The text of the region supports the quote, by one of the three rules of the cascade. -/
def Supports (region : StoredRegion) : Prop :=
  Str.contains (normalizeText u claimedQuote) (normalizeText u region.text) = true ∨
  self.fuzzyThreshold ≤ (bestFuzzyMatch u claimedQuote region.text).ratio ∨
  (self.semanticThreshold ≤ jaccardSimilarity u claimedQuote region.text ∧
    ∃ w ∈ Str.split (normalizeText u claimedQuote), w ∈ Str.split (normalizeText u region.text))

/-- The acceptance is of a stored region that overlaps the box and supports the quote. -/
def Grounded (storedGeometry : List StoredRegion) (v : Verified) : Prop :=
  ∃ region ∈ storedGeometry,
    v = accept v.method region v.similarity (computeIou claimedBbox region.bbox) ∧
    self.visualIouThreshold ≤ computeIou claimedBbox region.bbox ∧
    Supports u self claimedQuote region

variable {u self claimedQuote claimedBbox} {storedGeometry : List StoredRegion} {best best' : Best}
  {v : Verified}

lemma exactStage_error (h : exactStage u self claimedQuote claimedBbox storedGeometry best = .error v) :
    Grounded u self claimedQuote claimedBbox storedGeometry v := by
  obtain ⟨region, hregion, best', hbody⟩ := List.exists_of_foldlM_error h
  simp only at hbody
  split_ifs at hbody with htext hiou
  · cases hbody
    exact ⟨region, hregion, rfl, hiou, .inl htext⟩

lemma fuzzyStage_error (h : fuzzyStage u self claimedQuote claimedBbox storedGeometry best = .error v) :
    Grounded u self claimedQuote claimedBbox storedGeometry v := by
  simp only [fuzzyStage] at h
  split at h
  · cases h
  · rename_i region hregion
    obtain ⟨hmem, -, hratio⟩ := List.of_bestBy_eq_some hregion
    split_ifs at h with hfuzzy hiou
    · cases h
      rw [hratio] at hfuzzy
      exact ⟨region, hmem, rfl, hiou, .inr (.inl hfuzzy)⟩

lemma semanticStage_error
    (h : semanticStage u self claimedQuote claimedBbox storedGeometry best = .error v) :
    Grounded u self claimedQuote claimedBbox storedGeometry v := by
  simp only [semanticStage] at h
  split at h
  · cases h
  · rename_i region hregion
    obtain ⟨hmem, -, hscore⟩ := List.of_bestBy_eq_some hregion
    split_ifs at h with hsemantic hverify hiou
    · cases h
      rw [hscore] at hsemantic
      exact ⟨region, hmem, rfl, hiou, .inr (.inr ⟨hsemantic, exists_shared_word u hverify⟩)⟩

lemma visualStage_error
    (h : visualStage u self claimedQuote claimedBbox storedGeometry best = .error v) :
    Grounded u self claimedQuote claimedBbox storedGeometry v := by
  obtain ⟨region, hregion, best', hbody⟩ := List.exists_of_foldlM_error h
  simp only at hbody
  split_ifs at hbody with hiou htext hfuzzy
  · cases hbody
    exact ⟨region, hregion, rfl, hiou, .inl htext⟩
  · cases hbody
    exact ⟨region, hregion, rfl, hiou, .inr (.inl hfuzzy)⟩

/-- The last stage looks at every region, so what it lets through has neither the quote nor a close
window in a region that overlaps the box. -/
lemma visualStage_ok (h : visualStage u self claimedQuote claimedBbox storedGeometry best = .ok best') :
    ∀ region ∈ storedGeometry, self.visualIouThreshold ≤ computeIou claimedBbox region.bbox →
      ¬(Str.contains (normalizeText u claimedQuote) (normalizeText u region.text) = true ∨
        self.fuzzyThreshold ≤ (bestFuzzyMatch u claimedQuote region.text).ratio) := by
  intro region hregion hiou
  obtain ⟨b₁, b₂, hbody⟩ := List.forall_of_foldlM_ok h region hregion
  simp only at hbody
  rw [if_pos hiou] at hbody
  split_ifs at hbody with htext hfuzzy
  · rintro (h | h)
    · exact htext h
    · exact hfuzzy h

lemma cascade_error (h : cascade u self claimedQuote claimedBbox storedGeometry = .error v) :
    Grounded u self claimedQuote claimedBbox storedGeometry v := by
  obtain hexact | ⟨best, -, h⟩ := Except.of_bind_eq_error h
  · exact exactStage_error hexact
  obtain hfuzzy | ⟨best, -, h⟩ := Except.of_bind_eq_error h
  · exact fuzzyStage_error hfuzzy
  obtain hsemantic | ⟨best, -, hvisual⟩ := Except.of_bind_eq_error h
  · exact semanticStage_error hsemantic
  · exact visualStage_error hvisual

lemma cascade_ok (h : cascade u self claimedQuote claimedBbox storedGeometry = .ok best) :
    ∀ region ∈ storedGeometry, self.visualIouThreshold ≤ computeIou claimedBbox region.bbox →
      ¬(Str.contains (normalizeText u claimedQuote) (normalizeText u region.text) = true ∨
        self.fuzzyThreshold ≤ (bestFuzzyMatch u claimedQuote region.text).ratio) := by
  obtain ⟨_, -, h⟩ := Except.of_bind_eq_ok h
  obtain ⟨_, -, h⟩ := Except.of_bind_eq_ok h
  obtain ⟨_, -, h⟩ := Except.of_bind_eq_ok h
  exact visualStage_ok h

/-! ### Correctness -/

/-- The box lies on the page. -/
def OnPage (bbox : BBox) (page : PageBounds) : Prop :=
  0 ≤ bbox.x0 ∧ 0 ≤ bbox.y0 ∧ bbox.x1 ≤ page.width ∧ bbox.y1 ≤ page.height

lemma bboxWithinPage_iff {bbox : BBox} {pageBounds : Option PageBounds} :
    bboxWithinPage bbox pageBounds = true ↔ ∀ page, pageBounds = some page → OnPage bbox page := by
  cases pageBounds with
  | none => simp [bboxWithinPage]
  | some page =>
    simp only [bboxWithinPage, Option.some.injEq, forall_eq', OnPage]
    split_ifs with h
    · simp only [false_iff]
      rintro ⟨hx, hy, -⟩
      rcases h with h | h
      · exact absurd hx (not_le.mpr h)
      · exact absurd hy (not_le.mpr h)
    · rw [not_or, not_lt, not_lt] at h
      simp [h]

/-- What the verifier accepts is a stored region that overlaps the claimed box, on the page, whose
text supports the quote. A claim whose quote is not empty and whose box is on the page is rejected
only when no region both overlaps the box and holds the quote, verbatim or by ratio. -/
theorem verify_grounded (u : UnicodeData) (repr : ℚ → String) (self : StandaloneVerifier)
    (claimedQuote : Str) (claimedBbox : BBox) (storedGeometry : List StoredRegion)
    (pageBounds : Option PageBounds) :
    (∀ v, verify u self claimedQuote claimedBbox repr storedGeometry pageBounds = .verified v →
      ∃ region ∈ storedGeometry,
        (v.matchedText = region.text ∧ v.matchedBbox = region.bbox ∧
          v.matchedRegionId = region.regionId ∧ v.page = region.page) ∧
        v.iou = computeIou claimedBbox region.bbox ∧
        self.visualIouThreshold ≤ v.iou ∧
        (∀ page, pageBounds = some page → OnPage claimedBbox page) ∧
        Supports u self claimedQuote region) ∧
    (∀ r, verify u self claimedQuote claimedBbox repr storedGeometry pageBounds = .rejected r →
      normalizeText u claimedQuote ≠ [] →
      (∀ page, pageBounds = some page → OnPage claimedBbox page) →
      ¬∃ region ∈ storedGeometry,
        self.visualIouThreshold ≤ computeIou claimedBbox region.bbox ∧
        (Str.contains (normalizeText u claimedQuote) (normalizeText u region.text) = true ∨
          self.fuzzyThreshold ≤ (bestFuzzyMatch u claimedQuote region.text).ratio)) := by
  constructor
  · intro v hv
    simp only [verify] at hv
    split_ifs at hv with hempty hpage hquote
    split at hv
    · rename_i v' hcascade
      cases hv
      obtain ⟨region, hregion, hv, hiou, hsupports⟩ := cascade_error hcascade
      have hv_iou : v.iou = computeIou claimedBbox region.bbox := by rw [hv, accept]
      refine ⟨region, hregion, ?_, hv_iou, ?_, ?_, hsupports⟩
      · rw [hv]
        exact ⟨rfl, rfl, rfl, rfl⟩
      · rw [hv_iou]
        exact hiou
      · intro page hsome
        rw [not_and, hsome] at hpage
        exact bboxWithinPage_iff.mp (Bool.eq_true_of_not_eq_false (hpage rfl)) page rfl
    · cases hv
  · rintro r hr hquote hpage ⟨region, hregion, hiou, htext⟩
    simp only [verify] at hr
    have hwithin := bboxWithinPage_iff.mpr hpage
    rw [if_neg (List.ne_nil_of_mem hregion), if_neg (by simp [hwithin]), if_neg hquote] at hr
    split at hr
    · cases hr
    · rename_i best hcascade
      exact cascade_ok hcascade region hregion hiou htext

/-- An invoice line in the corner of a page. -/
def totalRegion : StoredRegion where
  text := "Total due: 42".toList
  bbox := ⟨0, 0, 10, 10, by decide, by decide⟩

/-- The quote "total due" on the region is accepted, the quote "vendor" is rejected. -/
theorem verify_grounded_totalRegion :
    verify asciiData {} "total due".toList totalRegion.bbox (fun _ => "0.5") [totalRegion]
        (some ⟨100, 100⟩) = .verified (accept .exact totalRegion 1 1) ∧
    Supports asciiData {} "total due".toList totalRegion ∧
    (∃ r, verify asciiData {} "vendor".toList totalRegion.bbox (fun _ => "0.5") [totalRegion]
        (some ⟨100, 100⟩) = .rejected r) ∧
    ¬Str.contains (normalizeText asciiData "vendor".toList)
        (normalizeText asciiData totalRegion.text) = true := by
  have haccept : verify asciiData {} "total due".toList totalRegion.bbox (fun _ => "0.5")
      [totalRegion] (some ⟨100, 100⟩) = .verified (accept .exact totalRegion 1 1) := by
    decide +kernel
  have hreject : verify asciiData {} "vendor".toList totalRegion.bbox (fun _ => "0.5")
      [totalRegion] (some ⟨100, 100⟩) = .rejected
        ⟨.noMatch, 0, 1, "bbox overlapped (IoU=1.000) but text didn't match (best_sim=0.000)"⟩ := by
    decide +kernel
  refine ⟨haccept, ?_, ⟨_, hreject⟩, fun h => ?_⟩
  · obtain ⟨region, hregion, -, -, -, -, hsupports⟩ :=
      (verify_grounded asciiData (fun _ => "0.5") {} "total due".toList totalRegion.bbox
        [totalRegion] (some ⟨100, 100⟩)).1 _ haccept
    rw [List.mem_singleton.mp hregion] at hsupports
    exact hsupports
  · have hpage : ∀ page, some (PageBounds.mk 100 100) = some page →
        OnPage totalRegion.bbox page := by
      rintro page ⟨⟩
      exact ⟨by decide, by decide, by decide, by decide⟩
    have hiou : (1 / 2 : ℚ) ≤ computeIou totalRegion.bbox totalRegion.bbox := by decide +kernel
    exact (verify_grounded asciiData (fun _ => "0.5") {} "vendor".toList totalRegion.bbox
      [totalRegion] (some ⟨100, 100⟩)).2 _ hreject (by decide +kernel) hpage
      ⟨totalRegion, List.mem_singleton_self _, hiou, .inl h⟩

end

end AxiomGrid.Standalone

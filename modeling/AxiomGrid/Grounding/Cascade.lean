import AxiomGrid.Grounding.Text
import AxiomGrid.Lib.Loop
import AxiomGrid.Pipeline.DataModel

/-!
# The grounding cascade

`GroundingVerifierImpl.verify` of `kernel/core/grounding.py`: a value is looked up in the chunks of a
document by four stages, each of which can be disabled, and is blocked when none of them finds it.

The embeddings are a parameter: they are normalised vectors of floats, and nothing here depends on
their values.
-/

namespace AxiomGrid.Grounding

open Pipeline

/-! ### Geometry -/

/-- `bbox_iou`. -/
def bboxIou (b1 b2 : BBox) : PyFloat :=
  let ix0 := PyFloat.max b1.x0 b2.x0
  let iy0 := PyFloat.max b1.y0 b2.y0
  let ix1 := PyFloat.min b1.x1 b2.x1
  let iy1 := PyFloat.min b1.y1 b2.y1
  let interW := PyFloat.max (.fin 0) (ix1.sub ix0)
  let interH := PyFloat.max (.fin 0) (iy1.sub iy0)
  let interArea := interW.mul interH
  let area1 := (b1.x1.sub b1.x0).mul (b1.y1.sub b1.y0)
  let area2 := (b2.x1.sub b2.x0).mul (b2.y1.sub b2.y0)
  let union := (area1.add area2).sub interArea
  if union.le (.fin 0) then .fin 0 else interArea.div union

/-- `_parse_candidate_bbox`: a span of the form `bbox:x0,y0,x1,y1`. -/
def parseCandidateBbox (u : UnicodeData) (sourceSpan : Str) : Option BBox :=
  if "bbox:".toList.isPrefixOf sourceSpan then
    match (sourceSpan.drop 5).splitOnP (· == ',') with
    | [p0, p1, p2, p3] => do
      let x0 ← PyFloat.parse u.decimal (Str.strip p0)
      let y0 ← PyFloat.parse u.decimal (Str.strip p1)
      let x1 ← PyFloat.parse u.decimal (Str.strip p2)
      let y1 ← PyFloat.parse u.decimal (Str.strip p3)
      BBox.mk? x0 y0 x1 y1
    | _ => none
  else none

/-! ### The stages -/

/-- `get_embedding` and `cosine_similarity`. -/
structure Embeddings where
  getEmbedding : Str → List PyFloat
  cosineSimilarity : List PyFloat → List PyFloat → PyFloat

/-- The thresholds of a verifier and the stages it skips. -/
structure GroundingVerifierImpl where
  fuzzyThreshold : ℚ := 92 / 100
  semanticThreshold : ℚ := 86 / 100
  visualThreshold : ℚ := 1 / 2
  disabledStages : List GroundingMethod := []

/-- The anchor of a chunk at a span. -/
def anchorAt (chunk : Chunk) (charSpan : ℕ × ℕ) : Anchor where
  chunkId := chunk.chunkId
  charSpan := charSpan
  page := chunk.page
  bbox := chunk.bbox

/-- The anchor of a whole chunk. -/
def anchorWhole (chunk : Chunk) : Anchor := anchorAt chunk (0, chunk.text.length)

section

variable (u : UnicodeData) (emb : Embeddings) (self : GroundingVerifierImpl)

/-- EXACT: the first chunk whose text contains the target. -/
def exactStage (target : Str) (chunks : List Chunk) : Option Anchor :=
  chunks.findSome? fun chunk =>
    (Str.find? (Str.lower u target) (Str.lower u chunk.text)).map fun start =>
      anchorAt chunk (start, start + target.length)

/-- FUZZY: the chunk with the best window at or above the threshold. -/
def fuzzyStage (target : Str) (chunks : List Chunk) : Option Anchor :=
  (chunks.bestBy (fun p q => decide (p < q))
    (fun chunk => self.fuzzyThreshold ≤ (bestFuzzyMatch u target chunk.text).ratio)
    (fun chunk => (bestFuzzyMatch u target chunk.text).ratio) (0 : ℚ)).2.map
    fun chunk => anchorAt chunk (bestFuzzyMatch u target chunk.text).span

/-- The similarity of a chunk to the target, with an embedding computed on demand. -/
def chunkSimilarity (target : Str) (chunk : Chunk) : PyFloat :=
  let chunkEmb := if chunk.embedding = [] then emb.getEmbedding chunk.text else chunk.embedding
  emb.cosineSimilarity (emb.getEmbedding target) chunkEmb

/-- SEMANTIC: the most similar chunk at or above the threshold, if it shares a word with the target
or the target has none. -/
def semanticStage (target : Str) (chunks : List Chunk) : Option Anchor :=
  (chunks.bestBy PyFloat.lt
    (fun chunk => (PyFloat.fin self.semanticThreshold).le (chunkSimilarity emb target chunk))
    (chunkSimilarity emb target) (.fin 0)).2.bind
    fun chunk =>
      let chunkWords := (Str.split (normalizeText u chunk.text)).toFinset
      let targetWords := (Str.split (normalizeText u target)).toFinset
      if 0 < (chunkWords ∩ targetWords).card ∨ targetWords.card = 0 then some (anchorWhole chunk)
      else none

/-- The overlap of a chunk with a box; a chunk without a box is skipped. -/
def chunkOverlap (candidateBbox : BBox) (chunk : Chunk) : PyFloat :=
  chunk.bbox.elim .nan (bboxIou candidateBbox)

/-- VISUAL: the chunk that overlaps the box in the span most, at or above the threshold. -/
def visualStage (sourceSpan : Str) (chunks : List Chunk) : Option Anchor :=
  (parseCandidateBbox u sourceSpan).bind fun candidateBbox =>
    (chunks.bestBy PyFloat.lt
      (fun chunk => (PyFloat.fin self.visualThreshold).le (chunkOverlap candidateBbox chunk))
      (chunkOverlap candidateBbox) (.fin 0)).2.map anchorWhole

/-- A stage that is not disabled and finds an anchor. -/
def stage (method : GroundingMethod) (found : Option Anchor) :
    Option (GroundingMethod × List Anchor) :=
  if method ∈ self.disabledStages then none else found.map fun anchor => (method, [anchor])

/-- The first stage that finds an anchor. -/
def firstStage (target sourceSpan : Str) (chunks : List Chunk) :
    Option (GroundingMethod × List Anchor) :=
  stage self .exact (exactStage u target chunks)
    <|> stage self .fuzzy (fuzzyStage u self target chunks)
    <|> stage self .semantic (semanticStage u emb self target chunks)
    <|> stage self .visual (visualStage u self sourceSpan chunks)

/-- `GroundingVerifierImpl.verify`. -/
def verify (value sourceSpan : Str) (chunks : List Chunk) : GroundingMethod × List Anchor :=
  let target := if sourceSpan = [] then value else sourceSpan
  if chunks = [] then (.block, [])
  else if Str.strip target = [] then (.block, [])
  else (firstStage u emb self target sourceSpan chunks).getD (.block, [])

/-! ### Where anchors point -/

/-- The anchor points into one of the chunks. -/
def AnchoredIn (chunks : List Chunk) (anchor : Anchor) : Prop :=
  ∃ chunk ∈ chunks, ∃ charSpan, anchor = anchorAt chunk charSpan

variable {u emb self} {target sourceSpan value : Str} {chunks : List Chunk} {anchor : Anchor}

lemma exactStage_anchored (h : exactStage u target chunks = some anchor) :
    AnchoredIn chunks anchor := by
  obtain ⟨chunk, hchunk, hfound⟩ := List.exists_of_findSome?_eq_some h
  rw [Option.map_eq_some_iff] at hfound
  obtain ⟨start, -, rfl⟩ := hfound
  exact ⟨chunk, hchunk, _, rfl⟩

lemma fuzzyStage_anchored (h : fuzzyStage u self target chunks = some anchor) :
    AnchoredIn chunks anchor := by
  rw [fuzzyStage, Option.map_eq_some_iff] at h
  obtain ⟨chunk, hbest, rfl⟩ := h
  exact ⟨chunk, (List.of_bestBy_eq_some hbest).1, _, rfl⟩

lemma semanticStage_anchored (h : semanticStage u emb self target chunks = some anchor) :
    AnchoredIn chunks anchor := by
  rw [semanticStage, Option.bind_eq_some_iff] at h
  obtain ⟨chunk, hbest, hwords⟩ := h
  simp only at hwords
  split_ifs at hwords
  cases hwords
  exact ⟨chunk, (List.of_bestBy_eq_some hbest).1, _, rfl⟩

lemma visualStage_anchored (h : visualStage u self sourceSpan chunks = some anchor) :
    AnchoredIn chunks anchor := by
  rw [visualStage, Option.bind_eq_some_iff] at h
  obtain ⟨candidateBbox, -, h⟩ := h
  rw [Option.map_eq_some_iff] at h
  obtain ⟨chunk, hbest, rfl⟩ := h
  exact ⟨chunk, (List.of_bestBy_eq_some hbest).1, _, rfl⟩

lemma stage_eq_some {method m : GroundingMethod} {found : Option Anchor} {anchors : List Anchor}
    (h : stage self method found = some (m, anchors)) :
    m = method ∧ ∃ anchor, found = some anchor ∧ anchors = [anchor] := by
  rw [stage] at h
  split_ifs at h
  rw [Option.map_eq_some_iff] at h
  obtain ⟨anchor, hfound, heq⟩ := h
  cases heq
  exact ⟨rfl, anchor, hfound, rfl⟩

lemma firstStage_eq_some {result : GroundingMethod × List Anchor}
    (h : firstStage u emb self target sourceSpan chunks = some result) :
    ∃ method anchor, method ≠ .block ∧ AnchoredIn chunks anchor ∧ result = (method, [anchor]) := by
  obtain ⟨method, anchors⟩ := result
  simp only [firstStage, Option.orElse_eq_orElse, Option.orElse_eq_or, Option.or_eq_some_iff] at h
  obtain h | ⟨-, h | ⟨-, h | ⟨-, h⟩⟩⟩ := h
  · obtain ⟨rfl, anchor, hfound, rfl⟩ := stage_eq_some h
    exact ⟨.exact, anchor, by decide, exactStage_anchored hfound, rfl⟩
  · obtain ⟨rfl, anchor, hfound, rfl⟩ := stage_eq_some h
    exact ⟨.fuzzy, anchor, by decide, fuzzyStage_anchored hfound, rfl⟩
  · obtain ⟨rfl, anchor, hfound, rfl⟩ := stage_eq_some h
    exact ⟨.semantic, anchor, by decide, semanticStage_anchored hfound, rfl⟩
  · obtain ⟨rfl, anchor, hfound, rfl⟩ := stage_eq_some h
    exact ⟨.visual, anchor, by decide, visualStage_anchored hfound, rfl⟩

variable (u emb self) in
/-- The result of the cascade: blocked without anchors, or one anchor into one of the chunks. -/
theorem verify_cases (value sourceSpan : Str) (chunks : List Chunk) :
    verify u emb self value sourceSpan chunks = (.block, []) ∨
    ∃ method anchor, method ≠ .block ∧ AnchoredIn chunks anchor ∧
      verify u emb self value sourceSpan chunks = (method, [anchor]) := by
  simp only [verify]
  generalize (if sourceSpan = [] then value else sourceSpan) = target
  split_ifs with hchunks htarget
  · exact .inl rfl
  · exact .inl rfl
  · cases hstage : firstStage u emb self target sourceSpan chunks with
    | none => exact .inl rfl
    | some result => exact .inr (firstStage_eq_some hstage)

/-- The text that is looked up. -/
def targetOf (value sourceSpan : Str) : Str := if sourceSpan = [] then value else sourceSpan

/-- A result that is not blocked is that of the stage it names. -/
lemma stage_of_verify {method : GroundingMethod} {anchors : List Anchor}
    (h : verify u emb self value sourceSpan chunks = (method, anchors)) (hm : method ≠ .block) :
    ∃ anchor, anchors = [anchor] ∧
      (method = .exact ∧ exactStage u (targetOf value sourceSpan) chunks = some anchor ∨
        method = .fuzzy ∧ fuzzyStage u self (targetOf value sourceSpan) chunks = some anchor ∨
        method = .semantic ∧ semanticStage u emb self (targetOf value sourceSpan) chunks = some anchor ∨
        method = .visual ∧ visualStage u self sourceSpan chunks = some anchor) := by
  simp only [verify] at h
  unfold targetOf
  generalize (if sourceSpan = [] then value else sourceSpan) = target at h ⊢
  split_ifs at h with hchunks htarget
  · cases h
    exact absurd rfl hm
  · cases h
    exact absurd rfl hm
  · cases hstage : firstStage u emb self target sourceSpan chunks with
    | none =>
      rw [hstage] at h
      cases h
      exact absurd rfl hm
    | some result =>
      rw [hstage, Option.getD_some] at h
      subst h
      simp only [firstStage, Option.orElse_eq_orElse, Option.orElse_eq_or,
        Option.or_eq_some_iff] at hstage
      obtain h | ⟨-, h | ⟨-, h | ⟨-, h⟩⟩⟩ := hstage
      · obtain ⟨rfl, anchor, hfound, rfl⟩ := stage_eq_some h
        exact ⟨anchor, rfl, .inl ⟨rfl, hfound⟩⟩
      · obtain ⟨rfl, anchor, hfound, rfl⟩ := stage_eq_some h
        exact ⟨anchor, rfl, .inr (.inl ⟨rfl, hfound⟩)⟩
      · obtain ⟨rfl, anchor, hfound, rfl⟩ := stage_eq_some h
        exact ⟨anchor, rfl, .inr (.inr (.inl ⟨rfl, hfound⟩))⟩
      · obtain ⟨rfl, anchor, hfound, rfl⟩ := stage_eq_some h
        exact ⟨anchor, rfl, .inr (.inr (.inr ⟨rfl, hfound⟩))⟩

end

end AxiomGrid.Grounding

import AxiomGrid.Pipeline.Orchestrator

/-!
# Refuse or cite

What a run of the orchestrator suggests is grounded: every extraction of a `suggest` stage has an
anchor into one of the ingested chunks, passed the gate and has a complete provenance chain, and one
extraction that is not grounded halts the run before anything is suggested.
-/

namespace AxiomGrid.Pipeline

/-! ### The end of a run -/

section

variable {stages : List TraceStage} {n : ℕ} {loop : GateLoop}

@[simp] lemma concludeRun_halted : (concludeRun stages n loop).halted = loop.halted := by
  simp only [concludeRun]
  split_ifs with h
  · exact h.symm
  · exact (Bool.eq_false_of_not_eq_true h).symm

@[simp] lemma concludeRun_extractions :
    (concludeRun stages n loop).extractions = loop.allExtractions := by
  simp only [concludeRun]
  split_ifs <;> rfl

/-- A run halted by the gate has no `suggest` stage. -/
lemma concludeRun_no_suggest (hstages : ∀ stage ∈ stages, stage.name ≠ "suggest")
    (h : loop.halted = true) :
    ∀ stage ∈ (concludeRun stages n loop).stages, stage.name ≠ "suggest" := by
  intro stage hstage
  simp only [concludeRun, h, if_true, List.mem_append, List.mem_singleton] at hstage
  obtain (hstage | rfl) | rfl := hstage
  · exact hstages stage hstage
  · simp
  · simp

/-- The id that an entry of the `suggest` stage lists. -/
lemma suggestion_extId (ext : Extraction) :
    ((suggestion ext).get? "ext_id").bind Value.text? = some ext.extId := by
  simp [suggestion, Value.get?, Dict.get?]

/-- A run that is not halted suggests exactly what passed the gate. -/
lemma concludeRun_suggested (hstages : ∀ stage ∈ stages, stage.name ≠ "suggest")
    (h : loop.halted = false) :
    (concludeRun stages n loop).suggested = loop.passedExtractions.map (·.extId) := by
  have hfilter : stages.filter (fun stage => decide (stage.name = "suggest")) = [] := by
    rw [List.filter_eq_nil_iff]
    intro stage hstage
    simpa using hstages stage hstage
  have hids : (loop.passedExtractions.map suggestion).filterMap
      (fun s => (s.get? "ext_id").bind Value.text?) = loop.passedExtractions.map (·.extId) := by
    rw [List.filterMap_map, ← List.filterMap_eq_map]
    congr 1
    funext ext
    exact suggestion_extId ext
  have hstages : (concludeRun stages n loop).stages.filter
      (fun stage => decide (stage.name = "suggest")) =
      [{ name := "suggest"
         inputData := .dict [("passed_count", countOf loop.passedExtractions.length)]
         outputData := .dict [("suggestions", .list (loop.passedExtractions.map suggestion))] }] := by
    simp [concludeRun, h, hfilter]
  rw [Trace.suggested, hstages, List.flatMap_singleton]
  exact hids

variable {r : PyRepr} {check : Extraction → GateResult} {grounded : List Extraction}

/-- One blocked extraction halts the run before the `suggest` stage. -/
lemma concludeRun_of_block (hstages : ∀ stage ∈ stages, stage.name ≠ "suggest") {ext : Extraction}
    (hext : ext ∈ grounded) (hblock : (check ext).verdict = .block) :
    (concludeRun stages n (gateLoop r check grounded)).halted = true ∧
    ∀ stage ∈ (concludeRun stages n (gateLoop r check grounded)).stages, stage.name ≠ "suggest" := by
  have hhalted := (gateLoop_halted r check grounded).mpr ⟨ext, hext, hblock⟩
  rw [concludeRun_halted]
  exact ⟨hhalted, concludeRun_no_suggest hstages hhalted⟩

/-- What the run suggests passed the gate and is among the extractions of the trace. -/
lemma concludeRun_mem_suggested (hstages : ∀ stage ∈ stages, stage.name ≠ "suggest")
    (h : (gateLoop r check grounded).halted = false) {id : Str}
    (hid : id ∈ (concludeRun stages n (gateLoop r check grounded)).suggested) :
    ∃ ext ∈ grounded, ext.extId = id ∧ (check ext).verdict = .pass ∧
      calibrate check ext ∈ (concludeRun stages n (gateLoop r check grounded)).extractions := by
  rw [concludeRun_suggested hstages h, gateLoop_passed, List.map_map, List.mem_map] at hid
  obtain ⟨ext, hext, rfl⟩ := hid
  rw [List.mem_filter, decide_eq_true_eq] at hext
  refine ⟨ext, hext.1, rfl, hext.2, ?_⟩
  simp only [concludeRun, h]
  exact gateLoop_all_of_pass r check hext.1 hext.2

/-- With distinct ids, an extraction that did not pass is not suggested. -/
lemma concludeRun_not_suggested (hstages : ∀ stage ∈ stages, stage.name ≠ "suggest")
    (h : (gateLoop r check grounded).halted = false) (hnodup : (grounded.map (·.extId)).Nodup)
    {ext : Extraction} (hext : ext ∈ grounded) (hfail : (check ext).verdict ≠ .pass) :
    ext.extId ∉ (concludeRun stages n (gateLoop r check grounded)).suggested := by
  intro hid
  obtain ⟨other, hother, heq, hpass, -⟩ := concludeRun_mem_suggested hstages h hid
  rw [List.inj_on_of_nodup_map hnodup hother hext heq] at hpass
  exact hfail hpass

end

namespace OrchestratorImpl

variable {u : UnicodeData} {emb : Grounding.Embeddings} {r : PyRepr} {self : OrchestratorImpl}
  {services services' : Services} {doc ingestedDoc : Document} {chunks : List Chunk}
  {pages : List Page} {extractions : List Extraction} {trace : Trace}

/-- A run whose ingestor and pack succeed registers every chunk, and is then halted by the security
filter or ends with the gate over the grounded extractions. -/
lemma run_cases (hingest : self.ingest doc.sourcePath = .ok (chunks, ingestedDoc, pages))
    (hextract : self.extract (self.extractionChunks chunks) = .ok extractions)
    (hrun : self.run u emb r services doc = (.ok trace, services')) :
    ∃ registered, (services.registerDocument ingestedDoc pages).registerChunks chunks =
        (.ok (), registered) ∧
      ((trace.halted = true ∧ ∀ stage ∈ trace.stages, stage.name ≠ "suggest") ∨
       ∃ stages, (∀ stage ∈ stages, stage.name ≠ "suggest") ∧
         services' = registered.registerExtractions
           (extractions.map (ground u emb (withSourceType doc chunks))) ∧
         trace = concludeRun stages extractions.length
           (gateLoop r (self.quality services'.memory)
             (extractions.map (ground u emb (withSourceType doc chunks))))) := by
  simp only [run, hingest] at hrun
  split at hrun
  · cases hrun
  · rename_i registered hregistered
    refine ⟨registered, hregistered, ?_⟩
    rw [Prod.mk.injEq, Except.ok.injEq] at hrun
    obtain ⟨htrace, hservices⟩ := hrun
    rw [filterStage] at htrace hservices
    split_ifs at htrace hservices with hblocked
    · left
      subst htrace
      simp [captureStage, securityStage]
    · right
      simp only [extractStage, hextract] at htrace hservices
      subst hservices
      rw [List.length_map] at htrace
      refine ⟨_, ?_, rfl, htrace.symm⟩
      simp [captureStage, securityStage, intentStage, routerStage, compressionStage]

/-- A run ends with an exception only when the ingestor returns a chunk without a box. -/
lemma run_error {e : String} (hrun : self.run u emb r services doc = (.error e, services')) :
    ∃ chunks ingestedDoc pages, self.ingest doc.sourcePath = .ok (chunks, ingestedDoc, pages) ∧
      ∃ c ∈ chunks, c.bbox = none := by
  simp only [run] at hrun
  split at hrun
  · cases hrun
  · rename_i chunks ingestedDoc pages hingest
    split at hrun
    · rename_i e' registered hregistered
      exact ⟨chunks, ingestedDoc, pages, hingest, Services.registerChunks_error hregistered⟩
    · cases hrun

/-! ### Grounding of one extraction -/

/-- The source type plays no role in anchors. -/
lemma anchoredIn_withSourceType {anchor : Anchor}
    (h : Grounding.AnchoredIn (withSourceType doc chunks) anchor) :
    Grounding.AnchoredIn chunks anchor := by
  obtain ⟨chunk, hchunk, charSpan, rfl⟩ := h
  simp only [withSourceType] at hchunk
  split_ifs at hchunk with hname
  · exact ⟨chunk, hchunk, charSpan, rfl⟩
  · rw [List.mem_map] at hchunk
    obtain ⟨c, hc, rfl⟩ := hchunk
    exact ⟨c, hc, charSpan, rfl⟩

@[simp] lemma ground_extId (chunks : List Chunk) (ext : Extraction) :
    (ground u emb chunks ext).extId = ext.extId := rfl

@[simp] lemma ground_confidence (chunks : List Chunk) (ext : Extraction) :
    (ground u emb chunks ext).confidence = ext.confidence := rfl

variable (u emb) in
/-- Grounding blocks an extraction and leaves it without anchors, or gives it one anchor into a
chunk and the id of that chunk. -/
lemma ground_cases (doc : Document) (chunks : List Chunk) (ext : Extraction) :
    ((ground u emb (withSourceType doc chunks) ext).method = .block ∧
      (ground u emb (withSourceType doc chunks) ext).anchors = []) ∨
    ∃ anchor, Grounding.AnchoredIn chunks anchor ∧
      (ground u emb (withSourceType doc chunks) ext).method ≠ .block ∧
      (ground u emb (withSourceType doc chunks) ext).anchors = [anchor] ∧
      (ground u emb (withSourceType doc chunks) ext).chunkId = anchor.chunkId := by
  obtain h | ⟨method, anchor, hmethod, hanchored, h⟩ :=
    Grounding.verify_cases u emb {} ext.value ext.sourceSpan (withSourceType doc chunks)
  · left
    simp only [ground, h, and_self]
  · right
    refine ⟨anchor, anchoredIn_withSourceType hanchored, ?_⟩
    simp only [ground, h]
    exact ⟨hmethod, trivial, rfl⟩

/-! ### Provenance of what is suggested -/

/-- A grounded extraction of the run has a complete chain after it. -/
lemma isComplete_of_anchored {registered : Services}
    (hregistered : (services.registerDocument ingestedDoc pages).registerChunks chunks =
      (.ok (), registered))
    (hchunks : ∀ c ∈ chunks, c.docId = ingestedDoc.docId) {grounded : List Extraction}
    (hnodup : (grounded.map (·.extId)).Nodup) {ext : Extraction} (hext : ext ∈ grounded)
    (haction : Dict.get? services.provenance.actions ext.extId = none) {anchor : Anchor}
    (hanchored : Grounding.AnchoredIn chunks anchor) (hid : ext.chunkId = anchor.chunkId) :
    ((registered.registerExtractions grounded).provenance.getProvenance ext.extId).isComplete =
      true := by
  obtain ⟨hbbox, hprovenance⟩ := Services.registerChunks_ok hregistered
  obtain ⟨anchored, hanchored, charSpan, rfl⟩ := hanchored
  -- two chunks may share an id: the chain goes through the one registered last
  obtain ⟨chunk, hchunk, hchunkId, hget⟩ := Dict.get?_setAll_of_mem services.provenance.chunks
    (·.chunkId) (k := ext.chunkId) ⟨anchored, hanchored, hid.symm⟩
  rw [Services.registerExtractions_provenance, hprovenance, Services.registerDocument_provenance]
  have hdocId : ingestedDoc.docId = chunk.docId := (hchunks chunk hchunk).symm
  have hdocument : Dict.get? (services.provenance.registerDocument ingestedDoc).documents chunk.docId =
      some ingestedDoc := by
    rw [ProvenanceLog.registerDocument, Dict.get?_set, if_pos hdocId]
  exact ProvenanceLog.isComplete_getProvenance _ haction
    (Dict.get?_setAll_of_nodup _ _ hnodup hext) hget hchunkId (hbbox chunk hchunk) hdocument hdocId

/-- Refuse or cite. A run raises only for a chunk without a box. Otherwise, with the default gate over
any store of past corrections and extractions of finite confidence, distinct ids and no id of an
action: an extraction that is blocked, has no anchor or has a blank chunk id halts the run before the
`suggest` stage; a run that is not halted suggests only extractions that are anchored in an ingested
chunk, passed the gate and have a complete provenance chain, and none that was flagged or blocked. -/
theorem run_refuses_or_cites (u : UnicodeData) (emb : Grounding.Embeddings) (r : PyRepr)
    (self : OrchestratorImpl) (lookup : MemoryStore → CorrectionLookup)
    (hquality : ∀ memory, self.quality memory = (LocalQualityGate.ofStore (lookup memory)).check r)
    (services : Services) (doc : Document) :
    (∀ e services', self.run u emb r services doc = (.error e, services') →
      ∃ chunks ingestedDoc pages, self.ingest doc.sourcePath = .ok (chunks, ingestedDoc, pages) ∧
        ∃ c ∈ chunks, c.bbox = none) ∧
    ∀ trace services', self.run u emb r services doc = (.ok trace, services') →
    ∀ chunks ingestedDoc pages, self.ingest doc.sourcePath = .ok (chunks, ingestedDoc, pages) →
    ∀ extractions, self.extract (self.extractionChunks chunks) = .ok extractions →
    (∀ c ∈ chunks, c.docId = ingestedDoc.docId) →
    (∀ ext ∈ extractions, ext.confidence.isFinite = true) →
    (extractions.map (·.extId)).Nodup →
    (∀ ext ∈ extractions, Dict.get? services.provenance.actions ext.extId = none) →
    let grounded := extractions.map (ground u emb (withSourceType doc chunks))
    let verdict := fun ext => ((LocalQualityGate.ofStore (lookup services'.memory)).check r ext).verdict
    ((∃ ext ∈ grounded, ext.method = .block ∨ ext.anchors = [] ∨ Str.strip ext.chunkId = []) →
      trace.halted = true ∧ ∀ stage ∈ trace.stages, stage.name ≠ "suggest") ∧
    (trace.halted = false →
      (∀ id ∈ trace.suggested, ∃ ext ∈ grounded, ext.extId = id ∧
        ext.method ≠ .block ∧
        (∃ anchor ∈ ext.anchors, Grounding.AnchoredIn chunks anchor) ∧
        verdict ext = .pass ∧
        (services'.provenance.getProvenance id).isComplete = true ∧
        ∃ listed ∈ trace.extractions, listed.extId = id ∧ listed.method = ext.method ∧
          listed.anchors = ext.anchors) ∧
      ∀ ext ∈ grounded, verdict ext ≠ .pass → ext.extId ∉ trace.suggested) := by
  refine ⟨fun e services' => run_error, ?_⟩
  intro trace services' hrun chunks ingestedDoc pages hingest extractions hextract hchunks hfinite
    hnodup hactions grounded verdict
  have hids : (grounded.map (·.extId)) = extractions.map (·.extId) := by
    rw [List.map_map]
    rfl
  have hnodup' : (grounded.map (·.extId)).Nodup := hids ▸ hnodup
  obtain ⟨registered, hregistered, ⟨hhalted, hstages⟩ | ⟨stages, hstages, hservices, htrace⟩⟩ :=
    run_cases hingest hextract hrun
  · -- the security filter halted the run
    exact ⟨fun _ => ⟨hhalted, hstages⟩, fun h => absurd (hhalted.symm.trans h) (by decide)⟩
  rw [hquality] at htrace
  subst htrace
  -- the gate blocks what it finds ungrounded
  have hblock : ∀ ext ∈ extractions,
      LocalQualityGate.isUngrounded (ground u emb (withSourceType doc chunks) ext) = true →
      verdict (ground u emb (withSourceType doc chunks) ext) = .block := by
    intro ext hext hungrounded
    exact LocalQualityGate.check_ungrounded r (hfinite ext hext) hungrounded
  constructor
  · rintro ⟨ext, hext, hungrounded⟩
    obtain ⟨ext', hext', rfl⟩ := List.mem_map.mp hext
    apply concludeRun_of_block hstages hext
    apply hblock ext' hext'
    simp only [LocalQualityGate.isUngrounded, decide_eq_true_eq]
    tauto
  · intro hhalted
    rw [concludeRun_halted] at hhalted
    constructor
    · intro id hid
      obtain ⟨ext, hext, rfl, hpass, hlisted⟩ := concludeRun_mem_suggested hstages hhalted hid
      obtain ⟨ext', hext', rfl⟩ := List.mem_map.mp hext
      obtain ⟨hmethod, -⟩ | ⟨anchor, hanchored, hmethod, hanchors, hchunkId⟩ :=
        ground_cases u emb doc chunks ext'
      · have hungrounded := hblock ext' hext' (by simp [LocalQualityGate.isUngrounded, hmethod])
        exact absurd (hpass.symm.trans hungrounded) (by decide)
      · refine ⟨_, hext, rfl, hmethod, ⟨anchor, by simp [hanchors], hanchored⟩, hpass, ?_, ?_⟩
        · rw [hservices]
          exact isComplete_of_anchored hregistered hchunks hnodup' hext (hactions ext' hext')
            hanchored hchunkId
        · exact ⟨_, hlisted, rfl, rfl, rfl⟩
    · intro ext hext hfail
      exact concludeRun_not_suggested hstages hhalted hnodup' hext hfail

/-! ### An invoice -/

/-- Quotes without escapes, and the one float the gate prints. -/
def plainRepr : PyRepr where
  float _ := "0.2"
  str s := "'" ++ s ++ "'"

/-- No embedding is similar to another. -/
def blankEmbeddings : Grounding.Embeddings where
  getEmbedding _ := []
  cosineSimilarity _ _ := .fin 0

theorem not_one_lt_zero : PyFloat.lt (.fin 1) (.fin 0) = false := by
  decide +kernel

def invoiceChunk : Chunk where
  chunkId := "c1".toList
  docId := "d1".toList
  page := 1
  bbox := some ⟨.fin 0, .fin 0, .fin 1, .fin 1, not_one_lt_zero, not_one_lt_zero⟩
  text := "Total due 42".toList

/-- The extraction of a total with confidence 0.9. -/
def totalExtraction (value : Str) : Extraction where
  extId := "e1".toList
  fieldName := "total".toList
  value := value
  confidence := .fin (9 / 10)

/-- An orchestrator over one chunk whose pack finds `value`; its gate reads the memory store. -/
def invoiceOrchestrator (value : Str) : OrchestratorImpl where
  ingest _ := .ok ([invoiceChunk], { docId := "d1".toList, pageCount := 1 }, [])
  scan _ := { blocked := false }
  quality memory :=
    (LocalQualityGate.ofStore (memory.searchSimilarCorrections asciiData)).check plainRepr
  packName := "InvoicePack"
  packFields := ["total".toList]
  extract _ := .ok [totalExtraction value]
  compressDocumentChunks _ := none

/-- The total "42" is suggested with its chain, the total "43" halts the run. -/
theorem run_refuses_or_cites_invoice :
    (∃ trace services', (invoiceOrchestrator "42".toList).run asciiData blankEmbeddings plainRepr {}
        { docId := [] } = (.ok trace, services') ∧ trace.suggested = ["e1".toList] ∧
      (services'.provenance.getProvenance "e1".toList).isComplete = true) ∧
    ∃ trace services', (invoiceOrchestrator "43".toList).run asciiData blankEmbeddings plainRepr {}
        { docId := [] } = (.ok trace, services') ∧ trace.halted = true := by
  have hbbox : ∀ {value e services'}, (invoiceOrchestrator value).run asciiData blankEmbeddings
      plainRepr {} { docId := [] } ≠ (.error e, services') := by
    intro value e services' hrun
    obtain ⟨chunks, _, _, hingest, c, hc, hnone⟩ := (run_refuses_or_cites asciiData blankEmbeddings
      plainRepr (invoiceOrchestrator value) (fun m => m.searchSimilarCorrections asciiData)
      (fun _ => rfl) {} { docId := [] }).1 e services' hrun
    cases hingest
    rw [List.mem_singleton.mp hc] at hnone
    cases hnone
  have hspec : ∀ (value : Str) (trace : Trace) (services' : Services), (invoiceOrchestrator value).run
      asciiData blankEmbeddings plainRepr {} { docId := [] } = (.ok trace, services') → _ :=
    fun value trace services' hrun => (run_refuses_or_cites asciiData blankEmbeddings plainRepr
      (invoiceOrchestrator value) (fun m => m.searchSimilarCorrections asciiData) (fun _ => rfl) {}
      { docId := [] }).2 trace services' hrun [invoiceChunk] _ _ rfl [totalExtraction value] rfl
      (by decide) (by simp [totalExtraction, PyFloat.isFinite]) (by simp)
      (by simp [Dict.get?])
  constructor
  · cases hrun : (invoiceOrchestrator "42".toList).run asciiData blankEmbeddings plainRepr {}
        { docId := [] } with
    | mk outcome services' =>
      cases outcome with
      | error e => exact absurd hrun hbbox
      | ok trace =>
        have hoption : ((invoiceOrchestrator "42".toList).run asciiData blankEmbeddings plainRepr {}
            { docId := [] }).1.toOption.map (fun t => (t.halted, t.suggested)) =
            some (false, ["e1".toList]) := by decide +kernel
        rw [hrun] at hoption
        simp only [Except.toOption, Option.map_some, Option.some.injEq, Prod.mk.injEq] at hoption
        obtain ⟨ext, -, -, -, -, -, hcomplete, -⟩ := ((hspec _ trace services' hrun).2 hoption.1).1
          "e1".toList (by rw [hoption.2]; exact List.mem_singleton_self _)
        exact ⟨trace, services', rfl, hoption.2, hcomplete⟩
  · cases hrun : (invoiceOrchestrator "43".toList).run asciiData blankEmbeddings plainRepr {}
        { docId := [] } with
    | mk outcome services' =>
      cases outcome with
      | error e => exact absurd hrun hbbox
      | ok trace =>
        refine ⟨trace, services', rfl, ((hspec _ trace services' hrun).1 ?_).1⟩
        exact ⟨_, List.mem_singleton_self _, .inl (by decide +kernel)⟩

end OrchestratorImpl

end AxiomGrid.Pipeline

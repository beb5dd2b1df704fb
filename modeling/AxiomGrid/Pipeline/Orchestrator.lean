import AxiomGrid.Grounding.Cascade
import AxiomGrid.Pipeline.QualityGate
import AxiomGrid.Pipeline.Store

/-!
# Orchestrator

`OrchestratorImpl.run` of `kernel/sidecar/orchestrator.py`. The services it is constructed with are
fields: the ingestor, the security filter and the pack are functions, an exception they raise is an
`.error` with its text. The provenance log and the memory store are state. The gate holds a reference
to a store, so what it answers is a function of the state of the memory at the time of the check.
The durations of the stages are left out.
-/

namespace AxiomGrid.Pipeline

/-- The services of an orchestrator. -/
structure OrchestratorImpl where
  ingest : Str → Except String (List Chunk × Document × List Page)
  scan : Str → ScanResult
  quality : MemoryStore → Extraction → GateResult
  packName : String
  packFields : List Str
  extract : List Chunk → Except String (List Extraction)
  /-- `compress_document_chunks`, with the reduction it reports; `none` when the compressor cannot be
  imported. -/
  compressDocumentChunks : List Chunk → Option (List Chunk × PyFloat)

/-- The state that a run reads and writes. -/
structure Services where
  provenance : ProvenanceLog := {}
  memory : MemoryStore := {}

namespace Services

/-- The loop that registers the chunks; a chunk without a box ends it with an exception. -/
def registerChunks (services : Services) : List Chunk → Except String Unit × Services
  | [] => (.ok (), services)
  | chunk :: chunks =>
    match services.provenance.registerChunk chunk with
    | .error e => (.error e, services)
    | .ok provenance =>
      match services.memory.upsertChunk chunk with
      | .error e => (.error e, { services with provenance })
      | .ok memory => registerChunks ⟨provenance, memory⟩ chunks

/-- Registering the document and its pages. -/
def registerDocument (services : Services) (doc : Document) (pages : List Page) : Services where
  provenance := services.provenance.registerDocument doc
  memory := pages.foldl MemoryStore.upsertPage (services.memory.upsertDocument doc)

/-- Registering the grounded extractions. -/
def registerExtractions (services : Services) (extractions : List Extraction) : Services :=
  extractions.foldl
    (fun services ext =>
      ⟨services.provenance.registerExtraction ext, services.memory.recordExtraction ext⟩)
    services

lemma registerDocument_provenance (services : Services) (doc : Document) (pages : List Page) :
    (services.registerDocument doc pages).provenance = services.provenance.registerDocument doc :=
  rfl

/-- The loop ends normally only when every chunk has a box, and then all of them are registered. -/
lemma registerChunks_ok {services services' : Services} {chunks : List Chunk}
    (h : services.registerChunks chunks = (.ok (), services')) :
    (∀ c ∈ chunks, c.bbox ≠ none) ∧
    services'.provenance = { services.provenance with
      chunks := Dict.setAll services.provenance.chunks (·.chunkId) chunks } := by
  induction chunks generalizing services with
  | nil =>
    cases h
    exact ⟨by simp, rfl⟩
  | cons chunk chunks ih =>
    by_cases hbbox : chunk.bbox = none
    · simp [registerChunks, ProvenanceLog.registerChunk, hbbox] at h
    · simp only [registerChunks, ProvenanceLog.registerChunk, MemoryStore.upsertChunk,
        if_neg hbbox] at h
      obtain ⟨hchunks, hprovenance⟩ := ih h
      exact ⟨List.forall_mem_cons.mpr ⟨hbbox, hchunks⟩, hprovenance⟩

/-- An exception of the loop comes from a chunk without a box. -/
lemma registerChunks_error {services services' : Services} {chunks : List Chunk} {e : String}
    (h : services.registerChunks chunks = (.error e, services')) : ∃ c ∈ chunks, c.bbox = none := by
  induction chunks generalizing services with
  | nil => cases h
  | cons chunk chunks ih =>
    by_cases hbbox : chunk.bbox = none
    · exact ⟨chunk, List.mem_cons_self, hbbox⟩
    · simp only [registerChunks, ProvenanceLog.registerChunk, MemoryStore.upsertChunk,
        if_neg hbbox] at h
      obtain ⟨c, hc, hnone⟩ := ih h
      exact ⟨c, List.mem_cons_of_mem chunk hc, hnone⟩

lemma registerExtractions_provenance (services : Services) (extractions : List Extraction) :
    (services.registerExtractions extractions).provenance = { services.provenance with
      extractions := Dict.setAll services.provenance.extractions (·.extId) extractions } := by
  induction extractions generalizing services with
  | nil => rfl
  | cons ext extractions ih =>
    rw [registerExtractions, List.foldl_cons, ← registerExtractions, ih]
    rfl

end Services

/-- `os.path.basename`. -/
def basename (path : Str) : Str := (path.reverse.takeWhile (· ≠ '/')).reverse

/-! ### The gate loop -/

/-- The variables of the loop over the extractions. -/
structure GateLoop where
  halted : Bool := false
  haltReason : String := ""
  gateResults : List Value := []
  passedExtractions : List Extraction := []
  allExtractions : List Extraction := []

/-- What the loop does with one extraction and its gate result. -/
def GateLoop.step (r : PyRepr) (check : Extraction → GateResult) (loop : GateLoop)
    (ext : Extraction) : GateLoop :=
  let gateResult := check ext
  let gateResults := loop.gateResults ++ [.dict
    [("ext_id", .text ext.extId), ("field", .text ext.fieldName),
      ("verdict", .str gateResult.verdict.value), ("confidence", .float gateResult.calibratedConfidence)]]
  match gateResult.verdict with
  | .block =>
    { loop with
      halted := true
      haltReason := "Quality gate BLOCKED extraction " ++ String.ofList ext.extId ++ " (field=" ++
        String.ofList ext.fieldName ++ "): " ++ r.list gateResult.reasons
      gateResults
      allExtractions := loop.allExtractions ++
        [{ ext with status := .pendingReview, confidence := gateResult.calibratedConfidence }] }
  | .flag =>
    { loop with
      gateResults
      allExtractions := loop.allExtractions ++
        [{ ext with status := .pendingReview, confidence := gateResult.calibratedConfidence }] }
  | .pass =>
    let passedExt := { ext with confidence := gateResult.calibratedConfidence }
    { loop with
      gateResults
      passedExtractions := loop.passedExtractions ++ [passedExt]
      allExtractions := loop.allExtractions ++ [passedExt] }

/-- The quality gate over all extractions. -/
def gateLoop (r : PyRepr) (check : Extraction → GateResult) (extractions : List Extraction) :
    GateLoop :=
  extractions.foldl (GateLoop.step r check) {}

section

variable (r : PyRepr) (check : Extraction → GateResult)

/-- An extraction with the confidence the gate gives it. -/
def calibrate (ext : Extraction) : Extraction :=
  { ext with confidence := (check ext).calibratedConfidence }

lemma gateLoop_concat (extractions : List Extraction) (ext : Extraction) :
    gateLoop r check (extractions ++ [ext]) = (gateLoop r check extractions).step r check ext := by
  rw [gateLoop, List.foldl_append, List.foldl_cons, List.foldl_nil, gateLoop]

/-- The loop halts the run when some extraction is blocked. -/
lemma gateLoop_halted (extractions : List Extraction) :
    (gateLoop r check extractions).halted = true ↔
      ∃ ext ∈ extractions, (check ext).verdict = .block := by
  induction extractions using List.reverseRecOn with
  | nil => simp [gateLoop]
  | append_singleton extractions ext ih =>
    rw [gateLoop_concat]
    cases hverdict : (check ext).verdict <;>
      simp [GateLoop.step, hverdict, ih, or_and_right, exists_or]

/-- The loop passes the extractions whose verdict is PASS, and keeps them among all extractions. -/
lemma gateLoop_passed (extractions : List Extraction) :
    (gateLoop r check extractions).passedExtractions =
      (extractions.filter fun ext => (check ext).verdict = .pass).map (calibrate check) := by
  induction extractions using List.reverseRecOn with
  | nil => rfl
  | append_singleton extractions ext ih =>
    rw [gateLoop_concat]
    cases hverdict : (check ext).verdict <;>
      simp [GateLoop.step, hverdict, ih, calibrate]

/-- An extraction as the loop leaves it: one that does not pass is pending review. -/
def settle (ext : Extraction) : Extraction :=
  if (check ext).verdict = .pass then calibrate check ext
  else { calibrate check ext with status := .pendingReview }

@[simp] lemma settle_extId (ext : Extraction) : (settle check ext).extId = ext.extId := by
  rw [settle]
  split_ifs <;> rfl

lemma gateLoop_all (extractions : List Extraction) :
    (gateLoop r check extractions).allExtractions = extractions.map (settle check) := by
  induction extractions using List.reverseRecOn with
  | nil => rfl
  | append_singleton extractions ext ih =>
    rw [gateLoop_concat, List.map_append, ← ih]
    cases hverdict : (check ext).verdict <;>
      simp [GateLoop.step, hverdict, settle, calibrate]

lemma gateLoop_all_of_pass {extractions : List Extraction} {ext : Extraction}
    (hext : ext ∈ extractions) (hpass : (check ext).verdict = .pass) :
    calibrate check ext ∈ (gateLoop r check extractions).allExtractions := by
  rw [gateLoop_all, List.mem_map]
  exact ⟨ext, hext, if_pos hpass⟩

end

/-! ### The stages -/

/-- One entry of the `suggest` stage. -/
def suggestion (ext : Extraction) : Value :=
  .dict [("ext_id", .text ext.extId), ("field", .text ext.fieldName), ("value", .text ext.value),
    ("confidence", .float ext.confidence)]

def countOf (n : ℕ) : Value := .int n

/-- The end of a run: the quality gate stage, and then human review or suggestions. -/
def concludeRun (stages : List TraceStage) (extractionCount : ℕ) (loop : GateLoop) : Trace :=
  let stages := stages ++ [
    { name := "quality_gate"
      inputData := .dict [("extraction_count", countOf extractionCount)]
      outputData := .dict [("results", .list loop.gateResults),
        ("passed", countOf loop.passedExtractions.length),
        ("flagged_or_blocked", countOf (extractionCount - loop.passedExtractions.length))]
      status := if loop.halted then "halted" else "ok" }]
  if loop.halted then
    let needingReview := loop.allExtractions.filter fun e => e.status = .pendingReview
    { stages := stages ++ [
        { name := "human_review"
          inputData := .dict [("reason", .str loop.haltReason),
            ("extractions_needing_review", .list (needingReview.map fun e => .text e.extId))]
          outputData := .dict [("status", .str "awaiting_human_review")]
          status := "halted" }]
      halted := true
      haltReason := loop.haltReason
      extractions := loop.allExtractions }
  else
    { stages := stages ++ [
        { name := "suggest"
          inputData := .dict [("passed_count", countOf loop.passedExtractions.length)]
          outputData := .dict [("suggestions", .list (loop.passedExtractions.map suggestion))] }]
      extractions := loop.allExtractions }

namespace OrchestratorImpl

variable (u : UnicodeData) (emb : Grounding.Embeddings) (r : PyRepr) (self : OrchestratorImpl)

/-- The chunks as the verifier sees them: with the file name as their source type. -/
def withSourceType (doc : Document) (chunks : List Chunk) : List Chunk :=
  let sourceFilename := basename doc.sourcePath
  if sourceFilename = [] then chunks
  else chunks.map fun c => { c with sourceType := sourceFilename }

/-- Grounding of one extraction. -/
def ground (chunks : List Chunk) (ext : Extraction) : Extraction :=
  let result := Grounding.verify u emb {} ext.value ext.sourceSpan chunks
  { ext with
    method := result.1
    anchors := result.2
    chunkId := (result.2.head?.map (·.chunkId)).getD ext.chunkId }

def captureStage (doc : Document) (chunks : List Chunk) (ingestedDoc : Document) : TraceStage where
  name := "context_capture"
  inputData := .dict [("path", .text doc.sourcePath)]
  outputData := .dict [("chunk_count", countOf chunks.length),
    ("page_count", .int ingestedDoc.pageCount)]

def securityStage (allText : Str) (scanResult : ScanResult) : TraceStage where
  name := "security_filter"
  inputData := .dict [("text_length", countOf allText.length)]
  outputData := .dict [("blocked", .bool scanResult.blocked),
    ("reasons", .list (scanResult.reasons.map .str))]
  status := if scanResult.blocked then "halted" else "ok"

/-- The dictionary `intent`. -/
def intent : Value :=
  .dict [("type", .str "extract"), ("pack", .str self.packName),
    ("fields", .list (self.packFields.map .text))]

def intentStage (chunks : List Chunk) : TraceStage where
  name := "intent_gate"
  inputData := .dict [("chunk_count", countOf chunks.length)]
  outputData := self.intent

def routerStage : TraceStage where
  name := "router"
  inputData := self.intent
  outputData := .dict [("selected_pack", .str self.packName),
    ("fields_to_extract", .list (self.packFields.map .text))]

/-- The chunks the pack reads. -/
def extractionChunks (chunks : List Chunk) : List Chunk :=
  (self.compressDocumentChunks chunks).elim chunks Prod.fst

def compressionStage (chunks : List Chunk) : TraceStage where
  name := "context_compression"
  inputData := .dict [("chunk_count", countOf chunks.length)]
  outputData :=
    match self.compressDocumentChunks chunks with
    | some (compressed, reductionPct) =>
      .dict [("compressed_chunk_count", countOf compressed.length),
        ("reduction_pct", .float reductionPct)]
    | none => .dict [("status", .str "skipped")]

/-- The run from the extractor on. -/
def extractStage (services : Services) (doc : Document) (chunks : List Chunk)
    (stages : List TraceStage) : Trace × Services :=
  match self.extract (self.extractionChunks chunks) with
  | .error e =>
    ({ stages := stages ++ [
        { name := "extractor"
          inputData := .dict [("chunk_count", countOf chunks.length)]
          outputData := .dict [("error", .str e)]
          status := "halted" }]
       halted := true
       haltReason := "Extractor failed: " ++ e }, services)
  | .ok extractions =>
    let stages := stages ++ [
      { name := "extractor"
        inputData := .dict [("chunk_count", countOf chunks.length)]
        outputData := .dict [("extraction_count", countOf extractions.length)] }]
    let extractions := extractions.map (ground u emb (withSourceType doc chunks))
    let services := services.registerExtractions extractions
    (concludeRun stages extractions.length
      (gateLoop r (self.quality services.memory) extractions), services)

/-- The run from the security filter on. -/
def filterStage (services : Services) (doc : Document) (chunks : List Chunk)
    (stages : List TraceStage) : Trace × Services :=
  let allText := List.intercalate ['\n'] (chunks.map (·.text))
  let scanResult := self.scan allText
  let stages := stages ++ [securityStage allText scanResult]
  if scanResult.blocked then
    ({ stages
       halted := true
       haltReason := "Security filter blocked: " ++ r.list scanResult.reasons }, services)
  else
    self.extractStage u emb r services doc chunks
      (stages ++ [self.intentStage chunks, self.routerStage, self.compressionStage chunks])

/-- `OrchestratorImpl.run`. The outcome is a trace, or the exception of a chunk without a box. -/
def run (services : Services) (doc : Document) : Except String Trace × Services :=
  match self.ingest doc.sourcePath with
  | .error e =>
    (.ok
      { stages := [
          { name := "context_capture"
            inputData := .dict [("path", .text doc.sourcePath)]
            outputData := .dict [("error", .str e)]
            status := "halted" }]
        halted := true
        haltReason := "Ingestor failed: " ++ e }, services)
  | .ok (chunks, ingestedDoc, pages) =>
    match (services.registerDocument ingestedDoc pages).registerChunks chunks with
    | (.error e, services) => (.error e, services)
    | (.ok (), services) =>
      let (trace, services) :=
        self.filterStage u emb r services doc chunks [captureStage doc chunks ingestedDoc]
      (.ok trace, services)

end OrchestratorImpl

end AxiomGrid.Pipeline

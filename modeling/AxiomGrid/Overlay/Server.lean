import AxiomGrid.Pipeline.Ingestor

/-!
# Overlay server

The endpoints `/demo`, `/apply` and `/correct` of `overlay/server.py`, with `ActionExecutorImpl.apply`
of `kernel/sidecar/action_executor.py`. All requests share one provenance log and one memory store,
which are the state of the server, and a history is the list of the requests served so far.

Three things come with a request from outside: the content of the file it names, what the pack finds
in its chunks, and the time. The ids of new records are drawn from a supply: the id of the `i`-th
record of a kind that the `n`-th request creates.
-/

namespace AxiomGrid.Overlay

open Pipeline

/-! ### Ids -/

/-- What an id is drawn for: the document of `/demo`, the document of the ingestor, and so on. -/
inductive IdKind where
  | document
  | ingested
  | chunk
  | extraction
  | action
  | correction
  deriving DecidableEq

/-- `_gen_id`. -/
abbrev IdSupply := ℕ → IdKind → ℕ → Str

/-- No id is drawn twice. -/
def IdSupply.Fresh (ids : IdSupply) : Prop :=
  ∀ {n n' k k' i i'}, ids n k i = ids n' k' i' → n = n' ∧ k = k' ∧ i = i'

/-! ### The services -/

/-- What the server is built with. -/
structure Setting where
  u : UnicodeData
  emb : Grounding.Embeddings
  repr : PyRepr
  ids : IdSupply
  limits : Limits
  scan : Str → ScanResult
  packName : String
  packFields : List Str
  compressDocumentChunks : List Chunk → Option (List Chunk × PyFloat)

/-- What a pack returns for the chunks of a document; its extractions have no ids yet. -/
abbrev Extract := List Chunk → Except String (List Extraction)

/-- The state of the server: the services, and the number of requests so far. -/
structure Server where
  services : Services := {}
  served : ℕ := 0

namespace Setting

variable (cfg : Setting)

/-- The gate over the store of the server. -/
def gate (memory : MemoryStore) : LocalQualityGate :=
  LocalQualityGate.ofStore (memory.searchSimilarCorrections cfg.u)

/-- The verdict of the gate. -/
def verdict (memory : MemoryStore) (ext : Extraction) : GateVerdict :=
  ((cfg.gate memory).check cfg.repr ext).verdict

/-- The ids that the ingestor draws in a request. -/
def ingestIds (n : ℕ) : IngestIds where
  chunkId := cfg.ids n .chunk
  docId := cfg.ids n .ingested 0

/-- Extractions with the ids drawn in a request. -/
def label (n : ℕ) (extractions : List Extraction) : List Extraction :=
  extractions.zipIdx.map fun (ext, i) => { ext with extId := cfg.ids n .extraction i }

/-- The orchestrator, as it runs in a request. -/
def orchestrator (n : ℕ) (file : SourceFile) (extract : Extract) : OrchestratorImpl where
  ingest _ := file.ingest cfg.u cfg.limits (cfg.ingestIds n)
  scan := cfg.scan
  quality memory := (cfg.gate memory).check cfg.repr
  packName := cfg.packName
  packFields := cfg.packFields
  extract chunks := (extract chunks).map (cfg.label n)
  compressDocumentChunks := cfg.compressDocumentChunks

/-! ### `/demo` -/

/-- The order of the chunks: by page, then by the top of the box. -/
def chunkBefore (c c' : Chunk) : Bool :=
  let top := fun c : Chunk => c.bbox.elim (.fin 0) (·.y0)
  c.page < c'.page || (c.page == c'.page && (top c).lt (top c'))

/-- `sorted(chunks, key=lambda c: (c.page, c.bbox.y0 if c.bbox else 0))`. -/
def sortChunks (chunks : List Chunk) : List Chunk := chunks.mergeSort fun c c' => !chunkBefore c' c

/-- `"\n\n".join(chunk.text for chunk in chunks)`. -/
def joinTexts (chunks : List Chunk) : Str := List.intercalate ['\n', '\n'] (chunks.map (·.text))

/-- `document_text` of a file that is not text: the chunks registered under the id of the request's
document, or all chunks when there are none. -/
def registeredText (provenance : ProvenanceLog) (docId : Str) : Str :=
  let docChunks := provenance.chunksForDoc docId
  joinTexts (sortChunks (if docChunks = [] then provenance.allChunks else docChunks))

/-- One entry of `suggestions`. -/
structure Suggestion where
  extId : Str
  fieldName : Str
  value : Str
  confidence : PyFloat
  page : ℕ
  chunkId : Str
  bbox : PyFloat × PyFloat × PyFloat × PyFloat

/-- The suggestion for an extraction with its chain. -/
def suggestionFor (ext : Extraction) (chain : Chain) : Suggestion where
  extId := ext.extId
  fieldName := ext.fieldName
  value := ext.value
  confidence := ext.confidence
  page := chain.chunk.elim 1 (·.page)
  chunkId := chain.chunk.elim [] (·.chunkId)
  bbox := (chain.chunk.bind (·.bbox)).elim (.fin 0, .fin 0, .fin 1, .fin 1) fun b =>
    (b.x0, b.y0, b.x1, b.y1)

/-- The action proposed with a suggestion. -/
def actionFor (actionId : Str) (ext : Extraction) : Action where
  actionId := actionId
  extId := ext.extId
  targetApp := "notepad".toList
  payload := [("value", ext.value)]
  confidence := ext.confidence

/-- One extraction of the trace: skipped when it is blocked or its chain is not complete. -/
def suggestStep (n : ℕ) (loop : List Suggestion × ProvenanceLog) (entry : Extraction × ℕ) :
    List Suggestion × ProvenanceLog :=
  let (ext, i) := entry
  if ext.status = .blocked then loop
  else
    let chain := loop.2.getProvenance ext.extId
    if chain.isComplete then
      (loop.1 ++ [suggestionFor ext chain],
        loop.2.registerAction (actionFor (cfg.ids n .action i) ext))
    else loop

/-- What `/demo` returns when it succeeds. -/
structure DemoResponse where
  documentText : Str
  suggestions : List Suggestion
  trace : Trace

/-- The document that `/demo` hands to the orchestrator. -/
def requestDoc (n : ℕ) (file : SourceFile) : Document where
  docId := cfg.ids n .document 0
  sourcePath := file.path
  sha256 := (sha256 file.content).hex.toList

/-- `run_demo` on a file that can be read. -/
def runDemo (server : Server) (file : SourceFile) (extract : Extract) :
    Except String DemoResponse × Server :=
  let n := server.served
  let doc := cfg.requestDoc n file
  match (cfg.orchestrator n file extract).run cfg.u cfg.emb cfg.repr server.services doc with
  | (.error e, services) => (.error e, ⟨services, n + 1⟩)
  | (.ok trace, services) =>
    let documentText :=
      if file.isText cfg.u then file.decoded else registeredText services.provenance doc.docId
    let (suggestions, provenance) :=
      trace.extractions.zipIdx.foldl (cfg.suggestStep n) ([], services.provenance)
    (.ok { documentText, suggestions, trace }, ⟨{ services with provenance }, n + 1⟩)

/-! ### `/apply` -/

/-- `_DEFAULT_ALLOWLIST`. -/
def allowlist : List Str :=
  ["notepad", "browser", "office", "acrobat", "filesystem"].map String.toList

structure ApplyResult where
  success : Bool
  postState : Dict String Str := []
  error : Option String := none

/-- `ActionExecutorImpl.apply`. -/
def applyAction (provenance : ProvenanceLog) (action : Action) (humanConfirm : Bool) (now : Str) :
    ApplyResult :=
  let appName := Str.lower cfg.u action.targetApp
  if !humanConfirm then
    { success := false
      error := "CUA violation: Kairo is read+suggest only. Autonomous writes are strictly prohibited." }
  else if !allowlist.contains appName then
    { success := false
      error := "CUA Refused: App '" ++ String.ofList action.targetApp ++
        "' is not in the allowed application set." }
  else
    let chain := provenance.getProvenance action.extId
    if !chain.isComplete then
      { success := false, error := "Verification failed: incomplete provenance chain." }
    else
      let expectedValue := chain.extraction.elim [] (·.value)
      let payloadValue := (Dict.get? action.payload "value").getD []
      if expectedValue ≠ [] ∧ payloadValue ≠ [] ∧ expectedValue ≠ payloadValue then
        { success := false
          error := "Verification failed: extraction value '" ++ String.ofList expectedValue ++
            "' does not match action payload '" ++ String.ofList payloadValue ++ "'." }
      else
        { success := true
          postState := [("status", "verified".toList), ("app", appName), ("verified_at", now)] }

/-- `apply_cua`: the first action registered for the extraction. -/
def applyCua (provenance : ProvenanceLog) (extId : Str) (accept : Bool) (now : Str) : ApplyResult :=
  match provenance.actions.find? fun entry => entry.2.extId = extId with
  | none => { success := false, error := "No pending action found for this extraction" }
  | some (actionId, action) =>
    if actionId = [] then
      { success := false, error := "No pending action found for this extraction" }
    else cfg.applyAction provenance action accept now

/-! ### Histories -/

/-- A request. A `/demo` request may name a file that does not exist or cannot be read. -/
inductive Request where
  | demo (file : Option SourceFile) (extract : Extract)
  | apply (extId : Str) (accept : Bool)
  | correct (extId original corrected reason atTime : Str)

/-- The state after a request. -/
def step (server : Server) : Request → Server
  | .demo none _ => { server with served := server.served + 1 }
  | .demo (some file) extract => (cfg.runDemo server file extract).2
  | .apply _ _ => { server with served := server.served + 1 }
  | .correct extId original corrected reason atTime =>
    { services := { server.services with
        memory := server.services.memory.recordCorrection
          { corrId := cfg.ids server.served .correction 0
            extId, original, corrected, reason
            user := "overlay-user".toList
            atTime } }
      served := server.served + 1 }

/-- The state after a history. -/
def serve (server : Server) (history : List Request) : Server := history.foldl cfg.step server

end Setting

end AxiomGrid.Overlay

import AxiomGrid.Lib.FileSystem
import AxiomGrid.Overlay.Server
import AxiomGrid.Pipeline.IsolatedResult
import AxiomGrid.Pipeline.RefuseOrCite

/-!
# Extraction from a document on disk

`resolve_sandbox_path`, `_capture_extraction_source`, `extract_document` and `ask_document` of
`overlay/server.py`, with `classify_document` of `kairo/core/classifier.py` and
`ingest_document_isolated` of `kernel/sidecar/isolated_ingest.py`. The links and files may change between
the lookup of a path and the opening of the file. The parser runs in a child that is not trusted: what
the parent finds under the name of its result is any file.
-/

namespace AxiomGrid.Overlay.ExtractDocument

open Pipeline Pipeline.OrchestratorImpl Pipeline.Isolated

/-- The exceptions that the handlers tell apart. -/
inductive Raised where
  | http (statusCode : ℕ) (detail : String) (retryAfter : Option String := none)
  | osError
  | timeoutError
  | other

/-- Goes on only if the condition holds. -/
def require (condition : Bool) (e : Raised) : Except Raised Unit :=
  if condition then .ok () else .error e

/-- `try: x except ...: raise`. -/
def handling {α : Type} (handler : Raised → Raised) : Except Raised α → Except Raised α
  | .ok a => .ok a
  | .error e => .error (handler e)

/-- A computation whose exceptions are all of the kinds that nobody names. -/
def unnamed {α : Type} : Except String α → Except Raised α
  | .ok a => .ok a
  | .error _ => .error .other

section

variable {α : Type}

@[simp] lemma require_ok_iff {condition : Bool} {e : Raised} {a : Unit} :
    require condition e = .ok a ↔ condition = true := by
  cases condition <;> simp [require]

@[simp] lemma handling_ok_iff {handler : Raised → Raised} {x : Except Raised α} {a : α} :
    handling handler x = .ok a ↔ x = .ok a := by
  cases x <;> simp [handling]

@[simp] lemma unnamed_ok_iff {x : Except String α} {a : α} : unnamed x = .ok a ↔ x = .ok a := by
  cases x <;> simp [unnamed]

end

/-! ### The path -/

/-- The directories that a path may be under, and the one that relative paths are looked up in. -/
structure Sandbox where
  baseDir : RawPath
  allowedRoots : List FilePath

namespace Sandbox

variable (sandbox : Sandbox)

/-- `FIXTURES_DIR`. -/
def fixturesDir : RawPath := sandbox.baseDir.join ⟨false, ["fixtures", "wedge"]⟩

/-- The paths that are tried. -/
def candidates (cwd : FilePath) (filePathStr : Str) : List RawPath :=
  let p := RawPath.parse (String.ofList filePathStr)
  if p.absolute then [p]
  else [sandbox.fixturesDir.join p, sandbox.baseDir.join p, (RawPath.ofPath cwd).join p, p]

end Sandbox

/-- The file system, while a path is looked up. -/
structure Lookup where
  fs : FileSystem
  /-- The lookup raises `OSError` or `ValueError`. -/
  refused : RawPath → Bool
  /-- A loop of links raises `RuntimeError`, as it does before Python 3.13. -/
  loopRaises : Bool

/-- One candidate: the file it leads to, if it may be read. -/
def Sandbox.tryCandidate (sandbox : Sandbox) (look : Lookup) (cand : RawPath) :
    Except Raised (Option FilePath) :=
  if look.refused cand then .ok none
  else
    match look.fs.resolve cand with
    | none => if look.loopRaises then .error .other else .ok none
    | some resolved =>
      .ok (if look.fs.isFile resolved && sandbox.allowedRoots.any (·.isPrefixOf resolved) then
        some resolved else none)

/-- The loop over the candidates. -/
def Sandbox.firstAllowed (sandbox : Sandbox) (look : Lookup) :
    List RawPath → Except Raised (Option FilePath)
  | [] => .ok none
  | cand :: candidates => do
    match ← sandbox.tryCandidate look cand with
    | some resolved => return resolved
    | none => firstAllowed sandbox look candidates

/-- `resolve_sandbox_path`. -/
def Sandbox.resolveSandboxPath (sandbox : Sandbox) (look : Lookup) (filePathStr : Str) :
    Except Raised FilePath := do
  let _ ← require (Str.strip filePathStr ≠ [] && '\x00' ∉ filePathStr) (.http 422 "Invalid file path")
  match ← sandbox.firstAllowed look (sandbox.candidates look.fs.cwd filePathStr) with
  | some resolved => return resolved
  | none => .error (.http 404 ("File " ++ String.ofList filePathStr ++ " not found"))

/-- `str(path)` for an absolute path. -/
def pathText (p : FilePath) : Str := '/' :: List.intercalate ['/'] (p.map String.toList)

/-- The content, if it is within the budget. -/
def withinBudget (maxUploadBytes : ℕ) (content : Bytes) : Except Raised Bytes := do
  let _ ← require (content.length ≤ maxUploadBytes) (.http 413 "Document exceeds byte budget")
  return content

/-- `_capture_extraction_source`: the size of the file is checked, and then what was read. -/
def captureExtractionSource (maxUploadBytes : ℕ) (fs : FileSystem) (p : FilePath) :
    Except Raised Bytes :=
  match fs.openNoFollow p with
  | none => .error .osError
  | some content => do
    let content ← withinBudget maxUploadBytes content
    withinBudget maxUploadBytes (content.take (maxUploadBytes + 1))

/-! ### `ingest_document_isolated` -/

/-- The environment variables that are set. -/
abbrev Environ := String → Option Str

/-- `int(raw)`, for a text that is ASCII and decimal. -/
def decimalInt? (raw : Str) : Option ℕ :=
  if raw ≠ [] ∧ raw.all (fun c => '0' ≤ c && c ≤ '9') then
    some (raw.foldl (fun n c => 10 * n + (c.toNat - '0'.toNat)) 0)
  else none

/-- `_positive_setting`. -/
def positiveSetting (environ : Environ) (name : String) (default maximum : ℕ) : Except Raised ℕ :=
  match environ name with
  | none => .ok default
  | some raw =>
    match (decimalInt? raw).filter fun value => 0 < value && value ≤ maximum with
    | some value => .ok value
    | none => .error .other

/-- The limits of `_configuration`. -/
structure IngestLimits where
  input : ℕ
  result : Configuration
  cpu : ℕ
  addressSpace : ℕ

/-- `_configuration`. -/
def configuration (environ : Environ) : Except Raised IngestLimits := do
  let input ← positiveSetting environ "AXIOM_INGEST_MAX_INPUT_BYTES" (32 * 1024 * 1024) (32 * 1024 * 1024)
  let output ← positiveSetting environ "AXIOM_INGEST_MAX_OUTPUT_BYTES" (32 * 1024 * 1024) (32 * 1024 * 1024)
  let chunks ← positiveSetting environ "AXIOM_INGEST_MAX_CHUNKS" 20000 20000
  let pages ← positiveSetting environ "AXIOM_INGEST_MAX_PAGES" 10000 10000
  let text ← positiveSetting environ "AXIOM_MAX_EXTRACTED_CHARS" (4 * 1024 * 1024) (4 * 1024 * 1024)
  let cpu ← positiveSetting environ "AXIOM_INGEST_CPU_SECONDS" 120 86400
  let addressSpace ← positiveSetting environ "AXIOM_INGEST_RSS_BYTES" (2 * 1024 ^ 3) (16 * 1024 ^ 3)
  return ⟨input, ⟨output, chunks, pages, text⟩, cpu, addressSpace⟩

/-- `isolation_enabled` and `_extraction_isolation_mode`: whether the parser runs in a process. -/
def isolationEnabled (environ : Environ) : Except Raised Bool :=
  match environ "AXIOM_EXTRACTION_ISOLATION" with
  | none => .ok true
  | some mode =>
    if mode = "process".toList then .ok true
    else if mode = "thread".toList then .ok false
    else .error .other

/-- The calls of `check_deadline`. -/
inductive Checkpoint where
  | captured
  | parsed
  | validated

/-- What one parser invocation meets. -/
structure Invocation (Time : Type) where
  environ : Environ
  /-- The private directory. -/
  directory : Str
  /-- The deadline has passed. -/
  expired : Checkpoint → Bool
  /-- The exit code of the child, unless it is killed at the deadline. -/
  exitcode : Option ℤ
  /-- What the child leaves. -/
  result : ResultFile
  /-- `IngestorImpl().ingest`, on a snapshot. -/
  ingestor : Str → Except String (Graph Time)

/-- The suffixes of the documents that are parsed. -/
def supportedSuffixes : List Str := [".txt".toList, ".md".toList, ".pdf".toList, ".docx".toList]

namespace Invocation

variable {Time : Type} (u : UnicodeData) (rt : Runtime Time) (inv : Invocation Time)

def checkDeadline (at' : Checkpoint) : Except Raised Unit :=
  require (!inv.expired at') .timeoutError

/-- The snapshot of a document. -/
def snapshot (filepath : Str) : Str :=
  inv.directory ++ "/source".toList ++ Str.lower u (suffix filepath)

/-- The result of the child process. -/
def runProcess : Except Raised ResultFile :=
  match inv.exitcode with
  | none => .error .timeoutError
  | some code => if code = 0 then .ok inv.result else .error .other

/-- The result of a parser in the thread. -/
def runThread (snapshot : Str) (maximum : ℕ) : Except Raised ResultFile := do
  let graph ← unnamed (inv.ingestor snapshot)
  let data ← unnamed (writeResult (graph.payload rt) maximum)
  return .opened true 1 data

/-- What the parser leaves, in either mode. -/
def runParser (process : Bool) (snapshot : Str) (maximum : ℕ) : Except Raised ResultFile :=
  if process then inv.runProcess else inv.runThread rt snapshot maximum

/-- `ingest_document_isolated`, with the bytes that were captured. -/
def ingestDocumentIsolated (filepath : Str) (timeout : PyFloat) (content : Bytes) :
    Except Raised (Graph Time) := do
  let _ ← require (timeout.isFinite && PyFloat.lt (.fin 0) timeout) .other
  let _ ← require (filepath ≠ [] && filepath.length ≤ 4096 && '\x00' ∉ filepath) .other
  let process ← isolationEnabled inv.environ
  let limits ← configuration inv.environ
  let _ ← require (Str.lower u (suffix filepath) ∈ supportedSuffixes) .other
  let _ ← require (content.length ≤ limits.input) .other
  let _ ← inv.checkDeadline .captured
  let snapshot := inv.snapshot u filepath
  let result ← inv.runParser rt process snapshot limits.result.output
  let _ ← inv.checkDeadline .parsed
  let payload ← unnamed (readResult rt.readFloat result limits.result.output)
  let graph ← unnamed (validate rt payload snapshot (sha256 content).hex.toList limits.result)
  let _ ← inv.checkDeadline .validated
  return { graph with document := { graph.document with sourcePath := filepath } }

end Invocation

/-- `_CapturedIngestor.ingest`: the parse that was captured, for the path it was captured from. -/
def capturedIngest {Time : Type} (graph : Graph Time) (path : Str) :
    Except String (List Chunk × Document × List Page) :=
  if path = graph.document.sourcePath then .ok (graph.chunks, graph.document, graph.pages)
  else .error "Captured ingestion belongs to a different source"

/-! ### The type of a document -/

/-- What `classify_document` returns. -/
inductive DocType where
  | invoice
  | contract
  | paper
  | memo
  | generic
  deriving DecidableEq, Repr

def memoKeywords : List String :=
  ["classification:", "declassify on:", "date of information:", "rel to"]

def invoiceKeywords : List String :=
  ["invoice", "invoice number", "amount due", "total amount", "bill to", "payment terms", "subtotal",
    "sub-total", "tax amount", "faktura", "rechnung", "receipt"]

def contractKeywords : List String :=
  ["agreement", "party", "parties", "whereas", "governing law", "termination", "non-disclosure",
    "confidential", "obligations", "shall", "covenant", "hereby", "hereinafter", "partnership"]

def paperKeywords : List String :=
  ["abstract", "references", "doi", "et al", "methodology", "experimental results", "conclusions",
    "keywords", "arxiv", "figure", "table"]

/-- `sum(1 for kw in keywords if kw in text_lower)`. -/
def keywordScore (keywords : List String) (textLower : Str) : ℕ :=
  keywords.countP fun kw => Str.contains kw.toList textLower

/-- `max(scores, key=scores.get)`: the first type with the greatest score. -/
def bestType (invoiceScore contractScore paperScore : ℕ) : DocType × ℕ :=
  if contractScore ≤ invoiceScore ∧ paperScore ≤ invoiceScore then (.invoice, invoiceScore)
  else if paperScore ≤ contractScore then (.contract, contractScore)
  else (.paper, paperScore)

/-- A contract with one signal. -/
def weakContract (textLower : Str) (invoiceScore paperScore : ℕ) : DocType :=
  if ["whereas", "governing law", "parties"].any fun kw => Str.contains kw.toList textLower then
    .contract
  else if 0 < invoiceScore then .invoice
  else if 0 < paperScore then .paper
  else .generic

/-- `classify_document`. -/
def classifyDocument (u : UnicodeData) (text : Str) (pageCount : ℕ := 1) : DocType :=
  let textLower := Str.lower u text
  let invoiceScore := keywordScore invoiceKeywords textLower
  let contractScore := keywordScore contractKeywords textLower
  let paperScore := keywordScore paperKeywords textLower
  let best := bestType invoiceScore contractScore paperScore
  if 1 ≤ keywordScore memoKeywords textLower ∨
      (Str.lines text).any ("CLASSIFICATION:".toList.isPrefixOf ·) then .memo
  else if best.2 = 0 then
    if 8 ≤ pageCount then .paper else if 5 ≤ pageCount then .contract else .generic
  else if best.1 = .contract ∧ contractScore < 2 then weakContract textLower invoiceScore paperScore
  else best.1

/-! ### The response -/

/-- `[x, y, width, height]`. -/
abbrev Rect := PyFloat × PyFloat × PyFloat × PyFloat

/-- The box of an anchor as the response has it. -/
def rectOf (bbox : BBox) : Rect :=
  (bbox.x0, bbox.y0, bbox.x1.sub bbox.x0, bbox.y1.sub bbox.y0)

/-- One entry of `fields`; its key `grounded` is always true. -/
structure FieldData where
  value : Str
  bbox : Option Rect
  page : ℕ
  cascade : String
  confidence : PyFloat
  sourceLink : String

/-- `method.value.upper()`. -/
def cascadeName : GroundingMethod → String
  | .exact => "EXACT"
  | .fuzzy => "FUZZY"
  | .semantic => "SEMANTIC"
  | .visual => "VISUAL"
  | .block => "BLOCK"

/-- `build_source_link`, with a box of zeros for none. -/
def buildSourceLink (r : PyRepr) (docId : Str) (page : ℕ) (bbox : Option Rect) : String :=
  let coords : String × String × String × String :=
    bbox.elim ("0", "0", "0", "0") fun b => (r.float b.1, r.float b.2.1, r.float b.2.2.1, r.float b.2.2.2)
  "kairo://doc/" ++ String.ofList docId ++ "?page=" ++ toString page ++ "&x=" ++ coords.1 ++ "&y=" ++
    coords.2.1 ++ "&w=" ++ coords.2.2.1 ++ "&h=" ++ coords.2.2.2

/-- The box and the page of the first anchor. An anchor without a box raises. -/
def placeOf (ext : Extraction) : Except Raised (Option Rect × ℕ) :=
  match ext.anchors.head? with
  | none => .ok (none, 1)
  | some anchor =>
    match anchor.bbox with
    | none => .error .other
    | some bbox => .ok (some (rectOf bbox), anchor.page)

/-- The variables of the loop over the extractions. -/
structure ResponseLoop where
  fields : Dict Str FieldData := []
  refusedFields : List Str := []

/-- The entry of a grounded extraction. -/
def fieldData (r : PyRepr) (doc : Document) (ext : Extraction) (place : Option Rect × ℕ) : FieldData where
  value := ext.value
  bbox := place.1
  page := place.2
  cascade := cascadeName ext.method
  confidence := ext.confidence
  sourceLink := buildSourceLink r doc.docId place.2 place.1

/-- One extraction of the trace. -/
def ResponseLoop.step (r : PyRepr) (doc : Document) (loop : ResponseLoop) (ext : Extraction) :
    Except Raised ResponseLoop := do
  let place ← placeOf ext
  if ext.method ≠ .block then
    return { loop with fields := loop.fields.set ext.fieldName (fieldData r doc ext place) }
  else
    return { loop with refusedFields := loop.refusedFields ++ [ext.fieldName] }

/-- The response; the processing time is left out. -/
structure Response where
  docId : Str
  docType : DocType
  fields : Dict Str FieldData
  refusedFields : List Str

/-- The response for a trace. -/
def respond (r : PyRepr) (trace : Trace) (docType : DocType) (doc : Document) :
    Except Raised Response := do
  let loop ← trace.extractions.foldlM (ResponseLoop.step r doc) {}
  return ⟨doc.docId, docType, loop.fields, loop.refusedFields⟩

/-! ### The endpoints -/

/-- One of the packs. -/
structure Pack where
  name : String
  fields : List Str
  extract : List Chunk → Except String (List Extraction)

/-- What the endpoints are built with. -/
structure Service (Time : Type) where
  u : UnicodeData
  emb : Grounding.Embeddings
  repr : PyRepr
  rt : Runtime Time
  sandbox : Sandbox
  maxUploadBytes : ℕ
  /-- `EXTRACTION_DEADLINE_SECONDS`, with no decimals. -/
  deadlineText : String
  scan : Str → ScanResult
  packs : DocType → Pack
  compressDocumentChunks : List Chunk → Option (List Chunk × PyFloat)

/-- What one request meets. -/
structure Attempt (Time : Type) where
  /-- There is a free slot. -/
  admitted : Bool
  look : Lookup
  /-- The file system when the document is opened. -/
  opened : FileSystem
  /-- The time that is left before the document is parsed. -/
  remaining : PyFloat
  invocation : Invocation Time
  /-- The work ends before the deadline. -/
  timely : Bool

namespace Service

variable {Time : Type} (service : Service Time)

/-- The exceptions of a capture. -/
def onCapture : Raised → Raised
  | .osError => .http 422 "Unable to read document"
  | .timeoutError => .http 422 "Unable to read document"
  | e => e

def unsupported : Raised := .http 422 "Document format is unsupported, invalid, or unavailable"

/-- The exceptions of a parse. -/
def onParse : Raised → Raised
  | .timeoutError => .http 504 "Isolated parsing exceeded its deadline" (some "5")
  | _ => unsupported

/-- The captured parse of a document. -/
def parse (attempt : Attempt Time) (filepath : Str) (content : Bytes) : Except Raised (Graph Time) := do
  let _ ← isolationEnabled attempt.invocation.environ
  let _ ← require (!PyFloat.le attempt.remaining (.fin 0)) .timeoutError
  attempt.invocation.ingestDocumentIsolated service.u service.rt filepath attempt.remaining content

/-- The orchestrator of one request, over a captured parse. -/
def orchestrator (graph : Graph Time) (docType : DocType) : OrchestratorImpl where
  ingest := capturedIngest graph
  scan := service.scan
  quality memory :=
    (LocalQualityGate.ofStore (memory.searchSimilarCorrections service.u)).check service.repr
  packName := (service.packs docType).name
  packFields := (service.packs docType).fields
  extract := (service.packs docType).extract
  compressDocumentChunks := service.compressDocumentChunks

/-- `_run_admitted`, from the path on. -/
def runAdmitted (attempt : Attempt Time) (file : Str) : Except Raised (Trace × DocType × Document) := do
  let filePath ← service.sandbox.resolveSandboxPath attempt.look file
  let filepath := pathText filePath
  let content ← handling onCapture
    (captureExtractionSource service.maxUploadBytes attempt.opened filePath)
  let _ ← require (Str.lower service.u (suffix filepath) ∈ supportedSuffixes) unsupported
  let graph ← handling onParse (service.parse attempt filepath content)
  let (chunks, _, _) ← unnamed (capturedIngest graph filepath)
  let docType := classifyDocument service.u (Setting.joinTexts chunks)
  let trace ← unnamed ((service.orchestrator graph docType).run service.u service.emb service.repr {}
    graph.document).1
  return (trace, docType, graph.document)

def deadlineExceeded : Raised :=
  .http 504 ("Extraction exceeded " ++ service.deadlineText ++ "s deadline") (some "5")

/-- The exceptions of the work. -/
def onWork : Raised → Raised
  | .http statusCode detail retryAfter => .http statusCode detail retryAfter
  | .timeoutError => service.deadlineExceeded
  | _ => .http 500 "Extraction pipeline failed"

/-- `extract_document`. -/
def extractDocument (attempt : Attempt Time) (file : Str) : Except Raised Response := do
  let _ ← require attempt.admitted (.http 503 "Extraction capacity saturated; retry shortly" (some "1"))
  let _ ← require attempt.timely service.deadlineExceeded
  let (trace, docType, doc) ← handling service.onWork (service.runAdmitted attempt file)
  respond service.repr trace docType doc

/-- What `ask_document` answers. -/
inductive Answer where
  | grounded (question value : Str) (bbox : Option Rect) (page : ℕ) (sourceLink : String)
  | refused (question : Str)

/-- The question names the field. -/
def mentions (questionLower fieldName : Str) : Bool :=
  Str.contains (fieldName.map fun c => if c = '_' then ' ' else c) questionLower ||
    Str.contains fieldName questionLower

/-- The loop over the fields. -/
def answerFrom (question : Str) (fields : Dict Str FieldData) : Answer :=
  match fields.find? fun entry => mentions (Str.lower service.u question) entry.1 with
  | some entry => .grounded question entry.2.value entry.2.bbox entry.2.page entry.2.sourceLink
  | none => .refused question

/-- The exceptions of an answer. -/
def onAsk : Raised → Raised
  | .http statusCode detail retryAfter => .http statusCode detail retryAfter
  | _ => .http 500 "ask-document failed"

/-- The validators of `ExtractDocumentRequest`. -/
def isExtractRequest (file : Str) : Bool :=
  1 ≤ file.length && file.length ≤ 4096 && '\x00' ∉ file && Str.strip file ≠ []

/-- `ask_document`. -/
def askDocument (look : Lookup) (attempt : Attempt Time) (file question : Str) :
    Except Raised Answer := do
  let filePath ← service.sandbox.resolveSandboxPath look file
  let filepath := pathText filePath
  let result ← handling onAsk do
    let _ ← require (isExtractRequest filepath) .other
    service.extractDocument attempt filepath
  return service.answerFrom question result.fields

end Service

/-! ### The path -/

section

variable {sandbox : Sandbox} {look : Lookup} {p : FilePath}

/-- The path is that of a regular file under a root, with no link on it. -/
structure Allowed (sandbox : Sandbox) (look : Lookup) (p : FilePath) : Prop where
  root : ∃ root ∈ sandbox.allowedRoots, root <+: p
  regular : look.fs.isFile p = true
  plain : PlainPath look.fs.links p

lemma allowed_of_tryCandidate {cand : RawPath} (h : sandbox.tryCandidate look cand = .ok (some p)) :
    Allowed sandbox look p := by
  rw [Sandbox.tryCandidate] at h
  cases hrefused : look.refused cand with
  | true => simp [hrefused] at h
  | false =>
    cases hresolve : look.fs.resolve cand with
    | none =>
      simp only [hrefused, hresolve, Bool.false_eq_true, if_false] at h
      split_ifs at h
      cases h
    | some resolved =>
      simp only [hrefused, hresolve, Bool.false_eq_true, if_false, Except.ok.injEq,
        Option.ite_none_right_eq_some, Bool.and_eq_true, List.any_eq_true, Option.some.injEq] at h
      obtain ⟨⟨hfile, root, hroot, hprefix⟩, rfl⟩ := h
      exact ⟨⟨root, hroot, List.isPrefixOf_iff_prefix.mp hprefix⟩, hfile,
        FileSystem.resolve_plain hresolve⟩

lemma allowed_of_firstAllowed {cands : List RawPath}
    (h : sandbox.firstAllowed look cands = .ok (some p)) : Allowed sandbox look p := by
  induction cands with
  | nil => cases h
  | cons cand cands ih =>
    rw [Sandbox.firstAllowed] at h
    obtain ⟨found, hfound, h⟩ := Except.of_bind_eq_ok h
    cases found with
    | none => exact ih h
    | some resolved =>
      cases h
      exact allowed_of_tryCandidate hfound

lemma allowed_of_resolveSandboxPath {file : Str} (h : sandbox.resolveSandboxPath look file = .ok p) :
    Allowed sandbox look p := by
  rw [Sandbox.resolveSandboxPath] at h
  obtain ⟨_, -, h⟩ := Except.of_bind_eq_ok h
  obtain ⟨found, hfound, h⟩ := Except.of_bind_eq_ok h
  cases found with
  | none => cases h
  | some resolved =>
    cases h
    exact allowed_of_firstAllowed hfound

lemma withinBudget_ok_iff {maxUploadBytes : ℕ} {content captured : Bytes} :
    withinBudget maxUploadBytes content = .ok captured ↔
      content.length ≤ maxUploadBytes ∧ content = captured := by
  simp only [withinBudget, Except.bind_eq_ok_iff, require_ok_iff, decide_eq_true_eq, Except.pure_eq,
    Except.ok.injEq, exists_const]

lemma captureExtractionSource_ok_iff {maxUploadBytes : ℕ} {fs : FileSystem} {content : Bytes} :
    captureExtractionSource maxUploadBytes fs p = .ok content ↔
      fs.openNoFollow p = some content ∧ content.length ≤ maxUploadBytes := by
  rw [captureExtractionSource]
  cases hopen : fs.openNoFollow p with
  | none => simp
  | some read =>
    simp only [Except.bind_eq_ok_iff, withinBudget_ok_iff, Option.some.injEq]
    constructor
    · rintro ⟨_, ⟨hlength, rfl⟩, -, rfl⟩
      rw [List.take_of_length_le (Nat.le_succ_of_le hlength)]
      exact ⟨rfl, hlength⟩
    · rintro ⟨rfl, hlength⟩
      have htake : read.take (maxUploadBytes + 1) = read :=
        List.take_of_length_le (Nat.le_succ_of_le hlength)
      exact ⟨read, ⟨hlength, rfl⟩, htake.symm ▸ hlength, htake⟩

end

/-! ### The parse -/

section

variable {Time : Type} {u : UnicodeData} {rt : Runtime Time} {inv : Invocation Time}
  {filepath : Str} {timeout : PyFloat} {content : Bytes} {graph : Graph Time}

/-- What the parent knows of a parse, whatever the child has written. -/
structure Trusted (content : Bytes) (graph : Graph Time) : Prop where
  sha256 : graph.document.sha256 = (sha256 content).hex.toList
  chunks_nodup : (graph.chunks.map (·.chunkId)).Nodup
  docId : ∀ chunk ∈ graph.chunks, chunk.docId = graph.document.docId
  page : ∀ chunk ∈ graph.chunks, ∃ page ∈ graph.pages, page.index = chunk.page
  bbox : ∀ chunk ∈ graph.chunks, ∃ bbox, chunk.bbox = some bbox ∧ Normalized bbox

lemma trusted_of_valid {snapshot : Str} {limits : Configuration}
    (h : graph.Valid snapshot (sha256 content).hex.toList limits) : Trusted content graph where
  sha256 := h.sha256
  chunks_nodup := h.chunks_nodup
  docId chunk hchunk := (h.chunks chunk hchunk).docId
  page chunk hchunk := List.mem_map.mp (h.chunks chunk hchunk).seen
  bbox chunk hchunk := by
    obtain ⟨bbox, hbbox, hshare⟩ := (h.chunks chunk hchunk).bbox
    exact ⟨bbox, hbbox, normalized_of_isShare hshare⟩

lemma of_ingestDocumentIsolated
    (h : inv.ingestDocumentIsolated u rt filepath timeout content = .ok graph) :
    graph.document.sourcePath = filepath ∧ Trusted content graph := by
  rw [Invocation.ingestDocumentIsolated] at h
  simp only [Except.bind_eq_ok_iff, unnamed_ok_iff, validate_ok_iff, Except.pure_eq, Except.ok.injEq] at h
  obtain ⟨-, -, -, -, _, -, limits, -, -, -, -, -, -, -, _, -, -, -, _, -, accepted, ⟨-, hvalid⟩, -, -,
    rfl⟩ := h
  have htrusted := trusted_of_valid hvalid
  exact ⟨rfl, htrusted.sha256, htrusted.chunks_nodup, htrusted.docId, htrusted.page, htrusted.bbox⟩

end

/-! ### What an extraction cites -/

section

variable {u : UnicodeData} {emb : Grounding.Embeddings}

/-- The extraction cites the chunk: its only anchor points there, and one found by the exact stage is in
the text of the chunk. -/
structure CitesChunk (u : UnicodeData) (ext : Extraction) (chunk : Chunk) : Prop where
  anchors : ∃ charSpan, ext.anchors = [Grounding.anchorAt chunk charSpan]
  exact : ext.method = .exact →
    Str.lower u (Grounding.targetOf ext.value ext.sourceSpan) <:+: Str.lower u chunk.text

lemma infix_of_exactStage {target : Str} {chunks : List Chunk} {anchor : Anchor}
    (h : Grounding.exactStage u target chunks = some anchor) :
    ∃ chunk ∈ chunks, (∃ charSpan, anchor = Grounding.anchorAt chunk charSpan) ∧
      Str.lower u target <:+: Str.lower u chunk.text := by
  obtain ⟨chunk, hchunk, hfound⟩ := List.exists_of_findSome?_eq_some h
  obtain ⟨start, hstart, rfl⟩ := Option.map_eq_some_iff.mp hfound
  refine ⟨chunk, hchunk, ⟨_, rfl⟩, ?_⟩
  rw [← Str.contains_iff, Str.contains, List.any_eq_true]
  obtain ⟨hlt, hprefix, -⟩ := List.findIdx?_eq_some_iff_getElem.mp hstart
  exact ⟨_, List.getElem_mem hlt, hprefix⟩

lemma mem_withSourceType {doc : Document} {chunks : List Chunk} {chunk : Chunk}
    (h : chunk ∈ withSourceType doc chunks) : ∃ ingested ∈ chunks, chunk.text = ingested.text ∧
      ∀ charSpan, Grounding.anchorAt chunk charSpan = Grounding.anchorAt ingested charSpan := by
  simp only [withSourceType] at h
  split_ifs at h with hname
  · exact ⟨chunk, h, rfl, fun _ => rfl⟩
  · obtain ⟨ingested, hingested, rfl⟩ := List.mem_map.mp h
    exact ⟨ingested, hingested, rfl, fun _ => rfl⟩

variable (u emb) in
/-- A grounded extraction is blocked without anchors, or cites one of the chunks. -/
lemma citesChunk_ground (doc : Document) (chunks : List Chunk) (ext : Extraction) :
    (ground u emb (withSourceType doc chunks) ext).method = .block ∧
      (ground u emb (withSourceType doc chunks) ext).anchors = [] ∨
    (ground u emb (withSourceType doc chunks) ext).method ≠ .block ∧
      ∃ chunk ∈ chunks, CitesChunk u (ground u emb (withSourceType doc chunks) ext) chunk := by
  obtain ⟨hblock, hanchors⟩ | ⟨anchor, hanchored, hmethod, hanchors, -⟩ :=
    ground_cases u emb doc chunks ext
  · exact .inl ⟨hblock, hanchors⟩
  · refine .inr ⟨hmethod, ?_⟩
    by_cases hexact : (ground u emb (withSourceType doc chunks) ext).method = .exact
    · have hverify : Grounding.verify u emb {} ext.value ext.sourceSpan (withSourceType doc chunks) =
          (.exact, (ground u emb (withSourceType doc chunks) ext).anchors) := by
        rw [← hexact]
        rfl
      obtain ⟨found, hfound, ⟨-, hstage⟩ | ⟨hstage, -⟩ | ⟨hstage, -⟩ | ⟨hstage, -⟩⟩ :=
        Grounding.stage_of_verify hverify (by decide)
      · obtain ⟨chunk, hchunk, ⟨charSpan, rfl⟩, hinfix⟩ := infix_of_exactStage hstage
        obtain ⟨ingested, hingested, htext, hanchor⟩ := mem_withSourceType hchunk
        rw [hanchor] at hfound
        exact ⟨ingested, hingested, ⟨charSpan, hfound⟩, fun _ => htext ▸ hinfix⟩
      all_goals cases hstage
    · obtain ⟨chunk, hchunk, charSpan, rfl⟩ := hanchored
      exact ⟨chunk, hchunk, ⟨charSpan, hanchors⟩, fun h => absurd h hexact⟩

variable (u emb) in
/-- A run over chunks with boxes never raises. It is halted before the extractor has returned, or its
trace lists the grounded extractions as the gate leaves them. -/
lemma run_extractions (r : PyRepr) {orchestrator : OrchestratorImpl} (services : Services)
    {doc ingestedDoc : Document} {chunks : List Chunk} {pages : List Page}
    (hingest : orchestrator.ingest doc.sourcePath = .ok (chunks, ingestedDoc, pages))
    (hbbox : ∀ c ∈ chunks, c.bbox ≠ none) :
    ∃ trace services', orchestrator.run u emb r services doc = (.ok trace, services') ∧
      (trace.extractions = [] ∨ ∃ extractions,
        orchestrator.extract (orchestrator.extractionChunks chunks) = .ok extractions ∧
        ∃ check, trace.extractions =
          (extractions.map (ground u emb (withSourceType doc chunks))).map (settle check)) := by
  cases hregister : (services.registerDocument ingestedDoc pages).registerChunks chunks with
  | mk outcome registered =>
    cases outcome with
    | error e =>
      obtain ⟨c, hc, hnone⟩ := Services.registerChunks_error hregister
      exact absurd hnone (hbbox c hc)
    | ok done =>
      simp only [run, hingest, hregister]
      refine ⟨_, _, rfl, ?_⟩
      rw [filterStage]
      split_ifs with hblocked
      · exact .inl rfl
      · rw [extractStage]
        cases hextract : orchestrator.extract (orchestrator.extractionChunks chunks) with
        | error e => exact .inl rfl
        | ok extractions =>
          refine .inr ⟨extractions, rfl, orchestrator.quality (registered.registerExtractions
            (extractions.map (ground u emb (withSourceType doc chunks)))).memory, ?_⟩
          rw [concludeRun_extractions, gateLoop_all]

end

/-! ### The response -/

section

variable {r : PyRepr} {doc : Document}

/-- The gate changes nothing that the response cites. -/
lemma settle_same (check : Extraction → GateResult) (ext : Extraction) :
    ∃ status, settle check ext =
      { ext with status, confidence := (check ext).calibratedConfidence } := by
  rw [settle]
  split_ifs
  · exact ⟨ext.status, rfl⟩
  · exact ⟨.pendingReview, rfl⟩

/-- What the loop over `exts` makes of its variables. -/
structure Lists (r : PyRepr) (doc : Document) (exts : List Extraction) (loop loop' : ResponseLoop) :
    Prop where
  refused : loop'.refusedFields =
    loop.refusedFields ++ (exts.filter (·.method = .block)).map (·.fieldName)
  entries : ∀ entry ∈ loop'.fields, entry ∈ loop.fields ∨ ∃ ext ∈ exts, ext.method ≠ .block ∧
    ∃ place, placeOf ext = .ok place ∧ entry = (ext.fieldName, fieldData r doc ext place)
  keys : ∀ name, name ∈ loop'.fields.map Prod.fst ↔
    name ∈ loop.fields.map Prod.fst ∨ ∃ ext ∈ exts, ext.method ≠ .block ∧ ext.fieldName = name

lemma mem_keys_set {κ ν : Type*} [DecidableEq κ] {d : Dict κ ν} {k k' : κ} {v : ν} :
    k' ∈ (d.set k v).map Prod.fst ↔ k' ∈ d.map Prod.fst ∨ k = k' := by
  by_cases hk : k ∈ d.map Prod.fst
  · rw [Dict.map_fst_set_of_mem hk, or_iff_left_of_imp (fun h => h ▸ hk)]
  · rw [Dict.map_fst_set_of_not_mem hk, List.mem_append, List.mem_singleton, eq_comm (a := k')]

variable (r doc) in
lemma lists_step {ext : Extraction} {place : Option Rect × ℕ} (hplace : placeOf ext = .ok place)
    (loop : ResponseLoop) :
    ∃ loop', loop.step r doc ext = .ok loop' ∧ Lists r doc [ext] loop loop' := by
  rw [ResponseLoop.step, hplace]
  by_cases hblock : ext.method = .block
  · refine ⟨_, if_neg (not_not.mpr hblock), ?_, fun entry h => .inl h, fun name => ?_⟩
    · simp [hblock]
    · simp [hblock]
  · refine ⟨_, if_pos hblock, ?_, fun entry h => ?_, fun name => ?_⟩
    · simp [hblock]
    · obtain rfl | h := Dict.mem_set h
      · exact .inr ⟨ext, List.mem_singleton_self ext, hblock, place, hplace, rfl⟩
      · exact .inl h
    · simp only [mem_keys_set, List.mem_singleton, exists_eq_left, hblock, ne_eq, not_false_eq_true,
        true_and]

variable (r doc) in
/-- A response is always built when the anchors have boxes. -/
lemma lists_foldlM {exts : List Extraction} (hplaces : ∀ ext ∈ exts, ∃ place, placeOf ext = .ok place)
    (loop : ResponseLoop) :
    ∃ loop', exts.foldlM (ResponseLoop.step r doc) loop = .ok loop' ∧ Lists r doc exts loop loop' := by
  induction exts generalizing loop with
  | nil => exact ⟨loop, rfl, by simp, fun entry h => .inl h, by simp⟩
  | cons ext exts ih =>
    rw [List.forall_mem_cons] at hplaces
    obtain ⟨⟨place, hplace⟩, hplaces⟩ := hplaces
    obtain ⟨mid, hmid, hhead⟩ := lists_step r doc hplace loop
    obtain ⟨loop', hloop', htail⟩ := ih hplaces mid
    refine ⟨loop', ?_, ?_, fun entry hentry => ?_, fun name => ?_⟩
    · rw [List.foldlM_cons, hmid]
      exact hloop'
    · rw [htail.refused, hhead.refused, List.append_assoc, ← List.map_append, ← List.filter_append,
        List.singleton_append]
    · obtain hmem | ⟨other, hother, h⟩ := htail.entries entry hentry
      · obtain hmem | ⟨other, hother, h⟩ := hhead.entries entry hmem
        · exact .inl hmem
        · exact .inr ⟨other, List.mem_cons.mpr (.inl (List.mem_singleton.mp hother)), h⟩
      · exact .inr ⟨other, List.mem_cons_of_mem ext hother, h⟩
    · rw [htail.keys, hhead.keys, or_assoc]
      simp only [List.mem_singleton, exists_eq_left, List.exists_mem_cons_iff]

/-- The place of an extraction that cites a chunk with a box. -/
lemma placeOf_cites {u : UnicodeData} {ext : Extraction} {chunk : Chunk} {bbox : BBox}
    (h : CitesChunk u ext chunk) (hbbox : chunk.bbox = some bbox) :
    placeOf ext = .ok (some (rectOf bbox), chunk.page) := by
  obtain ⟨charSpan, hanchors⟩ := h.anchors
  simp [placeOf, hanchors, Grounding.anchorAt, hbbox]

end

/-! ### One request -/

namespace Service

variable {Time : Type} {service : Service Time} {attempt : Attempt Time} {file : Str} {p : FilePath}
  {content : Bytes} {graph : Graph Time}

/-- The entry of `fields` for an extraction that cites a chunk. -/
structure Cites (service : Service Time) (docId : Str) (ext : Extraction) (chunk : Chunk)
    (entry : Str × FieldData) : Prop where
  name : entry.1 = ext.fieldName
  value : entry.2.value = ext.value
  page : entry.2.page = chunk.page
  bbox : ∃ bbox, chunk.bbox = some bbox ∧ entry.2.bbox = some (rectOf bbox)
  sourceLink : entry.2.sourceLink = buildSourceLink service.repr docId entry.2.page entry.2.bbox
  cascade : entry.2.cascade ≠ "BLOCK"
  exact : entry.2.cascade = "EXACT" →
    Str.lower service.u (Grounding.targetOf ext.value ext.sourceSpan) <:+: Str.lower service.u chunk.text

/-- What the response holds of a parse. Nothing is extracted when the filter or the pack halts the run. -/
structure Grounds (service : Service Time) (graph : Graph Time) (response : Response) : Prop where
  docId : response.docId = graph.document.docId
  docType : response.docType = classifyDocument service.u (Setting.joinTexts graph.chunks)
  cites : ∃ extractions, (extractions = [] ∨ (service.packs response.docType).extract
      ((service.compressDocumentChunks graph.chunks).elim graph.chunks Prod.fst) = .ok extractions) ∧
    (∀ entry ∈ response.fields, ∃ ext ∈ extractions, ∃ chunk ∈ graph.chunks,
      service.Cites graph.document.docId ext chunk entry) ∧
    (∀ name ∈ response.refusedFields, ∃ ext ∈ extractions, ext.fieldName = name) ∧
    ∀ ext ∈ extractions, ext.fieldName ∈ response.fields.map Prod.fst ∨
      ext.fieldName ∈ response.refusedFields

lemma cascadeName_ne_block {method : GroundingMethod} (h : method ≠ .block) :
    cascadeName method ≠ "BLOCK" := by
  cases method <;> first | decide | exact absurd rfl h

lemma cascadeName_exact {method : GroundingMethod} (h : cascadeName method = "EXACT") :
    method = .exact := by
  cases method <;> first | rfl | exact absurd h (by decide)

/-- An extraction as the trace lists it. -/
def listed (service : Service Time) (graph : Graph Time) (check : Extraction → GateResult)
    (ext : Extraction) : Extraction :=
  settle check (ground service.u service.emb (withSourceType graph.document graph.chunks) ext)

variable (service) in
lemma placeOf_listed (htrusted : Trusted content graph) (check : Extraction → GateResult)
    (ext : Extraction) :
    (service.listed graph check ext).fieldName = ext.fieldName ∧
    ((service.listed graph check ext).method = .block ∧
        placeOf (service.listed graph check ext) = .ok (none, 1) ∨
      ∃ chunk ∈ graph.chunks, ∃ place, placeOf (service.listed graph check ext) = .ok place ∧
        service.Cites graph.document.docId ext chunk
          (ext.fieldName, fieldData service.repr graph.document (service.listed graph check ext) place)) := by
  obtain ⟨status, hsettle⟩ := settle_same check
    (ground service.u service.emb (withSourceType graph.document graph.chunks) ext)
  rw [listed, hsettle]
  refine ⟨rfl, ?_⟩
  obtain ⟨hblock, hanchors⟩ | ⟨hmethod, chunk, hchunk, hcites⟩ := citesChunk_ground service.u
    service.emb graph.document graph.chunks ext
  · exact .inl ⟨hblock, by simp [placeOf, hanchors]⟩
  · obtain ⟨bbox, hbbox, -⟩ := htrusted.bbox chunk hchunk
    refine .inr ⟨chunk, hchunk, _, placeOf_cites ⟨hcites.anchors, hcites.exact⟩ hbbox, rfl, rfl, rfl,
      ⟨bbox, hbbox, rfl⟩, rfl, cascadeName_ne_block hmethod, fun hexact => ?_⟩
    exact hcites.exact (cascadeName_exact hexact)

/-- The response for the extractions of a trace. -/
lemma grounds_respond (htrusted : Trusted content graph) {trace : Trace}
    (htrace : trace.extractions = [] ∨ ∃ extractions,
      (service.packs (classifyDocument service.u (Setting.joinTexts graph.chunks))).extract
        ((service.compressDocumentChunks graph.chunks).elim graph.chunks Prod.fst) = .ok extractions ∧
      ∃ check, trace.extractions = extractions.map (service.listed graph check)) :
    ∃ response, respond service.repr trace
        (classifyDocument service.u (Setting.joinTexts graph.chunks)) graph.document = .ok response ∧
      service.Grounds graph response := by
  obtain ⟨extractions, hextract, check, htrace⟩ : ∃ extractions, (extractions = [] ∨
      (service.packs (classifyDocument service.u (Setting.joinTexts graph.chunks))).extract
        ((service.compressDocumentChunks graph.chunks).elim graph.chunks Prod.fst) = .ok extractions) ∧
      ∃ check, trace.extractions = extractions.map (service.listed graph check) := by
    obtain htrace | ⟨extractions, hextract, htrace⟩ := htrace
    · exact ⟨[], .inl rfl, fun _ => ⟨.pass, .nan, []⟩, htrace⟩
    · exact ⟨extractions, .inr hextract, htrace⟩
  have hplaces : ∀ ext ∈ trace.extractions, ∃ place, placeOf ext = .ok place := by
    rw [htrace, List.forall_mem_map]
    intro ext _
    obtain ⟨-, ⟨-, hplace⟩ | ⟨_, -, place, hplace, -⟩⟩ :=
      placeOf_listed service htrusted check ext
    · exact ⟨_, hplace⟩
    · exact ⟨place, hplace⟩
  obtain ⟨loop, hloop, hlists⟩ := lists_foldlM service.repr graph.document hplaces {}
  refine ⟨⟨graph.document.docId, classifyDocument service.u (Setting.joinTexts graph.chunks), loop.fields,
    loop.refusedFields⟩, ?_, rfl, rfl, extractions, hextract, fun entry hentry => ?_, fun name hname => ?_,
    fun ext hext => ?_⟩
  · rw [respond, hloop]
    rfl
  · obtain hnone | ⟨ext', hext', hmethod, place, hplace, rfl⟩ := hlists.entries entry hentry
    · cases hnone
    · rw [htrace] at hext'
      obtain ⟨ext, hext, rfl⟩ := List.mem_map.mp hext'
      obtain ⟨hname, ⟨hblock, -⟩ | ⟨chunk, hchunk, place', hplace', hcites⟩⟩ :=
        placeOf_listed service htrusted check ext
      · exact absurd hblock hmethod
      · rw [hplace', Except.ok.injEq] at hplace
        subst hplace
        rw [hname]
        exact ⟨ext, hext, chunk, hchunk, hcites⟩
  · rw [hlists.refused, htrace] at hname
    obtain ⟨ext', hext', rfl⟩ := List.mem_map.mp hname
    obtain ⟨ext, hext, rfl⟩ := List.mem_map.mp (List.mem_of_mem_filter hext')
    exact ⟨ext, hext, (placeOf_listed service htrusted check ext).1.symm⟩
  · have hname := (placeOf_listed service htrusted check ext).1
    have hmem : service.listed graph check ext ∈ trace.extractions := htrace ▸ List.mem_map_of_mem hext
    by_cases hblock : (service.listed graph check ext).method = .block
    · right
      rw [hlists.refused, ← hname]
      exact List.mem_map_of_mem (List.mem_filter.mpr ⟨hmem, decide_eq_true hblock⟩)
    · left
      exact (hlists.keys ext.fieldName).mpr (.inr ⟨_, hmem, hblock, hname⟩)

variable (service attempt file) in
/-- The document is read and parsed. -/
structure Parses (p : FilePath) (content : Bytes) (graph : Graph Time) : Prop where
  resolved : service.sandbox.resolveSandboxPath attempt.look file = .ok p
  captured : captureExtractionSource service.maxUploadBytes attempt.opened p = .ok content
  suffix : Str.lower service.u (suffix (pathText p)) ∈ supportedSuffixes
  parsed : service.parse attempt (pathText p) content = .ok graph

lemma Parses.trusted (h : service.Parses attempt file p content graph) :
    graph.document.sourcePath = pathText p ∧ Trusted content graph := by
  have hparsed := h.parsed
  rw [parse] at hparsed
  simp only [Except.bind_eq_ok_iff] at hparsed
  obtain ⟨-, -, -, -, hparsed⟩ := hparsed
  exact of_ingestDocumentIsolated hparsed

/-- Once a document is parsed, nothing that follows can fail. -/
lemma Parses.runAdmitted (h : service.Parses attempt file p content graph) :
    ∃ trace docType response, service.runAdmitted attempt file = .ok (trace, docType, graph.document) ∧
      respond service.repr trace docType graph.document = .ok response ∧
      service.Grounds graph response ∧
      ((service.orchestrator graph docType).run service.u service.emb service.repr {}
        graph.document).1 = .ok trace := by
  obtain ⟨hsource, htrusted⟩ := h.trusted
  have hcaptured : capturedIngest graph (pathText p) =
      .ok (graph.chunks, graph.document, graph.pages) := if_pos hsource.symm
  have hingest : (service.orchestrator graph
      (classifyDocument service.u (Setting.joinTexts graph.chunks))).ingest graph.document.sourcePath =
      .ok (graph.chunks, graph.document, graph.pages) := if_pos rfl
  have hbbox : ∀ c ∈ graph.chunks, c.bbox ≠ none := by
    intro c hc hnone
    obtain ⟨bbox, hbbox, -⟩ := htrusted.bbox c hc
    rw [hnone] at hbbox
    cases hbbox
  obtain ⟨trace, services', hrun, htrace⟩ :=
    run_extractions service.u service.emb service.repr {} hingest hbbox
  have hlisted : trace.extractions = [] ∨ ∃ extractions,
      (service.packs (classifyDocument service.u (Setting.joinTexts graph.chunks))).extract
        ((service.compressDocumentChunks graph.chunks).elim graph.chunks Prod.fst) = .ok extractions ∧
      ∃ check, trace.extractions = extractions.map (service.listed graph check) := by
    obtain hnil | ⟨extractions, hextract, check, hlist⟩ := htrace
    · exact .inl hnil
    · refine .inr ⟨extractions, hextract, check, hlist.trans ?_⟩
      rw [List.map_map]
      rfl
  obtain ⟨response, hrespond, hgrounds⟩ := grounds_respond htrusted hlisted
  refine ⟨trace, _, response, ?_, hrespond, hgrounds, congrArg Prod.fst hrun⟩
  rw [Service.runAdmitted]
  refine Except.bind_eq_ok_iff.mpr ⟨p, h.resolved, ?_⟩
  refine Except.bind_eq_ok_iff.mpr ⟨content, handling_ok_iff.mpr h.captured, ?_⟩
  refine Except.bind_eq_ok_iff.mpr ⟨(), require_ok_iff.mpr (decide_eq_true h.suffix), ?_⟩
  refine Except.bind_eq_ok_iff.mpr ⟨graph, handling_ok_iff.mpr h.parsed, ?_⟩
  refine Except.bind_eq_ok_iff.mpr ⟨_, unnamed_ok_iff.mpr hcaptured, ?_⟩
  refine Except.bind_eq_ok_iff.mpr ⟨trace, ?_, rfl⟩
  rw [unnamed_ok_iff, hrun]

lemma parses_of_runAdmitted {result : Trace × DocType × Document}
    (h : service.runAdmitted attempt file = .ok result) :
    ∃ p content graph, service.Parses attempt file p content graph := by
  rw [Service.runAdmitted] at h
  simp only [Except.bind_eq_ok_iff, handling_ok_iff, require_ok_iff, decide_eq_true_eq] at h
  obtain ⟨p, hresolved, content, hcaptured, -, hsuffix, graph, hparsed, -⟩ := h
  exact ⟨p, content, graph, hresolved, hcaptured, hsuffix, hparsed⟩

lemma parses_of_extractDocument {response : Response}
    (h : service.extractDocument attempt file = .ok response) :
    ∃ p content graph, service.Parses attempt file p content graph ∧ service.Grounds graph response := by
  rw [extractDocument] at h
  simp only [Except.bind_eq_ok_iff, handling_ok_iff] at h
  obtain ⟨-, -, -, -, ⟨trace, docType, doc⟩, hrun, hrespond⟩ := h
  obtain ⟨p, content, graph, hparses⟩ := parses_of_runAdmitted hrun
  obtain ⟨trace', docType', response', hrun', hrespond', hgrounds, -⟩ := hparses.runAdmitted
  rw [hrun', Except.ok.injEq, Prod.mk.injEq, Prod.mk.injEq] at hrun
  obtain ⟨rfl, rfl, rfl⟩ := hrun
  rw [hrespond', Except.ok.injEq] at hrespond
  subst hrespond
  exact ⟨p, content, graph, hparses, hgrounds⟩

/-- The bytes that were read are those of a regular file under a root, as far as no link has changed since
the path was looked up. -/
structure Reads (service : Service Time) (attempt : Attempt Time) (p : FilePath) (content : Bytes) :
    Prop where
  allowed : Allowed service.sandbox attempt.look p
  opened : attempt.opened.openNoFollow p = some content
  unmoved : attempt.opened.links = attempt.look.fs.links → attempt.opened.files p = some content
  length : content.length ≤ service.maxUploadBytes

lemma Parses.reads (h : service.Parses attempt file p content graph) : service.Reads attempt p content := by
  have hallowed := allowed_of_resolveSandboxPath h.resolved
  obtain ⟨hopened, hlength⟩ := captureExtractionSource_ok_iff.mp h.captured
  refine ⟨hallowed, hopened, fun hlinks => ?_, hlength⟩
  exact FileSystem.openNoFollow_of_plain (hlinks ▸ hallowed.plain) hopened

/-- Whatever the child writes and whatever the pack returns: a response answers from the bytes of one
file that may be read, every field of it is an extraction of the pack whose place is a chunk of the parse of
these bytes, and every extraction is a field or refused. -/
theorem extractDocument_grounds {response : Response}
    (h : service.extractDocument attempt file = .ok response) :
    ∃ p content graph, service.Reads attempt p content ∧ Trusted content graph ∧
      service.Grounds graph response := by
  obtain ⟨p, content, graph, hparses, hgrounds⟩ := parses_of_extractDocument h
  exact ⟨p, content, graph, hparses.reads, hparses.trusted.2, hgrounds⟩

/-! ### Exceptions -/

/-- A status that the endpoint answers on purpose. -/
def Documented (e : Raised) : Prop :=
  ∃ statusCode detail retryAfter, e = .http statusCode detail retryAfter ∧
    statusCode ∈ [404, 413, 422, 503, 504]

lemma tryCandidate_error {sandbox : Sandbox} {look : Lookup} {cand : RawPath} {e : Raised}
    (h : sandbox.tryCandidate look cand = .error e) : look.loopRaises = true ∧ e = .other := by
  rw [Sandbox.tryCandidate] at h
  cases hrefused : look.refused cand with
  | true => simp [hrefused] at h
  | false =>
    cases hresolve : look.fs.resolve cand with
    | none =>
      simp only [hrefused, hresolve, Bool.false_eq_true, if_false] at h
      split_ifs at h with hloop
      cases h
      exact ⟨hloop, rfl⟩
    | some resolved => simp [hrefused, hresolve] at h

lemma firstAllowed_error {sandbox : Sandbox} {look : Lookup} {cands : List RawPath} {e : Raised}
    (h : sandbox.firstAllowed look cands = .error e) : look.loopRaises = true ∧ e = .other := by
  induction cands with
  | nil => cases h
  | cons cand cands ih =>
    rw [Sandbox.firstAllowed] at h
    obtain h | ⟨found, -, h⟩ := Except.of_bind_eq_error h
    · exact tryCandidate_error h
    · cases found with
      | none => exact ih h
      | some resolved => cases h

lemma require_error {condition : Bool} {e e' : Raised} (h : require condition e = .error e') :
    condition = false ∧ e' = e := by
  cases condition with
  | false => exact ⟨rfl, (Except.error.inj h).symm⟩
  | true => cases h

lemma handling_error {α : Type} {handler : Raised → Raised} {x : Except Raised α} {e : Raised}
    (h : handling handler x = .error e) : ∃ raised, x = .error raised ∧ e = handler raised := by
  cases x with
  | ok a => cases h
  | error raised => exact ⟨raised, rfl, (Except.error.inj h).symm⟩

lemma resolveSandboxPath_error {sandbox : Sandbox} {look : Lookup} {e : Raised}
    (h : sandbox.resolveSandboxPath look file = .error e) :
    Documented e ∨ look.loopRaises = true ∧ e = .other := by
  rw [Sandbox.resolveSandboxPath] at h
  obtain h | ⟨_, -, h⟩ := Except.of_bind_eq_error h
  · exact .inl ⟨422, _, _, (require_error h).2, by decide⟩
  · obtain h | ⟨found, -, h⟩ := Except.of_bind_eq_error h
    · exact .inr (firstAllowed_error h)
    · cases found with
      | none => exact .inl ⟨404, _, _, (Except.error.inj h).symm, by decide⟩
      | some resolved => cases h

lemma withinBudget_error {maxUploadBytes : ℕ} {e : Raised}
    (h : withinBudget maxUploadBytes content = .error e) : Documented (onCapture e) := by
  obtain h | ⟨_, -, h⟩ := Except.of_bind_eq_error h
  · exact ⟨413, _, _, congrArg onCapture (require_error h).2, by decide⟩
  · cases h

lemma captureExtractionSource_error {maxUploadBytes : ℕ} {fs : FileSystem} {e : Raised}
    (h : captureExtractionSource maxUploadBytes fs p = .error e) : Documented (onCapture e) := by
  rw [captureExtractionSource] at h
  cases hopen : fs.openNoFollow p with
  | none =>
    rw [hopen] at h
    cases h
    exact ⟨422, _, _, rfl, by decide⟩
  | some read =>
    rw [hopen] at h
    obtain h | ⟨_, -, h⟩ := Except.of_bind_eq_error h
    · exact withinBudget_error h
    · exact withinBudget_error h

lemma documented_onParse (e : Raised) : Documented (onParse e) := by
  cases e with
  | timeoutError => exact ⟨504, _, _, rfl, by decide⟩
  | _ => exact ⟨422, _, _, rfl, by decide⟩

/-- The work raises what its handlers make of an exception; everything after the parse succeeds. -/
lemma runAdmitted_error {e : Raised} (h : service.runAdmitted attempt file = .error e) :
    Documented e ∨ attempt.look.loopRaises = true ∧ e = .other := by
  have hrun := h
  rw [Service.runAdmitted] at h
  obtain h | ⟨p, hresolved, h⟩ := Except.of_bind_eq_error h
  · exact resolveSandboxPath_error h
  obtain h | ⟨content, hcaptured, h⟩ := Except.of_bind_eq_error h
  · obtain ⟨raised, hraised, rfl⟩ := handling_error h
    exact .inl (captureExtractionSource_error hraised)
  obtain h | ⟨_, hsuffix, h⟩ := Except.of_bind_eq_error h
  · exact .inl ⟨422, _, _, (require_error h).2, by decide⟩
  obtain h | ⟨graph, hparsed, -⟩ := Except.of_bind_eq_error h
  · obtain ⟨raised, -, rfl⟩ := handling_error h
    exact .inl (documented_onParse raised)
  · rw [handling_ok_iff] at hcaptured hparsed
    have hparses : service.Parses attempt file p content graph :=
      ⟨hresolved, hcaptured, of_decide_eq_true (require_ok_iff.mp hsuffix), hparsed⟩
    obtain ⟨trace, docType, response, hok, -⟩ := hparses.runAdmitted
    rw [hok] at hrun
    cases hrun

/-- The fields justify the answer: it is a field that the question names, or the question names none. -/
def Justifies (service : Service Time) (question : Str) (fields : Dict Str FieldData) : Answer → Prop
  | .refused asked => asked = question ∧
      ∀ entry ∈ fields, mentions (Str.lower service.u question) entry.1 = false
  | .grounded asked value bbox page sourceLink => asked = question ∧
      ∃ entry ∈ fields, mentions (Str.lower service.u question) entry.1 = true ∧
        value = entry.2.value ∧ bbox = entry.2.bbox ∧ page = entry.2.page ∧
        sourceLink = entry.2.sourceLink

lemma justifies_answerFrom (question : Str) (fields : Dict Str FieldData) :
    service.Justifies question fields (service.answerFrom question fields) := by
  rw [answerFrom]
  cases hfind : fields.find? fun entry => mentions (Str.lower service.u question) entry.1 with
  | none => exact ⟨rfl, by simpa using List.find?_eq_none.mp hfind⟩
  | some entry =>
    exact ⟨rfl, entry, List.mem_of_find?_eq_some hfind, by simpa using List.find?_some hfind, rfl, rfl, rfl,
      rfl⟩

/-- A question is answered with a field that it names, with the place that the field cites, and refused
when it names none. Both paths that are looked up lead to files that may be read. -/
theorem askDocument_grounds {look : Lookup} {question : Str} {answer : Answer}
    (h : service.askDocument look attempt file question = .ok answer) :
    ∃ q p content graph response, Allowed service.sandbox look q ∧
      service.sandbox.resolveSandboxPath attempt.look (pathText q) = .ok p ∧
      service.Reads attempt p content ∧ Trusted content graph ∧ service.Grounds graph response ∧
      service.Justifies question response.fields answer := by
  rw [askDocument] at h
  simp only [Except.bind_eq_ok_iff, handling_ok_iff, Except.pure_eq, Except.ok.injEq] at h
  obtain ⟨q, hresolved, response, ⟨-, -, hextract⟩, rfl⟩ := h
  obtain ⟨p, content, graph, hparses, hgrounds⟩ := parses_of_extractDocument hextract
  exact ⟨q, p, content, graph, response, allowed_of_resolveSandboxPath hresolved, hparses.resolved,
    hparses.reads, hparses.trusted.2, hgrounds, justifies_answerFrom question response.fields⟩

/-! ### A note -/

namespace Sample

def notePath : FilePath := ["srv", "axiom", "note.txt"]

lemma noteFiles_plain : PlainPath (fun _ => none) [] := .nil

/-- A file system with one file and no links. -/
def noteFiles : FileSystem where
  links _ := none
  files p := if p = notePath then some note.content else none
  cwd := []
  cwd_plain := noteFiles_plain

def dueExtraction : Extraction where
  extId := "e1".toList
  fieldName := "total_due".toList
  value := "due".toList
  sourceSpan := "Total due".toList
  confidence := .fin (9 / 10)

/-- A server that reads below its own directory; its packs find the same field in every document. -/
def noteService : Service String where
  u := asciiData
  emb := blankEmbeddings
  repr := plainRepr
  rt := noteRuntime
  sandbox := ⟨⟨true, ["srv", "axiom"]⟩, [["srv", "axiom"]]⟩
  maxUploadBytes := 64
  deadlineText := "60"
  scan _ := { blocked := false }
  packs _ := ⟨"GenericPack", ["total_due".toList], fun _ => .ok [dueExtraction]⟩
  compressDocumentChunks _ := none

/-- A parse in the thread. -/
def noteAttempt : Attempt String where
  admitted := true
  look := ⟨noteFiles, fun _ => false, true⟩
  opened := noteFiles
  remaining := .fin 60
  invocation :=
    { environ := fun name => if name = "AXIOM_EXTRACTION_ISOLATION" then some "thread".toList else none
      directory := "/tmp/axiom-ingest-7".toList
      expired := fun _ => false
      exitcode := none
      result := .missing
      ingestor := fun path => if path = note.path then .ok noteGraph else .error "" }
  timely := true

/-- The parse of the note, under the path of the request. -/
def noteParse : Graph String :=
  { noteGraph with document := { noteGraph.document with sourcePath := pathText notePath } }

lemma fresh_noteIds : Fresh noteIds noteGraph.chunks.length := by
  have huuid : isUuid (noteIds.chunkId 0) = true := by decide
  refine ⟨by decide, fun _ _ => huuid, fun i hi j hj _ => ?_⟩
  rw [Nat.lt_one_iff.mp hi, Nat.lt_one_iff.mp hj]

/-- The digest is computed once, for the size of the result to be evaluated. -/
lemma hex_note : (sha256 note.content).hex =
    "12003d4aa5c0a5298f7091e25e11b4f525797138e125066f64362b84f86e98b7" := by
  rw [Bytes.hex]
  refine congrArg String.ofList ?_
  decide +kernel

lemma within_default : Graph.Within noteRuntime {} noteGraph := by
  refine ⟨by decide, by decide, by decide, by decide, ?_⟩
  rw [noteGraph, hex_note, Json.dumpsWith, utf8_ofList]
  -- a text that is written again is not read back first
  simp only [Graph.payload, List.map_cons, List.map_nil, chunkPayload, pagePayload, Json.renderWith,
    Json.renderMembersWith, Json.renderItemsWith, Json.quoteWith, String.toList_ofList, String.reduceToList]
  decide +kernel

/-- The path leads to the note. -/
structure LeadsToNote (file : Str) : Prop where
  resolved : noteService.sandbox.resolveSandboxPath noteAttempt.look file = .ok notePath

lemma leadsToNote_of_toOption {file : Str}
    (h : (noteService.sandbox.resolveSandboxPath noteAttempt.look file).toOption = some notePath) :
    LeadsToNote file := by
  constructor
  cases hresolve : noteService.sandbox.resolveSandboxPath noteAttempt.look file with
  | error e =>
    rw [hresolve] at h
    cases h
  | ok p =>
    rw [hresolve] at h
    exact congrArg Except.ok (Option.some.inj h)

lemma leadsToNote_name : LeadsToNote "note.txt".toList :=
  leadsToNote_of_toOption rfl

lemma leadsToNote_path : LeadsToNote (pathText notePath) :=
  leadsToNote_of_toOption rfl

lemma parses_note {file : Str} (hpath : LeadsToNote file) :
    noteService.Parses noteAttempt file notePath note.content noteParse := by
  have hvalid : Graph.Valid note.path (sha256 note.content).hex.toList {} noteGraph :=
    valid_of_ingest (by decide) ingest_note fresh_noteIds within_default
  have hreadable : Graph.Readable noteRuntime noteGraph :=
    readable_of_ingest (by decide) ingest_note ⟨by decide, by decide, rfl, rfl⟩ roundTrips_note
  obtain ⟨data, hwrite, h⟩ := Except.of_bind_eq_ok (hreadable.roundTrip hvalid within_default.output)
  obtain ⟨payload, hread, hvalidate⟩ := Except.of_bind_eq_ok h
  have hsource : noteAttempt.invocation.snapshot noteService.u (pathText notePath) = note.path := rfl
  refine ⟨hpath.resolved, captureExtractionSource_ok_iff.mpr ⟨rfl, by decide⟩, by decide, ?_⟩
  rw [parse]
  refine Except.bind_eq_ok_iff.mpr ⟨false, rfl, ?_⟩
  refine Except.bind_eq_ok_iff.mpr ⟨(), rfl, ?_⟩
  rw [Invocation.ingestDocumentIsolated]
  refine Except.bind_eq_ok_iff.mpr ⟨(), rfl, ?_⟩
  refine Except.bind_eq_ok_iff.mpr ⟨(), require_ok_iff.mpr rfl, ?_⟩
  refine Except.bind_eq_ok_iff.mpr ⟨false, rfl, ?_⟩
  refine Except.bind_eq_ok_iff.mpr ⟨⟨_, {}, _, _⟩, rfl, ?_⟩
  refine Except.bind_eq_ok_iff.mpr ⟨(), require_ok_iff.mpr rfl, ?_⟩
  refine Except.bind_eq_ok_iff.mpr ⟨(), require_ok_iff.mpr rfl, ?_⟩
  refine Except.bind_eq_ok_iff.mpr ⟨(), rfl, ?_⟩
  refine Except.bind_eq_ok_iff.mpr ⟨.opened true 1 data, ?_, ?_⟩
  · refine Except.bind_eq_ok_iff.mpr ⟨noteGraph, ?_, ?_⟩
    · rw [hsource]
      rfl
    · exact Except.bind_eq_ok_iff.mpr ⟨data, unnamed_ok_iff.mpr hwrite, rfl⟩
  · refine Except.bind_eq_ok_iff.mpr ⟨(), rfl, ?_⟩
    refine Except.bind_eq_ok_iff.mpr ⟨payload, unnamed_ok_iff.mpr hread, ?_⟩
    refine Except.bind_eq_ok_iff.mpr ⟨noteGraph, ?_, rfl⟩
    rw [unnamed_ok_iff, hsource]
    exact hvalidate

/-- What the run over the note makes of a type of document. -/
def noteFields (docType : DocType) : Option (List (Str × Str × String)) :=
  (((noteService.orchestrator noteParse docType).run noteService.u noteService.emb noteService.repr {}
    noteParse.document).1.toOption.bind fun trace =>
      (respond noteService.repr trace docType noteParse.document).toOption).map fun response =>
        response.fields.map fun entry => (entry.1, entry.2.value, entry.2.cascade)

lemma respond_of_ok {r : PyRepr} {trace : Trace} {docType : DocType} {doc : Document} {response : Response}
    (h : respond r trace docType doc = .ok response) (docType' : DocType) :
    respond r trace docType' doc = .ok { response with docType := docType' } := by
  obtain ⟨loop, hloop, hreturn⟩ := Except.bind_eq_ok_iff.mp h
  cases hreturn
  exact Except.bind_eq_ok_iff.mpr ⟨loop, hloop, rfl⟩

/-- The note is answered with one field. -/
lemma extractDocument_note {file : Str} (hpath : LeadsToNote file) : ∃ response,
    noteService.extractDocument noteAttempt file = .ok response ∧
    response.fields.map (fun entry => (entry.1, entry.2.value, entry.2.cascade)) =
      [("total_due".toList, "due".toList, "EXACT")] := by
  obtain ⟨trace, docType, response, hrun, hrespond, -, horchestrator⟩ := (parses_note hpath).runAdmitted
  have hfields : noteFields .invoice = some [("total_due".toList, "due".toList, "EXACT")] := by
    decide +kernel
  -- the packs are the same for every type of document
  have hpacks : noteService.orchestrator noteParse docType = noteService.orchestrator noteParse .invoice := rfl
  refine ⟨response, ?_, ?_⟩
  · rw [extractDocument]
    refine Except.bind_eq_ok_iff.mpr ⟨(), rfl, ?_⟩
    refine Except.bind_eq_ok_iff.mpr ⟨(), rfl, ?_⟩
    exact Except.bind_eq_ok_iff.mpr ⟨_, handling_ok_iff.mpr hrun, hrespond⟩
  · rw [noteFields] at hfields
    rw [← hpacks, horchestrator, Except.toOption, Option.bind_some, respond_of_ok hrespond .invoice,
      Except.toOption, Option.map_some, Option.some.injEq] at hfields
    exact hfields

theorem extractDocument_grounds_note : ∃ response content graph,
    noteService.extractDocument noteAttempt "note.txt".toList = .ok response ∧
    response.fields.map (fun entry => entry.2.value) = ["due".toList] ∧ content.length ≤ 64 ∧
    Trusted content graph ∧ noteService.Grounds graph response := by
  obtain ⟨response, h, hfields⟩ := extractDocument_note leadsToNote_name
  obtain ⟨p, content, graph, hreads, htrusted, hgrounds⟩ := extractDocument_grounds h
  have hvalues := congrArg (List.map fun entry : Str × Str × String => entry.2.1) hfields
  rw [List.map_map] at hvalues
  exact ⟨response, content, graph, h, hvalues, hreads.length, htrusted, hgrounds⟩

theorem askDocument_grounds_note : ∃ answer content graph response,
    noteService.askDocument noteAttempt.look noteAttempt "note.txt".toList
      "What is the total due?".toList = .ok answer ∧
    Trusted content graph ∧ noteService.Grounds graph response ∧
    noteService.Justifies "What is the total due?".toList response.fields answer := by
  obtain ⟨response, hresponse, -⟩ := extractDocument_note leadsToNote_path
  have h : noteService.askDocument noteAttempt.look noteAttempt "note.txt".toList
      "What is the total due?".toList =
      .ok (noteService.answerFrom "What is the total due?".toList response.fields) := by
    rw [askDocument]
    refine Except.bind_eq_ok_iff.mpr ⟨notePath, leadsToNote_name.resolved, ?_⟩
    refine Except.bind_eq_ok_iff.mpr ⟨response, handling_ok_iff.mpr ?_, rfl⟩
    exact Except.bind_eq_ok_iff.mpr ⟨(), require_ok_iff.mpr (by decide), hresponse⟩
  obtain ⟨q, p, content, graph, response', -, -, -, htrusted, hgrounds, hjustifies⟩ :=
    askDocument_grounds h
  exact ⟨_, content, graph, response', h, htrusted, hgrounds, hjustifies⟩

end Sample

end Service

end AxiomGrid.Overlay.ExtractDocument

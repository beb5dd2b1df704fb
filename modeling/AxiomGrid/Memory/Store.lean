import AxiomGrid.Lib.PyValue
import AxiomGrid.Pipeline.Store
import Mathlib.Data.List.Sort

/-!
# The memory store

`MemoryStoreImpl` of `kernel/sidecar/memory_store.py`: a table for each type of record, the writes that
encode a record into a row and the reads that decode it. Every method runs under a lock, so that it is
one step. `none` is a call that raises.

A time is written by `isoformat` and read by `fromisoformat`, and a float in JSON is read by
`readFloat`; all three are parameters. A coordinate or a confidence is kept in a column of type REAL.
-/

namespace AxiomGrid.Memory

open Pipeline (BBox Page Extraction ExtractionStatus insertOrReplace)

/-! ### Records -/

/-- `Document`. -/
structure Document (Time : Type) where
  docId : Str
  sourcePath : Str := []
  sha256 : Str := []
  pageCount : ℤ := 0
  ingestedAt : Time

/-- `Chunk`; the page is not negative. -/
structure Chunk where
  chunkId : Str
  docId : Str := []
  page : ℕ := 0
  bbox : Option BBox := none
  text : Str := []
  sourceType : Str := []
  embedding : List FloatRepr := []

/-- `Correction`. -/
structure Correction (Time : Type) where
  corrId : Str
  extId : Str := []
  original : Str := []
  corrected : Str := []
  reason : Str := []
  user : Str := []
  atTime : Time

/-- `Entity`. -/
structure Entity where
  entityId : Str
  kind : Str := []
  value : Str := []
  normalized : Str := []

/-- `ModelVersion`. -/
structure ModelVersion where
  modelId : Str
  name : Str := []
  weightsHash : Str := []
  tier : ℤ := 1

/-- `User`. -/
structure User where
  userId : Str

/-- `ActionKind`. -/
inductive ActionKind where
  | read
  | suggest
  deriving DecidableEq

/-- `ActionStatus`. -/
inductive ActionStatus where
  | pending
  | confirmed
  | applied
  | rejected
  | refused
  deriving DecidableEq

/-- A payload: a dictionary. -/
@[ext] structure Payload where
  items : List (PyKey × PyValue)
  wellFormed : PyValue.WellFormed (.dict items)

/-- `Action`. -/
structure Action where
  actionId : Str
  extId : Str := []
  kind : ActionKind := .suggest
  targetApp : Str := []
  payload : Payload
  confidence : PyFloat := .fin 0
  status : ActionStatus := .pending

/-! ### Enumerations -/

def extractionStatusValue : ExtractionStatus → String
  | .suggested => "suggested"
  | .accepted => "accepted"
  | .edited => "edited"
  | .rejected => "rejected"
  | .blocked => "blocked"
  | .pendingReview => "pending_review"

/-- `ExtractionStatus(value)`. -/
def extractionStatus? (value : String) : Option ExtractionStatus :=
  [.suggested, .accepted, .edited, .rejected, .blocked, .pendingReview].find?
    (extractionStatusValue · = value)

def ActionKind.value : ActionKind → String
  | read => "read"
  | suggest => "suggest"

/-- `ActionKind(value)`. -/
def actionKind? (value : String) : Option ActionKind :=
  [.read, .suggest].find? (ActionKind.value · = value)

def ActionStatus.value : ActionStatus → String
  | pending => "pending"
  | confirmed => "confirmed"
  | applied => "applied"
  | rejected => "rejected"
  | refused => "refused"

/-- `ActionStatus(value)`. -/
def actionStatus? (value : String) : Option ActionStatus :=
  [.pending, .confirmed, .applied, .rejected, .refused].find? (ActionStatus.value · = value)

/-! ### Columns -/

/-- An INTEGER column takes 64 bits; else the call raises. -/
def integer (n : ℤ) : Option ℤ := if -2 ^ 63 ≤ n ∧ n < 2 ^ 63 then some n else none

/-- A column `REAL NOT NULL`. NaN is stored as NULL, on which the statement aborts. -/
def real (x : PyFloat) : Option PyFloat := if x = .nan then none else some x

/-- A column `REAL NOT NULL DEFAULT 0.0`. On NULL, `INSERT OR REPLACE` takes the default. -/
def realOrDefault (x : PyFloat) : PyFloat := if x = .nan then .fin 0 else x

/-! ### Rows -/

structure DocumentRow where
  docId : Str
  sourcePath : Str
  sha256 : Str
  pageCount : ℤ
  ingestedAt : String

structure ChunkRow where
  chunkId : Str
  docId : Str
  page : ℤ
  bboxX0 : PyFloat
  bboxY0 : PyFloat
  bboxX1 : PyFloat
  bboxY1 : PyFloat
  text : Str
  sourceType : Str
  embedding : String

structure ExtractionRow where
  extId : Str
  packId : Str
  fieldName : Str
  value : Str
  confidence : PyFloat
  modelVersion : Str
  status : String
  chunkId : Str

structure CorrectionRow where
  corrId : Str
  extId : Str
  original : Str
  corrected : Str
  reason : Str
  byUser : Str
  atTime : String

structure ActionRow where
  actionId : Str
  extId : Str
  kind : String
  targetApp : Str
  payload : String
  confidence : PyFloat
  status : String

/-- The tables. The columns of the last four are the fields of the record. -/
structure Store where
  documents : List DocumentRow := []
  chunks : List ChunkRow := []
  extractions : List ExtractionRow := []
  corrections : List CorrectionRow := []
  actions : List ActionRow := []
  pages : List Page := []
  entities : List Entity := []
  modelVersions : List ModelVersion := []
  users : List User := []

/-! ### Writes -/

/-- How times are written and read, and how the text of a float is read. -/
structure Env (Time : Type) where
  isoformat : Time → String
  fromisoformat : String → Option Time
  readFloat : List Char → FloatRepr

section

variable {Time : Type} (env : Env Time)

def upsertDocument (store : Store) (doc : Document Time) : Option Store := do
  let pageCount ← integer doc.pageCount
  let row := ⟨doc.docId, doc.sourcePath, doc.sha256, pageCount, env.isoformat doc.ingestedAt⟩
  some { store with documents := insertOrReplace DocumentRow.docId store.documents row }

def upsertPage (store : Store) (page : Page) : Option Store := do
  let index ← integer page.index
  let widthPx ← integer page.widthPx
  let heightPx ← integer page.heightPx
  let row := ⟨page.docId, index, widthPx, heightPx, page.imageSha256⟩
  some { store with pages := insertOrReplace (fun p => (p.docId, p.index)) store.pages row }

/-- `json.dumps(chunk.embedding)`. -/
def embeddingText (embedding : List FloatRepr) : String :=
  Json.dumpsWith .spaced (.arr (embedding.map Json.float))

/-- `upsert_chunk`, which refuses a chunk without a box. -/
def upsertChunk (store : Store) (chunk : Chunk) : Option Store := do
  let bbox ← chunk.bbox
  let page ← integer chunk.page
  let x0 ← real bbox.x0
  let y0 ← real bbox.y0
  let x1 ← real bbox.x1
  let y1 ← real bbox.y1
  let row := ⟨chunk.chunkId, chunk.docId, page, x0, y0, x1, y1, chunk.text, chunk.sourceType,
    embeddingText chunk.embedding⟩
  some { store with chunks := insertOrReplace ChunkRow.chunkId store.chunks row }

def recordExtraction (store : Store) (extraction : Extraction) : Option Store :=
  let row := ⟨extraction.extId, extraction.packId, extraction.fieldName, extraction.value,
    realOrDefault extraction.confidence, extraction.modelVersion,
    extractionStatusValue extraction.status, extraction.chunkId⟩
  some { store with extractions := insertOrReplace ExtractionRow.extId store.extractions row }

def recordCorrection (store : Store) (correction : Correction Time) : Option Store :=
  let row := ⟨correction.corrId, correction.extId, correction.original, correction.corrected,
    correction.reason, correction.user, env.isoformat correction.atTime⟩
  some { store with corrections := insertOrReplace CorrectionRow.corrId store.corrections row }

def upsertEntity (store : Store) (entity : Entity) : Option Store :=
  some { store with entities := insertOrReplace Entity.entityId store.entities entity }

def upsertModelVersion (store : Store) (mv : ModelVersion) : Option Store := do
  let tier ← integer mv.tier
  let row := { mv with tier }
  some { store with modelVersions := insertOrReplace ModelVersion.modelId store.modelVersions row }

def upsertUser (store : Store) (user : User) : Option Store :=
  some { store with users := insertOrReplace User.userId store.users user }

def upsertAction (store : Store) (action : Action) : Option Store :=
  let row := ⟨action.actionId, action.extId, action.kind.value, action.targetApp,
    Json.dumpsWith .spaced (PyValue.toJson (.dict action.payload.items)),
    realOrDefault action.confidence, action.status.value⟩
  some { store with actions := insertOrReplace ActionRow.actionId store.actions row }

/-! ### Reads -/

/-- The row of a key. -/
def fetchone {ρ κ : Type} [DecidableEq κ] (key : ρ → κ) (rows : List ρ) (k : κ) : Option ρ :=
  rows.find? fun row => key row = k

/-- The record of a row, if there is one. -/
def decodeRow {ρ α : Type} (decode : ρ → Option α) : Option ρ → Option (Option α)
  | none => some none
  | some row => (decode row).map some

def rowToDocument (row : DocumentRow) : Option (Document Time) := do
  let ingestedAt ← env.fromisoformat row.ingestedAt
  some ⟨row.docId, row.sourcePath, row.sha256, row.pageCount, ingestedAt⟩

def getDocument (store : Store) (docId : Str) : Option (Option (Document Time)) :=
  decodeRow (rowToDocument env) (fetchone DocumentRow.docId store.documents docId)

/-- `get_pages`. -/
def getPages (store : Store) (docId : Str) : List Page :=
  (store.pages.filter fun page => page.docId = docId).insertionSort fun p q => p.index ≤ q.index

/-- The list of floats that a JSON value holds. -/
def floats? : Json → Option (List FloatRepr)
  | .arr xs => xs.mapM fun
    | .float x => some x
    | _ => none
  | _ => none

/-- `_row_to_chunk`. -/
def rowToChunk (row : ChunkRow) : Option Chunk := do
  let bbox ← BBox.mk? row.bboxX0 row.bboxY0 row.bboxX1 row.bboxY1
  let embedding ← floats? (← Json.loads env.readFloat row.embedding)
  if 0 ≤ row.page then
    some ⟨row.chunkId, row.docId, row.page.toNat, some bbox, row.text, row.sourceType, embedding⟩
  else none

def getChunk (store : Store) (chunkId : Str) : Option (Option Chunk) :=
  decodeRow (rowToChunk env) (fetchone ChunkRow.chunkId store.chunks chunkId)

/-- The fields that have no column take their defaults. -/
def rowToExtraction (row : ExtractionRow) : Option Extraction := do
  let status ← extractionStatus? row.status
  some { extId := row.extId, packId := row.packId, fieldName := row.fieldName, value := row.value,
         confidence := row.confidence, modelVersion := row.modelVersion, status := status,
         chunkId := row.chunkId }

def getExtraction (store : Store) (extId : Str) : Option (Option Extraction) :=
  decodeRow rowToExtraction (fetchone ExtractionRow.extId store.extractions extId)

def getEntity (store : Store) (entityId : Str) : Option (Option Entity) :=
  some (fetchone Entity.entityId store.entities entityId)

def getModelVersion (store : Store) (modelId : Str) : Option (Option ModelVersion) :=
  some (fetchone ModelVersion.modelId store.modelVersions modelId)

def getUser (store : Store) (userId : Str) : Option (Option User) :=
  some (fetchone User.userId store.users userId)

/-- `json.loads(row["payload"])`, a dictionary. -/
def payload? (text : String) : Option Payload :=
  match h : Json.loads env.readFloat text with
  | some (.obj kvs) =>
    some ⟨PyValue.ofJsonMembers kvs, PyValue.wellFormed_dict (Json.distinctKeys_of_loads h)⟩
  | _ => none

def rowToAction (row : ActionRow) : Option Action := do
  let kind ← actionKind? row.kind
  let payload ← payload? env row.payload
  let status ← actionStatus? row.status
  some ⟨row.actionId, row.extId, kind, row.targetApp, payload, row.confidence, status⟩

def getAction (store : Store) (actionId : Str) : Option (Option Action) :=
  decodeRow (rowToAction env) (fetchone ActionRow.actionId store.actions actionId)

/-! ### Runs -/

/-- A record that is written. -/
inductive Record (Time : Type) where
  | document (doc : Document Time)
  | page (page : Page)
  | chunk (chunk : Chunk)
  | extraction (extraction : Extraction)
  | correction (correction : Correction Time)
  | entity (entity : Entity)
  | modelVersion (mv : ModelVersion)
  | user (user : User)
  | action (action : Action)

/-- What a record is read by. -/
inductive Key where
  | document (docId : Str)
  | page (docId : Str) (index : ℤ)
  | chunk (chunkId : Str)
  | extraction (extId : Str)
  | entity (entityId : Str)
  | modelVersion (modelId : Str)
  | user (userId : Str)
  | action (actionId : Str)
  deriving DecidableEq

/-- A correction is not read by its id. -/
def Record.key : Record Time → Option Key
  | .document d => some (.document d.docId)
  | .page p => some (.page p.docId p.index)
  | .chunk c => some (.chunk c.chunkId)
  | .extraction e => some (.extraction e.extId)
  | .correction _ => none
  | .entity e => some (.entity e.entityId)
  | .modelVersion m => some (.modelVersion m.modelId)
  | .user u => some (.user u.userId)
  | .action a => some (.action a.actionId)

/-- The write of a record. -/
def write (store : Store) : Record Time → Option Store
  | .document doc => upsertDocument env store doc
  | .page page => upsertPage store page
  | .chunk chunk => upsertChunk store chunk
  | .extraction extraction => recordExtraction store extraction
  | .correction correction => recordCorrection env store correction
  | .entity entity => upsertEntity store entity
  | .modelVersion mv => upsertModelVersion store mv
  | .user user => upsertUser store user
  | .action action => upsertAction store action

/-- The read by a key. A page is the one of `get_pages` with the index. -/
def read (store : Store) : Key → Option (Option (Record Time))
  | .document docId => (getDocument env store docId).map (Option.map .document)
  | .page docId index =>
    some (((getPages store docId).find? fun page => page.index = index).map .page)
  | .chunk chunkId => (getChunk env store chunkId).map (Option.map .chunk)
  | .extraction extId => (getExtraction store extId).map (Option.map .extraction)
  | .entity entityId => (getEntity store entityId).map (Option.map .entity)
  | .modelVersion modelId => (getModelVersion store modelId).map (Option.map .modelVersion)
  | .user userId => (getUser store userId).map (Option.map .user)
  | .action actionId => (getAction env store actionId).map (Option.map .action)

/-- The store after successful writes. -/
def run (writes : List (Record Time)) : Option Store := writes.foldlM (write env) {}

/-- The record that was last written under a key. -/
def lastWritten (writes : List (Record Time)) (key : Key) : Option (Record Time) :=
  writes.reverse.find? fun record => record.key = some key

end

end AxiomGrid.Memory

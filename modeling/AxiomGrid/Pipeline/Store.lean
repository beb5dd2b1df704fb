import Mathlib.Data.Finset.Dedup
import Mathlib.Data.Finset.Card
import AxiomGrid.Pipeline.DataModel

/-!
# Provenance log and memory store

`ProvenanceLogImpl` of `kernel/core/provenance.py` and the part of `MemoryStoreImpl` of
`kernel/sidecar/memory_store.py` that the pipeline uses. Both are passed as explicit state. Their
methods run under a lock, so each of them is one step.
-/

namespace AxiomGrid.Pipeline

/-! ### Provenance -/

/-- The registries of the provenance graph. -/
structure ProvenanceLog where
  documents : Dict Str Document := []
  chunks : Dict Str Chunk := []
  extractions : Dict Str Extraction := []
  actions : Dict Str Action := []

namespace ProvenanceLog

variable (log : ProvenanceLog)

def registerDocument (doc : Document) : ProvenanceLog :=
  { log with documents := Dict.set log.documents doc.docId doc }

/-- `register_chunk`, which refuses a chunk without a box. -/
def registerChunk (chunk : Chunk) : Except String ProvenanceLog :=
  if chunk.bbox = none then
    .error ("Chunk " ++ String.ofList chunk.chunkId ++
      " has no bbox — every chunk MUST have source localization")
  else .ok { log with chunks := Dict.set log.chunks chunk.chunkId chunk }

def registerExtraction (extraction : Extraction) : ProvenanceLog :=
  { log with extractions := Dict.set log.extractions extraction.extId extraction }

def registerAction (action : Action) : ProvenanceLog :=
  { log with actions := Dict.set log.actions action.actionId action }

/-- `chunks_for_doc`. -/
def chunksForDoc (docId : Str) : List Chunk :=
  (log.chunks.map Prod.snd).filter fun c => c.docId = docId

/-- `all_chunks`. -/
def allChunks : List Chunk := log.chunks.map Prod.snd

/-- The walk from an extraction to its chunk and document. -/
def chainOf (action : Option Action) (extraction : Option Extraction) : Chain :=
  let chunk := extraction.bind fun extraction => Dict.get? log.chunks extraction.chunkId
  let document := chunk.bind fun chunk => Dict.get? log.documents chunk.docId
  { action, extraction, chunk, document }

/-- `get_provenance`: an id is first looked up as an action, then as an extraction. -/
def getProvenance (entityId : Str) : Chain :=
  match Dict.get? log.actions entityId with
  | some action => log.chainOf (some action) (Dict.get? log.extractions action.extId)
  | none =>
    match Dict.get? log.extractions entityId with
    | some extraction => log.chainOf none (some extraction)
    | none => {}

/-- The chain of an extraction is complete when its chunk is registered with a box and belongs to a
registered document. -/
lemma isComplete_getProvenance {id : Str} {extraction : Extraction} {chunk : Chunk}
    {document : Document} (haction : Dict.get? log.actions id = none)
    (hextraction : Dict.get? log.extractions id = some extraction)
    (hchunk : Dict.get? log.chunks extraction.chunkId = some chunk)
    (hid : chunk.chunkId = extraction.chunkId) (hbbox : chunk.bbox ≠ none)
    (hdocument : Dict.get? log.documents chunk.docId = some document)
    (hdoc : document.docId = chunk.docId) : (log.getProvenance id).isComplete = true := by
  rw [getProvenance, haction, hextraction]
  simp [chainOf, Chain.isComplete, hchunk, hdocument, hid, hdoc, hbbox]

end ProvenanceLog

/-! ### Memory -/

/-- `INSERT OR REPLACE`: a row with the same key is deleted, the new one is added at the end. -/
def insertOrReplace {ρ κ : Type*} [DecidableEq κ] (key : ρ → κ) (rows : List ρ) (row : ρ) : List ρ :=
  rows.filter (fun r => key r ≠ key row) ++ [row]

/-- The tables of the store. -/
structure MemoryStore where
  documents : List Document := []
  pages : List Page := []
  chunks : List Chunk := []
  extractions : List Extraction := []
  corrections : List Correction := []

namespace MemoryStore

variable (store : MemoryStore)

def upsertDocument (doc : Document) : MemoryStore :=
  { store with documents := insertOrReplace (·.docId) store.documents doc }

def upsertPage (page : Page) : MemoryStore :=
  { store with pages := insertOrReplace (fun p => (p.docId, p.index)) store.pages page }

/-- `upsert_chunk`, which refuses a chunk without a box. -/
def upsertChunk (chunk : Chunk) : Except String MemoryStore :=
  if chunk.bbox = none then .error ("Chunk " ++ String.ofList chunk.chunkId ++ " has no bbox")
  else .ok { store with chunks := insertOrReplace (·.chunkId) store.chunks chunk }

def recordExtraction (extraction : Extraction) : MemoryStore :=
  { store with extractions := insertOrReplace (·.extId) store.extractions extraction }

def recordCorrection (correction : Correction) : MemoryStore :=
  { store with corrections := insertOrReplace (·.corrId) store.corrections correction }

/-- The score of a correction for a value: containment one way or the other, or the share of words
in common. -/
def similarityScore (u : UnicodeData) (value : Str) (corr : Correction) : ℚ :=
  let valueLower := Str.lower u value
  let originalLower := Str.lower u corr.original
  if Str.contains valueLower originalLower then 8 / 10
  else if Str.contains originalLower valueLower then 6 / 10
  else
    let valueWords := (Str.split valueLower).toFinset
    let overlap := valueWords ∩ (Str.split originalLower).toFinset
    if overlap = ∅ then 0 else overlap.card / max valueWords.card 1 * (4 / 10)

/-- The query of `search_similar_corrections`: the latest `k` corrections of extractions of the
field. The order of corrections with equal times, which the query leaves open, is that of the table. -/
def latestCorrections (fieldName : Str) (k : ℕ) : List Correction :=
  let rows := store.corrections.filter fun c =>
    store.extractions.any fun e => e.extId = c.extId ∧ e.fieldName = fieldName
  (rows.mergeSort fun c c' => !c.atTime.lex c'.atTime fun a b => a.toNat < b.toNat).take k

/-- `search_similar_corrections`. -/
def searchSimilarCorrections (u : UnicodeData) (fieldName value : Str) (k : ℕ) : List Correction :=
  let scored := (store.latestCorrections fieldName k).map fun corr =>
    (similarityScore u value corr, corr)
  ((scored.mergeSort fun p q => decide (q.1 ≤ p.1)).take k).map Prod.snd

end MemoryStore

end AxiomGrid.Pipeline

import AxiomGrid.Lib.Dict
import AxiomGrid.Lib.PyFloat
import AxiomGrid.Lib.PyStr

/-!
# Data model

The records of `kernel/core/data_model.py` and the results of `kernel/core/contracts.py`, with the
fields that the modelled components read or write. Identifiers and texts are lists of characters, and
times are their ISO texts, which is how the store keeps and orders them.
-/

namespace AxiomGrid.Pipeline

/-! ### Graph nodes -/

/-- `ExtractionStatus`. -/
inductive ExtractionStatus where
  | suggested
  | accepted
  | edited
  | rejected
  | blocked
  | pendingReview
  deriving DecidableEq, Repr

/-- `GroundingMethod`. -/
inductive GroundingMethod where
  | exact
  | fuzzy
  | semantic
  | visual
  | block
  deriving DecidableEq, Repr

/-- A bounding box. The constructor refuses `x0 > x1` and `y0 > y1`, comparisons that NaN never
satisfies. -/
structure BBox where
  x0 : PyFloat
  y0 : PyFloat
  x1 : PyFloat
  y1 : PyFloat
  x_ordered : PyFloat.lt x1 x0 = false
  y_ordered : PyFloat.lt y1 y0 = false
  deriving DecidableEq

/-- The constructor of `BBox`; `none` is the `ValueError`. -/
def BBox.mk? (x0 y0 x1 y1 : PyFloat) : Option BBox :=
  if h : PyFloat.lt x1 x0 = false ∧ PyFloat.lt y1 y0 = false then some ⟨x0, y0, x1, y1, h.1, h.2⟩
  else none

structure Document where
  docId : Str
  sourcePath : Str := []
  sha256 : Str := []
  pageCount : ℤ := 0
  deriving DecidableEq

structure Page where
  docId : Str
  index : ℤ
  widthPx : ℤ
  heightPx : ℤ
  imageSha256 : Str := []
  deriving DecidableEq

/-- A piece of a document; the page is not negative. -/
structure Chunk where
  chunkId : Str
  docId : Str := []
  page : ℕ := 0
  bbox : Option BBox := none
  text : Str := []
  sourceType : Str := []
  embedding : List PyFloat := []
  deriving DecidableEq

structure Anchor where
  chunkId : Str := []
  charSpan : ℕ × ℕ := (0, 0)
  page : ℕ := 0
  bbox : Option BBox := none
  deriving DecidableEq

structure Extraction where
  extId : Str
  packId : Str := []
  fieldName : Str := []
  value : Str := []
  sourceSpan : Str := []
  confidence : PyFloat := .fin 0
  modelVersion : Str := []
  status : ExtractionStatus := .suggested
  chunkId : Str := []
  method : GroundingMethod := .block
  anchors : List Anchor := []
  deriving DecidableEq

/-- A human correction of an extraction. -/
structure Correction where
  corrId : Str
  extId : Str := []
  original : Str := []
  corrected : Str := []
  reason : Str := []
  user : Str := []
  atTime : Str := []
  deriving DecidableEq

/-- An action; its kind and its status are never read. -/
structure Action where
  actionId : Str
  extId : Str := []
  targetApp : Str := []
  payload : Dict String Str := []
  confidence : PyFloat := .fin 0
  deriving DecidableEq

/-- A provenance chain. -/
structure Chain where
  action : Option Action := none
  extraction : Option Extraction := none
  chunk : Option Chunk := none
  document : Option Document := none

/-- `Chain.is_complete`. -/
def Chain.isComplete (c : Chain) : Bool :=
  match c.document, c.chunk, c.extraction with
  | some document, some chunk, some extraction =>
    chunk.docId = document.docId ∧ extraction.chunkId = chunk.chunkId ∧ chunk.bbox ≠ none
  | _, _, _ => false

/-! ### Results -/

/-- `GateVerdict`. -/
inductive GateVerdict where
  | pass
  | flag
  | block
  deriving DecidableEq, Repr

def GateVerdict.value : GateVerdict → String
  | pass => "pass"
  | flag => "flag"
  | block => "block"

structure GateResult where
  verdict : GateVerdict
  calibratedConfidence : PyFloat
  reasons : List String := []
  deriving DecidableEq

structure ScanResult where
  blocked : Bool
  reasons : List String := []

/-! ### Traces -/

/-- The values a stage records as its input and output. -/
inductive Value where
  | str (s : String)
  | int (n : ℤ)
  | float (x : PyFloat)
  | bool (b : Bool)
  | list (xs : List Value)
  | dict (kvs : List (String × Value))

namespace Value

instance : Inhabited Value := ⟨dict []⟩

/-- A text of the data model. -/
def text (s : Str) : Value := str (String.ofList s)

/-- `v[k]` on a dictionary. -/
def get? (k : String) : Value → Option Value
  | dict kvs => Dict.get? kvs k
  | _ => none

/-- The items of a list. -/
def items : Value → List Value
  | list xs => xs
  | _ => []

def text? : Value → Option Str
  | str s => some s.toList
  | _ => none

@[simp] lemma text?_text (s : Str) : (text s).text? = some s := by
  simp [text, text?]

end Value

/-- One stage of a run; its duration is left out. -/
structure TraceStage where
  name : String
  inputData : Value
  outputData : Value
  status : String := "ok"

structure Trace where
  stages : List TraceStage := []
  halted : Bool := false
  haltReason : String := ""
  extractions : List Extraction := []

/-- The ids that the `suggest` stages of the trace list. -/
def Trace.suggested (t : Trace) : List Str :=
  (t.stages.filter (·.name = "suggest")).flatMap fun stage =>
    ((stage.outputData.get? "suggestions").getD default).items.filterMap fun s =>
      (s.get? "ext_id").bind Value.text?

/-- How the language prints a float and a text in an f-string of a list. -/
structure PyRepr where
  float : PyFloat → String
  str : String → String

/-- `f"{xs}"` for a list of texts. -/
def PyRepr.list (r : PyRepr) (xs : List String) : String :=
  "[" ++ ", ".intercalate (xs.map r.str) ++ "]"

end AxiomGrid.Pipeline

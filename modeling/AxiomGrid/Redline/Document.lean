import Mathlib.Algebra.BigOperators.Group.List.Basic
import AxiomGrid.Lib.Loop
import AxiomGrid.Lib.PyStr

/-!
# Tracked changes in a document

The writer `_python_docx_tracked_fallback` of `kairo-sidecar/sidecar/parsers/adeu_bridge.py` and the
reader `reconstruct_original_and_final` of `kairo/oracles/docx_tracked_changes.py`, on the part of a
document both look at: the paragraphs of the body with their runs and revision marks.
-/

namespace AxiomGrid.Redline

/-- The attributes of a revision mark. -/
structure Mark where
  author : Str
  date : Str
  id : ℕ
  deriving DecidableEq

/-- A child of a paragraph. In the text of a run a tab stands for `w:tab` and a newline for `w:br`;
the other characters are the text of `w:t`. -/
inductive Node
  | run (text : Str)
  | del (mark : Mark) (delText : Str)
  | ins (mark : Mark) (text : Str)
  deriving DecidableEq

abbrev Paragraph := List Node

/-- The paragraphs of the body in document order. -/
abbrev Document := List Paragraph

/-- `add_run(text)`: both line end characters become a `w:br`. -/
def addRun (text : Str) : Node := .run (text.map fun c => if c = '\r' then '\n' else c)

/-- The document with one run for each paragraph text. -/
def Document.ofTexts (texts : List Str) : Document := texts.map fun text => [addRun text]

namespace Paragraph

def nodeText : Node → Str
  | .run text => text
  | .del _ _ => []
  | .ins _ _ => []

/-- `Paragraph.text`, which reads the runs that are direct children. -/
def text (p : Paragraph) : Str := p.flatMap nodeText

end Paragraph

/-! ### Writing tracked changes -/

/-- An entry of `edits`. A missing `target_text` is the empty text, a `new_text` of `None` is
`none`. -/
structure Edit where
  targetText : Str
  newText : Option Str
  deriving DecidableEq

/-- The characters that an XML document can hold. -/
def isXmlChar (c : Char) : Bool :=
  c == '\t' || c == '\n' || c == '\r' ||
    (32 ≤ c.toNat && c.toNat != 0xfffe && c.toNat != 0xffff)

def xmlError : String :=
  "All strings must be XML compatible: Unicode or ASCII, no NULL bytes or control characters"

section Writer

variable (author date : Str)

/-- The marks of the edit that is placed as number `count`: the deletion, the insertion in the
paragraph itself, and the insertions in further paragraphs. -/
def delMark (count : ℕ) : Mark := ⟨author, date, count * 2⟩

def insMark (count : ℕ) : Mark := ⟨author, date, count * 2 + 1⟩

def nextMark (count idx : ℕ) : Mark := ⟨author, date, count * 1000 + idx⟩

/-- The insertion in the paragraph of the target. -/
def insertedNodes (count : ℕ) (new : Str) : List Node :=
  if new = [] then []
  else if '\n' ∈ new then
    let first := (Str.lines new).headD []
    if first ≠ [] then [.ins (insMark author date count) first] else []
  else [.ins (insMark author date count) new]

/-- The paragraphs added after it, one for each further line. -/
def insertedParagraphs (count : ℕ) (new : Str) : List Paragraph :=
  if '\n' ∈ new then
    (Str.lines new).tail.mapIdx fun idx line => [.ins (nextMark author date count idx) line]
  else []

/-- The paragraph rebuilt around the first occurrence of `target` in its text. Assigning the empty
text removes all children and leaves an empty run. -/
def redlineParagraph (count : ℕ) (target new : Str) (p : Paragraph) : Paragraph :=
  let parts := Str.splitFirst target p.text
  let before := parts.headD []
  let after := parts.getD 1 []
  addRun [] :: (if before ≠ [] then [addRun before] else []) ++
    [.del (delMark author date count) target] ++
    insertedNodes author date count new ++
    (if after ≠ [] then [addRun after] else [])

/-- The loop over `doc.paragraphs`, which stops at the first paragraph that holds the target;
`none` if there is none. -/
def placeEdit (count : ℕ) (target new : Str) : Document → Option Document
  | [] => none
  | p :: ps =>
    if Str.contains target p.text then
      some (redlineParagraph author date count target new p ::
        (insertedParagraphs author date count new ++ ps))
    else (placeEdit count target new ps).map (p :: ·)

/-- One turn of the loop over `edits`, on the document and `applied_count`. Text that XML cannot
hold raises before anything is saved. -/
def applyEdit (state : Document × ℕ) (edit : Edit) : Except String (Document × ℕ) :=
  let target := Str.strip edit.targetText
  let new := edit.newText.getD []
  if target = [] then .ok state
  else
    match placeEdit author date state.2 target new state.1 with
    | none => .ok state
    | some doc =>
      if author.all isXmlChar && new.all isXmlChar then .ok (doc, state.2 + 1)
      else .error xmlError

/-- `_python_docx_tracked_fallback`: the saved document and `applied_count`, or the text of the
error. -/
def pythonDocxTrackedFallback (doc : Document) (edits : List Edit) :
    Except String (Document × ℕ) :=
  match edits.foldlM (applyEdit author date) (doc, 0) with
  | .ok result => .ok result
  | .error e => .error ("Tracked changes fallback failed: " ++ e)

end Writer

/-! ### Reading them back -/

/-- Unicode normalisation form C, with the laws the folding of whitespace relies on: it keeps line
ends and acts between them, and the number of characters of a text's canonical decomposition, not
counting whitespace, is a `weight` that it preserves. -/
structure Nfc where
  apply : Str → Str
  weight : Char → ℕ
  apply_nil : apply [] = []
  apply_newline : ∀ a b, apply (a ++ '\n' :: b) = apply a ++ '\n' :: apply b
  weight_space : ∀ c, Str.isSpace c = true → weight c = 0
  weight_pos : ∀ c, Str.isSpace c = false → 0 < weight c
  weight_apply : ∀ s, ((apply s).map weight).sum = (s.map weight).sum

/-- Normalisation on the texts that it leaves alone, such as those of ASCII characters. -/
def Nfc.ofNormalised : Nfc where
  apply s := s
  weight c := if Str.isSpace c then 0 else 1
  apply_nil := rfl
  apply_newline _ _ := rfl
  weight_space c hc := if_pos hc
  weight_pos c hc := by simp [hc]
  weight_apply _ := rfl

/-- `_norm`. -/
def norm (nfc : Nfc) (text : Str) : Str := Str.unwords (Str.split (nfc.apply text))

namespace Paragraph

/-- The text of `w:t` in a run: tabs and breaks are elements of their own. -/
def runText (text : Str) : Str := text.filter fun c => c != '\t' && c != '\n'

/-- What `_walk` adds to the original stream. -/
def nodeOriginal : Node → Str
  | .run text => runText text
  | .del _ delText => delText
  | .ins _ _ => []

/-- What `_walk` adds to the final stream. -/
def nodeFinal : Node → Str
  | .run text => runText text
  | .del _ _ => []
  | .ins _ text => text

def original (p : Paragraph) : Str := p.flatMap nodeOriginal

def final (p : Paragraph) : Str := p.flatMap nodeFinal

end Paragraph

/-- `reconstruct_original_and_final`: the text with all changes rejected and with all accepted. -/
def reconstructOriginalAndFinal (nfc : Nfc) (doc : Document) : Str × Str :=
  (norm nfc (Str.joinLines (doc.map Paragraph.original)),
    norm nfc (Str.joinLines (doc.map Paragraph.final)))

end AxiomGrid.Redline

import Mathlib.Tactic.Positivity
import Mathlib.Tactic.GCongr
import Mathlib.Algebra.Order.Field.Rat
import AxiomGrid.Lib.Hex
import AxiomGrid.Lib.Regex
import AxiomGrid.Pipeline.Orchestrator

/-!
# Ingestor

`IngestorImpl.ingest` of `kernel/sidecar/ingestor.py`: a file becomes chunks, each with a page and a
box, under a new document. What the PDF and DOCX libraries read from a file is a parameter, and so are
the ids that new records get. A chunk gets its id when the document is put together; until then its id
is empty.
-/

namespace AxiomGrid.Pipeline

/-- A word and its box, as the PDF library measures it. -/
structure PdfWord where
  x0 : ℚ
  x1 : ℚ
  top : ℚ
  bottom : ℚ

/-- A page of a PDF: its words and what `extract_text` returns. -/
structure PdfPage where
  width : ℚ
  height : ℚ
  words : List PdfWord
  text : Option Str

/-- A readable file, with what the libraries make of its content: the text of a text file, the pages
of a PDF and the paragraphs of a DOCX, or the exception they raise. -/
structure SourceFile where
  path : Str
  content : Bytes
  decoded : Str
  pdf : Except String (List PdfPage)
  docx : Except String (List Str)

/-- `MAX_PDF_PAGES` and `MAX_EXTRACTED_CHARS`. -/
structure Limits where
  maxPdfPages : ℕ := 200
  maxExtractedChars : ℕ := 4 * 1024 * 1024

/-- What a parser returns: chunks, the page count and the pages. -/
abbrev Parsed := List Chunk × ℕ × List Page

/-! ### Boxes -/

def charsPerLine : ℕ := 80
def linesPerPage : ℕ := 60

/-- The box of the lines of a paragraph on its page. -/
def lineBox (currentLine paraLines : ℕ) : BBox where
  x0 := .fin 0
  y0 := .fin ((currentLine % linesPerPage : ℕ) * (1 / linesPerPage))
  x1 := .fin 1
  y1 := .fin (min 1 ((currentLine % linesPerPage + paraLines : ℕ) * (1 / linesPerPage)))
  x_ordered := by decide +kernel
  y_ordered := by
    have hlt : currentLine % linesPerPage < linesPerPage := Nat.mod_lt _ (by decide)
    rw [PyFloat.lt_fin, decide_eq_false_iff_not, not_lt, le_min_iff]
    constructor
    · rw [mul_one_div]
      apply div_le_one_of_le₀
      · exact_mod_cast hlt.le
      · positivity
    · gcongr
      exact Nat.le_add_right _ _

/-- The least and the greatest of the numbers, the first of which is `x`. -/
def leastOf (x : ℚ) (xs : List ℚ) : ℚ := xs.foldl min x
def greatestOf (x : ℚ) (xs : List ℚ) : ℚ := xs.foldl max x

/-- The box around the words of a page, as shares of its width and height. -/
def wordsBox (page : PdfPage) (word : PdfWord) (words : List PdfWord) : BBox :=
  let x0 := max 0 (min 1 (leastOf word.x0 (words.map (·.x0)) / page.width))
  let y0 := max 0 (min 1 (leastOf word.top (words.map (·.top)) / page.height))
  { x0 := .fin x0
    y0 := .fin y0
    x1 := .fin (max x0 (min 1 (greatestOf word.x1 (words.map (·.x1)) / page.width)))
    y1 := .fin (max y0 (min 1 (greatestOf word.bottom (words.map (·.bottom)) / page.height)))
    x_ordered := by
      rw [PyFloat.lt_fin, decide_eq_false_iff_not, not_lt]
      exact le_max_left _ _
    y_ordered := by
      rw [PyFloat.lt_fin, decide_eq_false_iff_not, not_lt]
      exact le_max_left _ _ }

/-! ### Paragraphs -/

/-- The variables of the loop over the paragraphs. -/
structure Layout where
  currentLine : ℕ := 0
  pageCount : ℕ := 1
  chunks : List Chunk := []
  extractedChars : ℕ := 0

/-- A paragraph that is not blank becomes a chunk of `paraLines` lines. -/
def Layout.place (sourceType : Str) (layout : Layout) (paraText : Str) (paraLines : ℕ) : Layout :=
  let page := layout.currentLine / linesPerPage + 1
  { layout with
    currentLine := layout.currentLine + (paraLines + 1)
    pageCount := max layout.pageCount page
    chunks := layout.chunks ++ [
      { chunkId := []
        page
        bbox := some (lineBox layout.currentLine paraLines)
        text := Str.strip paraText
        sourceType }] }

/-- The pages of a document that has no page images. -/
def blankPages (pageCount : ℕ) : List Page :=
  (List.range pageCount).map fun p =>
    { docId := [], index := p + 1, widthPx := 800, heightPx := 1000 }

lemma blankPages_eq (pageCount : ℕ) : blankPages pageCount = (List.range pageCount).map fun p : ℕ =>
    { docId := [], index := (p : ℤ) + 1, widthPx := 800, heightPx := 1000 } := by
  simp [blankPages, ← List.map_eq_flatMap, Function.comp_def]

/-- `_split_paragraphs`: the pattern is `\n\s*\n`. -/
def splitParagraphs (text : Str) : List Str :=
  let blankLine : Regex.Pattern :=
    .concat [.char (· == '\n'), .many true Str.isSpace, .char (· == '\n')]
  (Regex.split blankLine text).filter fun b => Str.strip b ≠ []

/-- One paragraph of a text file. -/
def Layout.placeText (layout : Layout) (paraText : Str) : Layout :=
  if Str.strip paraText = [] then { layout with currentLine := layout.currentLine + 1 }
  else layout.place "text".toList paraText (paraText.count '\n' + 1)

/-- `_ingest_text`. -/
def ingestText (text : Str) : Parsed :=
  let layout := (splitParagraphs text).foldl Layout.placeText {}
  (layout.chunks, layout.pageCount, blankPages layout.pageCount)

/-- One paragraph of a DOCX, within the budget of characters. -/
def Layout.placeDocx (limits : Limits) (layout : Layout) (paraText : Str) : Except String Layout :=
  if Str.strip paraText = [] then .ok { layout with currentLine := layout.currentLine + 1 }
  else
    let extractedChars := layout.extractedChars + paraText.length
    if limits.maxExtractedChars < extractedChars then
      .error ("DOCX text exceeds " ++ toString limits.maxExtractedChars ++ " characters")
    else
      .ok (({ layout with extractedChars }).place "docx_paragraph".toList paraText
        (max 1 (paraText.length / charsPerLine + 1)))

/-- `_ingest_docx`. -/
def ingestDocx (limits : Limits) (docx : Except String (List Str)) : Except String Parsed := do
  let paragraphs ← docx
  let layout ← paragraphs.foldlM (Layout.placeDocx limits) {}
  return (layout.chunks, layout.pageCount, blankPages layout.pageCount)

/-! ### PDF -/

/-- The variables of the loop over the pages. -/
structure PdfLoop where
  chunks : List Chunk := []
  pages : List Page := []
  extractedChars : ℕ := 0

/-- The exceptions of the loop: a budget that is passed on, or anything else. -/
inductive PdfError where
  | budget (message : String)
  | parse

/-- `int(x)`. -/
def truncate (x : ℚ) : ℤ := x.num.tdiv x.den

/-- One page of a PDF. -/
def PdfLoop.step (limits : Limits) (loop : PdfLoop) (entry : PdfPage × ℕ) :
    Except PdfError PdfLoop :=
  let (page, i) := entry
  if page.width ≤ 0 ∨ page.height ≤ 0 then .error .parse
  else
    let loop := { loop with
      pages := loop.pages ++ [
        { docId := [], index := i + 1, widthPx := truncate page.width,
          heightPx := truncate page.height }] }
    match page.words with
    | [] => .ok loop
    | word :: words =>
      let text := page.text.getD []
      if Str.strip text = [] then .ok loop
      else
        let extractedChars := loop.extractedChars + text.length
        if limits.maxExtractedChars < extractedChars then
          .error (.budget ("PDF text exceeds " ++ toString limits.maxExtractedChars ++ " characters"))
        else
          .ok { loop with
            extractedChars
            chunks := loop.chunks ++ [
              { chunkId := []
                page := i + 1
                bbox := some (wordsBox page word words)
                text := Str.strip text
                sourceType := "pdf_text".toList }] }

/-- The pages of a PDF within the budget of pages. -/
def readPdf (limits : Limits) (pages : List PdfPage) : Except PdfError PdfLoop :=
  if limits.maxPdfPages < pages.length then
    .error (.budget ("PDF has " ++ toString pages.length ++ " pages (limit " ++
      toString limits.maxPdfPages ++ ")"))
  else pages.zipIdx.foldlM (PdfLoop.step limits) {}

/-- `_ingest_pdf`. -/
def ingestPdf (limits : Limits) (pdf : Except String (List PdfPage)) : Except String Parsed :=
  match pdf with
  | .error _ => .error "Unable to parse PDF document"
  | .ok pages =>
    match readPdf limits pages with
    | .error (.budget message) => .error message
    | .error .parse => .error "Unable to parse PDF document"
    | .ok loop =>
      if loop.chunks = [] then .error "PDF contains no extractable text; OCR is not enabled"
      else .ok (loop.chunks, loop.pages.length, loop.pages)

/-! ### Documents -/

/-- `PurePath.suffix`. -/
def suffix (path : Str) : Str :=
  let name := basename path
  let extension := (name.reverse.takeWhile (· ≠ '.')).reverse
  if extension = [] ∨ name.length ≤ extension.length + 1 then [] else '.' :: extension

section

variable (u : UnicodeData) (limits : Limits)

/-- The suffix is one of `.txt` and `.md`. -/
def SourceFile.isText (file : SourceFile) : Bool :=
  let suffix := Str.lower u (suffix file.path)
  suffix = ".txt".toList ∨ suffix = ".md".toList

/-- The parser that the suffix selects. -/
def SourceFile.parse (file : SourceFile) : Except String Parsed :=
  let suffix := Str.lower u (suffix file.path)
  if file.isText u then .ok (ingestText file.decoded)
  else if suffix = ".pdf".toList then ingestPdf limits file.pdf
  else if suffix = ".docx".toList then ingestDocx limits file.docx
  else .error ("Unsupported file type: " ++ String.ofList suffix)

/-- The ids of the chunks and of the document. -/
structure IngestIds where
  chunkId : ℕ → Str
  docId : Str

/-- The check of the ingestor on one chunk. -/
def checkChunk (chunk : Chunk) : Except String Unit :=
  if chunk.bbox = none then
    .error ("Ingestor invariant violated: chunk " ++ String.ofList chunk.chunkId ++ " has no bbox")
  else if chunk.page < 1 then
    .error ("Ingestor invariant violated: chunk " ++ String.ofList chunk.chunkId ++ " has page=" ++
      toString chunk.page ++ " (must be >= 1)")
  else .ok ()

/-- The chunks under the new document. -/
def IngestIds.label (ids : IngestIds) (chunks : List Chunk) : List Chunk :=
  chunks.zipIdx.map fun (chunk, i) => { chunk with chunkId := ids.chunkId i, docId := ids.docId }

/-- `IngestorImpl.ingest`. -/
def SourceFile.ingest (ids : IngestIds) (file : SourceFile) :
    Except String (List Chunk × Document × List Page) := do
  let (chunks, pageCount, pages) ← file.parse u limits
  let doc : Document :=
    { docId := ids.docId
      sourcePath := file.path
      sha256 := (sha256 file.content).hex.toList
      pageCount }
  let updatedChunks := ids.label chunks
  updatedChunks.forM checkChunk
  return (updatedChunks, doc, pages.map fun page => { page with docId := doc.docId })

/-! ### What is ingested -/

/-- A chunk with a box, a page and a text. -/
structure Placed (chunk : Chunk) : Prop where
  bbox : chunk.bbox ≠ none
  page : 1 ≤ chunk.page
  text : chunk.text ≠ []

lemma Layout.place_placed {sourceType : Str} {layout : Layout} {paraText : Str} {paraLines : ℕ}
    (h : ∀ c ∈ layout.chunks, Placed c) (hpara : Str.strip paraText ≠ []) :
    ∀ c ∈ (layout.place sourceType paraText paraLines).chunks, Placed c := by
  intro c hc
  rw [place, List.mem_append, List.mem_singleton] at hc
  obtain hc | rfl := hc
  · exact h c hc
  · exact ⟨Option.some_ne_none _, Nat.le_add_left 1 _, hpara⟩

lemma ingestText_placed (text : Str) : ∀ c ∈ (ingestText text).1, Placed c := by
  suffices hfold : ∀ (paragraphs : List Str) (layout : Layout), (∀ c ∈ layout.chunks, Placed c) →
      ∀ c ∈ (paragraphs.foldl Layout.placeText layout).chunks, Placed c from
    hfold _ {} (by simp)
  intro paragraphs
  induction paragraphs with
  | nil => exact fun _ h => h
  | cons paraText paragraphs ih =>
    intro layout h
    apply ih
    rw [Layout.placeText]
    split_ifs with hpara
    · exact h
    · exact layout.place_placed h hpara

lemma ingestDocx_placed {docx : Except String (List Str)} {parsed : Parsed}
    (h : ingestDocx limits docx = .ok parsed) : ∀ c ∈ parsed.1, Placed c := by
  cases docx with
  | error e => cases h
  | ok paragraphs =>
    rw [ingestDocx] at h
    cases hfold : paragraphs.foldlM (Layout.placeDocx limits) {} with
    | error e =>
      simp [hfold, bind, Except.bind] at h
    | ok layout =>
      simp only [hfold, bind, Except.bind] at h
      cases h
      refine List.invariant_of_foldlM_ok (P := fun layout => ∀ c ∈ layout.chunks, Placed c) ?_ (by simp) hfold
      intro layout paraText layout' hlayout hstep
      simp only [Layout.placeDocx] at hstep
      split_ifs at hstep with hpara
      · cases hstep
        exact hlayout
      · cases hstep
        exact Layout.place_placed hlayout hpara

lemma PdfLoop.step_placed {loop loop' : PdfLoop} {entry : PdfPage × ℕ}
    (h : ∀ c ∈ loop.chunks, Placed c) (hstep : loop.step limits entry = .ok loop') :
    ∀ c ∈ loop'.chunks, Placed c := by
  simp only [PdfLoop.step] at hstep
  split at hstep
  · cases hstep
  · split at hstep
    · cases hstep
      exact h
    · split at hstep
      · cases hstep
        exact h
      · rename_i htext
        split at hstep
        · cases hstep
        · cases hstep
          intro c hc
          rw [List.mem_append, List.mem_singleton] at hc
          obtain hc | rfl := hc
          · exact h c hc
          · exact ⟨Option.some_ne_none _, Nat.le_add_left 1 _, htext⟩

lemma ingestPdf_placed {pdf : Except String (List PdfPage)} {parsed : Parsed}
    (h : ingestPdf limits pdf = .ok parsed) : ∀ c ∈ parsed.1, Placed c := by
  simp only [ingestPdf] at h
  split at h
  · cases h
  · split at h
    · cases h
    · cases h
    · rename_i pages _ loop hread
      split_ifs at h
      cases h
      rw [readPdf] at hread
      split_ifs at hread
      exact List.invariant_of_foldlM_ok (P := fun loop : PdfLoop => ∀ c ∈ loop.chunks, Placed c)
        (fun _ _ _ hloop => PdfLoop.step_placed limits hloop) (by simp) hread

variable {u limits}

/-- Every parser places the chunks it returns. -/
lemma SourceFile.parse_placed {file : SourceFile} {parsed : Parsed}
    (h : file.parse u limits = .ok parsed) : ∀ c ∈ parsed.1, Placed c := by
  simp only [SourceFile.parse] at h
  split_ifs at h
  · cases h
    exact ingestText_placed file.decoded
  · exact ingestPdf_placed limits h
  · exact ingestDocx_placed limits h

lemma IngestIds.mem_label {ids : IngestIds} {chunks : List Chunk} {c : Chunk}
    (h : c ∈ ids.label chunks) : ∃ chunk ∈ chunks, ∃ i,
      c = { chunk with chunkId := ids.chunkId i, docId := ids.docId } := by
  rw [label, List.mem_map] at h
  obtain ⟨⟨chunk, i⟩, hmem, rfl⟩ := h
  exact ⟨chunk, (List.mem_zipIdx' hmem).2 ▸ List.getElem_mem _, i, rfl⟩

/-- Ingestion fails only when the parser does: the chunks it checks are placed. -/
lemma SourceFile.ingest_eq (ids : IngestIds) (file : SourceFile) :
    file.ingest u limits ids = (file.parse u limits).map fun (chunks, pageCount, pages) =>
      (ids.label chunks,
        { docId := ids.docId
          sourcePath := file.path
          sha256 := (sha256 file.content).hex.toList
          pageCount },
        pages.map fun page => { page with docId := ids.docId }) := by
  rw [SourceFile.ingest]
  cases hparse : file.parse u limits with
  | error e => rfl
  | ok parsed =>
    have hcheck : (ids.label parsed.1).forM checkChunk = .ok () := by
      have hall : ∀ c ∈ ids.label parsed.1, checkChunk c = .ok () := by
        intro c hc
        obtain ⟨chunk, hchunk, i, rfl⟩ := IngestIds.mem_label hc
        have hplaced := SourceFile.parse_placed hparse chunk hchunk
        rw [checkChunk, if_neg hplaced.bbox, if_neg (Nat.not_lt.mpr hplaced.page)]
      generalize ids.label parsed.1 = labelled at hall
      induction labelled with
      | nil => rfl
      | cons c labelled ih =>
        rw [List.forall_mem_cons] at hall
        rw [List.forM_eq_forM, List.forM_cons, hall.1]
        exact ih hall.2
    simp only [bind, Except.bind, hcheck]
    rfl

end

end AxiomGrid.Pipeline

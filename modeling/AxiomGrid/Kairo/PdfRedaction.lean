import AxiomGrid.Lib.Latin1
import AxiomGrid.Lib.Loop
import AxiomGrid.Kairo.PdfStrings
import AxiomGrid.Redline.AuditLog
import Mathlib.Logic.Function.Basic

/-!
# Redaction of a PDF

`redact_text` and `pdf_pipeline` with the action `redact` of `kairo/pdf/engine.py`. The copy is saved at the
output path before it is verified, so a copy that still shows the target stays there when the run fails. A run
that does not find the target writes nothing, and names the output path in its result.
-/

namespace AxiomGrid.Kairo.Pdf

open Redline (Ed25519AuditLog Call sha256Hex)

/-! ### Data structures -/

/-- An exception, with its text. -/
inductive Exn where
  | engineUnavailable (message : String)
  | redactionError (message : String)
  | other (typeName message : String)

/-- The error of a run that an exception ends. -/
def Exn.shown : Exn → String
  | engineUnavailable message => message
  | redactionError message => "RedactionError: " ++ message
  | other typeName message => typeName ++ ": " ++ message

structure PdfEdit where
  action : String
  target : String
  oldValue : String
  newValue : String
  rationale : String

/-- The fields that a redaction sets. -/
structure PdfResult where
  ok : Bool
  outputPath : Str := []
  appliedEdits : List PdfEdit := []
  isScanned : Bool := false
  error : String := ""
  auditLogJson : String := ""
  egressReportJson : String := ""
  docHash : String := ""

/-- A page of pdfplumber. -/
structure Page where
  extractText : Except Exn (Option Str)
  /-- How many words `extract_words` finds. -/
  wordCount : Except Exn ℕ

/-- `page.extract_text() or ""`. -/
def Page.text (page : Page) : Except Exn Str := page.extractText.map fun text => text.getD []

/-- What the pipeline calls and does not implement: pdfplumber, pikepdf and parts of the trust stack. -/
structure Setting (Document Stream : Type) where
  /-- `str(Path(path).resolve())`. -/
  resolve : Str → Str
  /-- `_check_pdfplumber()` and `_check_pikepdf()`. -/
  hasPdfplumber : Bool
  hasPikepdf : Bool
  /-- `pdfplumber.open(path).pages`. -/
  pages : Bytes → Except Exn (List Page)
  /-- `pikepdf.open`. -/
  openDocument : Bytes → Except Exn Document
  /-- The streams of `/Contents` of the page with this number. -/
  contents : Document → ℕ → Except Exn (List Stream)
  /-- `stream.read_bytes()`; `none` is an exception. -/
  readBytes : Document → Stream → Option Bytes
  write : Document → Stream → Bytes → Except Exn Document
  /-- `pdf.save` at this path. -/
  save : Document → Str → Except Exn Bytes
  ed : Ed25519
  /-- The text of the zero-egress report for the hash, the number of edits and the audit log. -/
  egressReport : String → ℕ → String → String
  /-- The identifier and the time of each entry of the audit log. -/
  stamp : ℕ → String × String

/-- The arguments of a run. -/
structure Args where
  inputPath : Str
  outputPath : Str
  targetText : Str
  privateKey : Option Bytes := none

/-- The contents of the files. -/
abbrev Files := Str → Option Bytes

variable {Document Stream : Type} (c : Setting Document Stream)

/-! ### Reading -/

/-- `classify_pdf`: whether the file is scanned. -/
def classifyPdf (bytes : Bytes) : Except Exn Bool :=
  if c.hasPdfplumber = false then
    .error (.engineUnavailable "pdfplumber unavailable — install pdfplumber to classify PDFs.")
  else do
    let pages ← c.pages bytes
    if pages = [] then return true
    else
      let words ← pages.mapM Page.wordCount
      return decide (words.sum < 5 * pages.length)

/-- Step 1: the numbers of the pages with the target. -/
def findPages (target : Str) (bytes : Bytes) : Except Exn (List ℕ) := do
  let pages ← c.pages bytes
  let texts ← pages.mapM Page.text
  return (texts.zipIdx.filter fun text => Str.contains target text.1).map Prod.snd

/-- The loop of step 3, from the page with this number on. -/
def verifyPages (target : Str) : ℕ → List Page → Except Exn Unit
  | _, [] => .ok ()
  | pageNum, page :: pages => do
    let text ← page.text
    if Str.contains target text then
      .error (.redactionError ("Redaction FAILED: target text '" ++ String.ofList target ++
        "' still present on page " ++ toString pageNum ++ " after content-stream edit."))
    else verifyPages target (pageNum + 1) pages

/-- Step 3. -/
def verifyRedacted (target : Str) (bytes : Bytes) : Except Exn Unit := do
  let pages ← c.pages bytes
  verifyPages target 0 pages

/-! ### Editing -/

/-- The body of the loop over the streams of a page. -/
def editStream (target : Str) (pageNum : ℕ) (state : Document × List PdfEdit) (stream : Stream) :
    Except Exn (Document × List PdfEdit) :=
  match c.readBytes state.1 stream with
  | none => .ok state
  | some data =>
    let decoded := Latin1.decode data
    let newDecoded := redactTextInContentStream decoded target
    if newDecoded = decoded then .ok state
    else (c.write state.1 stream (Latin1.encode newDecoded)).map fun document =>
      (document, state.2 ++
        [⟨"redact", "page " ++ toString pageNum ++ ": '" ++ String.ofList target ++ "'", String.ofList target,
          "[REDACTED]", "True redaction: removed text bytes from content stream"⟩])

/-- The body of the loop over the pages. -/
def editPage (target : Str) (state : Document × List PdfEdit) (pageNum : ℕ) :
    Except Exn (Document × List PdfEdit) := do
  let streams ← c.contents state.1 pageNum
  streams.foldlM (editStream c target pageNum) state

/-- Steps 1 and 2 of `redact_text`: the copy that is saved, with the edits; `none` if the target is not
found. -/
def savedCopy (input : Bytes) (target outputPath : Str) : Except Exn (Option (Bytes × List PdfEdit)) :=
  if c.hasPikepdf = false then
    .error (.engineUnavailable "pikepdf unavailable — install pikepdf for true redaction.")
  else if c.hasPdfplumber = false then
    .error (.engineUnavailable "pdfplumber unavailable — needed to verify text removal.")
  else do
    let targetPages ← findPages c target input
    if targetPages = [] then return none
    else
      let document ← c.openDocument input
      let edited ← targetPages.foldlM (editPage c target) (document, [])
      let saved ← c.save edited.1 outputPath
      return some (saved, edited.2)

/-- `redact_text`, with the files it leaves. -/
def redactText (files : Files) (input : Bytes) (target outputPath : Str) :
    Except Exn (List PdfEdit) × Files :=
  match savedCopy c input target outputPath with
  | .error e => (.error e, files)
  | .ok none => (.ok [], files)
  | .ok (some (saved, edits)) =>
    ((verifyRedacted c target saved).map fun _ => edits, Function.update files outputPath (some saved))

/-! ### The pipeline -/

/-- The calls on the audit log. -/
def auditCalls (docHash : String) (applied : List PdfEdit) : List Call :=
  .logRunStarted docHash "pdf_redact" ::
    applied.map (fun edit =>
      .logEdit docHash edit.target ("PDF " ++ edit.action ++ ": " ++ edit.target) edit.oldValue
        edit.newValue edit.action edit.rationale) ++
    [.logRunCompleted docHash applied.length 0 false]

/-- The audit log and the egress report, if there is a key. -/
def emitLogs (privateKey : Option Bytes) (docHash : String) (applied : List PdfEdit) :
    String × String :=
  match privateKey with
  | none => ("", "")
  | some key =>
    let auditLogJson := (Ed25519AuditLog.run c.ed key ((auditCalls docHash applied).mapIdx fun i call =>
      ⟨(c.stamp i).1, (c.stamp i).2, call⟩)).toJson
    (auditLogJson, c.egressReport docHash applied.length auditLogJson)

/-- `pdf_pipeline` with the action `redact`, with the files it leaves. The file is classified outside of
the `try`. -/
def pdfPipeline (files : Files) (args : Args) : Except Exn PdfResult × Files :=
  match files (c.resolve args.inputPath) with
  | none =>
    (.ok { ok := false,
           error := "Input file not found: " ++ String.ofList (c.resolve args.inputPath) }, files)
  | some input =>
    let docHash := sha256Hex input
    match classifyPdf c input with
    | .error e => (.error e, files)
    | .ok isScanned =>
      if args.targetText = [] then
        (.ok { ok := false, error := "redact action requires 'target_text' in spec", docHash }, files)
      else
        let run := redactText c files input args.targetText (c.resolve args.outputPath)
        match run.1 with
        | .error e => (.ok { ok := false, isScanned, error := e.shown, docHash }, run.2)
        | .ok appliedEdits =>
          let logs := emitLogs c args.privateKey docHash appliedEdits
          (.ok { ok := true, outputPath := c.resolve args.outputPath, appliedEdits, isScanned,
                 auditLogJson := logs.1, egressReportJson := logs.2, docHash }, run.2)

/-! ### What a run leaves -/

/-- The text of every page can be extracted, and none has the target. -/
def Clean (target : Str) (bytes : Bytes) : Prop :=
  ∃ pages, c.pages bytes = .ok pages ∧ ∀ page ∈ pages, ∃ text, page.text = .ok text ∧ ¬ target <:+: text

/-- Success leaves a file without the target, and failure leaves the file there was. -/
structure Delivers (files files' : Files) (args : Args) (result : PdfResult) : Prop where
  cleaned : result.ok = true →
    ∃ bytes, files' (c.resolve args.outputPath) = some bytes ∧ Clean c args.targetText bytes
  kept : result.ok = false → files' (c.resolve args.outputPath) = files (c.resolve args.outputPath)

/-- A run on an input without the target finds a file without it at the output path, and a copy that is
saved is without it, or was there before. -/
structure Covered (files : Files) (args : Args) (input : Bytes) : Prop where
  absent : c.hasPikepdf = true → Clean c args.targetText input →
    ∃ bytes, files (c.resolve args.outputPath) = some bytes ∧ Clean c args.targetText bytes
  saved : ∀ saved edits,
    savedCopy c input args.targetText (c.resolve args.outputPath) = .ok (some (saved, edits)) →
      Clean c args.targetText saved ∨ files (c.resolve args.outputPath) = some saved

/-! ### Finding and verifying -/

variable {c}

/-- What is written back to a stream is a text of Latin-1. -/
lemma toNat_lt_of_mem_redact {data : Bytes} {target : Str} {ch : Char}
    (h : ch ∈ redactTextInContentStream (Latin1.decode data) target) : ch.toNat < 256 := by
  obtain ⟨-, hrender, hredact⟩ := tokens_spec target (Latin1.decode data)
  have hmem : ch ∈ Latin1.decode data := by
    rw [hredact, List.mem_flatMap] at h
    obtain ⟨t', ht', hch⟩ := h
    obtain ⟨t, ht, rfl⟩ := List.mem_map.mp ht'
    rw [← hrender, List.mem_flatMap]
    refine ⟨t, ht, ?_⟩
    cases t with
    | outside d => exact hch
    | literal s =>
      rw [Token.emptied] at hch
      split_ifs at hch
      · simp only [Token.render, List.nil_append, List.mem_cons, List.cons_append, List.not_mem_nil,
          or_false] at hch
        rcases hch with rfl | rfl <;> simp [Token.render]
      · exact hch
  exact Latin1.toNat_lt_of_mem_decode hmem

lemma verifyPages_eq_ok {target : Str} {pages : List Page} {pageNum : ℕ} :
    verifyPages target pageNum pages = .ok () ↔
      ∀ page ∈ pages, ∃ text, page.text = .ok text ∧ ¬ target <:+: text := by
  induction pages generalizing pageNum with
  | nil => simp [verifyPages]
  | cons page pages ih =>
    rw [verifyPages, List.forall_mem_cons]
    cases htext : page.text with
    | error e => simp
    | ok text =>
      simp only [Except.ok_bind, Except.ok.injEq, exists_eq_left', ← Str.contains_iff]
      by_cases hmem : Str.contains target text = true
      · simp [hmem]
      · simp [hmem, ih, ← Str.contains_iff]

/-- The verification succeeds on the files without the target. -/
lemma verifyRedacted_eq_ok {target : Str} {bytes : Bytes} :
    verifyRedacted c target bytes = .ok () ↔ Clean c target bytes := by
  rw [verifyRedacted, Clean]
  cases hpages : c.pages bytes with
  | error e => simp
  | ok pages => simp [verifyPages_eq_ok]

/-- No page is found in the files without the target. -/
lemma findPages_eq_nil {target : Str} {bytes : Bytes} :
    findPages c target bytes = .ok [] ↔ Clean c target bytes := by
  have hnone : ∀ texts : List Str,
      (texts.zipIdx.filter fun text => Str.contains target text.1).map Prod.snd = [] ↔
        ∀ text ∈ texts, ¬ target <:+: text := by
    intro texts
    simp only [List.map_eq_nil_iff, List.filter_eq_nil_iff, Str.contains_iff]
    refine ⟨fun h text htext => ?_, fun h p hp => h p.1 (List.fst_mem_of_mem_zipIdx hp)⟩
    obtain ⟨i, hi, rfl⟩ := List.mem_iff_getElem.mp htext
    exact h (texts[i], i) (List.mem_zipIdx_iff_getElem?.mpr (by simp [hi]))
  rw [findPages, Clean]
  cases hpages : c.pages bytes with
  | error e => simp
  | ok pages =>
    simp only [Except.ok_bind, Except.ok.injEq, exists_eq_left']
    rw [← List.mapM_ok_iff]
    cases htexts : pages.mapM Page.text with
    | error e => simp
    | ok texts => simp [← hnone]

/-- Nothing is saved only if the engines are there and the target is on no page. -/
lemma savedCopy_eq_none {input : Bytes} {target outputPath : Str} (hplumber : c.hasPdfplumber = true) :
    savedCopy c input target outputPath = .ok none ↔
      c.hasPikepdf = true ∧ Clean c target input := by
  rw [← findPages_eq_nil, savedCopy]
  cases hpike : c.hasPikepdf with
  | false => simp
  | true =>
    rw [if_neg (by simp), hplumber, if_neg (by simp)]
    cases hpages : findPages c target input with
    | error e => simp
    | ok pages =>
      rw [Except.ok_bind]
      by_cases hnil : pages = []
      · simp [hnil]
      · rw [if_neg hnil]
        simp only [Except.ok.injEq, hnil, and_false, iff_false]
        intro h
        obtain ⟨document, -, h⟩ := Except.of_bind_eq_ok h
        obtain ⟨edited, -, h⟩ := Except.of_bind_eq_ok h
        obtain ⟨saved, -, h⟩ := Except.of_bind_eq_ok h
        cases h

/-! ### The three outcomes of a redaction -/

lemma redactText_of_none {files : Files} {input : Bytes} {target outputPath : Str}
    (h : savedCopy c input target outputPath = .ok none) :
    redactText c files input target outputPath = (.ok [], files) := by
  rw [redactText, h]

lemma redactText_of_error {files : Files} {input : Bytes} {target outputPath : Str} {e : Exn}
    (h : savedCopy c input target outputPath = .error e) :
    redactText c files input target outputPath = (.error e, files) := by
  rw [redactText, h]

/-- A copy that is saved is at the output path, and the redaction succeeds if it is without the target. -/
lemma redactText_of_some {files : Files} {input : Bytes} {target outputPath : Str} {saved : Bytes}
    {edits : List PdfEdit} (h : savedCopy c input target outputPath = .ok (some (saved, edits))) :
    (redactText c files input target outputPath).2 outputPath = some saved ∧
      ((∃ edits, (redactText c files input target outputPath).1 = .ok edits) ↔ Clean c target saved) := by
  rw [redactText, h, ← verifyRedacted_eq_ok]
  refine ⟨Function.update_self .., ⟨fun hsuccess => ?_, fun hverified => ⟨edits, ?_⟩⟩⟩
  · obtain ⟨edits', hedits⟩ := hsuccess
    obtain ⟨_, hverified, -⟩ := Except.of_map_eq_ok hedits
    exact hverified
  · simp only [hverified, Except.map_eq_ok]

/-- A run that returns a result has classified the file, and unless the target is empty its result is
that of the redaction. -/
lemma pdfPipeline_eq {files files' : Files} {args : Args} {result : PdfResult} {input : Bytes}
    (h : pdfPipeline c files args = (.ok result, files')) (htarget : args.targetText ≠ [])
    (hinput : files (c.resolve args.inputPath) = some input) :
    c.hasPdfplumber = true ∧
      files' = (redactText c files input args.targetText (c.resolve args.outputPath)).2 ∧
      (result.ok = true ↔
        ∃ edits, (redactText c files input args.targetText (c.resolve args.outputPath)).1 = .ok edits) := by
  simp only [pdfPipeline, hinput, if_neg htarget] at h
  have hplumber : c.hasPdfplumber = true := by
    by_contra hplumber
    rw [classifyPdf, if_pos (Bool.eq_false_iff.mpr hplumber)] at h
    cases h
  cases hclassify : classifyPdf c input with
  | error e =>
    rw [hclassify] at h
    cases h
  | ok isScanned =>
    rw [hclassify] at h
    refine ⟨hplumber, ?_⟩
    cases hrun : (redactText c files input args.targetText (c.resolve args.outputPath)).1 with
    | error e =>
      simp only [hrun] at h
      cases h
      exact ⟨rfl, by simp⟩
    | ok edits =>
      simp only [hrun] at h
      cases h
      exact ⟨rfl, by simp⟩

namespace Sample

/-- One page with one stream, which is the whole file, and shows its strings one after another. -/
def setting : Setting Bytes Unit where
  resolve path := path
  hasPdfplumber := true
  hasPikepdf := true
  pages bytes := .ok [⟨.ok (some ((literals (Latin1.decode bytes)).flatMap pdfDecode)), .ok 1⟩]
  openDocument := .ok
  contents _ _ := .ok [()]
  readBytes bytes _ := some bytes
  write _ _ bytes := .ok bytes
  save bytes _ := .ok bytes
  ed := .transparent
  egressReport _ _ _ := ""
  stamp _ := ("", "")

/-- The word is shown in two parts. -/
def splitWord : Bytes := Latin1.encode "[(Se) -10 (cret)] TJ".toList

def files : Files := fun path => if path = "in.pdf".toList then some splitWord else none

def args (target : String) : Args where
  inputPath := "in.pdf".toList
  outputPath := "out.pdf".toList
  targetText := target.toList

end Sample

end AxiomGrid.Kairo.Pdf

import AxiomGrid.Lib.Dict
import AxiomGrid.Lib.Loop
import AxiomGrid.Lib.PyFloat
import AxiomGrid.Lib.PyStr
import AxiomGrid.Redline.AuditLog

/-!
# The spreadsheet pipeline

`excel_pipeline` and `recompute_xlsx` of `kairo/excel/engine.py`. The workbook is edited and saved, hashed,
replaced by what LibreOffice makes of it, read back and compared with the expected values. So the hash is
that of the file before it was recomputed, and what is compared is a float: a text may be one, and no
test on NaN fails.
-/

namespace AxiomGrid.Kairo.Excel

open Redline (Ed25519AuditLog Event Call sha256Hex)

/-! ### Data structures -/

/-- The value of a cell. The numbers of a spreadsheet are floats. -/
inductive CellValue where
  | empty
  | number (x : PyFloat)
  | bool (b : Bool)
  | text (s : Str)
  /-- A date or a time, as it is printed. -/
  | other (shown : String)
  deriving DecidableEq

/-- `float(value)`; `none` is the `TypeError` or the `ValueError`. -/
def CellValue.toFloat (u : UnicodeData) : CellValue → Option PyFloat
  | empty => none
  | number x => some x
  | bool b => some (.fin (if b then 1 else 0))
  | text s => PyFloat.parse u.decimal (Str.strip s)
  | other _ => none

/-- An item of `edits`; `none` is a key that is missing. -/
structure EditItem where
  sheet : Option Str
  cell : Option Str
  value : Option CellValue
  rationale : Option Str

structure ExcelEdit where
  sheet : Str
  cell : Str
  oldValue : CellValue
  newValue : CellValue
  formula : Str
  rationale : Str

structure ExcelResult where
  ok : Bool
  outputPath : Str := []
  appliedEdits : List ExcelEdit := []
  recomputedValues : Dict Str CellValue := []
  independentCalc : Dict Str PyFloat := []
  recomputeVerified : Bool := false
  error : String := ""
  auditLogJson : String := ""
  egressReportJson : String := ""
  docHash : String := ""

/-- What `recompute_xlsx` does: no LibreOffice, a `RuntimeError`, or a new file. -/
inductive Recomputed where
  | unavailable
  | failed (message : String)
  | file (bytes : Bytes)

/-- What the pipeline calls and does not implement: openpyxl, LibreOffice, and the parts of Python and of
the trust stack that its results are printed with. -/
structure Setting (Workbook : Type) where
  u : UnicodeData
  /-- `str(value)`. -/
  str : CellValue → String
  /-- `str(names)`. -/
  strList : List Str → String
  /-- `str(Path(path).resolve())`. -/
  resolve : Str → Str
  /-- `openpyxl.load_workbook`. -/
  load : Bytes → Except String Workbook
  sheetNames : Workbook → List Str
  definedNames : Workbook → List Str
  /-- `wb[sheet][cell].value`. -/
  cell : Workbook → Str → Str → Except String CellValue
  setCell : Workbook → Str → Str → CellValue → Except String Workbook
  save : Workbook → Except String Bytes
  /-- `load_workbook(data_only=True)`: the sheets, each with the cells of its rows. -/
  loadValues : Bytes → Except String (List (Str × List (Str × CellValue)))
  /-- The conversion of a file, given its path. -/
  recompute : Str → Bytes → Recomputed
  ed : Ed25519
  /-- The text of the zero-egress report for the hash, the number of edits and the audit log. -/
  egressReport : String → ℕ → String → String
  /-- The identifier and the time of each entry of the audit log. -/
  stamp : ℕ → String × String

/-- The arguments of a run. -/
structure Args where
  inputPath : Str
  outputPath : Str
  edits : List EditItem
  expectedValues : Dict Str PyFloat
  expectedSheets : Option (List Str) := none
  expectedNamedRanges : Option (List Str) := none
  privateKey : Option Bytes := none

/-- The contents of the files. -/
abbrev Files := Str → Option Bytes

variable {Workbook : Type} (c : Setting Workbook)

/-! ### Editing -/

/-- Why the loop over the edits ends early. -/
inductive Stop where
  | returned (error : String)
  | raised (message : String)

/-- `str(new_value)` of a formula. -/
def formulaOf : CellValue → Str
  | .text ('=' :: s) => '=' :: s
  | _ => []

def raising {α : Type} : Except String α → Except Stop α
  | .ok a => .ok a
  | .error message => .error (.raised message)

/-- The body of the loop over the edits. -/
def applyEdit (state : Workbook × List ExcelEdit) (item : EditItem) :
    Except Stop (Workbook × List ExcelEdit) := do
  let sheet := item.sheet.getD []
  let cell := item.cell.getD []
  let value := item.value.getD (.text [])
  if sheet ∈ c.sheetNames state.1 then
    let old ← raising (c.cell state.1 sheet cell)
    let wb ← raising (c.setCell state.1 sheet cell value)
    return (wb, state.2 ++ [⟨sheet, cell, old, value, formulaOf value, item.rationale.getD []⟩])
  else
    .error (.returned ("Sheet '" ++ String.ofList sheet ++ "' not found in workbook. Available: " ++
      c.strList (c.sheetNames state.1)))

/-! ### Reading back -/

/-- `read_recomputed_values`. -/
def readRecomputedValues (bytes : Bytes) : Except String (Dict Str CellValue) :=
  (c.loadValues bytes).map fun sheets =>
    (sheets.flatMap fun sheet => (sheet.2.filter fun cell => cell.2 ≠ .empty).map fun cell =>
      (sheet.1 ++ '!' :: cell.1, cell.2)).foldl (fun values cell => values.set cell.1 cell.2) []

/-- The tolerance. -/
def tolerance : ℚ := 1 / 1000000

/-- `abs(x)`. -/
def magnitude : PyFloat → PyFloat
  | .fin q => .fin |q|
  | .inf _ => .inf false
  | .nan => .nan

/-- The mismatch of an expected value, if there is one. -/
def mismatch (actual : Dict Str CellValue) (entry : Str × PyFloat) : Option String :=
  let shown := String.ofList entry.1
  match actual.get? entry.1 with
  | none => some (shown ++ ": MISSING")
  | some value =>
    match value.toFloat c.u with
    | none => some (shown ++ ": expected " ++ c.str (.number entry.2) ++ ", got " ++ c.str value)
    | some x =>
      if PyFloat.lt (.fin tolerance) (magnitude (x.sub entry.2)) then
        some (shown ++ ": expected " ++ c.str (.number entry.2) ++ ", got " ++ c.str (.number x))
      else none

/-- `xlsx_structure_readback` on a loaded workbook: the text of the `AssertionError`. -/
def structureReadback (wb : Workbook) (expectedSheets expectedNamedRanges : List Str) :
    Option String :=
  let missingSheets := expectedSheets.filter (· ∉ c.sheetNames wb)
  let missingNames := expectedNamedRanges.filter (· ∉ c.definedNames wb)
  if missingSheets ≠ [] then
    some ("xlsx_structure_readback FAILED: missing sheets: " ++ c.strList missingSheets ++
      " (actual: " ++ c.strList (c.sheetNames wb) ++ ")")
  else if missingNames ≠ [] then
    some ("xlsx_structure_readback FAILED: missing named ranges: " ++ c.strList missingNames ++
      " (actual: " ++ c.strList (c.definedNames wb) ++ ")")
  else none

/-- Step 8, which reads the file only if something is expected. -/
def verifyStructure (bytes : Bytes) (args : Args) : Except String (Option String) :=
  let sheets := args.expectedSheets.getD []
  let names := args.expectedNamedRanges.getD []
  if sheets = [] ∧ names = [] then .ok none
  else (c.load bytes).map fun wb => structureReadback c wb sheets names

/-! ### The trust stack -/

/-- The calls on the audit log. -/
def auditCalls (docHash : String) (applied : List ExcelEdit) : List Call :=
  .logRunStarted docHash "excel_pipeline" ::
    applied.map (fun edit =>
      let place := String.ofList (edit.sheet ++ '!' :: edit.cell)
      .logEdit docHash place ("Excel edit: " ++ place) (c.str edit.oldValue) (c.str edit.newValue)
        (if edit.formula = [] then "direct value" else String.ofList edit.formula)
        (String.ofList edit.rationale)) ++
    [.logRunCompleted docHash applied.length 0 false]

/-- The audit log of a run. -/
def auditLog (key : Bytes) (docHash : String) (applied : List ExcelEdit) : Ed25519AuditLog :=
  Ed25519AuditLog.run c.ed key
    ((auditCalls c docHash applied).mapIdx fun i call => ⟨(c.stamp i).1, (c.stamp i).2, call⟩)

/-- The audit log and the egress report, if there is a key. -/
def emitLogs (privateKey : Option Bytes) (docHash : String) (applied : List ExcelEdit) :
    String × String :=
  match privateKey with
  | none => ("", "")
  | some key =>
    let auditLogJson := (auditLog c key docHash applied).toJson
    (auditLogJson, c.egressReport docHash applied.length auditLogJson)

/-! ### The pipeline -/

/-- Steps 6 to 9, on the recomputed file. -/
def verify (bytes : Bytes) (docHash : String) (applied : List ExcelEdit) (args : Args) :
    Except String ExcelResult := do
  let actual ← readRecomputedValues c bytes
  let mismatches := args.expectedValues.filterMap (mismatch c actual)
  let failure ← verifyStructure c bytes args
  match failure with
  | some error =>
    return { ok := false, error, appliedEdits := applied, recomputedValues := actual,
             independentCalc := args.expectedValues, docHash }
  | none =>
    let logs := emitLogs c args.privateKey docHash applied
    return { ok := mismatches.isEmpty, outputPath := c.resolve args.outputPath, appliedEdits := applied,
             recomputedValues := actual, independentCalc := args.expectedValues,
             recomputeVerified := mismatches.isEmpty, error := "; ".intercalate mismatches,
             auditLogJson := logs.1, egressReportJson := logs.2, docHash }

/-- Steps 4 to 9, on the saved file: the result, and what is at the output path afterwards. -/
def recomputeAndVerify (saved : Bytes) (applied : List ExcelEdit) (args : Args) :
    Except String ExcelResult × Bytes :=
  let docHash := sha256Hex saved
  match c.recompute (c.resolve args.outputPath) saved with
  | .unavailable =>
    (.ok { ok := false, appliedEdits := applied, docHash,
           error := "recompute engine unavailable — install LibreOffice " ++
             "(soffice --headless) to enable xlsx_recompute oracle. " ++
             "Formula values CANNOT be verified without recompute." }, saved)
  | .failed message =>
    (.ok { ok := false, error := "Recompute failed: " ++ message, appliedEdits := applied, docHash }, saved)
  | .file bytes => (verify c bytes docHash applied args, bytes)

/-- The workbook with the edits, and what they were; the input must be there. -/
def editInput (bytes : Bytes) (args : Args) : Except Stop (Bytes × List ExcelEdit) := do
  let wb ← raising (c.load bytes)
  let edited ← args.edits.foldlM (applyEdit c) (wb, [])
  let saved ← raising (c.save edited.1)
  return (saved, edited.2)

/-- `excel_pipeline`, with the files it leaves. -/
def excelPipeline (files : Files) (args : Args) : Except String ExcelResult × Files :=
  match files (c.resolve args.inputPath) with
  | none =>
    (.ok { ok := false,
           error := "Input file not found: " ++ String.ofList (c.resolve args.inputPath) }, files)
  | some bytes =>
    match editInput c bytes args with
    | .error (.raised message) => (.error message, files)
    | .error (.returned error) => (.ok { ok := false, error }, files)
    | .ok (saved, applied) =>
      let outcome := recomputeAndVerify c saved applied args
      (outcome.1, fun path => if path = c.resolve args.outputPath then some outcome.2 else files path)

/-! ### What a run delivers -/

/-- The saved file, before it is recomputed. -/
def savedFile (files : Files) (args : Args) : Option Bytes :=
  (files (c.resolve args.inputPath)).bind fun bytes =>
    match editInput c bytes args with
    | .ok edited => some edited.1
    | .error _ => none

/-- The cell of an expected value holds a finite number within the tolerance. -/
def Matches (actual : Dict Str CellValue) (entry : Str × PyFloat) : Prop :=
  ∃ p q, actual.get? entry.1 = some (.number (.fin p)) ∧ entry.2 = .fin q ∧ |p - q| ≤ tolerance

/-- The file at the output path has the expected values, sheets and names and the reported hash, and so
does every entry of the audit log. -/
structure Delivers (files : Files) (args : Args) (result : ExcelResult) : Prop where
  file : ∃ bytes, files (c.resolve args.outputPath) = some bytes ∧
    result.docHash = sha256Hex bytes ∧
    (∃ actual, readRecomputedValues c bytes = .ok actual ∧
      ∀ entry ∈ args.expectedValues, Matches actual entry) ∧
    (∀ name ∈ args.expectedSheets.getD [], ∃ wb, c.load bytes = .ok wb ∧ name ∈ c.sheetNames wb) ∧
    ∀ name ∈ args.expectedNamedRanges.getD [], ∃ wb, c.load bytes = .ok wb ∧ name ∈ c.definedNames wb
  audit : ∀ key, args.privateKey = some key → ∃ log : Ed25519AuditLog,
    result.auditLogJson = log.toJson ∧ ∀ entry ∈ log.entries, entry.docHash = result.docHash

/-- A number is expected, and what the cell holds is a number, if it holds anything. -/
def IsNumeric (actual : Dict Str CellValue) (entry : Str × PyFloat) : Prop :=
  entry.2.isFinite = true ∧
    ∀ value, actual.get? entry.1 = some value → ∃ x, value = .number x ∧ x ≠ .nan

/-- The recomputed file has the hash of the saved one, and where values are expected it holds numbers. -/
def Reliable (files : Files) (args : Args) : Prop :=
  ∃ saved bytes, savedFile c files args = some saved ∧
    c.recompute (c.resolve args.outputPath) saved = .file bytes ∧ sha256Hex bytes = sha256Hex saved ∧
    ∀ actual, readRecomputedValues c bytes = .ok actual →
      ∀ entry ∈ args.expectedValues, IsNumeric actual entry

/-! ### Steps that succeed -/

variable {c}

lemma mismatch_eq_none {actual : Dict Str CellValue} {entry : Str × PyFloat} :
    mismatch c actual entry = none ↔ ∃ value x, actual.get? entry.1 = some value ∧
      value.toFloat c.u = some x ∧
      PyFloat.lt (.fin tolerance) (magnitude (x.sub entry.2)) = false := by
  rw [mismatch]
  cases hget : actual.get? entry.1 with
  | none => simp
  | some value =>
    cases hfloat : value.toFloat c.u with
    | none => simp [hfloat]
    | some x => simp [hfloat]

/-- Where numbers are compared, the test on the tolerance says that they match. -/
lemma matches_iff {actual : Dict Str CellValue} {entry : Str × PyFloat}
    (h : mismatch c actual entry = none) : Matches actual entry ↔ IsNumeric actual entry := by
  obtain ⟨value, x, hget, hfloat, hclose⟩ := mismatch_eq_none.mp h
  constructor
  · rintro ⟨p, q, hp, hq, -⟩
    refine ⟨by rw [hq]; rfl, fun value' hvalue' => ⟨.fin p, ?_, by simp⟩⟩
    exact Option.some.inj (hvalue'.symm.trans hp)
  · rintro ⟨hfinite, hnumber⟩
    obtain ⟨y, rfl, hnan⟩ := hnumber value hget
    obtain rfl : y = x := Option.some.inj hfloat
    cases hexpected : entry.2 with
    | fin q =>
      rw [hexpected] at hclose
      cases y with
      | fin p =>
        rw [PyFloat.sub_fin, magnitude, PyFloat.lt_fin, decide_eq_false_iff_not, not_lt] at hclose
        exact ⟨p, q, hget, hexpected, hclose⟩
      | inf negative => cases hclose
      | nan => exact absurd rfl hnan
    | inf negative =>
      rw [hexpected] at hfinite
      cases hfinite
    | nan =>
      rw [hexpected] at hfinite
      cases hfinite

lemma structureReadback_eq_none {wb : Workbook} {sheets names : List Str}
    (h : structureReadback c wb sheets names = none) :
    (∀ name ∈ sheets, name ∈ c.sheetNames wb) ∧ ∀ name ∈ names, name ∈ c.definedNames wb := by
  simp only [structureReadback] at h
  split_ifs at h with hsheets hnames
  simp only [ne_eq, not_not, List.filter_eq_nil_iff, decide_eq_true_eq] at hsheets hnames
  exact ⟨hsheets, hnames⟩

lemma verifyStructure_eq_none {bytes : Bytes} {args : Args}
    (h : verifyStructure c bytes args = .ok none) :
    (∀ name ∈ args.expectedSheets.getD [], ∃ wb, c.load bytes = .ok wb ∧ name ∈ c.sheetNames wb) ∧
      ∀ name ∈ args.expectedNamedRanges.getD [],
        ∃ wb, c.load bytes = .ok wb ∧ name ∈ c.definedNames wb := by
  simp only [verifyStructure] at h
  split_ifs at h with hnone
  · rw [hnone.1, hnone.2]
    exact ⟨List.forall_mem_nil _, List.forall_mem_nil _⟩
  · obtain ⟨wb, hload, hwb⟩ := Except.of_map_eq_ok h
    obtain ⟨hsheets, hnames⟩ := structureReadback_eq_none hwb
    exact ⟨fun name hname => ⟨wb, hload, hsheets name hname⟩,
      fun name hname => ⟨wb, hload, hnames name hname⟩⟩

/-- The entries of a log carry the hashes of the calls that made them. -/
lemma map_docHash_run (ed : Ed25519) (key : Bytes) (events : List Event) :
    (Ed25519AuditLog.run ed key events).entries.map Redline.AuditEntry.docHash =
      events.map fun event => event.call.docHash := by
  induction events using List.reverseRecOn with
  | nil => rfl
  | append_singleton events event ih =>
    rw [Ed25519AuditLog.run, List.foldl_append, ← Ed25519AuditLog.run, List.map_append, ← ih]
    exact List.map_append

lemma docHash_auditLog (key : Bytes) (docHash : String) (applied : List ExcelEdit) :
    ∀ entry ∈ (auditLog c key docHash applied).entries, entry.docHash = docHash := by
  intro entry hentry
  have hmem := List.mem_map_of_mem (f := Redline.AuditEntry.docHash) hentry
  rw [auditLog, map_docHash_run, List.mem_map] at hmem
  obtain ⟨event, hevent, hhash⟩ := hmem
  obtain ⟨i, hi, rfl⟩ := List.mem_mapIdx.mp hevent
  have hcalls : ∀ call ∈ auditCalls c docHash applied, call.docHash = docHash := by
    intro call hcall
    simp only [auditCalls, List.mem_append, List.mem_cons, List.mem_map, List.not_mem_nil,
      or_false] at hcall
    rcases hcall with (rfl | ⟨edit, -, rfl⟩) | rfl <;> rfl
  rw [← hhash]
  exact hcalls _ (List.getElem_mem hi)

/-- A run that reports success has verified what it read, and reports the hash it was given. -/
lemma verify_ok {bytes : Bytes} {docHash : String} {applied : List ExcelEdit} {args : Args}
    {result : ExcelResult} (h : verify c bytes docHash applied args = .ok result)
    (hok : result.ok = true) :
    result.docHash = docHash ∧
      (∃ actual, readRecomputedValues c bytes = .ok actual ∧
        ∀ entry ∈ args.expectedValues, mismatch c actual entry = none) ∧
      verifyStructure c bytes args = .ok none ∧
      ∀ key, args.privateKey = some key →
        result.auditLogJson = (auditLog c key docHash applied).toJson := by
  obtain ⟨actual, hactual, h⟩ := Except.of_bind_eq_ok h
  obtain ⟨failure, hfailure, h⟩ := Except.of_bind_eq_ok h
  cases failure with
  | some error =>
    cases h
    cases hok
  | none =>
    cases h
    refine ⟨rfl, ⟨actual, hactual, fun entry hentry => ?_⟩, hfailure, fun key hkey => ?_⟩
    · rw [List.isEmpty_iff, List.filterMap_eq_nil_iff] at hok
      exact hok entry hentry
    · rw [hkey]
      rfl

/-- A run that reports success has replaced the saved file, verified what replaced it, and reports the
hash of the file before. -/
lemma excelPipeline_ok {files files' : Files} {args : Args} {result : ExcelResult}
    (h : excelPipeline c files args = (.ok result, files')) (hok : result.ok = true) :
    ∃ saved applied bytes, savedFile c files args = some saved ∧
      c.recompute (c.resolve args.outputPath) saved = .file bytes ∧
      files' (c.resolve args.outputPath) = some bytes ∧
      verify c bytes (sha256Hex saved) applied args = .ok result := by
  simp only [excelPipeline] at h
  cases hinput : files (c.resolve args.inputPath) with
  | none =>
    rw [hinput] at h
    cases h
    cases hok
  | some input =>
    rw [hinput] at h
    cases hedit : editInput c input args with
    | error stop =>
      cases stop with
      | returned error =>
        simp only [hedit] at h
        cases h
        cases hok
      | raised message =>
        simp only [hedit] at h
        cases h
    | ok edited =>
      obtain ⟨saved, applied⟩ := edited
      simp only [hedit, recomputeAndVerify] at h
      cases hrecompute : c.recompute (c.resolve args.outputPath) saved with
      | unavailable =>
        rw [hrecompute] at h
        cases h
        cases hok
      | failed message =>
        rw [hrecompute] at h
        cases h
        cases hok
      | file bytes =>
        rw [hrecompute] at h
        obtain ⟨hverify, rfl⟩ := Prod.mk.inj h
        exact ⟨saved, applied, bytes, by simp [savedFile, hinput, hedit], hrecompute, if_pos rfl, hverify⟩

namespace Sample

/-- Workbooks with one cell and nothing to edit, which LibreOffice turns into a file. -/
def setting (value : CellValue) (recomputed : Bytes) : Setting Bytes where
  u := asciiData
  str _ := ""
  strList _ := ""
  resolve path := path
  load := .ok
  sheetNames _ := ["S".toList]
  definedNames _ := []
  cell _ _ _ := .ok .empty
  setCell wb _ _ _ := .ok wb
  save := .ok
  loadValues _ := .ok [("S".toList, [("A1".toList, value)])]
  recompute _ _ := .file recomputed
  ed := .transparent
  egressReport _ _ _ := ""
  stamp _ := ("", "")

def files : Files := fun path => if path = "in.xlsx".toList then some [0] else none

def args : Args where
  inputPath := "in.xlsx".toList
  outputPath := "out.xlsx".toList
  edits := []
  expectedValues := [("S!A1".toList, .fin 5)]

end Sample

end AxiomGrid.Kairo.Excel

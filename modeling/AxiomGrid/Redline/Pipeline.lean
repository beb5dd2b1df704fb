import AxiomGrid.Redline.AuditLog
import AxiomGrid.Redline.Recorded

/-!
# The redline pipeline

`redline_contract` of `kairo/oracles/legal_redline_pipeline.py`, from the loaded playbook and the
contract on. The injection scan and the zero-egress report are parameters: their results are
reported, and nothing else depends on them.
-/

namespace AxiomGrid.Redline

/-- An entry of the playbook's `clauses`; `none` is a key that is missing. -/
structure PlaybookClause where
  clauseId : Option String
  clauseLabel : Option String
  matchText : Option String
  replacementText : Option String
  citation : Option String
  rationale : Option String
  deriving DecidableEq

structure AppliedEdit where
  clauseId : String
  clauseLabel : String
  oldText : String
  newText : String
  citation : String
  rationale : String
  deriving DecidableEq

structure FlaggedClause where
  clauseId : String
  clauseLabel : String
  reason : String
  deriving DecidableEq

namespace PlaybookClause

variable (c : PlaybookClause)

/-- `clause.get("clause_id", "")`. -/
def id : String := c.clauseId.getD ""

/-- `clause.get("clause_label", clause_id)`. -/
def label : String := c.clauseLabel.getD c.id

/-- `clause.get("match_text", "")`. -/
def target : String := c.matchText.getD ""

/-- The edit handed to the writer. -/
def edit : Edit := ⟨c.target.toList, some (c.replacementText.getD "").toList⟩

def appliedEdit : AppliedEdit where
  clauseId := c.id
  clauseLabel := c.label
  oldText := c.target
  newText := c.replacementText.getD ""
  citation := c.citation.getD ""
  rationale := c.rationale.getD ""

/-- The flag of a clause whose text is not in the contract. -/
def notFound : FlaggedClause where
  clauseId := c.id
  clauseLabel := c.label
  reason := "Target text not found in contract: '" ++ String.ofList (c.target.toList.take 60) ++ "...'"

/-- The flag of a clause the writer did not place; here a missing label is empty. -/
def notLocated : FlaggedClause where
  clauseId := c.id
  clauseLabel := c.clauseLabel.getD ""
  reason := "Writer could not locate target text in document paragraphs"

end PlaybookClause

/-- The result of `_scan_for_injection`. -/
structure InjectionScan where
  detected : Bool
  score : FloatRepr
  patterns : List String

structure RedlineResult where
  ok : Bool
  outputPath : String
  appliedEdits : List AppliedEdit
  flaggedClauses : List FlaggedClause
  injection : InjectionScan
  error : String
  auditLogJson : String
  egressReportJson : String
  docHash : String

/-- `_find_clause_in_text(contract_text, match_text) is not None`. -/
def findClauseInText (nfc : Nfc) (contractText matchText : Str) : Bool :=
  matchText ≠ [] && Str.contains (norm nfc matchText) (norm nfc contractText)

/-- The setting of a run: what the pipeline calls and does not implement, and its arguments. -/
structure Setting where
  nfc : Nfc
  ed : Ed25519
  scan : Str → InjectionScan
  /-- The text of the zero-egress report for the hash of the document, the playbook, the numbers of
  edits and flags, the scan and the audit log. -/
  egressReport : String → String → ℕ → ℕ → Bool → String → String
  author : Str
  date : Str
  outputPath : String
  privateKey : Option Bytes
  /-- The identifier and the time of each entry of the audit log. -/
  stamp : ℕ → String × String

section Pipeline

variable (s : Setting) (playbookId : Option String) (clauses : List PlaybookClause)

/-- `_extract_docx_text`. -/
def extractDocxText (contract : Document) : Str := Str.joinLines (contract.map Paragraph.text)

/-- The clauses that are found in the contract, in the order of the playbook. -/
def matched (contract : Document) : List PlaybookClause :=
  clauses.filter fun c => findClauseInText s.nfc (extractDocxText contract) c.target.toList

def unmatched (contract : Document) : List PlaybookClause :=
  clauses.filter fun c => !findClauseInText s.nfc (extractDocxText contract) c.target.toList

/-- The calls on the audit log. -/
def auditCalls (docHash : String) (applied : List AppliedEdit) (flagged : List FlaggedClause)
    (totalEdits : ℕ) (injectionDetected : Bool) : List Call :=
  .logRunStarted docHash (playbookId.getD "unknown") ::
    applied.map (fun e => .logEdit docHash e.clauseId e.clauseLabel e.oldText e.newText e.citation
      e.rationale) ++
    flagged.map (fun f => .logFlag docHash f.clauseId f.clauseLabel f.reason) ++
    [.logRunCompleted docHash totalEdits flagged.length injectionDetected]

/-- The calls with the identifiers and times of their entries. -/
def stamped (calls : List Call) : List Event :=
  calls.mapIdx fun i call => ⟨(s.stamp i).1, (s.stamp i).2, call⟩

/-- `redline_contract`, with the document it saves. -/
def redlineContract (contract : Document) : RedlineResult × Option Document :=
  let contractText := extractDocxText contract
  let docHash := sha256Hex (utf8 (String.ofList contractText))
  let injection := s.scan contractText
  let applied := (matched s clauses contract).map PlaybookClause.appliedEdit
  let edits := (matched s clauses contract).map PlaybookClause.edit
  let flagged := (unmatched s clauses contract).map PlaybookClause.notFound
  if edits = [] then
    (⟨false, "", [], flagged, injection, "No playbook clauses matched the contract text", "", "", ""⟩,
      none)
  else
    match pythonDocxTrackedFallback s.author s.date contract edits with
    | .error e =>
      (⟨false, "", [], [], injection, "Tracked-changes writer failed: " ++ e, "", "", ""⟩, none)
    | .ok (out, appliedCount) =>
      -- the flags go to the clauses at the positions of the last edits
      let flagged := flagged ++
        ((clauses.take edits.length).drop appliedCount).map PlaybookClause.notLocated
      let applied := applied.take appliedCount
      let logs := match s.privateKey with
        | none => ("", "")
        | some key =>
          let events := stamped s
            (auditCalls playbookId docHash applied flagged appliedCount injection.detected)
          let auditLogJson := (Ed25519AuditLog.run s.ed key events).toJson
          (auditLogJson, s.egressReport docHash (playbookId.getD "unknown") appliedCount
            flagged.length injection.detected auditLogJson)
      (⟨true, s.outputPath, applied, flagged, injection, "", logs.1, logs.2, docHash⟩, some out)

end Pipeline

/-! ### The reported partition -/

/-- The elements whose flag is set. -/
def select {α : Type} (xs : List α) (flags : List Bool) : List α :=
  ((xs.zip flags).filter fun p => p.2).map fun p => p.1

section Partition

variable (s : Setting) (playbookId : Option String) (clauses : List PlaybookClause)
  (contract out : Document)

/-- For each matched clause whether the written document holds its deletion. -/
def clauseFlags : List Bool :=
  recordedFlags s.author s.date contract ((matched s clauses contract).map PlaybookClause.edit) out

/-- The clauses whose change the written document records. -/
def recordedClauses : List PlaybookClause :=
  select (matched s clauses contract) (clauseFlags s clauses contract out)

/-- The other clauses of the playbook. -/
def remainingClauses : List PlaybookClause :=
  unmatched s clauses contract ++
    select (matched s clauses contract) ((clauseFlags s clauses contract out).map (!·))

/-- The result lists the clauses the document records as applied and the others as flagged, each
clause once, and the audit log records both lists. -/
structure Accounts (result : RedlineResult) : Prop where
  applied : result.appliedEdits =
    (recordedClauses s clauses contract out).map PlaybookClause.appliedEdit
  flagged : (result.flaggedClauses.map FlaggedClause.clauseId).Perm
    ((remainingClauses s clauses contract out).map PlaybookClause.id)
  once : (result.appliedEdits.map AppliedEdit.clauseId ++
    result.flaggedClauses.map FlaggedClause.clauseId).Perm (clauses.map PlaybookClause.id)
  log : ∀ key, s.privateKey = some key → ∃ events totalEdits injectionDetected,
    result.auditLogJson = (Ed25519AuditLog.run s.ed key events).toJson ∧
    events.map Event.call = auditCalls playbookId result.docHash result.appliedEdits
      result.flaggedClauses totalEdits injectionDetected

/-- For each matched clause the paragraph its edit hits. -/
def clauseHits : List (Option ℕ) :=
  hits (contract.map Paragraph.text) ((matched s clauses contract).map PlaybookClause.edit)

/-- When the report is right: no two edits hit the same paragraph, the edits that hit one come
before those that do not, and the clauses at the positions of the latter carry their identifiers. -/
structure Aligned : Prop where
  nodup : (clauseHits s clauses contract).reduceOption.Nodup
  first : ((matched s clauses contract).take
      (clauseHits s clauses contract).reduceOption.length).map PlaybookClause.appliedEdit =
    (select (matched s clauses contract)
      ((clauseHits s clauses contract).map Option.isSome)).map PlaybookClause.appliedEdit
  ids : (((clauses.take (matched s clauses contract).length).drop
      (clauseHits s clauses contract).reduceOption.length).map PlaybookClause.id).Perm
    ((select (matched s clauses contract)
      ((clauseHits s clauses contract).map Option.isNone)).map PlaybookClause.id)

end Partition

lemma length_select {α : Type} (xs : List α) (flags : List Bool) (h : xs.length = flags.length) :
    (select xs flags).length = flags.count true := by
  induction xs generalizing flags with
  | nil =>
    obtain rfl := List.length_eq_zero_iff.mp h.symm
    rfl
  | cons x xs ih =>
    cases flags with
    | nil => simp at h
    | cons b flags =>
      have hrest := ih flags (by simpa using h)
      cases b <;> simpa [select] using hrest

/-- An element is selected by the flags or by their negations. -/
lemma select_append_perm {α : Type} (xs : List α) (flags : List Bool)
    (h : xs.length = flags.length) : (select xs flags ++ select xs (flags.map (!·))).Perm xs := by
  induction xs generalizing flags with
  | nil =>
    obtain rfl := List.length_eq_zero_iff.mp h.symm
    exact .nil
  | cons x xs ih =>
    cases flags with
    | nil => simp at h
    | cons b flags =>
      have hrest := ih flags (by simpa using h)
      cases b with
      | true => exact hrest.cons x
      | false => exact List.perm_middle.trans (hrest.cons x)

section Accounts

variable {s : Setting} {playbookId : Option String} {clauses : List PlaybookClause}
  {contract out : Document} {result : RedlineResult}

/-- What a run that succeeds reports. -/
lemma redlineContract_eq {saved : Option Document}
    (h : redlineContract s playbookId clauses contract = (result, saved)) (hok : result.ok = true) :
    ∃ out n, saved = some out ∧
      pythonDocxTrackedFallback s.author s.date contract
        ((matched s clauses contract).map PlaybookClause.edit) = .ok (out, n) ∧
      result.appliedEdits = ((matched s clauses contract).take n).map PlaybookClause.appliedEdit ∧
      result.flaggedClauses = (unmatched s clauses contract).map PlaybookClause.notFound ++
        ((clauses.take (matched s clauses contract).length).drop n).map PlaybookClause.notLocated ∧
      ∀ key, s.privateKey = some key → ∃ injectionDetected,
        result.auditLogJson = (Ed25519AuditLog.run s.ed key (stamped s (auditCalls playbookId
          result.docHash result.appliedEdits result.flaggedClauses n injectionDetected))).toJson := by
  simp only [redlineContract] at h
  split_ifs at h with hedits
  · obtain ⟨rfl, rfl⟩ := Prod.mk.inj h
    cases hok
  · split at h
    · obtain ⟨rfl, rfl⟩ := Prod.mk.inj h
      cases hok
    · rename_i out n hwriter
      obtain ⟨rfl, rfl⟩ := Prod.mk.inj h
      refine ⟨out, n, rfl, hwriter, (List.map_take ..).symm, by rw [List.length_map], ?_⟩
      intro key hkey
      refine ⟨(s.scan (extractDocxText contract)).detected, ?_⟩
      simp only [hkey]

lemma map_call_stamped (calls : List Call) : (stamped s calls).map Event.call = calls := by
  apply List.ext_getElem?
  intro i
  rw [stamped, List.getElem?_map, List.getElem?_mapIdx, Option.map_map]
  exact Option.map_id' ..

lemma length_clauseFlags :
    (matched s clauses contract).length = (clauseFlags s clauses contract out).length := by
  simp [clauseFlags, recordedFlags]

/-- Each clause is recorded or remains. -/
lemma recordedClauses_append_perm :
    (recordedClauses s clauses contract out ++ remainingClauses s clauses contract out).Perm
      clauses := by
  have hsplit : (matched s clauses contract ++ unmatched s clauses contract).Perm clauses :=
    List.filter_append_perm _ clauses
  have hselect := select_append_perm (matched s clauses contract)
    (clauseFlags s clauses contract out) length_clauseFlags
  refine List.Perm.trans ?_ hsplit
  rw [recordedClauses, remainingClauses]
  refine ((List.perm_append_comm.append_left _).trans ?_)
  rw [← List.append_assoc]
  exact hselect.append_right _

/-- A document of texts is that of the texts as they are read back. -/
lemma ofTexts_map_text (texts : List Str) :
    Document.ofTexts ((Document.ofTexts texts).map Paragraph.text) = Document.ofTexts texts ∧
      ∀ text ∈ (Document.ofTexts texts).map Paragraph.text, '\r' ∉ text := by
  have hcr : ∀ text : Str, '\r' ∉ Paragraph.text [addRun text] := by
    intro text hmem
    simp only [Paragraph.text, List.flatMap_cons, List.flatMap_nil, List.append_nil, addRun,
      Paragraph.nodeText, List.mem_map] at hmem
    obtain ⟨c, -, hc⟩ := hmem
    split_ifs at hc with hcr
    · exact absurd hc (by decide)
    · exact hcr hc
  constructor
  · rw [Document.ofTexts, Document.ofTexts, List.map_map, List.map_map]
    apply List.map_congr_left
    intro text _
    show [addRun (Paragraph.text [addRun text])] = [addRun text]
    rw [addRun_of_no_cr (hcr text)]
    simp [Paragraph.text, Paragraph.nodeText, addRun]
  · intro text htext
    rw [Document.ofTexts, List.map_map] at htext
    obtain ⟨t, -, rfl⟩ := List.mem_map.mp htext
    exact hcr t

/-- The clauses of a report that lists as many as it should are those whose edits hit a
paragraph. -/
lemma accounts_iff_aligned {n : ℕ} {lines : List Str}
    (hdoc : Document.ofTexts lines = contract) (hlines : contract.map Paragraph.text = lines)
    (hcr : ∀ text ∈ lines, '\r' ∉ text)
    (hwriter : pythonDocxTrackedFallback s.author s.date contract
      ((matched s clauses contract).map PlaybookClause.edit) = .ok (out, n))
    (happlied : result.appliedEdits =
      ((matched s clauses contract).take n).map PlaybookClause.appliedEdit)
    (hflagged : result.flaggedClauses = (unmatched s clauses contract).map PlaybookClause.notFound ++
      ((clauses.take (matched s clauses contract).length).drop n).map PlaybookClause.notLocated) :
    result.appliedEdits = (recordedClauses s clauses contract out).map PlaybookClause.appliedEdit ∧
        (result.flaggedClauses.map FlaggedClause.clauseId).Perm
          ((remainingClauses s clauses contract out).map PlaybookClause.id) ↔
      Aligned s clauses contract := by
  subst hdoc
  have hflags : clauseFlags s clauses (Document.ofTexts lines) out =
      recordedFlags s.author s.date (Document.ofTexts lines)
        ((matched s clauses (Document.ofTexts lines)).map PlaybookClause.edit) out := rfl
  have hhits : clauseHits s clauses (Document.ofTexts lines) =
      hits lines ((matched s clauses (Document.ofTexts lines)).map PlaybookClause.edit) := by
    rw [clauseHits, hlines]
  have hn := hits_length_eq hcr hwriter
  have hcount := count_recordedFlags_eq_iff hcr hwriter
  have hnodup := recordedFlags_of_nodup hcr hwriter
  rw [← hhits] at hn hcount hnodup
  rw [← hflags] at hcount hnodup
  have hle : n ≤ (matched s clauses (Document.ofTexts lines)).length := by
    rw [hn, hhits, ← List.length_map PlaybookClause.edit, ← length_hits lines]
    exact List.reduceOption_length_le _
  -- the identifiers of the flags are those of the unmatched clauses and of the last ones
  have hids : result.flaggedClauses.map FlaggedClause.clauseId =
      (unmatched s clauses (Document.ofTexts lines)).map PlaybookClause.id ++
        ((clauses.take (matched s clauses (Document.ofTexts lines)).length).drop n).map
          PlaybookClause.id := by
    rw [hflagged, List.map_append, List.map_map, List.map_map]
    rfl
  have hnot : ((clauseHits s clauses (Document.ofTexts lines)).map Option.isSome).map (!·) =
      (clauseHits s clauses (Document.ofTexts lines)).map Option.isNone := by
    rw [List.map_map]
    apply List.map_congr_left
    intro h _
    cases h <;> rfl
  rw [happlied, hids, remainingClauses, List.map_append, List.perm_append_left_iff, recordedClauses]
  constructor
  · rintro ⟨hfirst, hperm⟩
    have hlen := congrArg List.length hfirst
    rw [List.length_map, List.length_take, min_eq_left hle, List.length_map,
      length_select _ _ length_clauseFlags] at hlen
    have hnd := hcount.mp hlen.symm
    rw [hnodup hnd] at hfirst hperm
    rw [hnot] at hperm
    exact ⟨hnd, hn ▸ hfirst, hn ▸ hperm⟩
  · rintro ⟨hnd, hfirst, hperm⟩
    rw [hnodup hnd, hnot]
    exact ⟨hn ▸ hfirst, hn ▸ hperm⟩

end Accounts

namespace Sample

def setting : Setting where
  nfc := .ofNormalised
  ed := .transparent
  scan _ := ⟨false, ⟨['0', '.', '0'], rfl⟩, []⟩
  egressReport _ _ _ _ _ _ := ""
  author := ['K']
  date := []
  outputPath := "out.docx"
  privateKey := some (List.replicate 32 7)
  stamp _ := ("", "")

def clause (id target : String) : PlaybookClause :=
  ⟨some id, none, some target, some "z", none, none⟩

/-- The two clauses of a playbook, the first of which is found only across two paragraphs. -/
def across : PlaybookClause := clause "A" "x y"

def within : PlaybookClause := clause "B" "y"

end Sample

end AxiomGrid.Redline

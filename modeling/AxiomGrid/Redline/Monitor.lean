import AxiomGrid.Lib.Dict
import AxiomGrid.Lib.FileSystem
import AxiomGrid.Redline.Pipeline

/-!
# The reference monitor

`kairo/security/reference_monitor.py`: a fixed policy that grants or denies the privileged actions of
the redline pipeline. Edits are granted against the playbook, which the monitor compiles into a
dictionary keyed by the identifiers of the clauses.

A later clause takes the place of an earlier one with the same identifier, so the edit of the earlier
one is denied as tampered if its texts are others.
-/

namespace AxiomGrid.Redline

/-- `TaintLabel`. -/
inductive TaintLabel where
  | trusted
  | untrusted
  deriving DecidableEq

/-- `Capability`. -/
inductive Capability where
  | applyEdit
  | fileWrite
  | processExec
  | networkConnect
  | auditLog
  deriving DecidableEq

/-- `ActionRequest`. -/
structure ActionRequest where
  capability : Capability
  sourceTaint : TaintLabel
  details : Dict String String
  authorizedEdit : Option PlaybookClause

/-- `Decision`. -/
structure Decision where
  granted : Bool
  reason : String
  deriving DecidableEq

/-- An entry of `_granted_actions`. -/
structure GrantedAction where
  capability : Capability
  sourceTaint : TaintLabel
  reason : String

/-- An entry of `_denied_actions`. -/
structure DeniedAction extends GrantedAction where
  details : Dict String String

/-- `ReferenceMonitor`. -/
structure ReferenceMonitor where
  authorizedEdits : Dict String PlaybookClause
  outputDir : FilePath
  enabled : Bool
  deniedActions : List DeniedAction
  grantedActions : List GrantedAction

namespace PlaybookClause

/-- `clause.get("replacement_text", "")`. -/
def replacement (c : PlaybookClause) : String := c.replacementText.getD ""

end PlaybookClause

/-- The loop over the playbook in `ReferenceMonitor.__init__`. -/
def compileEdits (playbook : List PlaybookClause) : Dict String PlaybookClause :=
  playbook.foldl (fun edits edit => if edit.id ≠ "" then edits.set edit.id edit else edits) []

namespace ReferenceMonitor

/-- `ReferenceMonitor.__init__`; the output directory is resolved. -/
def init (playbook : List PlaybookClause) (outputDir : FilePath) (monitorEnabled : Bool) :
    ReferenceMonitor :=
  ⟨compileEdits playbook, outputDir, monitorEnabled, [], []⟩

section

variable (fs : FileSystem) (m : ReferenceMonitor) (request : ActionRequest)

/-- `_check_apply_edit`. -/
def checkApplyEdit : Decision :=
  match request.authorizedEdit with
  | none => ⟨false, "No authorized edit provided — edit not from playbook"⟩
  | some edit =>
    match m.authorizedEdits.get? edit.id with
    | none =>
      ⟨false, "Edit '" ++ edit.id ++ "' is not in the authorized playbook set — injected edit blocked"⟩
    | some authorized =>
      if edit.target ≠ authorized.target then
        ⟨false, "Edit '" ++ edit.id ++ "' match_text does not match playbook — tampered edit blocked"⟩
      else if edit.replacement ≠ authorized.replacement then
        ⟨false, "Edit '" ++ edit.id ++
          "' replacement_text does not match playbook — tampered edit blocked"⟩
      else ⟨true, "Edit '" ++ edit.id ++ "' is authorized by playbook"⟩

/-- The text of an absolute path. -/
def pathText (path : FilePath) : String := "/" ++ String.intercalate "/" path

/-- `_check_file_write`; `none` is the exception of `resolve`. -/
def checkFileWrite : Option Decision :=
  let path := (request.details.get? "path").getD ""
  if path = "" then some ⟨false, "No path provided for file write"⟩
  else do
    let resolved ← fs.resolve (RawPath.parse path)
    if m.outputDir.isPrefixOf resolved then
      some ⟨true, "File write within output dir: " ++ pathText resolved⟩
    else
      some ⟨false, "File write outside output directory blocked: " ++ pathText resolved ++
        " is not within " ++ pathText m.outputDir⟩

/-- `_check_audit_log`. -/
def checkAuditLog : Decision :=
  if request.sourceTaint = .untrusted then
    ⟨false, "Audit log entry from UNTRUSTED source blocked — " ++
      "tainted content cannot write to the audit log"⟩
  else ⟨true, "Audit log entry from trusted source"⟩

/-- The decision of an enabled monitor. -/
def policy : Option Decision :=
  match request.capability with
  | .applyEdit => some (m.checkApplyEdit request)
  | .fileWrite => checkFileWrite fs m request
  | .processExec => some ⟨false, "Process execution is not allowed in the redline pipeline"⟩
  | .networkConnect =>
    some ⟨false, "Network connections are not allowed in the redline pipeline " ++
      "(sealed mode enforces this at the socket level too)"⟩
  | .auditLog => some (checkAuditLog request)

/-- `_grant` and `_deny`: what is kept of a decision. -/
def record (decision : Decision) : ReferenceMonitor :=
  let action : GrantedAction := ⟨request.capability, request.sourceTaint, decision.reason⟩
  if decision.granted then { m with grantedActions := m.grantedActions ++ [action] }
  else { m with deniedActions := m.deniedActions ++ [⟨action, request.details⟩] }

/-- `check`. -/
def check : Option (Decision × ReferenceMonitor) :=
  if m.enabled then (m.policy fs request).map fun decision => (decision, m.record request decision)
  else
    some (⟨true, "monitor disabled"⟩,
      m.record request ⟨true, "monitor disabled (kill-proof mode)"⟩)

/-- The monitor behind some requests; one that raises leaves it as it is. -/
def after (requests : List ActionRequest) : ReferenceMonitor :=
  requests.foldl (fun m request => ((m.check fs request).map Prod.snd).getD m) m

/-- The request is granted. -/
def Grants : Prop := ∃ reason m', m.check fs request = some (⟨true, reason⟩, m')

end

end ReferenceMonitor

/-- The request to apply an edit of the playbook. -/
def applyRequest (taint : TaintLabel) (edit : PlaybookClause) : ActionRequest :=
  ⟨.applyEdit, taint, [], some edit⟩

/-- The clause that is submitted for an applied edit. -/
def AppliedEdit.submitted (edit : AppliedEdit) : PlaybookClause :=
  ⟨some edit.clauseId, none, some edit.oldText, some edit.newText, none, none⟩

/-- The loop of the post-run check: each applied edit is submitted to the monitor, which is enabled,
and a denial raises. -/
def checkApplied (m : ReferenceMonitor) : List AppliedEdit → Except String ReferenceMonitor
  | [] => .ok m
  | edit :: edits =>
    let request := applyRequest .trusted edit.submitted
    let decision := m.checkApplyEdit request
    if decision.granted then checkApplied (m.record request decision) edits
    else .error ("Post-run check failed: applied edit '" ++ edit.clauseId ++
      "' was not authorized by the playbook. Reason: " ++ decision.reason)

/-- The identifiers of applied edits that are not in the playbook. -/
def extraIds (clauses : List PlaybookClause) (edits : List AppliedEdit) : List String :=
  (edits.map AppliedEdit.clauseId).filter fun id => id ∉ clauses.map PlaybookClause.id

/-- `redline_contract_with_monitor`. -/
def redlineContractWithMonitor (s : Setting) (playbookId : Option String)
    (clauses : List PlaybookClause) (contract : Document) (outputDir : FilePath)
    (monitorEnabled : Bool) : Except String (RedlineResult × ReferenceMonitor) :=
  let monitor := ReferenceMonitor.init clauses outputDir monitorEnabled
  let result := (redlineContract s playbookId clauses contract).1
  if result.ok && monitorEnabled then do
    let monitor ← checkApplied monitor result.appliedEdits
    let extra := extraIds clauses result.appliedEdits
    if extra ≠ [] then
      .error ("Injected edits detected: " ++ String.intercalate ", " extra ++
        " — these are not in the playbook. The reference monitor should have blocked them.")
    else .ok (result, monitor)
  else .ok (result, monitor)

/-! ### What the monitor compares with -/

/-- The clause of the playbook that the dictionary holds for an identifier: the last one. -/
def lastWithId (playbook : List PlaybookClause) (id : String) : Option PlaybookClause :=
  (playbook.filter fun c => c.id = id).getLast?

lemma get?_compileEdits (playbook : List PlaybookClause) (id : String) :
    (compileEdits playbook).get? id = if id = "" then none else lastWithId playbook id := by
  induction playbook using List.reverseRecOn with
  | nil => simp [compileEdits, lastWithId, Dict.get?]
  | append_singleton playbook c ih =>
    rw [compileEdits, List.foldl_append, List.foldl_cons, List.foldl_nil, ← compileEdits, lastWithId,
      List.filter_append]
    by_cases hid : c.id = id
    · subst hid
      by_cases hempty : c.id = ""
      · rw [if_neg (not_not.mpr hempty), ih, if_pos hempty, if_pos hempty]
      · rw [if_pos hempty, Dict.get?_set, if_pos rfl, if_neg hempty]
        simp
    · have hlast : (playbook.filter (fun d => d.id = id) ++ [c].filter fun d => d.id = id).getLast? =
          lastWithId playbook id := by
        simp [hid, lastWithId]
      rw [hlast, ← ih]
      split_ifs with hempty
      · rw [Dict.get?_set, if_neg hid]
      · rfl

/-- Two clauses with the same texts. -/
def PlaybookClause.SameTexts (c d : PlaybookClause) : Prop :=
  c.target = d.target ∧ c.replacement = d.replacement

/-- Some clause of the playbook has the identifier, which is not empty, and the texts of the edit. -/
def Authorizes (playbook : List PlaybookClause) (edit : PlaybookClause) : Prop :=
  edit.id ≠ "" ∧ ∃ c ∈ playbook, c.id = edit.id ∧ c.SameTexts edit

/-- The last clause with the identifier of the edit has its texts. -/
def LastAgrees (playbook : List PlaybookClause) (edit : PlaybookClause) : Prop :=
  ∃ c, lastWithId playbook edit.id = some c ∧ c.SameTexts edit

namespace ReferenceMonitor

variable {fs : FileSystem} {m : ReferenceMonitor}

lemma check_authorizedEdits {request : ActionRequest} {decision : Decision} {m' : ReferenceMonitor}
    (h : m.check fs request = some (decision, m')) :
    m'.authorizedEdits = m.authorizedEdits ∧ m'.enabled = m.enabled := by
  have hrecord (d : Decision) : (m.record request d).authorizedEdits = m.authorizedEdits ∧
      (m.record request d).enabled = m.enabled := by
    rw [record]
    split_ifs <;> exact ⟨rfl, rfl⟩
  rw [check] at h
  split_ifs at h with henabled
  · obtain ⟨d, -, hd⟩ := Option.map_eq_some_iff.mp h
    cases hd
    exact hrecord decision
  · cases h
    exact hrecord _

/-- No request changes what is authorized. -/
lemma after_authorizedEdits (requests : List ActionRequest) :
    (m.after fs requests).authorizedEdits = m.authorizedEdits ∧
      (m.after fs requests).enabled = m.enabled := by
  induction requests using List.reverseRecOn with
  | nil => exact ⟨rfl, rfl⟩
  | append_singleton requests request ih =>
    rw [after, List.foldl_append, List.foldl_cons, List.foldl_nil, ← after]
    cases hcheck : (m.after fs requests).check fs request with
    | none => exact ih
    | some result =>
      obtain ⟨hedits, henabled⟩ := check_authorizedEdits hcheck
      exact ⟨hedits.trans ih.1, henabled.trans ih.2⟩

lemma checkApplyEdit_granted_iff {request : ActionRequest} {edit : PlaybookClause}
    (hedit : request.authorizedEdit = some edit) :
    (m.checkApplyEdit request).granted = true ↔
      ∃ c, m.authorizedEdits.get? edit.id = some c ∧ c.SameTexts edit := by
  rw [checkApplyEdit, hedit]
  cases hget : m.authorizedEdits.get? edit.id with
  | none => simp [hget]
  | some c =>
    simp only [hget, Option.some.injEq, exists_eq_left', PlaybookClause.SameTexts]
    split_ifs with htarget hreplacement
    · simp [Ne.symm htarget]
    · simp [Ne.symm hreplacement]
    · simp [not_not.mp htarget, not_not.mp hreplacement]

lemma grants_iff_granted (henabled : m.enabled = true) {request : ActionRequest}
    (hcapability : request.capability = .applyEdit) :
    m.Grants fs request ↔ (m.checkApplyEdit request).granted = true := by
  have hpolicy : m.policy fs request = some (m.checkApplyEdit request) := by
    rw [policy, hcapability]
  rw [Grants, check, if_pos henabled, hpolicy, Option.map_some]
  constructor
  · rintro ⟨reason, m', h⟩
    simp only [Option.some.injEq, Prod.mk.injEq] at h
    rw [h.1]
  · intro h
    refine ⟨(m.checkApplyEdit request).reason, m.record request (m.checkApplyEdit request), ?_⟩
    rw [← h]

/-- An edit is granted if the last clause with its identifier has its texts. -/
lemma grants_applyEdit_iff {playbook : List PlaybookClause} {outputDir : FilePath}
    {earlier : List ActionRequest} {request : ActionRequest} {edit : PlaybookClause}
    (hcapability : request.capability = .applyEdit) (hedit : request.authorizedEdit = some edit) :
    ((init playbook outputDir true).after fs earlier).Grants fs request ↔
      edit.id ≠ "" ∧ LastAgrees playbook edit := by
  obtain ⟨hedits, henabled⟩ : ((init playbook outputDir true).after fs earlier).authorizedEdits =
      (init playbook outputDir true).authorizedEdits ∧
      ((init playbook outputDir true).after fs earlier).enabled = true := after_authorizedEdits earlier
  have hget : (init playbook outputDir true).authorizedEdits.get? edit.id = _ :=
    get?_compileEdits playbook edit.id
  rw [grants_iff_granted henabled hcapability, checkApplyEdit_granted_iff hedit, hedits, hget,
    LastAgrees]
  split_ifs with hempty <;> simp [hempty]

/-- A request without an edit is denied. -/
lemma not_grants_of_none {playbook : List PlaybookClause} {outputDir : FilePath}
    {earlier : List ActionRequest} {request : ActionRequest}
    (hcapability : request.capability = .applyEdit) (hedit : request.authorizedEdit = none) :
    ¬((init playbook outputDir true).after fs earlier).Grants fs request := by
  have henabled : ((init playbook outputDir true).after fs earlier).enabled = true :=
    (after_authorizedEdits earlier).2
  rw [grants_iff_granted henabled hcapability, checkApplyEdit, hedit]
  exact Bool.false_ne_true

end ReferenceMonitor

/-! ### Grants and the playbook -/

/-- The request carries an edit of the playbook. -/
def RequestAuthorized (playbook : List PlaybookClause) (request : ActionRequest) : Prop :=
  ∃ edit, request.authorizedEdit = some edit ∧ Authorizes playbook edit

/-- Clauses with the same identifier, if it is not empty, have the same texts. -/
def ConsistentIds (playbook : List PlaybookClause) : Prop :=
  ∀ c ∈ playbook, ∀ d ∈ playbook, c.id ≠ "" → c.id = d.id → c.SameTexts d

lemma lastWithId_of_mem {playbook : List PlaybookClause} {c : PlaybookClause} (hc : c ∈ playbook) :
    ∃ last ∈ playbook, lastWithId playbook c.id = some last ∧ last.id = c.id := by
  have hmem : c ∈ playbook.filter fun d => d.id = c.id := by
    simpa using hc
  have hne := List.ne_nil_of_mem hmem
  have hlast := List.getLast_mem hne
  rw [List.mem_filter, decide_eq_true_eq] at hlast
  exact ⟨_, hlast.1, List.getLast?_eq_some_getLast hne, hlast.2⟩

/-- What the monitor grants is in the playbook. -/
lemma authorizes_of_lastAgrees {playbook : List PlaybookClause} {edit : PlaybookClause}
    (hid : edit.id ≠ "") (h : LastAgrees playbook edit) : Authorizes playbook edit := by
  obtain ⟨c, hlast, htexts⟩ := h
  have hmem := List.mem_of_getLast? hlast
  rw [List.mem_filter, decide_eq_true_eq] at hmem
  exact ⟨hid, c, hmem.1, hmem.2, htexts⟩

lemma consistentIds_iff {playbook : List PlaybookClause} :
    ConsistentIds playbook ↔ ∀ edit, Authorizes playbook edit → LastAgrees playbook edit := by
  constructor
  · rintro h edit ⟨hid, c, hc, hcid, htexts⟩
    obtain ⟨last, hmem, hlast, hlastid⟩ := lastWithId_of_mem hc
    have hsame := h last hmem c hc (by rwa [hlastid, hcid]) hlastid
    rw [hcid] at hlast
    exact ⟨last, hlast, hsame.1.trans htexts.1, hsame.2.trans htexts.2⟩
  · intro h c hc d hd hid hsame
    obtain ⟨last, hlast, htexts⟩ := h c ⟨hid, c, hc, rfl, rfl, rfl⟩
    obtain ⟨last', hlast', htexts'⟩ := h d ⟨hsame ▸ hid, d, hd, rfl, rfl, rfl⟩
    rw [← hsame, hlast, Option.some.injEq] at hlast'
    subst hlast'
    exact ⟨htexts.1.symm.trans htexts'.1, htexts.2.symm.trans htexts'.2⟩

section

variable {fs : FileSystem} {playbook : List PlaybookClause} {outputDir : FilePath}
  {earlier : List ActionRequest}

open ReferenceMonitor

lemma grants_iff_authorized_iff {request : ActionRequest}
    (hcapability : request.capability = .applyEdit) :
    (((init playbook outputDir true).after fs earlier).Grants fs request ↔
        RequestAuthorized playbook request) ↔
      ∀ edit, request.authorizedEdit = some edit → Authorizes playbook edit →
        LastAgrees playbook edit := by
  cases hedit : request.authorizedEdit with
  | none =>
    have hdenied : ¬((init playbook outputDir true).after fs earlier).Grants fs request :=
      not_grants_of_none hcapability hedit
    simp [hdenied, RequestAuthorized, hedit]
  | some edit =>
    rw [grants_applyEdit_iff hcapability hedit]
    simp only [RequestAuthorized, hedit, Option.some.injEq, exists_eq_left', forall_eq']
    constructor
    · intro h hauth
      exact (h.mpr hauth).2
    · intro h
      constructor
      · rintro ⟨hid, hlast⟩
        exact authorizes_of_lastAgrees hid hlast
      · intro hauth
        exact ⟨hauth.1, h hauth⟩

lemma grants_all_iff :
    (∀ taint, ∀ c ∈ playbook,
        ((init playbook outputDir true).after fs earlier).Grants fs (applyRequest taint c)) ↔
      (∀ c ∈ playbook, c.id ≠ "") ∧ ConsistentIds playbook := by
  have hgrants (taint : TaintLabel) (c : PlaybookClause) :
      ((init playbook outputDir true).after fs earlier).Grants fs (applyRequest taint c) ↔
        c.id ≠ "" ∧ LastAgrees playbook c :=
    grants_applyEdit_iff rfl rfl
  simp only [hgrants]
  constructor
  · intro h
    refine ⟨fun c hc => (h .trusted c hc).1, ?_⟩
    rw [consistentIds_iff]
    rintro edit ⟨-, c, hc, hcid, htexts⟩
    obtain ⟨last, hlast, hsame⟩ := (h .trusted c hc).2
    rw [hcid] at hlast
    exact ⟨last, hlast, hsame.1.trans htexts.1, hsame.2.trans htexts.2⟩
  · rintro ⟨hids, hconsistent⟩ taint c hc
    exact ⟨hids c hc, consistentIds_iff.mp hconsistent c ⟨hids c hc, c, hc, rfl, rfl, rfl⟩⟩

end

/-- A monitor that is enabled, behind any requests, decides on an edit as the playbook does exactly if
the last clause with the identifier has the texts of the edit whenever some clause has them. For all
requests this says that clauses with the same identifier have the same texts, and each clause of the
playbook is granted if moreover none has an empty identifier. -/
theorem applyEdit_granted_iff (fs : FileSystem) (playbook : List PlaybookClause)
    (outputDir : FilePath) (earlier : List ActionRequest) :
    (∀ request : ActionRequest, request.capability = .applyEdit →
      ((((ReferenceMonitor.init playbook outputDir true).after fs earlier).Grants fs request ↔
          RequestAuthorized playbook request) ↔
        ∀ edit, request.authorizedEdit = some edit → Authorizes playbook edit →
          LastAgrees playbook edit)) ∧
      ((∀ request : ActionRequest, request.capability = .applyEdit →
          (((ReferenceMonitor.init playbook outputDir true).after fs earlier).Grants fs request ↔
            RequestAuthorized playbook request)) ↔ ConsistentIds playbook) ∧
      ((∀ taint, ∀ c ∈ playbook,
          ((ReferenceMonitor.init playbook outputDir true).after fs earlier).Grants fs
            (applyRequest taint c)) ↔
        (∀ c ∈ playbook, c.id ≠ "") ∧ ConsistentIds playbook) := by
  refine ⟨fun request => grants_iff_authorized_iff, ?_, grants_all_iff⟩
  rw [consistentIds_iff]
  constructor
  · intro h edit
    exact (grants_iff_authorized_iff rfl).mp (h (applyRequest .trusted edit) rfl) edit rfl
  · intro h request hcapability
    exact (grants_iff_authorized_iff hcapability).mpr fun edit _ => h edit

lemma plainPath_noLinks : PlainPath (fun _ => none) [] := .nil

/-- A file system without files. -/
def noFiles : FileSystem := ⟨fun _ => none, fun _ => none, [], plainPath_noLinks⟩

/-- A clause of a playbook, with the texts alone. -/
def textsClause (id target replacement : String) : PlaybookClause :=
  ⟨some id, none, some target, some replacement, none, none⟩

theorem applyEdit_granted_iff_one :
    ((ReferenceMonitor.init [textsClause "law" "Delaware" "New York"] [] true).after noFiles []).Grants
      noFiles (applyRequest .trusted (textsClause "law" "Delaware" "New York")) ↔
    RequestAuthorized [textsClause "law" "Delaware" "New York"]
      (applyRequest .trusted (textsClause "law" "Delaware" "New York")) := by
  refine ((applyEdit_granted_iff noFiles _ [] []).1 _ rfl).mpr ?_
  rintro edit ⟨⟩ -
  exact ⟨_, rfl, rfl, rfl⟩

/-- Two clauses with one identifier: the edit of the first is denied. -/
theorem applyEdit_denied_repeated_id :
    RequestAuthorized [textsClause "law" "Delaware" "New York", textsClause "law" "Texas" "Ohio"]
        (applyRequest .trusted (textsClause "law" "Delaware" "New York")) ∧
      ¬((ReferenceMonitor.init [textsClause "law" "Delaware" "New York",
        textsClause "law" "Texas" "Ohio"] [] true).after noFiles []).Grants noFiles
          (applyRequest .trusted (textsClause "law" "Delaware" "New York")) := by
  refine ⟨⟨_, rfl, by decide, _, List.mem_cons_self, rfl, rfl, rfl⟩, ?_⟩
  rintro ⟨reason, m', h⟩
  have hdecision : _ = some true := congrArg (Option.map fun result => result.1.granted) h
  exact absurd hdecision (by decide)

/-! ### The wrapper -/

/-- The loop passes if each edit is granted: a decision does not change later ones. -/
lemma checkApplied_ok_iff {m : ReferenceMonitor} {edits : List AppliedEdit} :
    (∃ m', checkApplied m edits = .ok m') ↔
      ∀ e ∈ edits, (m.checkApplyEdit (applyRequest .trusted e.submitted)).granted = true := by
  induction edits generalizing m with
  | nil => simp [checkApplied]
  | cons e edits ih =>
    have hrecord (decision : Decision) (request : ActionRequest) :
        (m.record (applyRequest .trusted e.submitted) decision).checkApplyEdit request =
          m.checkApplyEdit request := by
      rw [ReferenceMonitor.record]
      split_ifs <;> rfl
    rw [checkApplied, List.forall_mem_cons]
    split_ifs with hgranted
    · rw [ih]
      simp only [hrecord, hgranted, true_and]
    · simp [hgranted]

/-- On a run that succeeds the wrapper raises only for an applied edit with an empty identifier, or one
whose texts the last clause with the identifier does not have; the check for extra identifiers never
fails. -/
theorem redlineContractWithMonitor_ok_iff (s : Setting) (playbookId : Option String)
    (clauses : List PlaybookClause) (contract : Document) (outputDir : FilePath)
    (hok : (redlineContract s playbookId clauses contract).1.ok = true) :
    (∃ result, redlineContractWithMonitor s playbookId clauses contract outputDir true = .ok result) ↔
      ∀ e ∈ (redlineContract s playbookId clauses contract).1.appliedEdits,
        e.clauseId ≠ "" ∧ LastAgrees clauses e.submitted := by
  rw [redlineContractWithMonitor]
  rcases hrun : redlineContract s playbookId clauses contract with ⟨result, saved⟩
  rw [hrun] at hok
  simp only at hok
  obtain ⟨out, n, -, -, happlied, -⟩ := redlineContract_eq hrun hok
  have hextra : extraIds clauses result.appliedEdits = [] := by
    rw [extraIds, List.filter_eq_nil_iff, happlied, List.map_map]
    intro id hid
    obtain ⟨c, hc, rfl⟩ := List.mem_map.mp hid
    have hmem : c ∈ clauses := List.mem_of_mem_filter (List.mem_of_mem_take hc)
    have hids : c.appliedEdit.clauseId ∈ clauses.map PlaybookClause.id := List.mem_map_of_mem hmem
    simpa using hids
  have hgranted (e : AppliedEdit) :
      ((ReferenceMonitor.init clauses outputDir true).checkApplyEdit
        (applyRequest .trusted e.submitted)).granted = true ↔
      e.clauseId ≠ "" ∧ LastAgrees clauses e.submitted := by
    have hgrants : ((ReferenceMonitor.init clauses outputDir true).after noFiles []).Grants noFiles
        (applyRequest .trusted e.submitted) ↔ e.submitted.id ≠ "" ∧ LastAgrees clauses e.submitted :=
      ReferenceMonitor.grants_applyEdit_iff rfl rfl
    exact (ReferenceMonitor.grants_iff_granted rfl rfl).symm.trans hgrants
  simp only [← hgranted, ← checkApplied_ok_iff, hok, hextra, Bool.and_self, if_true]
  cases checkApplied (ReferenceMonitor.init clauses outputDir true) result.appliedEdits with
  | error e => simp [bind, Except.bind]
  | ok m' => simp [bind, Except.bind]

end AxiomGrid.Redline

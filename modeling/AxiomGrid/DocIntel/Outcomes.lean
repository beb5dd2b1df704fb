import AxiomGrid.DocIntel.Ask

/-!
# Outcomes in the log

`_audit` calls `log_answer` for refusals too, so that the summary of `kernel/core/audit_export.py`
counts the calls of a session right exactly when none is refused.
-/

namespace AxiomGrid.DocIntel

open Audit (AuditEntry SignedAuditLog SessionKey)

/-! ### The export -/

/-- The number of entries with an outcome, and of these the grounded ones or the others. -/
def total (log : SignedAuditLog) (outcome : String) (grounded : AuditEntry → Bool) : Json :=
  .int (log.entries.countP fun e => Json.pyEq e.outcome (.str outcome) && grounded e)

/-- The entry as it is exported. -/
def exportEntry (e : AuditEntry) : Json :=
  .obj [("entry_id", e.entryId), ("timestamp", e.timestamp), ("question", e.question),
    ("document_hash", e.documentHash), ("outcome", e.outcome), ("grounded", e.grounded),
    ("source_region", if e.sourceRegion.truthy then e.sourceRegion else .null),
    ("cascade_stage", e.cascadeStage), ("model_id", e.modelId), ("signature", e.signature),
    ("prev_signature", e.prevSignature)]

/-- The summary of an export. -/
def summary (log : SignedAuditLog) : List (String × Json) :=
  [("total_answers", total log "answer" fun _ => true),
    ("total_refusals", total log "refusal" fun _ => true),
    ("grounded_answers", total log "answer" fun e => e.grounded.truthy),
    ("ungrounded_answers", total log "answer" fun e => !e.grounded.truthy)]

/-- The value that `export_json` writes; `none` when `verify_chain` raises. -/
def exportValue (log : SignedAuditLog) (exportedAt : String) : Option Json := do
  let chainValid ← log.verifyChain
  some (.obj [("export_metadata", .obj [("exported_at", .str exportedAt),
      ("entry_count", .int log.entries.length),
      ("chain_integrity", .str (if chainValid then "VALID" else "BROKEN")),
      ("format_version", .str "1.0"), ("system", .str "Kairo Phantom")]),
    ("summary", .obj (summary log)), ("entries", .arr (log.entries.map exportEntry))])

/-- `export_json`. -/
def exportJson (log : SignedAuditLog) (exportedAt : String) : Option String :=
  (exportValue log exportedAt).map (Json.dumpsWith .indented)

/-- A number of the exported summary. -/
def exported (log : SignedAuditLog) (exportedAt field : String) : Option Json := do
  (← (← exportValue log exportedAt).get? "summary").get? field

/-! ### Runs -/

/-- What happens to a session. -/
inductive Event where
  | ask (call : Call)
  | addDocument (chunks : List ChunkMeta)

section

variable (u : UnicodeData) (round : ℚ → ℚ)

/-- One event, with the results that calls have returned so far. -/
def step (state : Session × List AskResult) : Event → Session × List AskResult
  | .ask call =>
    ((state.1.ask u round call).1, state.2 ++ (state.1.ask u round call).2.toOption.toList)
  | .addDocument chunks =>
    ({ state.1 with index := state.1.index.addDocument chunks }, state.2)

/-- The session after a run, and the results of its calls. -/
def run (session : Session) (events : List Event) : Session × List AskResult :=
  events.foldl (step u round) (session, [])

/-- The outcome that the log should show for a result. -/
def outcomeOf (result : AskResult) : Json := .str (if result.refused then "refusal" else "answer")

/-- The entries of the log of a session. -/
def Session.entries (session : Session) : List AuditEntry :=
  session.auditLog.toList.flatMap SignedAuditLog.entries

/-- A call that returns a result adds one entry, with its outcome. -/
def Records (session : Session) (call : Call) : Prop :=
  ∀ result, (session.ask u round call).2 = .ok result →
    ∃ e, (session.ask u round call).1.entries = session.entries ++ [e] ∧
      e.outcome = outcomeOf result

/-- The calls of a run are recorded, and the exported summary counts them. -/
structure Accounted (session : Session) (events : List Event) (exportedAt : String) : Prop where
  records : ∀ before call after, events = before ++ .ask call :: after →
    Records u round (run u round session before).1 call
  refusals : ∀ log ∈ (run u round session events).1.auditLog,
    exported log exportedAt "total_refusals" =
      some (.int ((run u round session events).2.countP AskResult.refused))
  answers : ∀ log ∈ (run u round session events).1.auditLog,
    exported log exportedAt "total_answers" =
      some (.int ((run u round session events).2.countP fun result => !result.refused))

/-! ### The condition -/

/-- The question passes the shield, a chunk matches it, and that chunk starts with some text or a
sentence of the hits scores above zero. -/
def Answerable (session : Session) (question : String) : Prop :=
  session.scan question = [] ∧
    ∃ best ∈ (session.index.retrieve question 5).head?, minSimilarity ≤ best.score ∧
      (Str.strip (best.chunk.text.toList.take 500) ≠ [] ∨
        ∃ candidate ∈ candidates u (session.index.retrieve question 5),
          0 < sentenceScore u round question.toList candidate.1)

/-- Where the box of the cited chunk is not ordered, the session must be secure: else the failure to
log is only a warning. -/
def Auditable (session : Session) (question : String) : Prop :=
  session.secureMode = true ∨ ∀ text citation,
    extractAnswer u round question.toList (session.index.retrieve question 5) = some (text, citation) →
    (Audit.BBox.mk? citation.bbox.1 citation.bbox.2.1 citation.bbox.2.2.1 citation.bbox.2.2.2).isSome

/-- The calls that are recorded as they should be. -/
def Meets (session : Session) (call : Call) : Prop :=
  Str.strip call.question.toList = [] ∨
    Answerable u round session call.question ∧ Auditable u round session call.question

end

/-! ### Extraction -/

section

variable {u : UnicodeData} {round : ℚ → ℚ} {session : Session} {call : Call}

/-- The loop finds a sentence that scores above zero if there is one. -/
lemma foldl_consider {question : Str} (cs : List (Str × ChunkMeta)) (best : Best) :
    (0 < (cs.foldl (Best.consider u round question) best).score ↔
      0 < best.score ∨ ∃ c ∈ cs, 0 < sentenceScore u round question c.1) ∧
    ((0 < best.score → best.choice.isSome = true) →
      0 < (cs.foldl (Best.consider u round question) best).score →
      (cs.foldl (Best.consider u round question) best).choice.isSome = true) := by
  induction cs generalizing best with
  | nil => exact ⟨by simp, fun h => h⟩
  | cons c cs ih =>
    simp only [List.foldl_cons, List.mem_cons, exists_eq_or_imp]
    obtain ⟨hiff, hchoice⟩ := ih (best.consider u round question c)
    rw [hiff] at hchoice ⊢
    rw [Best.consider] at hchoice ⊢
    split_ifs at hchoice ⊢ with hlt
    · refine ⟨?_, fun _ => hchoice fun _ => rfl⟩
      constructor
      · exact fun h => .inr h
      · rintro (hpos | h)
        · exact .inl (hpos.trans hlt)
        · exact h
    · refine ⟨?_, hchoice⟩
      constructor
      · exact fun h => h.imp_right .inr
      · rintro (hpos | hpos | h)
        · exact .inl hpos
        · exact .inl (hpos.trans_le (not_lt.mp hlt))
        · exact .inr h

lemma leadingText_isSome_iff {hits : List RetrievalResult} :
    (leadingText hits).isSome = true ↔
      ∃ best ∈ hits.head?, Str.strip (best.chunk.text.toList.take 500) ≠ [] := by
  cases hits with
  | nil => simp [leadingText]
  | cons hit hits =>
    rw [leadingText]
    split_ifs with h <;> simp [h]

lemma extractAnswer_isSome_iff {question : Str} {hits : List RetrievalResult} :
    (extractAnswer u round question hits).isSome = true ↔
      (leadingText hits).isSome = true ∨
        ∃ c ∈ candidates u hits, 0 < sentenceScore u round question c.1 := by
  obtain ⟨hiff, hchoice⟩ := @foldl_consider u round question (candidates u hits) {}
  have hstart : ¬(0 : ℚ) < ({} : Best).score := by simp
  rw [or_iff_right hstart] at hiff
  have hsome := hchoice fun h => absurd h hstart
  rw [extractAnswer, ← hiff]
  split
  · rename_i hnone
    have hpos := mt hsome (by rw [hnone]; simp)
    rw [or_iff_left hpos]
  · split_ifs with hle
    · rw [or_iff_left (not_lt.mpr hle)]
    · rw [Option.isSome_some]
      exact iff_of_true rfl (.inr (not_le.mp hle))

/-! ### One call -/

/-- A result is refused, or it cites what was extracted. -/
lemma result_cases (session : Session) (call : Call) :
    ((session.result u round call).refused = true ∧ (session.result u round call).citation = none ∧
      ¬Answerable u round session call.question) ∨
    ((session.result u round call).refused = false ∧ Answerable u round session call.question ∧
      ∃ text citation, extractAnswer u round call.question.toList
          (session.index.retrieve call.question 5) = some (text, citation) ∧
        (session.result u round call).citation = some citation) := by
  rw [Answerable, Session.result]
  split_ifs with hscan
  · exact .inl ⟨rfl, rfl, fun h => hscan h.1⟩
  rw [not_not] at hscan
  have hextract := @extractAnswer_isSome_iff u round call.question.toList
    (session.index.retrieve call.question 5)
  rw [leadingText_isSome_iff] at hextract
  cases hhits : session.index.retrieve call.question 5 with
  | nil => exact .inl ⟨rfl, rfl, by simp⟩
  | cons best hits =>
    rw [hhits] at hextract
    simp only [List.head?_cons, Option.mem_some_iff, exists_eq_left', Session.answerFrom] at hextract ⊢
    split_ifs with hlow
    · exact .inl ⟨rfl, rfl, fun h => absurd h.2.1 (not_le.mpr hlow)⟩
    · split
      · rename_i hnone
        refine .inl ⟨rfl, rfl, ?_⟩
        rintro ⟨-, -, hfound⟩
        rw [← hextract, hnone] at hfound
        cases hfound
      · rename_i text citation hsome
        refine .inr ⟨rfl, ⟨hscan, not_lt.mp hlow, ?_⟩, text, citation, hsome, rfl⟩
        rw [← hextract, hsome, Option.isSome_some]

/-- What `_audit` logs has the outcome of an answer. -/
lemma outcome_auditEvent (result : AskResult) (anchors : List Audit.Anchor) (key : SessionKey)
    (prev : Json) : ((session.auditEvent call result anchors).entry key prev).outcome = .str "answer" :=
  rfl

/-- A call on a session with a log: it raises, or it returns the result with or without an entry. -/
lemma ask_cases {log : SignedAuditLog} (hlog : session.auditLog = some log) (call : Call) :
    (∃ e, session.ask u round call = (session, .error e) ∧
      (Str.strip call.question.toList = [] ∨
        (session.result u round call).anchors = none ∧ session.secureMode = true)) ∨
    (session.ask u round call = (session, .ok (session.result u round call)) ∧
      Str.strip call.question.toList ≠ [] ∧ (session.result u round call).anchors = none ∧
      session.secureMode = false) ∨
    (∃ anchors result, (session.result u round call).anchors = some anchors ∧
      Str.strip call.question.toList ≠ [] ∧
      result.refused = (session.result u round call).refused ∧
      session.ask u round call =
        ({ session with
            auditLog :=
              some (log.log (session.auditEvent call (session.result u round call) anchors)) },
          .ok result)) := by
  rw [Session.ask]
  split_ifs with hblank
  · exact .inl ⟨_, rfl, .inl hblank⟩
  rw [Session.audit, hlog]
  cases hanchors : (session.result u round call).anchors with
  | none =>
    cases hsecure : session.secureMode with
    | true => exact .inl ⟨_, rfl, .inr ⟨rfl, rfl⟩⟩
    | false => exact .inr (.inl ⟨rfl, hblank, rfl, rfl⟩)
  | some anchors =>
    refine .inr (.inr ⟨anchors, _, rfl, hblank, ?_, rfl⟩)
    rfl

lemma entries_of_log {log : SignedAuditLog} (hlog : session.auditLog = some log) :
    session.entries = log.entries := by
  rw [Session.entries, hlog]
  exact List.append_nil _

/-- A call is recorded if and only if it meets the condition. -/
lemma records_iff {log : SignedAuditLog} (hlog : session.auditLog = some log) (call : Call) :
    Records u round session call ↔ Meets u round session call := by
  have hbefore := entries_of_log hlog
  rw [Records, Meets, hbefore]
  have hcitation := @result_cases u round session call
  obtain ⟨e, hask, hwhy⟩ | ⟨hask, hblank, hanchors, hsecure⟩ | ⟨anchors, result, hanchors, hblank,
    hrefused, hask⟩ := @ask_cases u round session log hlog call
  · rw [hask]
    refine iff_of_true (fun _ h => nomatch h) ?_
    refine hwhy.imp_right fun ⟨hanchors, hsecure⟩ => ?_
    obtain ⟨-, hnone, -⟩ | ⟨-, hanswerable, -⟩ := hcitation
    · rw [AskResult.anchors, hnone] at hanchors
      cases hanchors
    · exact ⟨hanswerable, .inl hsecure⟩
  · rw [hask, or_iff_right hblank]
    refine iff_of_false ?_ ?_
    · intro h
      obtain ⟨e, he, -⟩ := h _ rfl
      rw [hbefore] at he
      simp at he
    · rintro ⟨-, hauditable⟩
      obtain ⟨-, hnone, -⟩ | ⟨-, -, text, citation, hextract, hsome⟩ := hcitation
      · rw [AskResult.anchors, hnone] at hanchors
        cases hanchors
      · rw [AskResult.anchors, hsome] at hanchors
        obtain hsecure' | hbox := hauditable
        · rw [hsecure] at hsecure'
          cases hsecure'
        · have hsome' := hbox text citation hextract
          rw [Option.map_eq_none_iff] at hanchors
          rw [hanchors] at hsome'
          cases hsome'
  · have hentry : (session.ask u round call).1.entries = log.entries ++
        [(session.auditEvent call (session.result u round call) anchors).entry log.sessionKey
          log.lastSignature] := by
      rw [hask]
      exact List.append_nil _
    rw [or_iff_right hblank, hentry, hask]
    obtain ⟨hrefused', hnone, hnot⟩ | ⟨hanswered, hanswerable, text, citation, hextract, hsome⟩ :=
      hcitation
    · refine iff_of_false ?_ fun h => hnot h.1
      intro h
      obtain ⟨e, he, houtcome⟩ := h result rfl
      rw [List.append_cancel_left_eq, List.singleton_inj] at he
      rw [← he, outcome_auditEvent, outcomeOf, hrefused, hrefused'] at houtcome
      simp at houtcome
    · refine iff_of_true ?_ ⟨hanswerable, .inr ?_⟩
      · rintro _ ⟨⟩
        refine ⟨_, rfl, ?_⟩
        rw [outcome_auditEvent, outcomeOf, hrefused, hanswered]
        rfl
      · intro text' citation' hextract'
        rw [hextract] at hextract'
        cases hextract'
        rw [AskResult.anchors, hsome] at hanchors
        obtain ⟨bbox, hbbox, -⟩ := Option.map_eq_some_iff.mp hanchors
        rw [hbbox, Option.isSome_some]

/-! ### Whole runs -/

lemma run_concat (session : Session) (events : List Event) (event : Event) :
    run u round session (events ++ [event]) = step u round (run u round session events) event := by
  simp [run]

/-- The log of a run is made by calls of the log. -/
lemma log_run {key : SessionKey} (hlog : session.auditLog = some (.new key)) (events : List Event) :
    ∃ logged, (run u round session events).1.auditLog = some (SignedAuditLog.run key logged) := by
  induction events using List.reverseRecOn with
  | nil => exact ⟨[], hlog⟩
  | append_singleton events event ih =>
    obtain ⟨logged, hlogged⟩ := ih
    rw [run_concat]
    cases event with
    | addDocument chunks => exact ⟨logged, hlogged⟩
    | ask call =>
      rw [step]
      obtain ⟨e, hask, -⟩ | ⟨hask, -⟩ | ⟨anchors, result, -, -, -, hask⟩ :=
        @ask_cases u round _ _ hlogged call
      · exact ⟨logged, by rw [hask, hlogged]⟩
      · exact ⟨logged, by rw [hask, hlogged]⟩
      · exact ⟨logged ++ [_], by rw [hask, SignedAuditLog.run_concat]⟩

/-- If every call is recorded, the outcomes of the log are those of the results. -/
lemma outcomes_run {key : SessionKey} (hlog : session.auditLog = some (.new key))
    {events : List Event} (h : ∀ before call after, events = before ++ .ask call :: after →
      Records u round (run u round session before).1 call) :
    (run u round session events).1.entries.map AuditEntry.outcome =
      (run u round session events).2.map outcomeOf := by
  induction events using List.reverseRecOn with
  | nil =>
    rw [run, List.foldl_nil, entries_of_log hlog]
    rfl
  | append_singleton events event ih =>
    have hbefore := ih fun before call after heq =>
      h before call (after ++ [event]) (by rw [heq]; simp)
    rw [run_concat]
    cases event with
    | addDocument chunks => exact hbefore
    | ask call =>
      obtain ⟨logged, hlogged⟩ := @log_run u round session key hlog events
      have hrecords := h events call [] rfl
      rw [step]
      cases hask : ((run u round session events).1.ask u round call).2 with
      | error e =>
        obtain ⟨e', hask', -⟩ | ⟨hask', -⟩ | ⟨anchors, result, -, -, -, hask'⟩ :=
          @ask_cases u round _ _ hlogged call
        · rw [hask', hbefore]
          simp [Except.toOption]
        · rw [hask'] at hask
          cases hask
        · rw [hask'] at hask
          cases hask
      | ok result =>
        obtain ⟨e, he, houtcome⟩ := hrecords result hask
        rw [he, List.map_append, hbefore, List.map_singleton, houtcome]
        simp [Except.toOption]

/-- The exported totals of a log count its outcomes. -/
lemma exported_total {key : SessionKey} (logged : List Audit.Event) (exportedAt : String) :
    exported (SignedAuditLog.run key logged) exportedAt "total_answers" =
        some (.int (((SignedAuditLog.run key logged).entries.map AuditEntry.outcome).countP
          fun outcome => Json.pyEq outcome (.str "answer"))) ∧
      exported (SignedAuditLog.run key logged) exportedAt "total_refusals" =
        some (.int (((SignedAuditLog.run key logged).entries.map AuditEntry.outcome).countP
          fun outcome => Json.pyEq outcome (.str "refusal"))) := by
  have htotal : ∀ outcome, total (SignedAuditLog.run key logged) outcome (fun _ => true) =
      .int (((SignedAuditLog.run key logged).entries.map AuditEntry.outcome).countP
        fun o => Json.pyEq o (.str outcome)) := by
    intro outcome
    simp only [total, Bool.and_true, List.countP_map]
    rfl
  rw [← htotal, ← htotal]
  simp only [exported, exportValue, SignedAuditLog.verifyChain_run, Option.bind_eq_bind,
    Option.bind_some]
  exact ⟨rfl, rfl⟩

lemma pyEq_outcomeOf (result : AskResult) :
    Json.pyEq (outcomeOf result) (.str "refusal") = result.refused ∧
      Json.pyEq (outcomeOf result) (.str "answer") = !result.refused := by
  rw [outcomeOf]
  cases result.refused <;> exact ⟨rfl, rfl⟩

/-- Every call of a run is recorded with its outcome, and the exported summary counts the calls, if
and only if no call is refused and no failure to log passes as a warning. -/
theorem asks_accounted_iff (u : UnicodeData) (round : ℚ → ℚ) (key : SessionKey) (session : Session)
    (hlog : session.auditLog = some (.new key)) (events : List Event) (exportedAt : String) :
    Accounted u round session events exportedAt ↔
      ∀ before call after, events = before ++ .ask call :: after →
        Meets u round (run u round session before).1 call := by
  have hiff : ∀ before call, Records u round (run u round session before).1 call ↔
      Meets u round (run u round session before).1 call := by
    intro before call
    obtain ⟨logged, hlogged⟩ := @log_run u round session key hlog before
    exact records_iff hlogged call
  constructor
  · intro h before call after heq
    exact (hiff before call).mp (h.records before call after heq)
  · intro h
    have hrecords : ∀ before call after, events = before ++ .ask call :: after →
        Records u round (run u round session before).1 call := by
      intro before call after heq
      exact (hiff before call).mpr (h before call after heq)
    have houtcomes := outcomes_run hlog hrecords
    obtain ⟨logged, hlogged⟩ := @log_run u round session key hlog events
    rw [entries_of_log hlogged] at houtcomes
    obtain ⟨hanswers, hrefusals⟩ := @exported_total key logged exportedAt
    simp only [houtcomes, List.countP_map, Function.comp_def, pyEq_outcomeOf] at hanswers hrefusals
    refine ⟨hrecords, ?_, ?_⟩
    · intro log hmem
      rw [hlogged, Option.mem_some_iff] at hmem
      rw [← hmem, hrefusals]
    · intro log hmem
      rw [hlogged, Option.mem_some_iff] at hmem
      rw [← hmem, hanswers]

end

namespace Sample

/-- A session with a new log and one chunk, or none. -/
def session (chunks : List ChunkMeta) : Session :=
  { index := ⟨chunks, fun _ _ => 1, "hash"⟩
    auditLog := some (.new Audit.Sample.sessionKey)
    promptShield := some ⟨[]⟩ }

/-- A chunk with a line break in its sentence. -/
def chunk : ChunkMeta :=
  ⟨"1_0", 1, "Payment is due\nin May.", .int 0, .int 0, .int 1, .int 1⟩

/-- A question to which the local model says nothing. -/
def call : Call := ⟨"When is the payment due?", fun _ => none, "entry", "now"⟩

lemma similarity_enough : minSimilarity ≤ 1 := by decide +kernel

theorem asks_accounted_chunk :
    Accounted asciiData id (session [chunk]) [.ask call] "now" := by
  apply (asks_accounted_iff asciiData id Audit.Sample.sessionKey (session [chunk]) rfl [.ask call]
    "now").mpr
  intro before asked after heq
  obtain ⟨rfl, hasked, rfl⟩ : before = [] ∧ asked = call ∧ after = [] := by
    cases before with
    | nil =>
      cases heq
      exact ⟨rfl, rfl, rfl⟩
    | cons event before => simp at heq
  rw [hasked]
  refine .inr ⟨⟨rfl, _, rfl, similarity_enough, .inl ?_⟩, .inl rfl⟩
  decide

/-- On an empty index the call is refused, and the log shows an answer. -/
theorem not_accounted_refused :
    ¬Accounted asciiData id (session []) [.ask call] "now" := by
  intro h
  have hmeets := (records_iff rfl call).mp (h.records [] call [] rfl)
  obtain hblank | ⟨⟨-, best, hbest, -⟩, -⟩ := hmeets
  · exact absurd hblank (by decide)
  · cases hbest

end Sample

end AxiomGrid.DocIntel

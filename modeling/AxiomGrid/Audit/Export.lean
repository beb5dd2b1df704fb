import AxiomGrid.Audit.SignedLog

/-!
# The export of the signed log

`export_json` of `kernel/core/audit_export.py`, which writes the entries again, member by member, and
puts `null` in the place of a source region that is empty. The time of the export is given.
-/

namespace AxiomGrid.Audit

open Json (dumpsWith)

namespace AuditEntry

/-- The members of an entry in `export_json`. -/
def exportDict (e : AuditEntry) : List (String × Json) :=
  [("entry_id", e.entryId), ("timestamp", e.timestamp), ("question", e.question),
    ("document_hash", e.documentHash), ("outcome", e.outcome), ("grounded", e.grounded),
    ("source_region", if e.sourceRegion.truthy then e.sourceRegion else .null),
    ("cascade_stage", e.cascadeStage), ("model_id", e.modelId), ("signature", e.signature),
    ("prev_signature", e.prevSignature)]

/-- `e.outcome == outcome`. -/
def hasOutcome (outcome : String) (e : AuditEntry) : Bool := Json.pyEq e.outcome (.str outcome)

end AuditEntry

/-- `sum(1 for e in entries if p(e))`. -/
def countIf (p : AuditEntry → Bool) (entries : List AuditEntry) : Json := .int (entries.countP p)

/-- The value that `export_json` writes. -/
def exportValue (exportedAt : String) (chainValid : Bool) (entries : List AuditEntry) : Json :=
  .obj [
    ("export_metadata", .obj [("exported_at", .str exportedAt), ("entry_count", .int entries.length),
      ("chain_integrity", .str (if chainValid then "VALID" else "BROKEN")),
      ("format_version", .str "1.0"), ("system", .str "Kairo Phantom")]),
    ("summary", .obj [("total_answers", countIf (·.hasOutcome "answer") entries),
      ("total_refusals", countIf (·.hasOutcome "refusal") entries),
      ("grounded_answers", countIf (fun e => e.hasOutcome "answer" && e.grounded.truthy) entries),
      ("ungrounded_answers", countIf (fun e => e.hasOutcome "answer" && !e.grounded.truthy) entries)]),
    ("entries", .arr (entries.map fun e => .obj e.exportDict))]

/-- `export_json`; `none` is the exception of `verify_chain`. -/
def exportJson (exportedAt : String) (log : SignedAuditLog) : Option String := do
  let chainValid ← log.verifyChain
  some (dumpsWith .indented (exportValue exportedAt chainValid log.entries))

/-! ### Entries in an export -/

/-- The entry that a reader of the export finds. -/
def AuditEntry.exported (e : AuditEntry) : AuditEntry :=
  { e with sourceRegion := if e.sourceRegion.truthy then e.sourceRegion else .null }

lemma exported_eq_self_iff {e : AuditEntry} :
    e.exported = e ↔ e.sourceRegion.truthy = true ∨ e.sourceRegion = .null := by
  rw [AuditEntry.exported]
  split_ifs with h
  · simp [h]
  · constructor
    · intro heq
      exact .inr (congrArg AuditEntry.sourceRegion heq).symm
    · rintro (htrue | hnull)
      · exact absurd htrue h
      · rw [← hnull]

/-- Only the source region changes, and only when it is empty. -/
lemma readsBack_exported {r : Json.Reader} {e : AuditEntry} (h : Json.ReadsBack r (.obj e.toDict)) :
    Json.ReadsBack r (.obj e.exported.toDict) := by
  obtain ⟨hid, htime, hquestion, hdoc, houtcome, hgrounded, hregion, hrest⟩ := h
  refine ⟨hid, htime, hquestion, hdoc, houtcome, hgrounded, ?_, hrest⟩
  rw [AuditEntry.exported]
  split_ifs
  · exact hregion
  · trivial

lemma distinctKeys_exported {e : AuditEntry} (h : Json.DistinctKeys (.obj e.toDict)) :
    Json.DistinctKeys (.obj e.exported.toDict) := by
  obtain ⟨hnames, hid, htime, hquestion, hdoc, houtcome, hgrounded, hregion, hrest⟩ := h
  refine ⟨hnames, hid, htime, hquestion, hdoc, houtcome, hgrounded, ?_, hrest⟩
  rw [AuditEntry.exported]
  split_ifs
  · exact hregion
  · trivial

/-! ### Loading an export -/

section

variable {readFloat : List Char → FloatRepr} {key : SessionKey}

lemma readsBack_exportValue {r : Json.Reader} (exportedAt : String) (chainValid : Bool)
    {entries : List AuditEntry} (h : ∀ e ∈ entries, Json.ReadsBack r (.obj e.toDict)) :
    Json.ReadsBack r (exportValue exportedAt chainValid entries) := by
  refine ⟨⟨trivial, trivial, trivial, trivial, trivial, trivial⟩,
    ⟨trivial, trivial, trivial, trivial, trivial⟩, ?_, trivial⟩
  rw [Json.ReadsBack, Json.itemsReadBack_iff, List.forall_mem_map]
  exact fun e he => readsBack_exported (h e he)

lemma distinctKeys_exportValue (exportedAt : String) (chainValid : Bool) {entries : List AuditEntry}
    (h : ∀ e ∈ entries, Json.DistinctKeys (.obj e.toDict)) :
    Json.DistinctKeys (exportValue exportedAt chainValid entries) := by
  refine ⟨show ["export_metadata", "summary", "entries"].Nodup by decide,
    ⟨show ["exported_at", "entry_count", "chain_integrity", "format_version", "system"].Nodup by decide,
      trivial, trivial, trivial, trivial, trivial, trivial⟩,
    ⟨show ["total_answers", "total_refusals", "grounded_answers", "ungrounded_answers"].Nodup by decide,
      trivial, trivial, trivial, trivial, trivial⟩, ?_, trivial⟩
  rw [Json.DistinctKeys, Json.distinctKeysItems_iff, List.forall_mem_map]
  exact fun e he => distinctKeys_exported (h e he)

/-- The log that a loader builds from some entries. -/
def logOf (key : SessionKey) (entries : List AuditEntry) : SignedAuditLog :=
  ⟨key, entries, tip AuditEntry.signature (.str "") entries⟩

lemma logOf_run (events : List Event) :
    logOf key (SignedAuditLog.run key events).entries = SignedAuditLog.run key events := by
  obtain ⟨-, htip, -⟩ := @SignedAuditLog.run_spec key events
  have hkey := @SignedAuditLog.sessionKey_run key events
  rw [logOf, htip]
  generalize SignedAuditLog.run key events = log at hkey
  cases hkey
  rfl

/-- A loader of an export builds the log of the exported entries, and returns it when it verifies. -/
lemma fromJson_exportJson {exportedAt text : String} {log : SignedAuditLog}
    (hreads : ∀ e ∈ log.entries, Json.ReadsBack ⟨readFloat, true⟩ (.obj e.toDict))
    (hkeys : ∀ e ∈ log.entries, Json.DistinctKeys (.obj e.toDict))
    (htext : exportJson exportedAt log = some text) :
    SignedAuditLog.fromJson readFloat text key.1 =
      (logOf key (log.entries.map AuditEntry.exported)).verifyChain.bind fun ok =>
        if ok then some (logOf key (log.entries.map AuditEntry.exported)) else none := by
  obtain ⟨chainValid, -, htext⟩ := Option.bind_eq_some_iff.mp htext
  cases htext
  have hload := Json.loads_dumpsWith Json.Style.readable_indented
    (readsBack_exportValue exportedAt chainValid hreads)
    (distinctKeys_exportValue exportedAt chainValid hkeys)
  have hadd := SignedAuditLog.addDicts_toDict (log.entries.map AuditEntry.exported)
    (SignedAuditLog.new key)
  rw [List.map_map] at hadd
  rw [SignedAuditLog.fromJson, hload, Option.bind_eq_bind, Option.bind_some, dif_pos key.2]
  change (do
    let log ← SignedAuditLog.addDicts (SignedAuditLog.new key)
      (log.entries.map ((fun e => Json.obj (AuditEntry.toDict e)) ∘ AuditEntry.exported))
    if (← log.verifyChain) then some log else none) = _
  rw [hadd, Option.bind_eq_bind, Option.bind_some]
  rfl

/-! ### Exports of honest logs -/

/-- The citations of a call; a refusal has none. -/
def Call.citations : Call → List Anchor
  | .logAnswer answer .. => answer.citations
  | .logRefusal .. => []

lemma sourceRegion_entry (event : Event) (prev : Json) :
    (event.entry key prev).sourceRegion = .obj (sourceRegion event.call.citations) := by
  rw [Event.entry, Event.unsigned]
  cases event.call <;> rfl

lemma setItem_ne_nil (kvs : List (String × Json)) (k : String) (v : Json) :
    Json.setItem kvs k v ≠ [] := by
  cases kvs with
  | nil => simp [Json.setItem]
  | cons p kvs =>
    rw [Json.setItem]
    split_ifs <;> simp

lemma anchorToRegion_ne_nil (anchor : Anchor) : anchorToRegion anchor ≠ [] := by
  rw [anchorToRegion]
  cases anchor.bbox with
  | none => simp
  | some bbox => exact setItem_ne_nil _ _ _

lemma sourceRegion_eq_nil_iff {anchors : List Anchor} : sourceRegion anchors = [] ↔ anchors = [] := by
  match anchors with
  | [] => exact iff_of_true rfl rfl
  | [a] => exact iff_of_false (anchorToRegion_ne_nil a) (by simp)
  | a :: b :: anchors => exact iff_of_false (setItem_ne_nil _ _ _) (by simp)

lemma exported_entry_iff (event : Event) (prev : Json) :
    (event.entry key prev).exported = event.entry key prev ↔ event.call.citations ≠ [] := by
  rw [exported_eq_self_iff, sourceRegion_entry, Json.truthy, Bool.not_eq_true',
    List.isEmpty_eq_false_iff, Ne, sourceRegion_eq_nil_iff]
  simp

/-- The entries of a run are those of its calls, in order. -/
lemma forall₂_run (events : List Event) :
    List.Forall₂ (fun event e => ∃ prev, e = event.entry key prev) events
      (SignedAuditLog.run key events).entries := by
  induction events using List.reverseRecOn with
  | nil => exact .nil
  | append_singleton events event ih =>
    rw [SignedAuditLog.run_concat, SignedAuditLog.log, SignedAuditLog.sessionKey_run]
    exact List.rel_append ih (.cons ⟨_, rfl⟩ .nil)

lemma map_exported_run (events : List Event) :
    (SignedAuditLog.run key events).entries.map AuditEntry.exported =
        (SignedAuditLog.run key events).entries ↔
      ∀ event ∈ events, event.call.citations ≠ [] := by
  have hcalls := @forall₂_run key events
  generalize (SignedAuditLog.run key events).entries = entries at hcalls
  induction hcalls with
  | nil => simp
  | cons h _ ih =>
    obtain ⟨prev, rfl⟩ := h
    rw [List.map_cons, List.cons.injEq, exported_entry_iff, List.forall_mem_cons]
    exact and_congr_right fun _ => ih

variable (readFloat) in
/-- The export of a log loads with the key of the log, verifies, and gives its entries. -/
def ExportLoads (exportedAt : String) (log : SignedAuditLog) : Prop :=
  ∃ text loaded, exportJson exportedAt log = some text ∧
    SignedAuditLog.fromJson readFloat text log.sessionKey.1 = some loaded ∧
    loaded.verifyChain = some true ∧ loaded.entries = log.entries

lemma exportLoads_run_iff {exportedAt : String} {events : List Event}
    (hfloats : ∀ event ∈ events, ∀ n ∈ event.call.coordinates,
      Json.ReadsBack ⟨readFloat, true⟩ n.toJson) :
    ExportLoads readFloat exportedAt (SignedAuditLog.run key events) ↔
      (SignedAuditLog.run key events).entries.map AuditEntry.exported =
        (SignedAuditLog.run key events).entries := by
  obtain ⟨-, -, -, hall⟩ := @SignedAuditLog.run_spec key events
  have hverify := @SignedAuditLog.verifyChain_run key events
  have htext : exportJson exportedAt (SignedAuditLog.run key events) = some _ :=
    Option.bind_eq_some_iff.mpr ⟨true, hverify, rfl⟩
  have hload := @fromJson_exportJson readFloat key _ _ _ ?_ ?_ htext
  · constructor
    · rintro ⟨text, loaded, htext', hloaded, -, hentries⟩
      rw [htext, Option.some.injEq] at htext'
      subst htext'
      rw [SignedAuditLog.sessionKey_run, hload] at hloaded
      obtain ⟨ok, -, hloaded⟩ := Option.bind_eq_some_iff.mp hloaded
      split_ifs at hloaded
      cases hloaded
      exact hentries
    · intro hsame
      refine ⟨_, SignedAuditLog.run key events, htext, ?_, hverify, rfl⟩
      rw [SignedAuditLog.sessionKey_run, hload, hsame, logOf_run, hverify]
      rfl
  · intro e he
    obtain ⟨event, hevent, s, rfl⟩ := hall e he
    exact readsBack_entry (hfloats event hevent) key s
  · intro e he
    obtain ⟨event, -, s, rfl⟩ := hall e he
    exact distinctKeys_entry event key s

/-- An export loads again exactly when every call of the log has a citation: an empty source region is
signed as `{}` and exported as `null`. -/
theorem exportLoads_iff (readFloat : List Char → FloatRepr) (exportedAt : String) (key : SessionKey)
    (events : List Event) (hfloats : ∀ event ∈ events, ∀ n ∈ event.call.coordinates,
      Json.ReadsBack ⟨readFloat, true⟩ n.toJson) :
    ExportLoads readFloat exportedAt (SignedAuditLog.run key events) ↔
      ∀ event ∈ events, event.call.citations ≠ [] := by
  rw [exportLoads_run_iff hfloats, map_exported_run]

end

namespace Sample

/-- A log with a refusal. -/
theorem not_exportLoads_refused :
    ¬ ExportLoads readSome "t" (SignedAuditLog.run sessionKey [refused]) := by
  rw [exportLoads_run_iff, map_exported_run]
  · simp [refused, Call.citations]
  · intro event hevent n hn
    rw [List.mem_singleton.mp hevent] at hn
    cases hn

/-- A log with an answer that has a citation. -/
theorem exportLoads_iff_answered :
    ExportLoads readSome "t" (SignedAuditLog.run sessionKey [answered]) := by
  refine (exportLoads_iff readSome "t" sessionKey [answered] ?_).mpr ?_
  · intro event hevent n hn
    rw [List.mem_singleton.mp hevent] at hn
    simp only [answered, Call.coordinates, unitBox, List.flatMap_cons, Option.toList_some,
      List.flatMap_nil, List.append_nil, List.mem_cons, List.not_mem_nil, or_false] at hn
    rcases hn with rfl | rfl | rfl | rfl <;> trivial
  · simp [answered, Call.citations]

end Sample

end AxiomGrid.Audit

import AxiomGrid.Lib.Ed25519
import AxiomGrid.Lib.HashChain
import AxiomGrid.Lib.JsonText

/-!
# The signed audit log

`Ed25519AuditLog` of `kairo/oracles/ed25519_audit_log.py`. An entry's hash covers its content and the
hash of the entry before it, and the signature covers both. Entry identifiers and time stamps are
given with each call.
-/

namespace AxiomGrid.Redline

open Json (dumpsWith sorted sortKeys)

/-- `AuditEntry`. -/
structure AuditEntry where
  entryId : String
  timestamp : String
  action : String
  docHash : String
  editSummary : List (String × Json)
  prevHash : String
  entryHash : String
  signature : String

namespace AuditEntry

/-- `prelim_payload`, the content without the hash of the entry. -/
def prelimPayload (e : AuditEntry) : List (String × Json) :=
  [("entry_id", .str e.entryId), ("timestamp", .str e.timestamp), ("action", .str e.action),
    ("doc_hash", .str e.docHash), ("edit_summary", .obj e.editSummary), ("prev_hash", .str e.prevHash)]

/-- `json.dumps(payload, sort_keys=True, separators=(",", ":")).encode("utf-8")`. -/
def bytesOf (payload : List (String × Json)) : Bytes :=
  utf8 (dumpsWith .compact (sorted (.obj payload)))

def prelimBytes (e : AuditEntry) : Bytes := bytesOf e.prelimPayload

/-- `content_bytes`. -/
def contentBytes (e : AuditEntry) : Bytes :=
  bytesOf (e.prelimPayload ++ [("entry_hash", .str e.entryHash)])

end AuditEntry

/-- `_sha256_hex`. -/
def sha256Hex (data : Bytes) : String := (sha256 data).hex

/-- The calls that make an entry, with their arguments. -/
inductive Call
  | logRunStarted (docHash playbookId : String)
  | logEdit (docHash clauseId clauseLabel oldText newText citation rationale : String)
  | logFlag (docHash clauseId clauseLabel reason : String)
  | logRunCompleted (docHash : String) (totalEdits totalFlagged : ℤ) (injectionDetected : Bool)
  deriving DecidableEq

namespace Call

def action : Call → String
  | logRunStarted .. => "run_started"
  | logEdit .. => "edit_applied"
  | logFlag .. => "clause_flagged"
  | logRunCompleted .. => "run_completed"

def docHash : Call → String
  | logRunStarted docHash _ => docHash
  | logEdit docHash .. => docHash
  | logFlag docHash .. => docHash
  | logRunCompleted docHash .. => docHash

def editSummary : Call → List (String × Json)
  | logRunStarted _ playbookId => [("playbook_id", .str playbookId)]
  | logEdit _ clauseId clauseLabel oldText newText citation rationale =>
    [("clause_id", .str clauseId), ("clause_label", .str clauseLabel), ("old_text", .str oldText),
      ("new_text", .str newText), ("citation", .str citation), ("rationale", .str rationale)]
  | logFlag _ clauseId clauseLabel reason =>
    [("clause_id", .str clauseId), ("clause_label", .str clauseLabel), ("reason", .str reason)]
  | logRunCompleted _ totalEdits totalFlagged injectionDetected =>
    [("total_edits", .int totalEdits), ("total_flagged", .int totalFlagged),
      ("injection_detected", .bool injectionDetected)]

end Call

/-- The log object: `_entries` and `_last_hash`. -/
structure Ed25519AuditLog where
  entries : List AuditEntry
  lastHash : String

/-- The log of a new object. -/
def Ed25519AuditLog.new : Ed25519AuditLog := ⟨[], ""⟩

/-- A call with the identifier and the time its entry gets. -/
structure Event where
  entryId : String
  timestamp : String
  call : Call

section Log

variable (ed : Ed25519) (privateKey : Bytes)

/-- The entry that `_make_entry` creates and signs. -/
def makeEntry (prevHash : String) (event : Event) : AuditEntry :=
  let unhashed : AuditEntry :=
    { entryId := event.entryId, timestamp := event.timestamp, action := event.call.action,
      docHash := event.call.docHash, editSummary := event.call.editSummary, prevHash := prevHash,
      entryHash := "", signature := "" }
  let entry := { unhashed with entryHash := sha256Hex unhashed.prelimBytes }
  { entry with signature := (ed.sign privateKey entry.contentBytes).hex }

/-- One call on the log. -/
def Ed25519AuditLog.log (log : Ed25519AuditLog) (event : Event) : Ed25519AuditLog :=
  let entry := makeEntry ed privateKey log.lastHash event
  ⟨log.entries ++ [entry], entry.entryHash⟩

/-- A run: the calls on a new log. -/
def Ed25519AuditLog.run (events : List Event) : Ed25519AuditLog :=
  events.foldl (Ed25519AuditLog.log ed privateKey) .new

/-- `to_json`. -/
def Ed25519AuditLog.toJson (log : Ed25519AuditLog) : String :=
  dumpsWith .indented (.obj [("entries", .arr (log.entries.map fun e =>
    .obj (e.prelimPayload ++ [("entry_hash", .str e.entryHash), ("signature", .str e.signature)])))])

/-- `verify_entry`. -/
def verifyEntry (publicKey : Bytes) (entry : AuditEntry) : Bool :=
  match Bytes.fromHex? entry.signature with
  | some signature => ed.verify publicKey signature entry.contentBytes
  | none => false

/-- The loop of `verify_chain`. -/
def verifyFrom (publicKey : Bytes) : String → List AuditEntry → Bool
  | _, [] => true
  | expectedPrevHash, entry :: entries =>
    verifyEntry ed publicKey entry && entry.prevHash == expectedPrevHash &&
      entry.entryHash == sha256Hex entry.prelimBytes &&
      verifyFrom publicKey entry.entryHash entries

/-- `verify_chain`. -/
def verifyChain (publicKey : Bytes) (entries : List AuditEntry) : Bool :=
  verifyFrom ed publicKey "" entries

end Log

/-! ### What an entry covers -/

lemma sorted_prelimPayload (e : AuditEntry) :
    sorted (.obj e.prelimPayload) =
      .obj [("action", .str e.action), ("doc_hash", .str e.docHash),
        ("edit_summary", sorted (.obj e.editSummary)), ("entry_id", .str e.entryId),
        ("prev_hash", .str e.prevHash), ("timestamp", .str e.timestamp)] := by
  simp [AuditEntry.prelimPayload, sorted, Json.sortedMembers, sortKeys, Json.insertKey,
    Json.keyBefore]

/-- The summary that is written determines the arguments of the call. -/
lemma call_eq_of_sorted_eq {c c' : Call} (hdoc : c.docHash = c'.docHash)
    (h : sorted (.obj c.editSummary) = sorted (.obj c'.editSummary)) : c = c' := by
  cases c <;> cases c' <;>
    simp_all [Call.editSummary, Call.docHash, sorted, Json.sortedMembers, sortKeys, Json.insertKey,
      Json.keyBefore]

section Chain

variable {ed : Ed25519} {privateKey publicKey : Bytes}

@[simp]
lemma entryHash_makeEntry (prevHash : String) (event : Event) :
    (makeEntry ed privateKey prevHash event).entryHash =
      sha256Hex (makeEntry ed privateKey prevHash event).prelimBytes := rfl

@[simp]
lemma prevHash_makeEntry (prevHash : String) (event : Event) :
    (makeEntry ed privateKey prevHash event).prevHash = prevHash := rfl

lemma signature_makeEntry (prevHash : String) (event : Event) :
    (makeEntry ed privateKey prevHash event).signature =
      (ed.sign privateKey (makeEntry ed privateKey prevHash event).contentBytes).hex := rfl

/-- Entries with the same hashed content come from the same call at the same place of a log. -/
lemma makeEntry_eq_of_prelimBytes_eq {prevHash prevHash' : String} {event event' : Event}
    (h : (makeEntry ed privateKey prevHash event).prelimBytes =
      (makeEntry ed privateKey prevHash' event').prelimBytes) :
    makeEntry ed privateKey prevHash event = makeEntry ed privateKey prevHash' event' := by
  have hpayload := Json.dumpsWith_compact_injective (utf8_injective h)
  rw [sorted_prelimPayload, sorted_prelimPayload] at hpayload
  simp only [Json.obj.injEq, List.cons.injEq, Prod.mk.injEq, Json.str.injEq, true_and,
    and_true] at hpayload
  obtain ⟨-, hdoc, hsummary, hid, hprev, htime⟩ := hpayload
  have hcall : event.call = event'.call := call_eq_of_sorted_eq hdoc hsummary
  have hevent : event = event' := by
    cases event
    cases event'
    simp_all [makeEntry]
  have hprev' : prevHash = prevHash' := hprev
  rw [hevent, hprev']

/-- The entries of a run are linked, the log keeps the last hash, and each entry comes from a
call. -/
lemma run_spec (events : List Event) :
    Linked AuditEntry.prevHash AuditEntry.entryHash ""
        (Ed25519AuditLog.run ed privateKey events).entries ∧
      tip AuditEntry.entryHash "" (Ed25519AuditLog.run ed privateKey events).entries =
        (Ed25519AuditLog.run ed privateKey events).lastHash ∧
      ∀ e ∈ (Ed25519AuditLog.run ed privateKey events).entries,
        ∃ prevHash event, e = makeEntry ed privateKey prevHash event := by
  induction events using List.reverseRecOn with
  | nil => exact ⟨trivial, rfl, by simp [Ed25519AuditLog.run, Ed25519AuditLog.new]⟩
  | append_singleton events event ih =>
    have hrun : Ed25519AuditLog.run ed privateKey (events ++ [event]) =
        (Ed25519AuditLog.run ed privateKey events).log ed privateKey event := by
      simp [Ed25519AuditLog.run]
    rw [hrun]
    obtain ⟨hlinked, htip, hmade⟩ := ih
    refine ⟨linked_concat.mpr ⟨hlinked, htip.symm⟩, tip_concat, ?_⟩
    intro e he
    rcases List.mem_append.mp he with he | he
    · exact hmade e he
    · exact ⟨_, event, List.mem_singleton.mp he⟩

lemma verifyFrom_append {start : String} {entries entries' : List AuditEntry} :
    verifyFrom ed publicKey start (entries ++ entries') = true ↔
      verifyFrom ed publicKey start entries = true ∧
        verifyFrom ed publicKey (tip AuditEntry.entryHash start entries) entries' = true := by
  induction entries generalizing start with
  | nil => simp [verifyFrom]
  | cons e entries ih =>
    simp only [List.cons_append, verifyFrom, Bool.and_eq_true, ih, and_assoc]
    rfl

/-- An honest run is accepted. -/
theorem verifyChain_run (hcorrect : ed.Correct) (hkey : privateKey.length = 32)
    (events : List Event) :
    verifyChain ed (ed.publicKey privateKey) (Ed25519AuditLog.run ed privateKey events).entries =
      true := by
  induction events using List.reverseRecOn with
  | nil => rfl
  | append_singleton events event ih =>
    have hrun : (Ed25519AuditLog.run ed privateKey (events ++ [event])).entries =
        (Ed25519AuditLog.run ed privateKey events).entries ++
          [makeEntry ed privateKey (Ed25519AuditLog.run ed privateKey events).lastHash event] := by
      simp [Ed25519AuditLog.run, Ed25519AuditLog.log]
    rw [hrun, verifyChain, verifyFrom_append, (run_spec events).2.1]
    refine ⟨ih, ?_⟩
    simp only [verifyFrom, prevHash_makeEntry, beq_self_eq_true, Bool.and_true,
      entryHash_makeEntry]
    rw [verifyEntry, signature_makeEntry, Bytes.fromHex?_hex]
    exact hcorrect privateKey _ hkey

/-- What `verify_chain` accepts is linked. -/
lemma linked_of_verifyFrom {start : String} {entries : List AuditEntry}
    (h : verifyFrom ed publicKey start entries = true) :
    Linked AuditEntry.prevHash AuditEntry.entryHash start entries := by
  induction entries generalizing start with
  | nil => trivial
  | cons e entries ih =>
    simp only [verifyFrom, Bool.and_eq_true, beq_iff_eq] at h
    exact ⟨h.1.1.2, ih h.2⟩

lemma entryHash_ne_empty {events : List Event} {e : AuditEntry}
    (he : e ∈ (Ed25519AuditLog.run ed privateKey events).entries) : e.entryHash ≠ "" := by
  obtain ⟨prevHash, event, rfl⟩ := (run_spec events).2.2 e he
  exact sha256_hex_ne_empty _

/-- Without collisions the hash determines an entry of the runs. -/
lemma eq_of_entryHash_eq {runs : List (List Event)} {events events' : List Event} {a b : AuditEntry}
    (hfree : CollisionFree (runs.flatMap fun events =>
      (Ed25519AuditLog.run ed privateKey events).entries.map AuditEntry.prelimBytes))
    (hevents : events ∈ runs) (hevents' : events' ∈ runs)
    (ha : a ∈ (Ed25519AuditLog.run ed privateKey events).entries)
    (hb : b ∈ (Ed25519AuditLog.run ed privateKey events').entries)
    (h : a.entryHash = b.entryHash) : a = b := by
  have hmem : ∀ {evs e}, evs ∈ runs → e ∈ (Ed25519AuditLog.run ed privateKey evs).entries →
      e.prelimBytes ∈ runs.flatMap fun events =>
        (Ed25519AuditLog.run ed privateKey events).entries.map AuditEntry.prelimBytes := by
    intro evs e hevs he
    exact List.mem_flatMap.mpr ⟨evs, hevs, List.mem_map_of_mem he⟩
  have ha' := hmem hevents ha
  have hb' := hmem hevents' hb
  obtain ⟨prevHash, event, rfl⟩ := (run_spec events).2.2 a ha
  obtain ⟨prevHash', event', rfl⟩ := (run_spec events').2.2 b hb
  apply makeEntry_eq_of_prelimBytes_eq
  exact hfree _ ha' _ hb' (Bytes.hex_injective h)

/-- A list of entries of honest runs under one key that `verify_chain` accepts is a prefix of one of
the runs. -/
theorem verifyChain_prefix_of_run (ed : Ed25519) (privateKey : Bytes) (runs : List (List Event))
    (hfree : CollisionFree (runs.flatMap fun events =>
      (Ed25519AuditLog.run ed privateKey events).entries.map AuditEntry.prelimBytes))
    (entries : List AuditEntry)
    (hentries : ∀ e ∈ entries, ∃ events ∈ runs, e ∈ (Ed25519AuditLog.run ed privateKey events).entries)
    (hok : verifyChain ed (ed.publicKey privateKey) entries = true) :
    entries = [] ∨
      ∃ events ∈ runs, entries <+: (Ed25519AuditLog.run ed privateKey events).entries := by
  obtain rfl | ⟨init, last, rfl⟩ := List.eq_nil_or_concat' entries
  · exact .inl rfl
  · obtain ⟨events, hevents, hlast⟩ := hentries last (by simp)
    obtain ⟨before, after, hsplit⟩ := List.append_of_mem hlast
    refine .inr ⟨events, hevents, ?_⟩
    -- the accepted list and the run up to `last` are chains with the same last hash
    obtain ⟨hrun, -, -⟩ := @run_spec ed privateKey events
    rw [hsplit, ← List.singleton_append, ← List.append_assoc] at hrun
    have hbefore := (linked_append.mp hrun).1
    have hmem : ∀ e ∈ before ++ [last], e ∈ (Ed25519AuditLog.run ed privateKey events).entries := by
      intro e he
      rw [hsplit]
      simp only [List.mem_append, List.mem_cons] at he ⊢
      tauto
    have heq : List.Forall₂ (· = ·) (init ++ [last]) (before ++ [last]) := by
      apply (linked_of_verifyFrom hok).forall₂_of_tip_eq hbefore
      · intro a ha b hb hab
        obtain ⟨events', hevents', ha⟩ := hentries a ha
        obtain rfl := eq_of_entryHash_eq hfree hevents' hevents ha (hmem b hb) hab
        exact ⟨rfl, rfl⟩
      · intro a ha
        obtain ⟨events', -, ha⟩ := hentries a ha
        exact entryHash_ne_empty ha
      · intro b hb
        exact entryHash_ne_empty (hmem b hb)
      · rw [tip_concat, tip_concat]
    rw [List.forall₂_eq_eq_eq] at heq
    rw [heq, hsplit]
    exact ⟨after, by simp⟩

end Chain

namespace Sample

def privateKey : Bytes := List.replicate 32 7

def firstRun : List Event := [⟨"1", "t", .logRunStarted "h" "p"⟩]

def secondRun : List Event := [⟨"2", "t", .logRunStarted "h" "p"⟩]

lemma sha256_prelimBytes_firstRun :
    sha256 (makeEntry .transparent privateKey "" ⟨"1", "t", .logRunStarted "h" "p"⟩).prelimBytes ≠
      sha256 (makeEntry .transparent privateKey "" ⟨"2", "t", .logRunStarted "h" "p"⟩).prelimBytes := by
  rw [AuditEntry.prelimBytes, AuditEntry.prelimBytes, AuditEntry.bytesOf, AuditEntry.bytesOf,
    Json.dumpsWith, Json.dumpsWith, utf8_ofList, utf8_ofList]
  decide +kernel

lemma collisionFree_runs :
    CollisionFree ([firstRun, secondRun].flatMap fun events =>
      (Ed25519AuditLog.run .transparent privateKey events).entries.map AuditEntry.prelimBytes) := by
  have hmessages : ([firstRun, secondRun].flatMap fun events =>
      (Ed25519AuditLog.run .transparent privateKey events).entries.map AuditEntry.prelimBytes) =
      [(makeEntry .transparent privateKey "" ⟨"1", "t", .logRunStarted "h" "p"⟩).prelimBytes,
        (makeEntry .transparent privateKey "" ⟨"2", "t", .logRunStarted "h" "p"⟩).prelimBytes] := rfl
  rw [hmessages]
  exact .of_nodup (by simpa using sha256_prelimBytes_firstRun)

theorem firstRun_prefix_of_run :
    (Ed25519AuditLog.run .transparent privateKey firstRun).entries = [] ∨
      ∃ events ∈ [firstRun, secondRun],
        (Ed25519AuditLog.run .transparent privateKey firstRun).entries <+:
          (Ed25519AuditLog.run .transparent privateKey events).entries :=
  verifyChain_prefix_of_run .transparent privateKey [firstRun, secondRun]
    collisionFree_runs _ (fun _ he => ⟨firstRun, List.mem_cons_self, he⟩)
    (verifyChain_run Ed25519.transparent_correct List.length_replicate firstRun)

end Sample

end AxiomGrid.Redline

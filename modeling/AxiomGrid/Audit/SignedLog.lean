import AxiomGrid.Lib.HashChain
import AxiomGrid.Lib.JsonSorted

/-!
# The signed log of answers and refusals

`SignedAuditLog` of `kernel/core/audit_log.py`. An entry is signed by an HMAC over its content, which
includes the signature of the entry before it. Identifiers and time stamps are given with each call,
and `none` stands for a call that raises.
-/

namespace AxiomGrid.Audit

open Json (dumpsWith sorted setItem)

/-! ### Answers -/

/-- A coordinate: an integer or a float. -/
inductive Number where
  | int (n : ℤ)
  | float (x : FloatRepr)
  deriving DecidableEq

namespace Number

def toJson : Number → Json
  | int n => .int n
  | float x => .float x

/-- The number it compares as. -/
def value : Number → PyFloat
  | int n => .fin n
  | float x => x.value

end Number

/-- `BBox`; the constructor refuses `x0 > x1` and `y0 > y1`. -/
structure BBox where
  x0 : Number
  y0 : Number
  x1 : Number
  y1 : Number
  x_ordered : PyFloat.lt x1.value x0.value = false
  y_ordered : PyFloat.lt y1.value y0.value = false

/-- The constructor of `BBox`; `none` is the `ValueError`. -/
def BBox.mk? (x0 y0 x1 y1 : Number) : Option BBox :=
  if h : PyFloat.lt x1.value x0.value = false ∧ PyFloat.lt y1.value y0.value = false then
    some ⟨x0, y0, x1, y1, h.1, h.2⟩
  else none

/-- `Anchor`. -/
structure Anchor where
  chunkId : String := ""
  charSpan : ℤ × ℤ := (0, 0)
  page : ℤ := 0
  bbox : Option BBox := none

/-- `Answer`, with the fields the log reads. -/
structure Answer where
  query : String := ""
  citations : List Anchor := []
  grounded : Bool := false

/-! ### Entries -/

/-- `AuditEntry`. What `from_json` puts into the fields is not checked. -/
structure AuditEntry where
  entryId : Json
  timestamp : Json
  question : Json
  documentHash : Json
  outcome : Json
  grounded : Json
  sourceRegion : Json
  cascadeStage : Json
  modelId : Json
  signature : Json := .str ""
  prevSignature : Json := .str ""

namespace AuditEntry

/-- The payload of `content_bytes`. -/
def payload (e : AuditEntry) : List (String × Json) :=
  [("entry_id", e.entryId), ("timestamp", e.timestamp), ("question", e.question),
    ("document_hash", e.documentHash), ("outcome", e.outcome), ("grounded", e.grounded),
    ("source_region", e.sourceRegion), ("cascade_stage", e.cascadeStage), ("model_id", e.modelId),
    ("prev_signature", e.prevSignature)]

/-- `content_bytes`. -/
def contentBytes (e : AuditEntry) : Bytes := utf8 (dumpsWith .compact (sorted (.obj e.payload)))

/-- The members of an entry in `to_json`. -/
def toDict (e : AuditEntry) : List (String × Json) :=
  [("entry_id", e.entryId), ("timestamp", e.timestamp), ("question", e.question),
    ("document_hash", e.documentHash), ("outcome", e.outcome), ("grounded", e.grounded),
    ("source_region", e.sourceRegion), ("cascade_stage", e.cascadeStage), ("model_id", e.modelId),
    ("signature", e.signature), ("prev_signature", e.prevSignature)]

/-- The entry that `from_json` makes of a dictionary; `none` is the `KeyError`. -/
def fromDict (d : List (String × Json)) : Option AuditEntry := do
  some
    { entryId := ← d.lookup "entry_id"
      timestamp := ← d.lookup "timestamp"
      question := ← d.lookup "question"
      documentHash := ← d.lookup "document_hash"
      outcome := ← d.lookup "outcome"
      grounded := ← d.lookup "grounded"
      sourceRegion := ← d.lookup "source_region"
      cascadeStage := ← d.lookup "cascade_stage"
      modelId := ← d.lookup "model_id"
      signature := ← d.lookup "signature"
      prevSignature := ← d.lookup "prev_signature" }

end AuditEntry

/-! ### The log -/

/-- A session key; the constructor of the log refuses an empty one. -/
abbrev SessionKey := {key : Bytes // key ≠ []}

/-- `SignedAuditLog`. -/
structure SignedAuditLog where
  sessionKey : SessionKey
  entries : List AuditEntry
  lastSignature : Json

/-- A new log. -/
def SignedAuditLog.new (key : SessionKey) : SignedAuditLog := ⟨key, [], .str ""⟩

/-- `_sign`. -/
def sign (key : SessionKey) (content : Bytes) : String := (hmacSha256 key content).hex

/-- `_anchor_to_region`. -/
def anchorToRegion (anchor : Anchor) : List (String × Json) :=
  let region :=
    [("chunk_id", Json.str anchor.chunkId),
      ("char_span", .arr [.int anchor.charSpan.1, .int anchor.charSpan.2]), ("page", .int anchor.page)]
  match anchor.bbox with
  | some bbox =>
    setItem region "bbox" (.obj [("x0", bbox.x0.toJson), ("y0", bbox.y0.toJson),
      ("x1", bbox.x1.toJson), ("y1", bbox.y1.toJson)])
  | none => region

/-- `source_region` of `log_answer`. -/
def sourceRegion : List Anchor → List (String × Json)
  | [] => []
  | [anchor] => anchorToRegion anchor
  | anchor :: anchors =>
    setItem (anchorToRegion anchor) "additional_citations"
      (.arr (anchors.map fun a => .obj (anchorToRegion a)))

/-- The two calls, with their arguments. -/
inductive Call where
  | logAnswer (answer : Answer) (documentHash modelId : String) (cascadeStage : String := "")
  | logRefusal (question documentHash cascadeStage modelId : String)

/-- A call with the identifier and the time its entry gets. -/
structure Event where
  entryId : String
  timestamp : String
  call : Call

/-- The entry before it is signed. -/
def Event.unsigned (event : Event) (lastSignature : Json) : AuditEntry :=
  match event.call with
  | .logAnswer answer documentHash modelId cascadeStage =>
    let cascadeStage :=
      if cascadeStage = "" then (if answer.grounded then "EXACT" else "BLOCK") else cascadeStage
    { entryId := .str event.entryId, timestamp := .str event.timestamp, question := .str answer.query,
      documentHash := .str documentHash, outcome := .str "answer", grounded := .bool answer.grounded,
      sourceRegion := .obj (sourceRegion answer.citations), cascadeStage := .str cascadeStage,
      modelId := .str modelId, prevSignature := lastSignature }
  | .logRefusal question documentHash cascadeStage modelId =>
    { entryId := .str event.entryId, timestamp := .str event.timestamp, question := .str question,
      documentHash := .str documentHash, outcome := .str "refusal", grounded := .bool false,
      sourceRegion := .obj [], cascadeStage := .str cascadeStage, modelId := .str modelId,
      prevSignature := lastSignature }

/-- The entry of a call. -/
def Event.entry (event : Event) (key : SessionKey) (lastSignature : Json) : AuditEntry :=
  let entry := event.unsigned lastSignature
  { entry with signature := .str (sign key entry.contentBytes) }

namespace SignedAuditLog

/-- `log_answer` or `log_refusal`. -/
def log (log : SignedAuditLog) (event : Event) : SignedAuditLog :=
  let entry := event.entry log.sessionKey log.lastSignature
  { log with entries := log.entries ++ [entry], lastSignature := entry.signature }

/-- The calls on a new log. -/
def run (key : SessionKey) (events : List Event) : SignedAuditLog := events.foldl log (new key)

end SignedAuditLog

/-- `verify_entry`; `compare_digest` raises on what is no ASCII text. -/
def verifyEntry (key : SessionKey) (entry : AuditEntry) : Option Bool :=
  match entry.signature with
  | .str signature =>
    if signature.toList.all (·.toNat < 128) then some (signature == sign key entry.contentBytes)
    else none
  | _ => none

/-- The loop of `verify_chain`. -/
def verifyFrom (key : SessionKey) : Json → List AuditEntry → Option Bool
  | _, [] => some true
  | expectedPrev, entry :: entries => do
    if !(← verifyEntry key entry) then some false
    else if !Json.pyEq entry.prevSignature expectedPrev then some false
    else verifyFrom key entry.signature entries

/-- `verify_chain` on a list of entries. -/
def verifyEntries (key : SessionKey) (entries : List AuditEntry) : Option Bool :=
  verifyFrom key (.str "") entries

namespace SignedAuditLog

/-- `verify_chain`. -/
def verifyChain (log : SignedAuditLog) : Option Bool := verifyEntries log.sessionKey log.entries

/-- `to_json`. -/
def toJson (log : SignedAuditLog) : String :=
  dumpsWith .indented (.obj [("entries", .arr (log.entries.map fun e => .obj e.toDict))])

/-- What a `for` loop takes from a value; `none` is the `TypeError`. -/
def iterate : Json → Option (List Json)
  | .arr xs => some xs
  | .obj kvs => some (kvs.map fun p => .str p.1)
  | .str s => some (s.toList.map fun c => .str (String.singleton c))
  | _ => none

/-- The loop of `from_json`. -/
def addDicts (log : SignedAuditLog) : List Json → Option SignedAuditLog
  | [] => some log
  | .obj d :: dicts => do
    let entry ← AuditEntry.fromDict d
    addDicts { log with entries := log.entries ++ [entry], lastSignature := entry.signature } dicts
  | _ :: _ => none

/-- `from_json`. -/
def fromJson (readFloat : List Char → FloatRepr) (data : String) (key : Bytes) :
    Option SignedAuditLog := do
  let obj ← Json.loads readFloat data
  if hkey : key ≠ [] then
    let log ← addDicts (new ⟨key, hkey⟩) (← iterate (← obj.get? "entries"))
    if (← log.verifyChain) then some log else none
  else none

end SignedAuditLog

/-! ### What a verified list is -/

variable {key : SessionKey} {entries entries' : List AuditEntry}

/-- An entry that carries its own signature. -/
def Signed (key : SessionKey) (e : AuditEntry) : Prop := e.signature = .str (sign key e.contentBytes)

lemma verifyEntry_eq_true_iff {e : AuditEntry} : verifyEntry key e = some true ↔ Signed key e := by
  have hascii : ∀ m : Bytes, (sign key m).toList.all (·.toNat < 128) = true := by
    intro m
    rw [List.all_eq_true]
    intro c hc
    exact decide_eq_true (Bytes.hex_ascii _ c hc)
  rw [Signed, verifyEntry]
  split
  · rename_i s hs
    rw [hs, Json.str.injEq]
    constructor
    · intro h
      split_ifs at h
      simpa using h
    · rintro rfl
      rw [if_pos (hascii _), beq_self_eq_true]
  · rename_i hs
    constructor
    · intro h
      cases h
    · intro h
      exact absurd h (hs _)

/-- A list verifies if and only if its entries are signed and form a chain. -/
lemma verifyFrom_eq_true_iff {start : String} :
    verifyFrom key (.str start) entries = some true ↔
      (∀ e ∈ entries, Signed key e) ∧
        Linked AuditEntry.prevSignature AuditEntry.signature (.str start) entries := by
  induction entries generalizing start with
  | nil => simp [verifyFrom, Linked]
  | cons e entries ih =>
    rw [List.forall_mem_cons, Linked, verifyFrom]
    constructor
    · intro h
      obtain ⟨ok, hok, h⟩ := Option.bind_eq_some_iff.mp h
      cases ok with
      | false => cases h
      | true =>
        have hsigned := verifyEntry_eq_true_iff.mp hok
        simp only [Bool.not_true, Bool.false_eq_true, if_false] at h
        split_ifs at h with hprev
        · cases h
        · rw [hsigned, ih] at h
          rw [Bool.not_eq_true, Bool.not_eq_false'] at hprev
          rw [hsigned]
          exact ⟨⟨hsigned, h.1⟩, Json.pyEq_str_right.mp hprev, h.2⟩
    · rintro ⟨⟨hsigned, hall⟩, hprev, hlinked⟩
      rw [hsigned] at hlinked
      rw [verifyEntry_eq_true_iff.mpr hsigned, hprev, Json.pyEq_str_right.mpr rfl, hsigned]
      exact ih.mpr ⟨hall, hlinked⟩

/-! ### Honest logs -/

namespace SignedAuditLog

variable {readFloat : List Char → FloatRepr}

lemma run_concat (events : List Event) (event : Event) :
    run key (events ++ [event]) = (run key events).log event := by
  simp [run]

@[simp]
lemma sessionKey_run (events : List Event) : (run key events).sessionKey = key := by
  induction events using List.reverseRecOn with
  | nil => rfl
  | append_singleton events event ih =>
    rw [run_concat]
    exact ih

/-- The entries of a run are linked, each is the entry of its call, and the log keeps the last
signature. -/
lemma run_spec (events : List Event) :
    Linked AuditEntry.prevSignature AuditEntry.signature (.str "") (run key events).entries ∧
      tip AuditEntry.signature (.str "") (run key events).entries = (run key events).lastSignature ∧
      (∃ s, (run key events).lastSignature = .str s) ∧
      ∀ e ∈ (run key events).entries, ∃ event ∈ events, ∃ s, e = event.entry key (.str s) := by
  induction events using List.reverseRecOn with
  | nil => exact ⟨trivial, rfl, ⟨"", rfl⟩, by simp [run, new]⟩
  | append_singleton events event ih =>
    obtain ⟨hlinked, htip, ⟨s, hs⟩, hall⟩ := ih
    have hentry : (run key (events ++ [event])).entries =
        (run key events).entries ++ [event.entry key (.str s)] := by
      rw [run_concat, log, sessionKey_run, hs]
    have hlast : (run key (events ++ [event])).lastSignature = (event.entry key (.str s)).signature := by
      rw [run_concat, log, sessionKey_run, hs]
    have hprev : (event.entry key (.str s)).prevSignature = .str s := by
      rw [Event.entry, Event.unsigned]
      cases event.call <;> rfl
    rw [hentry, hlast]
    refine ⟨linked_concat.mpr ⟨hlinked, ?_⟩, tip_concat, ⟨_, rfl⟩, ?_⟩
    · rw [hprev, htip, hs]
    · intro e he
      rw [List.mem_append, List.mem_singleton] at he
      obtain he | rfl := he
      · obtain ⟨event', hmem, hmade⟩ := hall e he
        exact ⟨event', List.mem_append_left _ hmem, hmade⟩
      · exact ⟨event, by simp, s, rfl⟩

lemma signed_entry (event : Event) (prev : Json) : Signed key (event.entry key prev) := by
  rw [Signed, Event.entry, Event.unsigned]
  cases event.call <;> rfl

lemma verifyChain_run (events : List Event) : (run key events).verifyChain = some true := by
  obtain ⟨hlinked, -, -, hall⟩ := @run_spec key events
  rw [verifyChain, sessionKey_run, verifyEntries, verifyFrom_eq_true_iff]
  refine ⟨?_, hlinked⟩
  intro e he
  obtain ⟨event, -, s, rfl⟩ := hall e he
  exact signed_entry event _

end SignedAuditLog

/-! ### Reading a log back -/

/-- The coordinates in the citations of a call. -/
def Call.coordinates : Call → List Number
  | .logAnswer answer .. =>
    answer.citations.flatMap fun a => a.bbox.toList.flatMap fun b => [b.x0, b.y0, b.x1, b.y1]
  | .logRefusal .. => []

section

variable {r : Json.Reader}

lemma readsBack_anchorToRegion {anchor : Anchor}
    (h : ∀ b ∈ anchor.bbox, ∀ n ∈ [b.x0, b.y0, b.x1, b.y1], Json.ReadsBack r n.toJson) :
    Json.ReadsBack r (.obj (anchorToRegion anchor)) := by
  rw [anchorToRegion]
  cases hb : anchor.bbox with
  | none => exact ⟨trivial, ⟨trivial, trivial, trivial⟩, trivial, trivial⟩
  | some b =>
    have hnums := h b hb
    simp only [List.forall_mem_cons] at hnums
    obtain ⟨hx0, hy0, hx1, hy1, -⟩ := hnums
    apply Json.readsBack_setItem
    · exact ⟨trivial, ⟨trivial, trivial, trivial⟩, trivial, trivial⟩
    · exact ⟨hx0, hy0, hx1, hy1, trivial⟩

lemma distinctKeys_toJson (n : Number) : Json.DistinctKeys n.toJson := by cases n <;> trivial

lemma distinctKeys_anchorToRegion (anchor : Anchor) :
    Json.DistinctKeys (.obj (anchorToRegion anchor)) := by
  have hregion : Json.DistinctKeys (.obj [("chunk_id", .str anchor.chunkId),
      ("char_span", .arr [.int anchor.charSpan.1, .int anchor.charSpan.2]),
      ("page", .int anchor.page)]) :=
    ⟨show ["chunk_id", "char_span", "page"].Nodup by decide, trivial, ⟨trivial, trivial, trivial⟩,
      trivial, trivial⟩
  rw [anchorToRegion]
  cases anchor.bbox with
  | none => exact hregion
  | some b =>
    apply Json.distinctKeys_setItem hregion
    exact ⟨show ["x0", "y0", "x1", "y1"].Nodup by decide, distinctKeys_toJson _,
      distinctKeys_toJson _, distinctKeys_toJson _, distinctKeys_toJson _, trivial⟩

lemma readsBack_sourceRegion {anchors : List Anchor}
    (h : ∀ a ∈ anchors, Json.ReadsBack r (.obj (anchorToRegion a))) :
    Json.ReadsBack r (.obj (sourceRegion anchors)) := by
  match anchors with
  | [] => trivial
  | [a] => exact h a List.mem_cons_self
  | a :: b :: anchors =>
    rw [List.forall_mem_cons] at h
    apply Json.readsBack_setItem h.1
    rw [Json.ReadsBack, Json.itemsReadBack_iff, List.forall_mem_map]
    exact h.2

lemma distinctKeys_sourceRegion (anchors : List Anchor) :
    Json.DistinctKeys (.obj (sourceRegion anchors)) := by
  match anchors with
  | [] => exact ⟨List.nodup_nil, trivial⟩
  | [a] => exact distinctKeys_anchorToRegion a
  | a :: b :: anchors =>
    apply Json.distinctKeys_setItem (distinctKeys_anchorToRegion a)
    rw [Json.DistinctKeys, Json.distinctKeysItems_iff, List.forall_mem_map]
    exact fun c _ => distinctKeys_anchorToRegion c

lemma readsBack_entry {event : Event} (h : ∀ n ∈ event.call.coordinates, Json.ReadsBack r n.toJson)
    (key : SessionKey) (s : String) : Json.ReadsBack r (.obj (event.entry key (.str s)).toDict) := by
  rw [Event.entry, Event.unsigned]
  cases hcall : event.call with
  | logAnswer answer documentHash modelId cascadeStage =>
    have hregion : Json.ReadsBack r (.obj (sourceRegion answer.citations)) := by
      apply readsBack_sourceRegion
      intro a ha
      apply readsBack_anchorToRegion
      intro b hb n hn
      apply h
      rw [hcall, Call.coordinates, List.mem_flatMap]
      exact ⟨a, ha, List.mem_flatMap.mpr ⟨b, Option.mem_toList.mpr hb, hn⟩⟩
    exact ⟨trivial, trivial, trivial, trivial, trivial, trivial, hregion, trivial, trivial, trivial,
      trivial, trivial⟩
  | logRefusal question documentHash cascadeStage modelId =>
    exact ⟨trivial, trivial, trivial, trivial, trivial, trivial, trivial, trivial, trivial, trivial,
      trivial, trivial⟩

lemma distinctKeys_entry (event : Event) (key : SessionKey) (s : String) :
    Json.DistinctKeys (.obj (event.entry key (.str s)).toDict) := by
  have hnames : ["entry_id", "timestamp", "question", "document_hash", "outcome", "grounded",
      "source_region", "cascade_stage", "model_id", "signature", "prev_signature"].Nodup := by
    decide
  rw [Event.entry, Event.unsigned]
  cases event.call with
  | logAnswer answer documentHash modelId cascadeStage =>
    exact ⟨hnames, trivial, trivial, trivial, trivial, trivial, trivial,
      distinctKeys_sourceRegion answer.citations, trivial, trivial, trivial, trivial, trivial⟩
  | logRefusal question documentHash cascadeStage modelId =>
    exact ⟨hnames, trivial, trivial, trivial, trivial, trivial, trivial,
      ⟨List.nodup_nil, trivial⟩, trivial, trivial, trivial, trivial, trivial⟩

end

namespace SignedAuditLog

variable {readFloat : List Char → FloatRepr}

lemma fromDict_toDict (e : AuditEntry) : AuditEntry.fromDict e.toDict = some e := rfl

lemma addDicts_toDict (entries : List AuditEntry) (log : SignedAuditLog) :
    addDicts log (entries.map fun e => .obj e.toDict) =
      some ⟨log.sessionKey, log.entries ++ entries,
        tip AuditEntry.signature log.lastSignature entries⟩ := by
  induction entries generalizing log with
  | nil => simp [addDicts]
  | cons e entries ih =>
    rw [List.map_cons, addDicts, fromDict_toDict, Option.bind_eq_bind, Option.bind_some, ih,
      List.append_assoc]
    rfl

/-- A log that verifies is read back from its JSON text. -/
lemma fromJson_toJson {log : SignedAuditLog}
    (hreads : ∀ e ∈ log.entries, Json.ReadsBack ⟨readFloat, true⟩ (.obj e.toDict))
    (hkeys : ∀ e ∈ log.entries, Json.DistinctKeys (.obj e.toDict))
    (htip : tip AuditEntry.signature (.str "") log.entries = log.lastSignature)
    (hverify : log.verifyChain = some true) :
    fromJson readFloat log.toJson log.sessionKey.1 = some log := by
  have hreads' : Json.ReadsBack ⟨readFloat, true⟩
      (.obj [("entries", .arr (log.entries.map fun e => .obj e.toDict))]) := by
    refine ⟨?_, trivial⟩
    rw [Json.ReadsBack, Json.itemsReadBack_iff, List.forall_mem_map]
    exact hreads
  have hkeys' : Json.DistinctKeys
      (.obj [("entries", .arr (log.entries.map fun e => .obj e.toDict))]) := by
    refine ⟨List.nodup_singleton _, ?_, trivial⟩
    rw [Json.DistinctKeys, Json.distinctKeysItems_iff, List.forall_mem_map]
    exact hkeys
  have hadd : addDicts (new log.sessionKey) (log.entries.map fun e => .obj e.toDict) = some log := by
    rw [addDicts_toDict]
    simp only [new, List.nil_append, htip]
  have hload := Json.loads_dumpsWith Json.Style.readable_indented hreads' hkeys'
  rw [fromJson, toJson, hload, Option.bind_eq_bind, Option.bind_some, dif_pos log.sessionKey.2]
  change (do
    let log ← addDicts (new log.sessionKey) (log.entries.map fun e => .obj e.toDict)
    if (← log.verifyChain) then some log else none) = some log
  rw [hadd, Option.bind_eq_bind, Option.bind_some, hverify]
  rfl

lemma fromJson_toJson_run (key : SessionKey) (events : List Event)
    (hfloats : ∀ event ∈ events, ∀ n ∈ event.call.coordinates,
      Json.ReadsBack ⟨readFloat, true⟩ n.toJson) :
    fromJson readFloat (run key events).toJson key.1 = some (run key events) := by
  obtain ⟨-, htip, -, hall⟩ := @run_spec key events
  have hback := @fromJson_toJson readFloat (run key events) ?_ ?_ htip (verifyChain_run events)
  · rwa [sessionKey_run] at hback
  · intro e he
    obtain ⟨event, hevent, s, rfl⟩ := hall e he
    exact readsBack_entry (hfloats event hevent) key s
  · intro e he
    obtain ⟨event, -, s, rfl⟩ := hall e he
    exact distinctKeys_entry event key s

end SignedAuditLog

/-! ### The last signature binds the entries -/

lemma sorted_payload (e : AuditEntry) :
    sorted (.obj e.payload) =
      .obj [("cascade_stage", sorted e.cascadeStage), ("document_hash", sorted e.documentHash),
        ("entry_id", sorted e.entryId), ("grounded", sorted e.grounded),
        ("model_id", sorted e.modelId), ("outcome", sorted e.outcome),
        ("prev_signature", sorted e.prevSignature), ("question", sorted e.question),
        ("source_region", sorted e.sourceRegion), ("timestamp", sorted e.timestamp)] := by
  simp [AuditEntry.payload, sorted, Json.sortedMembers, Json.sortKeys, Json.insertKey,
    Json.keyBefore]

/-- Two entries are the same, up to the order of the members of dictionaries in their fields. -/
def SameEntry (e e' : AuditEntry) : Prop :=
  e.toDict.map (fun p => sorted p.2) = e'.toDict.map (fun p => sorted p.2)

lemma sameEntry_of_contentBytes {e e' : AuditEntry} (h : e.contentBytes = e'.contentBytes)
    (hsig : e.signature = e'.signature) : SameEntry e e' := by
  have hpayload := Json.dumpsWith_compact_injective (utf8_injective h)
  rw [sorted_payload, sorted_payload] at hpayload
  simp only [Json.obj.injEq, List.cons.injEq, Prod.mk.injEq, true_and, and_true] at hpayload
  obtain ⟨hstage, hdoc, hid, hgrounded, hmodel, houtcome, hprev, hquestion, hregion, htime⟩ := hpayload
  simp only [SameEntry, AuditEntry.toDict, List.map_cons, List.map_nil, hstage, hdoc, hid, hgrounded,
    hmodel, houtcome, hprev, hquestion, hregion, htime, hsig]

lemma SameEntry.prevSignature {e e' : AuditEntry} (h : SameEntry e e') {s : String}
    (hs : e.prevSignature = .str s) : e'.prevSignature = .str s := by
  simp only [SameEntry, AuditEntry.toDict, List.map_cons, List.cons.injEq] at h
  obtain ⟨-, -, -, -, -, -, -, -, -, -, hprev, -⟩ := h
  rw [hs] at hprev
  exact Json.eq_str_of_sorted hprev.symm

/-- In a chain of signed entries every one names a text as the signature before it. -/
lemma prevSignature_of_linked {start : String} (hall : ∀ e ∈ entries, Signed key e)
    (h : Linked AuditEntry.prevSignature AuditEntry.signature (.str start) entries) :
    ∀ e ∈ entries, ∃ s, e.prevSignature = .str s := by
  induction entries generalizing start with
  | nil => simp
  | cons e entries ih =>
    rw [List.forall_mem_cons] at hall ⊢
    have hrest := h.2
    rw [hall.1] at hrest
    exact ⟨⟨start, h.1⟩, ih hall.2 hrest⟩

lemma sign_ne_empty (m : Bytes) : sign key m ≠ "" := sha256_hex_ne_empty _

/-- Two lists that verify and end in one signature hold the same entries. -/
lemma sameEntries_of_last_signature (h : verifyEntries key entries = some true)
    (h' : verifyEntries key entries' = some true)
    (hlast : entries.getLast?.map AuditEntry.signature = entries'.getLast?.map AuditEntry.signature)
    (hfree : HmacCollisionFree key ((entries ++ entries').map AuditEntry.contentBytes)) :
    List.Forall₂ SameEntry entries entries' := by
  rw [verifyEntries, verifyFrom_eq_true_iff] at h h'
  obtain ⟨hall, hlinked⟩ := h
  obtain ⟨hall', hlinked'⟩ := h'
  have hempty : ∀ e, Signed key e → e.signature ≠ .str "" := by
    intro e he
    rw [he, Ne, Json.str.injEq]
    exact sign_ne_empty _
  apply hlinked.forall₂_of_tip_eq hlinked'
  · intro a ha b hb hab
    have hhex : sign key a.contentBytes = sign key b.contentBytes := by
      have hsigned := hall a ha
      rw [Signed, hab, hall' b hb, Json.str.injEq] at hsigned
      exact hsigned.symm
    have hbytes : a.contentBytes = b.contentBytes := by
      apply hfree _ _ _ _ (Bytes.hex_injective hhex)
      · exact List.mem_map_of_mem (List.mem_append_left _ ha)
      · exact List.mem_map_of_mem (List.mem_append_right _ hb)
    have hsame := sameEntry_of_contentBytes hbytes hab
    obtain ⟨s, hs⟩ := prevSignature_of_linked hall hlinked a ha
    exact ⟨hsame, by rw [hs, hsame.prevSignature hs]⟩
  · exact fun a ha => hempty a (hall a ha)
  · exact fun b hb => hempty b (hall' b hb)
  · rw [tip_eq_getLast?, tip_eq_getLast?, hlast]

namespace Sample

def sessionKey : SessionKey := ⟨[107], by simp⟩

lemma not_int_one_lt_zero : PyFloat.lt (Number.int 1).value (Number.int 0).value = false := by
  simp [PyFloat.lt, Number.value]

def unitBox : BBox :=
  ⟨.int 0, .int 0, .int 1, .int 1, not_int_one_lt_zero, not_int_one_lt_zero⟩

/-- An answer with a citation. -/
def answered : Event := ⟨"1", "t", .logAnswer ⟨"q", [⟨"c", (0, 3), 1, some unitBox⟩], true⟩ "h" "m" ""⟩

def refused : Event := ⟨"2", "t", .logRefusal "q" "h" "BLOCK" "m"⟩

def entry : AuditEntry := answered.entry sessionKey (.str "")

/-- The entry with the members of its source region in another order. -/
def otherOrder : AuditEntry :=
  { entry with sourceRegion := .obj (anchorToRegion ⟨"c", (0, 3), 1, some unitBox⟩).reverse }

lemma contentBytes_otherOrder : otherOrder.contentBytes = entry.contentBytes := by
  have hregion : sorted otherOrder.sourceRegion = sorted entry.sourceRegion := by
    simp [otherOrder, entry, answered, Event.entry, Event.unsigned, sourceRegion, anchorToRegion,
      setItem, sorted, Json.sortedMembers, Json.sortKeys, Json.insertKey, Json.keyBefore]
  rw [AuditEntry.contentBytes, AuditEntry.contentBytes, sorted_payload, sorted_payload, hregion]
  rfl

lemma verifyEntries_singleton {e : AuditEntry} (h : Signed sessionKey e)
    (hprev : e.prevSignature = .str "") : verifyEntries sessionKey [e] = some true := by
  rw [verifyEntries, verifyFrom_eq_true_iff, List.forall_mem_singleton]
  exact ⟨h, hprev, trivial⟩

lemma signed_otherOrder : Signed sessionKey otherOrder := by
  rw [Signed, contentBytes_otherOrder]
  exact SignedAuditLog.signed_entry answered (.str "")

def readSome (_ : List Char) : FloatRepr := ⟨"3.5".toList, by decide⟩

end Sample

end AxiomGrid.Audit

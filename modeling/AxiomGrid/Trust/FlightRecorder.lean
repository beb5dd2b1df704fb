import AxiomGrid.Lib.HashChain
import AxiomGrid.Lib.JsonLines
import AxiomGrid.Lib.JsonSorted

/-!
# The flight recorder

`kairo/trust/flight_recorder.py`: a log of entries, one JSON object a line, each with the hash of the
entry before it. A file is its bytes, and the text of a float is read by a parameter. `none` stands
for a call that raises. The `agent_id` of a log is neither saved nor checked and is left out.
-/

namespace AxiomGrid.Trust.FlightRecorder

open Json (dumpsWith sorted setItem)

/-! ### Entries -/

/-- `FlightEntry`. What `load` puts into the fields is not checked. -/
structure FlightEntry where
  seq : Json
  timestamp : Json
  stage : Json
  inputHash : Json
  outputHash : Json
  receiptHash : Json
  prevHash : Json
  selfHash : Json
  metadata : Json

/-- `to_dict`. -/
def FlightEntry.toDict (e : FlightEntry) : List (String × Json) :=
  [("seq", e.seq), ("timestamp", e.timestamp), ("stage", e.stage), ("input_hash", e.inputHash),
    ("output_hash", e.outputHash), ("receipt_hash", e.receiptHash), ("prev_hash", e.prevHash),
    ("self_hash", e.selfHash), ("metadata", e.metadata)]

/-- `from_dict`; `none` is the `KeyError`. -/
def FlightEntry.fromDict (d : List (String × Json)) : Option FlightEntry := do
  some
    { seq := ← d.lookup "seq"
      timestamp := ← d.lookup "timestamp"
      stage := ← d.lookup "stage"
      inputHash := ← d.lookup "input_hash"
      outputHash := ← d.lookup "output_hash"
      receiptHash := (d.lookup "receipt_hash").getD .null
      prevHash := ← d.lookup "prev_hash"
      selfHash := ← d.lookup "self_hash"
      metadata := (d.lookup "metadata").getD (.obj []) }

/-- `json.dumps(data, ensure_ascii=False, separators=(",", ":"), sort_keys=True).encode("utf-8")`. -/
def canonicalBytes (data : Json) : Bytes := utf8 (dumpsWith .compactUnicode (sorted data))

/-- `_canonical_hash`. -/
def canonicalHash : Json → String
  | .str s => (sha256 (utf8 s)).hex
  | data => (sha256 (canonicalBytes data)).hex

/-- The bytes that `_entry_hash` hashes, the entry with an empty `self_hash`. -/
def entryBytes (d : List (String × Json)) : Bytes := canonicalBytes (.obj (setItem d "self_hash" (.str "")))

/-- `_entry_hash`. -/
def entryHash (d : List (String × Json)) : String := (sha256 (entryBytes d)).hex

/-! ### Logs -/

/-- `FlightLog`: `entries` and `_prev_hash`. -/
structure FlightLog where
  entries : List FlightEntry
  prevHash : Json

/-- A new log. -/
def FlightLog.new : FlightLog := ⟨[], .str "genesis"⟩

/-- The arguments of `add_entry`, with the time of the call. -/
structure Call where
  stage : String
  inputData : Json
  outputData : Json
  receiptHash : Option String
  metadata : Option (List (String × Json))
  time : ℤ

/-- `entry_dict` of `add_entry` before its hash is set. -/
def FlightLog.entryDict (log : FlightLog) (call : Call) : List (String × Json) :=
  [("seq", .int log.entries.length), ("timestamp", .int call.time), ("stage", .str call.stage),
    ("input_hash", .str (canonicalHash call.inputData)),
    ("output_hash", .str (canonicalHash call.outputData)),
    ("receipt_hash", (call.receiptHash.map Json.str).getD .null), ("prev_hash", log.prevHash),
    ("self_hash", .str ""), ("metadata", .obj (call.metadata.getD []))]

/-- `add_entry`. -/
def FlightLog.addEntry (log : FlightLog) (call : Call) : Option FlightLog := do
  let entryDict := log.entryDict call
  let entry ← FlightEntry.fromDict (setItem entryDict "self_hash" (.str (entryHash entryDict)))
  some ⟨log.entries ++ [entry], entry.selfHash⟩

/-- The calls on a new log. -/
def FlightLog.record (calls : List Call) : Option FlightLog :=
  calls.foldlM FlightLog.addEntry .new

/-- The file that `save` writes. -/
def FlightLog.save (log : FlightLog) : Bytes :=
  utf8 (String.ofList (Str.writeLines
    (log.entries.map fun e => (dumpsWith .spacedUnicode (.obj e.toDict)).toList)))

/-! ### Files -/

section

variable (readFloat : List Char → FloatRepr)

/-- The lines of a file; `none` is a file that is not UTF-8. -/
def fileLines (file : Bytes) : Option (List Str) :=
  (utf8Decode? file).map fun text => Str.lines (Str.universalNewlines text.toList)

/-- The loop of `load`. -/
def loadLines (log : FlightLog) : List Str → Option FlightLog
  | [] => some log
  | line :: lines =>
    if Str.strip line = [] then loadLines log lines
    else
      match Json.loads readFloat (String.ofList (Str.strip line)) with
      | some (.obj d) => do
        let entry ← FlightEntry.fromDict d
        loadLines ⟨log.entries ++ [entry], entry.selfHash⟩ lines
      | _ => none

/-- `load`; the file is `none` when it does not exist. -/
def FlightLog.load (file : Option Bytes) : Option FlightLog := do
  loadLines readFloat .new (← fileLines (← file))

/-- A violation, with the values its text shows. -/
inductive Violation where
  | notFound
  | invalidJson (lineNum : ℕ)
  | selfHashMismatch (seq : Json) (computed : String) (stored : Json)
  | prevHashMismatch (seq : Json) (expected got : Json)

/-- `v[:16]`; `none` is the `TypeError` of a value that is no sequence. -/
def slice16 : Json → Option Json
  | .str s => some (.str (String.ofList (s.toList.take 16)))
  | .arr xs => some (.arr (xs.take 16))
  | _ => none

/-- The check of `self_hash`. -/
def checkSelfHash (entry : List (String × Json)) : Option (List Violation) :=
  let computed := entryHash entry
  if Json.pyEq (.str computed) ((entry.lookup "self_hash").getD .null) then some []
  else do
    let stored ← slice16 ((entry.lookup "self_hash").getD (.str ""))
    some [.selfHashMismatch ((entry.lookup "seq").getD .null)
      (String.ofList (computed.toList.take 16)) stored]

/-- The check of `prev_hash`. -/
def checkPrevHash (prevHash : Json) (entry : List (String × Json)) : Option (List Violation) :=
  if Json.pyEq ((entry.lookup "prev_hash").getD .null) prevHash then some []
  else do
    let expected ← slice16 prevHash
    let got ← slice16 ((entry.lookup "prev_hash").getD (.str ""))
    some [.prevHashMismatch ((entry.lookup "seq").getD .null) expected got]

/-- The loop of `verify_flight_log` from a line on. -/
def verifyLines : ℕ → Json → List Str → Option (List Violation)
  | _, _, [] => some []
  | lineNum, prevHash, line :: lines =>
    if Str.strip line = [] then verifyLines (lineNum + 1) prevHash lines
    else
      match Json.loads readFloat (String.ofList (Str.strip line)) with
      | none => do
        let rest ← verifyLines (lineNum + 1) prevHash lines
        some (.invalidJson lineNum :: rest)
      | some (.obj entry) => do
        let self ← checkSelfHash entry
        let chain ← checkPrevHash prevHash entry
        let rest ← verifyLines (lineNum + 1) ((entry.lookup "self_hash").getD (.str "")) lines
        some (self ++ chain ++ rest)
      -- a value that is no dictionary has no `get`
      | some _ => none

/-- `verify_flight_log`; the file is `none` when it does not exist. -/
def verifyFlightLog : Option Bytes → Option (List Violation)
  | none => some [.notFound]
  | some file => do verifyLines readFloat 1 (.str "genesis") (← fileLines file)

/-- The values on the lines of a file. -/
def lineValues (lines : List Str) : List Json :=
  lines.filterMap fun line =>
    if Str.strip line = [] then none else Json.loads readFloat (String.ofList (Str.strip line))

/-- The entries a file holds. -/
def fileEntries (file : Bytes) : List Json := ((fileLines file).map (lineValues readFloat)).getD []

end

/-! ### Recording -/

/-- The entry that a call adds. -/
def FlightLog.entry (log : FlightLog) (call : Call) : FlightEntry where
  seq := .int log.entries.length
  timestamp := .int call.time
  stage := .str call.stage
  inputHash := .str (canonicalHash call.inputData)
  outputHash := .str (canonicalHash call.outputData)
  receiptHash := (call.receiptHash.map Json.str).getD .null
  prevHash := log.prevHash
  selfHash := .str (entryHash (log.entryDict call))
  metadata := .obj (call.metadata.getD [])

lemma FlightLog.addEntry_eq (log : FlightLog) (call : Call) :
    log.addEntry call = some ⟨log.entries ++ [log.entry call], (log.entry call).selfHash⟩ := rfl

lemma fromDict_toDict (e : FlightEntry) : FlightEntry.fromDict e.toDict = some e := rfl

lemma FlightLog.setItem_entry (log : FlightLog) (call : Call) :
    setItem (log.entry call).toDict "self_hash" (.str "") = log.entryDict call := rfl

lemma FlightLog.selfHash_entry (log : FlightLog) (call : Call) :
    (log.entry call).selfHash = .str (entryHash (log.entry call).toDict) := by
  rw [entryHash, entryBytes, setItem_entry]
  rfl

/-- The metadata of a call is a dictionary without floats. -/
def Call.Plain (call : Call) : Prop :=
  ∀ m ∈ call.metadata, Json.FloatFree (.obj m) ∧ Json.DistinctKeys (.obj m)

/-- An entry that is read back from its line and carries its own hash. -/
structure Recorded (e : FlightEntry) : Prop where
  readsBack : ∀ r, Json.ReadsBack r (.obj e.toDict)
  distinctKeys : Json.DistinctKeys (.obj e.toDict)
  selfHash : e.selfHash = .str (entryHash e.toDict)

lemma Call.Plain.metadata {call : Call} (h : call.Plain) :
    Json.FloatFree (.obj (call.metadata.getD [])) ∧
      Json.DistinctKeys (.obj (call.metadata.getD [])) := by
  cases hm : call.metadata with
  | none => exact ⟨trivial, List.nodup_nil, trivial⟩
  | some m => exact h m hm

lemma FlightLog.recorded_entry {log : FlightLog} {call : Call} {s : String}
    (hprev : log.prevHash = .str s) (hcall : call.Plain) : Recorded (log.entry call) := by
  obtain ⟨hfree, hkeys⟩ := hcall.metadata
  refine ⟨?_, ⟨?_, ?_⟩, log.selfHash_entry call⟩
  · intro r
    have hreceipt : Json.ReadsBack r (log.entry call).receiptHash := by
      rw [FlightLog.entry]
      cases call.receiptHash <;> trivial
    have hprev' : Json.ReadsBack r (log.entry call).prevHash := by
      rw [FlightLog.entry, hprev]
      trivial
    exact ⟨trivial, trivial, trivial, trivial, trivial, hreceipt, hprev', trivial,
      Json.FloatFree.readsBack _ hfree, trivial⟩
  · have hnames : ["seq", "timestamp", "stage", "input_hash", "output_hash", "receipt_hash",
        "prev_hash", "self_hash", "metadata"].Nodup := by
      decide
    exact hnames
  · have hreceipt : Json.DistinctKeys (log.entry call).receiptHash := by
      rw [FlightLog.entry]
      cases call.receiptHash <;> trivial
    have hprev' : Json.DistinctKeys (log.entry call).prevHash := by
      rw [FlightLog.entry, hprev]
      trivial
    exact ⟨trivial, trivial, trivial, trivial, trivial, hreceipt, hprev', trivial, hkeys, trivial⟩

/-- A run records a chain of entries, and the log keeps the hash of the last one. -/
lemma FlightLog.record_spec (calls : List Call) (hcalls : ∀ call ∈ calls, call.Plain) :
    ∃ log, FlightLog.record calls = some log ∧
      Linked FlightEntry.prevHash FlightEntry.selfHash (.str "genesis") log.entries ∧
      tip FlightEntry.selfHash (.str "genesis") log.entries = log.prevHash ∧
      (∃ s, log.prevHash = .str s) ∧ ∀ e ∈ log.entries, Recorded e := by
  induction calls using List.reverseRecOn with
  | nil => exact ⟨.new, rfl, trivial, rfl, ⟨"genesis", rfl⟩, by simp [FlightLog.new]⟩
  | append_singleton calls call ih =>
    rw [List.forall_mem_append] at hcalls
    obtain ⟨log, hrun, hlinked, htip, ⟨s, hs⟩, hall⟩ := ih hcalls.1
    refine ⟨⟨log.entries ++ [log.entry call], (log.entry call).selfHash⟩, ?_, ?_, tip_concat,
      ⟨_, rfl⟩, ?_⟩
    · rw [FlightLog.record, List.foldlM_append, ← FlightLog.record, hrun, Option.bind_eq_bind,
        Option.bind_some, List.foldlM_cons, FlightLog.addEntry_eq]
      rfl
    · exact linked_concat.mpr ⟨hlinked, htip.symm⟩
    · rw [List.forall_mem_append, List.forall_mem_singleton]
      exact ⟨hall, FlightLog.recorded_entry hs (hcalls.2 call (by simp))⟩

/-! ### Reading a saved log -/

section

variable {readFloat : List Char → FloatRepr}

/-- The line of an entry. -/
def entryLine (e : FlightEntry) : Str := (dumpsWith .spacedUnicode (.obj e.toDict)).toList

lemma strip_entryLine (e : FlightEntry) : Str.strip (entryLine e) = entryLine e := by
  rw [entryLine, dumpsWith, String.toList_ofList, Json.strip_renderWith_obj]

lemma entryLine_ne_nil (e : FlightEntry) : entryLine e ≠ [] := by
  obtain ⟨cs, hcs⟩ := Json.renderWith_obj_eq_cons .spacedUnicode 0 e.toDict
  rw [entryLine, dumpsWith, String.toList_ofList, hcs]
  exact List.cons_ne_nil _ _

lemma loads_entryLine {e : FlightEntry} (h : Recorded e) :
    Json.loads readFloat (String.ofList (entryLine e)) = some (.obj e.toDict) := by
  rw [entryLine, String.ofList_toList]
  exact Json.loads_dumpsWith Json.Style.readable_spacedUnicode (h.readsBack _) h.distinctKeys

lemma fileLines_save (log : FlightLog) :
    fileLines log.save = some (log.entries.map entryLine ++ [[]]) := by
  have hlines : ∀ l ∈ log.entries.map entryLine, '\n' ∉ l ∧ '\r' ∉ l := by
    intro l hl
    obtain ⟨e, -, rfl⟩ := List.mem_map.mp hl
    rw [entryLine, dumpsWith, String.toList_ofList]
    exact Json.no_newline_renderWith Json.Style.spacedUnicode_writes 0 _
  have hback := Str.lines_universalNewlines_writeLines hlines
  rw [fileLines, FlightLog.save, utf8Decode?_utf8, Option.map_some, String.toList_ofList]
  exact congrArg some hback

lemma checkSelfHash_of_recorded {e : FlightEntry} (h : Recorded e) :
    checkSelfHash e.toDict = some [] := by
  have hself : (e.toDict.lookup "self_hash").getD .null = .str (entryHash e.toDict) := h.selfHash
  rw [checkSelfHash, if_pos]
  rw [hself, Json.pyEq_str_left]

lemma checkPrevHash_toDict {e : FlightEntry} {s : String} (h : e.prevHash = .str s) :
    checkPrevHash (.str s) e.toDict = some [] := by
  have hprev : (e.toDict.lookup "prev_hash").getD .null = .str s := h
  rw [checkPrevHash, if_pos]
  rw [hprev, Json.pyEq_str_left]

/-- The lines of a chain raise no violation. -/
lemma verifyLines_entries {entries : List FlightEntry} (hall : ∀ e ∈ entries, Recorded e) {s : String}
    (hlinked : Linked FlightEntry.prevHash FlightEntry.selfHash (.str s) entries) (lineNum : ℕ) :
    verifyLines readFloat lineNum (.str s) (entries.map entryLine ++ [[]]) = some [] := by
  induction entries generalizing s lineNum with
  | nil => rfl
  | cons e entries ih =>
    rw [List.forall_mem_cons] at hall
    have hnext := hlinked.2
    rw [hall.1.selfHash] at hnext
    have hself : (e.toDict.lookup "self_hash").getD (.str "") = .str (entryHash e.toDict) :=
      hall.1.selfHash
    rw [List.map_cons, List.cons_append, verifyLines, strip_entryLine, if_neg (entryLine_ne_nil e),
      loads_entryLine hall.1]
    simp only [checkSelfHash_of_recorded hall.1, checkPrevHash_toDict hlinked.1, hself,
      ih hall.2 hnext, Option.bind_eq_bind, Option.bind_some, List.append_nil]

lemma loadLines_entries {entries : List FlightEntry} (hall : ∀ e ∈ entries, Recorded e)
    (log : FlightLog) :
    loadLines readFloat log (entries.map entryLine ++ [[]]) =
      some ⟨log.entries ++ entries, tip FlightEntry.selfHash log.prevHash entries⟩ := by
  induction entries generalizing log with
  | nil => simp [loadLines, Str.strip]
  | cons e entries ih =>
    rw [List.forall_mem_cons] at hall
    rw [List.map_cons, List.cons_append, loadLines, strip_entryLine, if_neg (entryLine_ne_nil e),
      loads_entryLine hall.1]
    simp only [fromDict_toDict, ih hall.2, Option.bind_eq_bind, Option.bind_some,
      List.append_assoc, List.singleton_append]
    rfl

/-- A saved run has no violation and is read back. -/
lemma FlightLog.verify_load_save (calls : List Call) (hcalls : ∀ call ∈ calls, call.Plain) :
    ∃ log, FlightLog.record calls = some log ∧
      verifyFlightLog readFloat (some log.save) = some [] ∧
      FlightLog.load readFloat (some log.save) = some log := by
  obtain ⟨log, hrun, hlinked, htip, -, hall⟩ := FlightLog.record_spec calls hcalls
  refine ⟨log, hrun, ?_, ?_⟩
  · rw [verifyFlightLog, fileLines_save]
    exact verifyLines_entries hall hlinked 1
  · rw [FlightLog.load]
    simp only [fileLines_save, Option.bind_eq_bind, Option.bind_some, loadLines_entries hall,
      FlightLog.new, List.nil_append, htip]

/-! ### Files without violations -/

/-- An entry of a file as `verify_flight_log` accepts it. -/
structure Accepted (d : List (String × Json)) : Prop where
  nodup : (d.map Prod.fst).Nodup
  selfHash : d.lookup "self_hash" = some (.str (entryHash d))
  prevHash : ∃ s, d.lookup "prev_hash" = some (.str s)

/-- `entry.get("prev_hash")`. -/
def prevHashOf (d : List (String × Json)) : Json := (d.lookup "prev_hash").getD .null

/-- `entry.get("self_hash", "")`. -/
def selfHashOf (d : List (String × Json)) : Json := (d.lookup "self_hash").getD (.str "")

lemma lookup_eq_of_getD {d : List (String × Json)} {k s : String}
    (h : (d.lookup k).getD .null = .str s) : d.lookup k = some (.str s) := by
  cases hv : d.lookup k with
  | none =>
    rw [hv] at h
    cases h
  | some v =>
    rw [hv] at h
    exact congrArg some h

lemma checkSelfHash_eq_nil {d : List (String × Json)} (h : checkSelfHash d = some []) :
    d.lookup "self_hash" = some (.str (entryHash d)) := by
  rw [checkSelfHash] at h
  split_ifs at h with heq
  · exact lookup_eq_of_getD (Json.pyEq_str_left.mp heq)
  · obtain ⟨stored, -, h⟩ := Option.bind_eq_some_iff.mp h
    cases h

lemma checkPrevHash_eq_nil {d : List (String × Json)} {s : String}
    (h : checkPrevHash (.str s) d = some []) : d.lookup "prev_hash" = some (.str s) := by
  rw [checkPrevHash] at h
  split_ifs at h with heq
  · exact lookup_eq_of_getD (Json.pyEq_str_right.mp heq)
  · obtain ⟨expected, -, h⟩ := Option.bind_eq_some_iff.mp h
    obtain ⟨got, -, h⟩ := Option.bind_eq_some_iff.mp h
    cases h

/-- The lines of a file without violations hold a chain of accepted entries. -/
lemma accepted_of_verifyLines {lines : List Str} {lineNum : ℕ} {s : String}
    (h : verifyLines readFloat lineNum (.str s) lines = some []) :
    ∃ ds : List (List (String × Json)), lineValues readFloat lines = ds.map Json.obj ∧
      (∀ d ∈ ds, Accepted d) ∧ Linked prevHashOf selfHashOf (.str s) ds := by
  induction lines generalizing lineNum s with
  | nil => exact ⟨[], rfl, by simp, trivial⟩
  | cons line lines ih =>
    rw [verifyLines] at h
    split_ifs at h with hblank
    · obtain ⟨ds, hvalues, hall, hlinked⟩ := ih h
      exact ⟨ds, by rw [lineValues, List.filterMap_cons, if_pos hblank, ← lineValues, hvalues], hall,
        hlinked⟩
    · split at h
      · obtain ⟨rest, -, h⟩ := Option.bind_eq_some_iff.mp h
        cases h
      · rename_i entry hloads
        obtain ⟨self, hself, h⟩ := Option.bind_eq_some_iff.mp h
        obtain ⟨chain, hchain, h⟩ := Option.bind_eq_some_iff.mp h
        obtain ⟨rest, hrest, h⟩ := Option.bind_eq_some_iff.mp h
        rw [Option.some.injEq, List.append_eq_nil_iff, List.append_eq_nil_iff] at h
        obtain ⟨⟨rfl, rfl⟩, rfl⟩ := h
        have hstored := checkSelfHash_eq_nil hself
        have hprev := checkPrevHash_eq_nil hchain
        rw [hstored] at hrest
        obtain ⟨ds, hvalues, hall, hlinked⟩ := ih hrest
        refine ⟨entry :: ds, ?_, ?_, ?_, ?_⟩
        · rw [lineValues, List.filterMap_cons, if_neg hblank, hloads, ← lineValues, hvalues]
          rfl
        · rw [List.forall_mem_cons]
          exact ⟨⟨Json.nodup_of_loads hloads, hstored, s, hprev⟩, hall⟩
        · rw [prevHashOf, hprev]
          rfl
        · rw [selfHashOf, hstored]
          exact hlinked
      · cases h

lemma entryHash_ne_genesis (d : List (String × Json)) : entryHash d ≠ "genesis" := by
  intro h
  have hback := Bytes.fromHex?_hex (sha256 (entryBytes d))
  rw [← entryHash, h] at hback
  have hnone : Bytes.fromHex? "genesis" = none := by decide
  rw [hnone] at hback
  cases hback

/-- Without collisions, accepted entries with the same hash are the same up to the order of keys. -/
lemma sorted_eq_of_selfHash_eq {d d' : List (String × Json)} (hd : Accepted d) (hd' : Accepted d')
    (hfree : CollisionFree [entryBytes d, entryBytes d']) (h : selfHashOf d = selfHashOf d') :
    sorted (.obj d) = sorted (.obj d') ∧ prevHashOf d = prevHashOf d' := by
  rw [selfHashOf, selfHashOf, hd.selfHash, hd'.selfHash, Option.getD_some, Option.getD_some,
    Json.str.injEq] at h
  have hbytes : entryBytes d = entryBytes d' :=
    hfree _ (by simp) _ (by simp) (Bytes.hex_injective h)
  have hrender := utf8_injective hbytes
  rw [dumpsWith, dumpsWith, Json.renderWith_compactUnicode, Json.renderWith_compactUnicode] at hrender
  have hcleared := Json.render_injective (String.ofList_injective hrender)
  have hkey := hd'.selfHash
  rw [← h] at hkey
  have hsorted := Json.sorted_eq_of_setItem hd.nodup hd'.nodup hd.selfHash hkey hcleared
  obtain ⟨s, hprev⟩ := hd.prevHash
  have hprev' := Json.lookup_str_of_sorted_eq hd.nodup hd'.nodup hsorted hprev
  refine ⟨hsorted, ?_⟩
  rw [prevHashOf, prevHashOf, hprev, hprev']

/-- The bytes that were hashed for the entries of a file. -/
def hashedBytes (readFloat : List Char → FloatRepr) (file : Bytes) : List Bytes :=
  (fileEntries readFloat file).filterMap fun entry => entry.members?.map entryBytes

lemma accepted_of_verifyFlightLog {file : Bytes}
    (h : verifyFlightLog readFloat (some file) = some []) :
    ∃ ds : List (List (String × Json)), fileEntries readFloat file = ds.map Json.obj ∧
      (∀ d ∈ ds, Accepted d) ∧ Linked prevHashOf selfHashOf (.str "genesis") ds := by
  obtain ⟨lines, hlines, h⟩ := Option.bind_eq_some_iff.mp h
  obtain ⟨ds, hvalues, hall, hlinked⟩ := accepted_of_verifyLines h
  exact ⟨ds, by rw [fileEntries, hlines, Option.map_some, Option.getD_some, hvalues], hall, hlinked⟩

lemma mem_hashedBytes {file : Bytes} {ds : List (List (String × Json))}
    (hentries : fileEntries readFloat file = ds.map Json.obj) {d : List (String × Json)}
    (hd : d ∈ ds) : entryBytes d ∈ hashedBytes readFloat file := by
  rw [hashedBytes, hentries, List.mem_filterMap]
  exact ⟨.obj d, List.mem_map_of_mem hd, rfl⟩

/-- The hash of the last entry is the tip of the chain. -/
lemma tip_eq_of_getLast {ds : List (List (String × Json))} (hall : ∀ d ∈ ds, Accepted d) {last : Json}
    (hlast : last ∈ (ds.map Json.obj).getLast?) (start : Json) :
    last.get? "self_hash" = some (tip selfHashOf start ds) := by
  induction ds using List.reverseRecOn with
  | nil => cases hlast
  | append_singleton ds d =>
    rw [List.map_append, List.map_singleton, List.getLast?_concat, Option.mem_some_iff] at hlast
    subst hlast
    rw [tip_concat, selfHashOf, (hall d (by simp)).selfHash]
    exact (hall d (by simp)).selfHash

/-- Two files without violations whose last entries carry the same hash hold the same entries. -/
lemma entries_eq_of_last_selfHash {file file' : Bytes}
    (h : verifyFlightLog readFloat (some file) = some [])
    (h' : verifyFlightLog readFloat (some file') = some []) {last last' : Json}
    (hlast : last ∈ (fileEntries readFloat file).getLast?)
    (hlast' : last' ∈ (fileEntries readFloat file').getLast?)
    (heq : last.get? "self_hash" = last'.get? "self_hash")
    (hfree : CollisionFree (hashedBytes readFloat file ++ hashedBytes readFloat file')) :
    List.Forall₂ (fun a b => sorted a = sorted b) (fileEntries readFloat file)
      (fileEntries readFloat file') := by
  obtain ⟨ds, hentries, hall, hlinked⟩ := accepted_of_verifyFlightLog h
  obtain ⟨ds', hentries', hall', hlinked'⟩ := accepted_of_verifyFlightLog h'
  rw [hentries] at hlast
  rw [hentries'] at hlast'
  have hgenesis : ∀ d, Accepted d → selfHashOf d ≠ .str "genesis" := by
    intro d hd
    rw [selfHashOf, hd.selfHash, Option.getD_some, Ne, Json.str.injEq]
    exact entryHash_ne_genesis d
  rw [hentries, hentries', List.forall₂_map_left_iff, List.forall₂_map_right_iff]
  apply hlinked.forall₂_of_tip_eq hlinked'
  · intro a ha b hb hab
    apply sorted_eq_of_selfHash_eq (hall a ha) (hall' b hb) _ hab
    apply hfree.mono
    simp only [List.cons_subset, List.nil_subset, and_true, List.mem_append]
    exact ⟨.inl (mem_hashedBytes hentries ha), .inr (mem_hashedBytes hentries' hb)⟩
  · exact fun a ha => hgenesis a (hall a ha)
  · exact fun b hb => hgenesis b (hall' b hb)
  · rw [tip_eq_of_getLast hall hlast (.str "genesis"),
      tip_eq_of_getLast hall' hlast' (.str "genesis")] at heq
    exact Option.some.inj heq

end

/-- What is recorded is accepted and read back, and the hash of the last entry binds the entries of
an accepted file. -/
theorem flightLog_chain_binds (readFloat : List Char → FloatRepr) :
    (∀ calls : List Call, (∀ call ∈ calls, call.Plain) →
      ∃ log, FlightLog.record calls = some log ∧
        verifyFlightLog readFloat (some log.save) = some [] ∧
        FlightLog.load readFloat (some log.save) = some log) ∧
    ∀ file file' : Bytes, verifyFlightLog readFloat (some file) = some [] →
      verifyFlightLog readFloat (some file') = some [] →
      ∀ last ∈ (fileEntries readFloat file).getLast?,
      ∀ last' ∈ (fileEntries readFloat file').getLast?,
      last.get? "self_hash" = last'.get? "self_hash" →
      CollisionFree (hashedBytes readFloat file ++ hashedBytes readFloat file') →
      List.Forall₂ (fun a b => sorted a = sorted b) (fileEntries readFloat file)
        (fileEntries readFloat file') := by
  constructor
  · intro calls hcalls
    exact FlightLog.verify_load_save calls hcalls
  · intro file file' h h' last hlast last' hlast' heq hfree
    exact entries_eq_of_last_selfHash h h' hlast hlast' heq hfree

namespace Sample

def call : Call := ⟨"ingest", .str "in", .str "out", none, some [("pages", .int 2)], 7⟩

lemma call_plain : call.Plain := by
  intro m hm
  cases hm
  exact ⟨⟨trivial, trivial⟩, by decide, trivial, trivial⟩

/-- The members of the first entry, in the order `save` writes them and in another one. -/
def members : List (String × Json) := (FlightLog.new.entry call).toDict

def otherOrder : List (String × Json) := members.reverse

def oneLine (d : List (String × Json)) : Bytes := utf8 (dumpsWith .spacedUnicode (.obj d))

lemma recorded_call : Recorded (FlightLog.new.entry call) := FlightLog.recorded_entry rfl call_plain

lemma fileLines_oneLine (d : List (String × Json)) :
    fileLines (oneLine d) = some [Json.renderWith .spacedUnicode 0 (.obj d)] := by
  obtain ⟨hlf, hcr⟩ := Json.no_newline_renderWith Json.Style.spacedUnicode_writes 0 (.obj d)
  rw [fileLines, oneLine, utf8Decode?_utf8, dumpsWith, Option.map_some, String.toList_ofList,
    Str.universalNewlines_of_not_mem hcr, Str.lines, List.splitOn_eq_singleton hlf]

variable (readFloat : List Char → FloatRepr) {d : List (String × Json)}

lemma loads_oneLine (hd : ∀ r, Json.ReadsBack r (.obj d)) (hkeys : Json.DistinctKeys (.obj d)) :
    Str.strip (Json.renderWith .spacedUnicode 0 (.obj d)) ≠ [] ∧
      Json.loads readFloat (String.ofList (Str.strip (Json.renderWith .spacedUnicode 0 (.obj d)))) =
        some (.obj d) := by
  rw [Json.strip_renderWith_obj]
  constructor
  · obtain ⟨cs, hcs⟩ := Json.renderWith_obj_eq_cons .spacedUnicode 0 d
    rw [hcs]
    exact List.cons_ne_nil _ _
  · exact Json.loads_dumpsWith Json.Style.readable_spacedUnicode (hd _) hkeys

lemma fileEntries_oneLine (hd : ∀ r, Json.ReadsBack r (.obj d)) (hkeys : Json.DistinctKeys (.obj d)) :
    fileEntries readFloat (oneLine d) = [.obj d] := by
  obtain ⟨hne, hloads⟩ := loads_oneLine readFloat hd hkeys
  rw [fileEntries, fileLines_oneLine, Option.map_some, Option.getD_some, lineValues,
    List.filterMap_cons, if_neg hne, hloads]
  rfl

lemma verify_oneLine (hd : ∀ r, Json.ReadsBack r (.obj d)) (hkeys : Json.DistinctKeys (.obj d))
    (hself : checkSelfHash d = some []) (hprev : checkPrevHash (.str "genesis") d = some []) :
    verifyFlightLog readFloat (some (oneLine d)) = some [] := by
  obtain ⟨hne, hloads⟩ := loads_oneLine readFloat hd hkeys
  rw [verifyFlightLog, fileLines_oneLine, Option.bind_eq_bind, Option.bind_some, verifyLines,
    if_neg hne, hloads]
  simp only [hself, hprev, verifyLines, Option.bind_eq_bind, Option.bind_some, List.append_nil]

lemma entryBytes_reverse (e : FlightEntry) : entryBytes e.toDict.reverse = entryBytes e.toDict := by
  rw [entryBytes, entryBytes, canonicalBytes, canonicalBytes]
  simp [FlightEntry.toDict, setItem, sorted, Json.sortedMembers, Json.sortKeys, Json.insertKey,
    Json.keyBefore]

lemma readsBack_otherOrder (r : Json.Reader) : Json.ReadsBack r (.obj otherOrder) :=
  ⟨⟨trivial, trivial⟩, trivial, trivial, trivial, trivial, trivial, trivial, trivial, trivial,
    trivial⟩

lemma distinctKeys_otherOrder : Json.DistinctKeys (.obj otherOrder) := by
  refine ⟨?_, ⟨List.nodup_singleton _, trivial, trivial⟩, trivial, trivial, trivial, trivial, trivial,
    trivial, trivial, trivial, trivial⟩
  rw [otherOrder, List.map_reverse, List.nodup_reverse]
  exact recorded_call.distinctKeys.1

lemma checkSelfHash_otherOrder : checkSelfHash otherOrder = some [] := by
  have hself : (otherOrder.lookup "self_hash").getD .null = .str (entryHash members) :=
    recorded_call.selfHash
  have hhash : entryHash otherOrder = entryHash members := by
    rw [entryHash, entryHash, otherOrder, members, entryBytes_reverse]
  rw [checkSelfHash, if_pos]
  rw [hself, hhash, Json.pyEq_str_left]

/-- A reader of floats for files without any. -/
def readSome (_ : List Char) : FloatRepr := ⟨"2.5".toList, by decide⟩

/-- A run of one call, and two files with its entry in different orders of the members. -/
theorem flightLog_chain_binds_otherOrder :
    (∃ log, FlightLog.record [call] = some log ∧
      verifyFlightLog readSome (some log.save) = some [] ∧
      FlightLog.load readSome (some log.save) = some log) ∧
    List.Forall₂ (fun a b => sorted a = sorted b) (fileEntries readSome (oneLine members))
      (fileEntries readSome (oneLine otherOrder)) := by
  have hentries : fileEntries readSome (oneLine members) = [.obj members] :=
    fileEntries_oneLine readSome recorded_call.readsBack recorded_call.distinctKeys
  have hentries' := fileEntries_oneLine readSome readsBack_otherOrder distinctKeys_otherOrder
  obtain ⟨hruns, hfiles⟩ := flightLog_chain_binds readSome
  constructor
  · apply hruns
    simp only [List.mem_singleton, forall_eq]
    exact call_plain
  · apply hfiles (oneLine members) (oneLine otherOrder) _ _ (.obj members) _ (.obj otherOrder) _ rfl
    · rw [hashedBytes, hashedBytes, hentries, hentries']
      intro a ha b hb _
      simp only [List.filterMap_cons, Json.members?, Option.map_some, List.filterMap_nil,
        List.singleton_append, List.mem_cons, otherOrder, members, entryBytes_reverse,
        List.not_mem_nil, or_false, or_self] at ha hb
      rw [ha, hb]
    · exact verify_oneLine readSome recorded_call.readsBack recorded_call.distinctKeys
        (checkSelfHash_of_recorded recorded_call) (checkPrevHash_toDict rfl)
    · exact verify_oneLine readSome readsBack_otherOrder distinctKeys_otherOrder
        checkSelfHash_otherOrder (checkPrevHash_toDict rfl)
    · rw [hentries]
      rfl
    · rw [hentries']
      rfl

end Sample

end AxiomGrid.Trust.FlightRecorder

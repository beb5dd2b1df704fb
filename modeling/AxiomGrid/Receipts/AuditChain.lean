import AxiomGrid.Receipts.Recovery

/-!
# The audit chain

`TamperEvidentAuditLog` of `phantom-core/src/identity.rs`: like the receipts, the entries are chained,
signed and appended one a line, but they carry no number, and when the log is opened the head of the
chain is the hash of the last line that can be read.
-/

namespace AxiomGrid.Receipts

/-! ### Structs in JSON -/

/-- The values that a derived `Deserialize` finds for its fields: in an object with no field twice, other
keys ignored, or in an array of the fields in order. -/
def structFields (names : List String) : Json → Option (String → Option Json)
  | .obj kvs =>
    if names.all fun k => (kvs.map Prod.fst).count k ≤ 1 then some fun k => kvs.lookup k else none
  | .arr xs => if xs.length ≤ names.length then some fun k => (names.zip xs).lookup k else none
  | _ => none

/-- The members of a struct are found under their names. -/
lemma structFields_obj {kvs : List (String × Json)} (h : (kvs.map Prod.fst).Nodup) :
    structFields (kvs.map Prod.fst) (.obj kvs) = some fun k => kvs.lookup k := by
  rw [structFields, if_pos]
  rw [List.all_eq_true]
  intro k _
  exact decide_eq_true (List.nodup_iff_count_le_one.mp h k)

/-! ### Entries -/

/-- `AuditChainEntry`. -/
structure AuditChainEntry where
  agentId : String
  userId : String
  action : String
  docPath : String
  timestamp : UInt64
  result : String
  prevHash : String
  selfHash : String
  signature : String
  deriving DecidableEq

namespace AuditChainEntry

def members (e : AuditChainEntry) : List (String × Json) :=
  [("agent_id", .str e.agentId), ("user_id", .str e.userId), ("action", .str e.action),
    ("doc_path", .str e.docPath), ("timestamp", .int e.timestamp.toNat), ("result", .str e.result),
    ("prev_hash", .str e.prevHash), ("self_hash", .str e.selfHash), ("signature", .str e.signature)]

def toLine (e : AuditChainEntry) : String := Json.dumpsWith .compactUnicode (.obj e.members)

/-- The entry without its hash and its signature. -/
def cleared (e : AuditChainEntry) : AuditChainEntry := { e with selfHash := "", signature := "" }

/-- The hash that `verify_chain` computes. -/
def computedHash (e : AuditChainEntry) : String := (sha256 (utf8 e.cleared.toLine)).hex

/-- The names of the fields, in the order of the struct. -/
def fieldNames : List String :=
  ["agent_id", "user_id", "action", "doc_path", "timestamp", "result", "prev_hash", "self_hash",
    "signature"]

/-- The entry of the values found for the fields. -/
def fromFields (field : String → Option Json) : Option AuditChainEntry := do
  let agentId ← (field "agent_id").bind Json.str?
  let userId ← (field "user_id").bind Json.str?
  let action ← (field "action").bind Json.str?
  let docPath ← (field "doc_path").bind Json.str?
  let timestamp ← (field "timestamp").bind u64?
  let result ← (field "result").bind Json.str?
  let prevHash ← (field "prev_hash").bind Json.str?
  let selfHash ← (field "self_hash").bind Json.str?
  let signature ← textOrDefault (field "signature")
  some ⟨agentId, userId, action, docPath, timestamp, result, prevHash, selfHash, signature⟩

/-- `serde_json::from_str::<AuditChainEntry>(line)`. -/
def fromStr (readFloat : List Char → FloatRepr) (line : Str) : Option AuditChainEntry :=
  (Json.parse ⟨readFloat, false⟩ line).bind fun v => (structFields fieldNames v).bind fromFields

/-- `AuditChainEntry::new`. -/
def new (agentId userId action docPath result prevHash : String) (timestamp : UInt64) :
    AuditChainEntry :=
  let entry : AuditChainEntry :=
    ⟨agentId, userId, action, docPath, timestamp, result, prevHash, "", ""⟩
  { entry with selfHash := (sha256 (utf8 entry.toLine)).hex }

end AuditChainEntry

/-! ### The log -/

/-- `TamperEvidentAuditLog`. -/
structure TamperEvidentAuditLog where
  lastHash : String

section

variable (ed : Ed25519) (readFloat : List Char → FloatRepr)

/-- The hash of the entry on a line. -/
def lineHash? (line : Str) : Option String :=
  if isBlankLine line then none else (AuditChainEntry.fromStr readFloat line).map (·.selfHash)

/-- `read_last_hash`. -/
def readLastHash : Option Bytes → String
  | none => "genesis"
  | some file => ((lines (readToString file)).reverse.findSome? (lineHash? readFloat)).getD "genesis"

/-- The violations of one entry. -/
def entryViolations (prevHash : String) (e : AuditChainEntry) : ℕ :=
  (if e.prevHash = prevHash then 0 else 1) + (if e.computedHash = e.selfHash then 0 else 1) +
    (if verifySignature ed e.agentId (utf8 e.selfHash) e.signature then 0 else 1)

/-- The loop of `verify_chain`. -/
def auditViolationsFrom (prevHash : String) : List Str → ℕ
  | [] => 0
  | line :: lines =>
    if isBlankLine line then auditViolationsFrom prevHash lines
    else
      match AuditChainEntry.fromStr readFloat line with
      | some e => entryViolations ed prevHash e + auditViolationsFrom e.selfHash lines
      | none => 1 + auditViolationsFrom prevHash lines

namespace TamperEvidentAuditLog

/-- `TamperEvidentAuditLog::new`. -/
def new (file : Option Bytes) : TamperEvidentAuditLog := ⟨readLastHash readFloat file⟩

/-- `verify_chain`. -/
def verifyChain : Option Bytes → ℕ
  | none => 0
  | some file => auditViolationsFrom ed readFloat "genesis" (lines (readToString file))

/-- The entry that `append` writes. -/
def entry (log : TamperEvidentAuditLog) (identity : AgentIdentity)
    (userId action docPath result : String) (timestamp : UInt64) : AuditChainEntry :=
  let e := AuditChainEntry.new identity.agentId userId action docPath result log.lastHash timestamp
  { e with signature := (identity.sign ed (utf8 e.selfHash)).getD "" }

end TamperEvidentAuditLog

end

/-! ### Files of entries -/

section

variable {ed : Ed25519} {readFloat : List Char → FloatRepr}

/-- The file of some entries. -/
def auditFileOf (entries : List AuditChainEntry) : Bytes :=
  utf8 (String.ofList (Str.writeLines (entries.map fun e => e.toLine.toList)))

namespace AuditChainEntry

lemma fromFields_members (e : AuditChainEntry) : fromFields (fun k => e.members.lookup k) = some e := by
  have htimestamp : e.members.lookup "timestamp" = some (.int e.timestamp.toNat) := rfl
  rw [fromFields, htimestamp, Option.bind_some, u64?_toNat]
  rfl

/-- An entry is read back from its line. -/
lemma fromStr_toLine (e : AuditChainEntry) : fromStr readFloat e.toLine.toList = some e := by
  have hreads : Json.ReadsBack ⟨readFloat, false⟩ (.obj e.members) :=
    ⟨trivial, trivial, trivial, trivial, trivial, trivial, trivial, trivial, trivial, trivial⟩
  have hparse := Json.parse_renderWith Json.Style.readable_compactUnicode hreads 0
  have hnames : e.members.map Prod.fst = fieldNames := rfl
  have hfields : structFields fieldNames (.obj e.members) = some fun k => e.members.lookup k := by
    rw [← hnames]
    apply structFields_obj
    rw [hnames]
    decide
  rw [fromStr, toLine, Json.dumpsWith, String.toList_ofList, hparse, Option.bind_some, hfields,
    Option.bind_some, fromFields_members]

lemma isBlankLine_toLine (e : AuditChainEntry) : isBlankLine e.toLine.toList = false := by
  obtain ⟨cs, hcs⟩ := Json.renderWith_obj_eq_cons .compactUnicode 0 e.members
  rw [toLine, Json.dumpsWith, String.toList_ofList, hcs, isBlankLine, List.all_cons]
  rfl

lemma no_newline_toLine (e : AuditChainEntry) : '\n' ∉ e.toLine.toList ∧ '\r' ∉ e.toLine.toList := by
  rw [toLine, Json.dumpsWith, String.toList_ofList]
  exact Json.no_newline_renderWith Json.Style.compactUnicode_writes 0 _

end AuditChainEntry

lemma lines_auditFileOf (entries : List AuditChainEntry) :
    lines (readToString (auditFileOf entries)) = entries.map (fun e => e.toLine.toList) ++ [[]] := by
  have hno : ∀ l ∈ entries.map (fun e => e.toLine.toList), '\n' ∉ l ∧ '\r' ∉ l := by
    rw [List.forall_mem_map]
    exact fun e _ => e.no_newline_toLine
  have hdrop : (entries.map fun e => e.toLine.toList).map dropCr =
      entries.map fun e => e.toLine.toList := by
    rw [List.map_congr_left (g := id), List.map_id]
    intro l hl
    rw [dropCr, if_neg, id]
    intro hcr
    exact (hno l hl).2 (List.mem_of_getLast? hcr)
  rw [lines, readToString, auditFileOf, utf8Decode?_utf8, Option.getD_some, String.toList_ofList,
    Str.lines_writeLines fun l hl => (hno l hl).1]
  simp only [List.dropLast_concat, hdrop, List.getLast?_concat, Option.toList_some]

lemma auditFileOf_concat (entries : List AuditChainEntry) (e : AuditChainEntry) :
    auditFileOf (entries ++ [e]) = auditFileOf entries ++ utf8 (e.toLine ++ "\n") := by
  simp only [auditFileOf, utf8, Str.writeLines, String.toList_ofList, List.map_append,
    List.map_singleton, List.flatMap_append, List.flatMap_singleton, String.toList_append]
  rfl

/-- The last entry of the file is the head of the chain. -/
lemma readLastHash_eq {file : Option Bytes} {entries : List AuditChainEntry}
    (h : file.getD [] = auditFileOf entries) :
    readLastHash readFloat file = tip (·.selfHash) "genesis" entries := by
  have hback : readLastHash readFloat (some (auditFileOf entries)) =
      tip (·.selfHash) "genesis" entries := by
    rw [readLastHash, lines_auditFileOf]
    induction entries using List.reverseRecOn with
    | nil => rfl
    | append_singleton entries e _ =>
      have hlast : lineHash? readFloat e.toLine.toList = some e.selfHash := by
        rw [lineHash?, e.isBlankLine_toLine, AuditChainEntry.fromStr_toLine]
        rfl
      have hblank : lineHash? readFloat [] = none := rfl
      rw [tip_concat]
      simp [hlast, hblank]
  rw [← h] at hback
  cases file with
  | none => exact hback
  | some file => exact hback

/-! ### Chains of entries -/

/-- An entry that continues the chain and is signed. -/
def AuditChainEntry.Genuine (ed : Ed25519) (e : AuditChainEntry) : Prop :=
  e.computedHash = e.selfHash ∧ verifySignature ed e.agentId (utf8 e.selfHash) e.signature = true

/-- A linked list of genuine entries has no violation. -/
lemma auditViolationsFrom_eq_zero {entries : List AuditChainEntry} {prevHash : String}
    (hlinked : Linked (·.prevHash) (·.selfHash) prevHash entries)
    (hgenuine : ∀ e ∈ entries, e.Genuine ed) :
    auditViolationsFrom ed readFloat prevHash
      (entries.map (fun e => e.toLine.toList) ++ [[]]) = 0 := by
  induction entries generalizing prevHash with
  | nil => rfl
  | cons e entries ih =>
    rw [List.forall_mem_cons] at hgenuine
    obtain ⟨hhead, htail⟩ := hlinked
    rw [List.map_cons, List.cons_append, auditViolationsFrom, e.isBlankLine_toLine,
      if_neg Bool.false_ne_true, AuditChainEntry.fromStr_toLine]
    simp only [ih htail hgenuine.2, entryViolations, hhead, hgenuine.1.1, hgenuine.1.2, if_true]

lemma TamperEvidentAuditLog.verifyChain_eq_zero {file : Option Bytes}
    {entries : List AuditChainEntry} (h : file.getD [] = auditFileOf entries)
    (hlinked : Linked (·.prevHash) (·.selfHash) "genesis" entries)
    (hgenuine : ∀ e ∈ entries, e.Genuine ed) : verifyChain ed readFloat file = 0 := by
  cases file with
  | none => rfl
  | some file =>
    obtain rfl : file = auditFileOf entries := h
    rw [verifyChain, lines_auditFileOf]
    exact auditViolationsFrom_eq_zero hlinked hgenuine

/-- What `append` writes for a generated identity is genuine. -/
lemma TamperEvidentAuditLog.genuine_entry (hcorrect : ed.Correct) (hsized : ed.Sized)
    (log : TamperEvidentAuditLog) {identity : AgentIdentity} (hidentity : identity.Generated ed)
    (userId action docPath result : String) (timestamp : UInt64) :
    (log.entry ed identity userId action docPath result timestamp).Genuine ed := by
  obtain ⟨seed, hseed, hagent, hkey⟩ := hidentity
  refine ⟨rfl, ?_⟩
  set data := utf8 (AuditChainEntry.new identity.agentId userId action docPath result log.lastHash
    timestamp).selfHash
  obtain ⟨hpublic, hlength⟩ := hsized seed data hseed
  have hsign : identity.sign ed data = some (ed.sign seed data).hex := by
    rw [AgentIdentity.sign, hkey, hexDecode_hex, Option.bind_eq_bind, Option.bind_some, if_pos hseed]
  have hentry : verifySignature ed
      (log.entry ed identity userId action docPath result timestamp).agentId
      (utf8 (log.entry ed identity userId action docPath result timestamp).selfHash)
      (log.entry ed identity userId action docPath result timestamp).signature =
      verifySignature ed identity.agentId data ((identity.sign ed data).getD "") := rfl
  rw [hentry, hsign, Option.getD_some, hagent, verifySignature, hexDecode_hex, hexDecode_hex]
  simp only [hpublic, hlength, beq_self_eq_true, Bool.true_and]
  exact hcorrect seed data hseed

end

end AxiomGrid.Receipts

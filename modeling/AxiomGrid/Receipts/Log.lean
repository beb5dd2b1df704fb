import AxiomGrid.Lib.Ed25519
import AxiomGrid.Lib.HashChain
import AxiomGrid.Lib.JsonLines

/-!
# The receipt log

`ReceiptLog` of `phantom-core/src/identity.rs`: receipts are numbered, hash-chained and signed, and
appended to a file, one JSON object a line. The head of the chain and the next number are kept in
memory and read from the file when the log is opened.

Time stamps and the results of the file operations are given with each call. A lone surrogate, which
a text here cannot hold, is a parse error also in a field that is ignored, and `-0` is the integer 0.
-/

namespace AxiomGrid.Receipts

/-! ### Receipts -/

/-- `ProvenanceReceipt`. -/
structure ProvenanceReceipt where
  seq : UInt64
  timestamp : UInt64
  agentId : String
  action : String
  context : String
  outcome : String
  prevHash : String
  selfHash : String
  signature : String
  opikTraceId : String
  opikTraceUrl : String
  domain : String
  deriving DecidableEq

namespace ProvenanceReceipt

/-- The members of the serialised struct. -/
def members (r : ProvenanceReceipt) : List (String × Json) :=
  [("seq", .int r.seq.toNat), ("timestamp", .int r.timestamp.toNat), ("agent_id", .str r.agentId),
    ("action", .str r.action), ("context", .str r.context), ("outcome", .str r.outcome),
    ("prev_hash", .str r.prevHash), ("self_hash", .str r.selfHash), ("signature", .str r.signature),
    ("opik_trace_id", .str r.opikTraceId), ("opik_trace_url", .str r.opikTraceUrl),
    ("domain", .str r.domain)]

/-- `serde_json::to_string(&r)`. -/
def toLine (r : ProvenanceReceipt) : String := Json.dumpsWith .compactUnicode (.obj r.members)

/-- The receipt without its hash and its signature. -/
def cleared (r : ProvenanceReceipt) : ProvenanceReceipt := { r with selfHash := "", signature := "" }

/-- The hash that `verify_chain` computes. -/
def computedHash (r : ProvenanceReceipt) : String := (sha256 (utf8 r.cleared.toLine)).hex

end ProvenanceReceipt

/-- The names of the fields, in the order of the struct. -/
def fieldNames : List String :=
  ["seq", "timestamp", "agent_id", "action", "context", "outcome", "prev_hash", "self_hash",
    "signature", "opik_trace_id", "opik_trace_url", "domain"]

/-- A `u64` in a JSON value. -/
def u64? : Json → Option UInt64
  | .int n => if 0 ≤ n ∧ n < 2 ^ 64 then some (UInt64.ofNat n.toNat) else none
  | _ => none

/-- A field with `#[serde(default)]`. -/
def textOrDefault : Option Json → Option String
  | none => some ""
  | some v => v.str?

/-- The receipt of the values found for the fields. -/
def fromFields (field : String → Option Json) : Option ProvenanceReceipt := do
  let seq ← (field "seq").bind u64?
  let timestamp ← (field "timestamp").bind u64?
  let agentId ← (field "agent_id").bind Json.str?
  let action ← (field "action").bind Json.str?
  let context ← (field "context").bind Json.str?
  let outcome ← (field "outcome").bind Json.str?
  let prevHash ← (field "prev_hash").bind Json.str?
  let selfHash ← (field "self_hash").bind Json.str?
  let signature ← (field "signature").bind Json.str?
  let opikTraceId ← textOrDefault (field "opik_trace_id")
  let opikTraceUrl ← textOrDefault (field "opik_trace_url")
  let domain ← textOrDefault (field "domain")
  some ⟨seq, timestamp, agentId, action, context, outcome, prevHash, selfHash, signature, opikTraceId,
    opikTraceUrl, domain⟩

/-- The derived `Deserialize`: an object with no field twice, other keys ignored, or an array of the
fields in order. -/
def fromValue : Json → Option ProvenanceReceipt
  | .obj kvs =>
    if fieldNames.all fun k => (kvs.map Prod.fst).count k ≤ 1 then fromFields fun k => kvs.lookup k
    else none
  | .arr xs =>
    if xs.length ≤ fieldNames.length then fromFields fun k => (fieldNames.zip xs).lookup k else none
  | _ => none

section

variable (readFloat : List Char → FloatRepr)

/-- `serde_json::from_str::<ProvenanceReceipt>(line)`. -/
def fromStr (line : Str) : Option ProvenanceReceipt :=
  (Json.parse ⟨readFloat, false⟩ line).bind fromValue

/-- White space in the sense of `char::is_whitespace`. -/
def isWhiteSpace (c : Char) : Bool := Str.isSpace c && !(28 ≤ c.toNat && c.toNat ≤ 31)

/-- `line.trim().is_empty()`. -/
def isBlankLine (line : Str) : Bool := line.all isWhiteSpace

/-- A line without the carriage return at its end. -/
def dropCr (line : Str) : Str := if line.getLast? = some '\r' then line.dropLast else line

/-- `contents.lines()`; what stands behind the last line feed is a line too, blank when it is
empty. -/
def lines (contents : String) : List Str :=
  let pieces := Str.lines contents.toList
  pieces.dropLast.map dropCr ++ pieces.getLast?.toList

/-- `read_to_string(path).unwrap_or_default()`. -/
def readToString (file : Bytes) : String := (utf8Decode? file).getD ""

/-- The loop of `read_tail`. -/
def tailFrom (last : String × UInt64) : List Str → String × UInt64
  | [] => last
  | line :: lines =>
    if isBlankLine line then tailFrom last lines
    else
      match fromStr readFloat line with
      | some r => tailFrom (r.selfHash, r.seq + 1) lines
      | none => tailFrom last lines

/-- `read_tail`; the file is `none` when it does not exist. -/
def readTail : Option Bytes → String × UInt64
  | none => ("genesis", 0)
  | some file => tailFrom readFloat ("genesis", 0) (lines (readToString file))

/-! ### Signatures -/

/-- `u8::from_str_radix` on two characters, the first of which may be a plus sign. -/
def hexPair (a b : Char) : Option UInt8 := do
  let hi ← if a = '+' then some 0 else hexDigit? a
  let lo ← hexDigit? b
  some (UInt8.ofNat (16 * hi + lo))

/-- `hex_decode`; `none` is an error, or a panic inside a character that is not ASCII. -/
def hexDecode : List Char → Option Bytes
  | [] => some []
  | [_] => none
  | a :: b :: cs => do
    let byte ← hexPair a b
    let bytes ← hexDecode cs
    some (byte :: bytes)

/-- `verify_signature`. -/
def verifySignature (ed : Ed25519) (agentId : String) (data : Bytes) (signatureHex : String) : Bool :=
  match hexDecode agentId.toList, hexDecode signatureHex.toList with
  | some publicKey, some sig =>
    publicKey.length == 32 && sig.length == 64 && ed.verify publicKey sig data
  | _, _ => false

/-- `AgentIdentity`, with the fields that are read. -/
structure AgentIdentity where
  agentId : String
  privateKeyHex : String

/-- `sign`; `none` is the error. -/
def AgentIdentity.sign (ed : Ed25519) (identity : AgentIdentity) (data : Bytes) : Option String := do
  let key ← hexDecode identity.privateKeyHex.toList
  if key.length = 32 then some (ed.sign key data).hex else none

/-! ### Verification -/

/-- The violations of one receipt against the head of the chain and the number that are expected; the
last check is a parameter. -/
def receiptViolations (checkSignature : ProvenanceReceipt → Bool) (prevHash : String)
    (expectedSeq : UInt64) (r : ProvenanceReceipt) : ℕ :=
  (if r.prevHash = prevHash then 0 else 1) + (if r.seq = expectedSeq then 0 else 1) +
    (if r.computedHash = r.selfHash then 0 else 1) + (if checkSignature r then 0 else 1)

/-- The loop of `verify_chain`. -/
def violationsFrom (checkSignature : ProvenanceReceipt → Bool) (prevHash : String)
    (expectedSeq : UInt64) : List Str → ℕ
  | [] => 0
  | line :: lines =>
    if isBlankLine line then violationsFrom checkSignature prevHash expectedSeq lines
    else
      match fromStr readFloat line with
      | some r =>
        receiptViolations checkSignature prevHash expectedSeq r +
          violationsFrom checkSignature r.selfHash (r.seq + 1) lines
      | none => 1 + violationsFrom checkSignature prevHash expectedSeq lines

/-- The signature check of `verify_chain`. -/
def signatureValid (ed : Ed25519) (r : ProvenanceReceipt) : Bool :=
  verifySignature ed r.agentId (utf8 r.selfHash) r.signature

/-- `verify_chain`. -/
def verifyChain (checkSignature : ProvenanceReceipt → Bool) : Option Bytes → ℕ
  | none => 0
  | some file => violationsFrom readFloat checkSignature "genesis" 0 (lines (readToString file))

end

/-! ### Emitting receipts -/

/-- The arguments of `emit_with_trace`, with the time of the call. -/
structure Emission where
  identity : AgentIdentity
  action : String
  context : String
  outcome : String
  opikTraceId : String
  opikTraceUrl : String
  domain : String
  timestamp : UInt64

/-- How the append to the file ends. A failed write leaves the file that `open` may have created. -/
inductive Append where
  | written
  | openFailed
  | writeFailed
  deriving DecidableEq

/-- An event on the file: a call, or the log is opened again. -/
inductive Event where
  | emit (emission : Emission) (append : Append)
  | reopen

/-- `ReceiptLog`: `last_hash` and `next_seq`. -/
structure ReceiptLog where
  lastHash : String
  nextSeq : UInt64

/-- The file and the log that is open on it. -/
structure World where
  file : Option Bytes
  log : ReceiptLog

/-- `ProvenanceReceipt::new`. -/
def newReceipt (log : ReceiptLog) (emission : Emission) : ProvenanceReceipt :=
  let receipt : ProvenanceReceipt :=
    { seq := log.nextSeq, timestamp := emission.timestamp, agentId := emission.identity.agentId,
      action := emission.action, context := emission.context, outcome := emission.outcome,
      prevHash := log.lastHash, selfHash := "", signature := "",
      opikTraceId := emission.opikTraceId, opikTraceUrl := emission.opikTraceUrl,
      domain := emission.domain }
  { receipt with selfHash := (sha256 (utf8 receipt.toLine)).hex }

section

variable (ed : Ed25519) (readFloat : List Char → FloatRepr)

/-- The receipt that `emit_with_trace` returns. -/
def emitted (log : ReceiptLog) (emission : Emission) : ProvenanceReceipt :=
  let receipt := newReceipt log emission
  { receipt with signature := (emission.identity.sign ed (utf8 receipt.selfHash)).getD "" }

/-- The append of a line. -/
def appendLine (append : Append) (file : Option Bytes) (line : String) : Option Bytes :=
  match append with
  | .written => some (file.getD [] ++ utf8 (line ++ "\n"))
  | .openFailed => file
  | .writeFailed => some (file.getD [])

/-- `emit_with_trace`: the head of the chain moves on before the append. -/
def emitWithTrace (world : World) (emission : Emission) (append : Append) : World :=
  let receipt := emitted ed world.log emission
  { file := appendLine append world.file receipt.toLine
    log := ⟨receipt.selfHash, world.log.nextSeq + 1⟩ }

/-- `ReceiptLog::new`. -/
def openLog (file : Option Bytes) : ReceiptLog :=
  ⟨(readTail readFloat file).1, (readTail readFloat file).2⟩

/-- One event. -/
def step (world : World) : Event → World
  | .emit emission append => emitWithTrace ed world emission append
  | .reopen => { world with log := openLog readFloat world.file }

/-- One event, with the receipts of the successful appends so far. -/
def stepWritten (state : World × List ProvenanceReceipt) (event : Event) :
    World × List ProvenanceReceipt :=
  (step ed readFloat state.1 event,
    match event with
    | .emit emission .written => state.2 ++ [emitted ed state.1.log emission]
    | _ => state.2)

/-- A run from a file that does not exist. -/
def run (events : List Event) : World × List ProvenanceReceipt :=
  events.foldl (stepWritten ed readFloat) (⟨none, openLog readFloat none⟩, [])

end

/-! ### Lines of receipts -/

section

variable {readFloat : List Char → FloatRepr}

lemma u64?_toNat (n : UInt64) : u64? (.int n.toNat) = some n := by
  have hlt : (n.toNat : ℤ) < 2 ^ 64 := by exact_mod_cast n.toNat_lt
  rw [u64?, if_pos ⟨Int.natCast_nonneg _, hlt⟩, Int.toNat_natCast, UInt64.ofNat_toNat]

lemma fromFields_eq_some_iff {field : String → Option Json} {r : ProvenanceReceipt} :
    fromFields field = some r ↔
      (field "seq").bind u64? = some r.seq ∧ (field "timestamp").bind u64? = some r.timestamp ∧
      (field "agent_id").bind Json.str? = some r.agentId ∧
      (field "action").bind Json.str? = some r.action ∧
      (field "context").bind Json.str? = some r.context ∧
      (field "outcome").bind Json.str? = some r.outcome ∧
      (field "prev_hash").bind Json.str? = some r.prevHash ∧
      (field "self_hash").bind Json.str? = some r.selfHash ∧
      (field "signature").bind Json.str? = some r.signature ∧
      textOrDefault (field "opik_trace_id") = some r.opikTraceId ∧
      textOrDefault (field "opik_trace_url") = some r.opikTraceUrl ∧
      textOrDefault (field "domain") = some r.domain := by
  constructor
  · intro h
    obtain ⟨seq, hseq, h⟩ := Option.bind_eq_some_iff.mp h
    obtain ⟨timestamp, htimestamp, h⟩ := Option.bind_eq_some_iff.mp h
    obtain ⟨agentId, hagentId, h⟩ := Option.bind_eq_some_iff.mp h
    obtain ⟨action, haction, h⟩ := Option.bind_eq_some_iff.mp h
    obtain ⟨context, hcontext, h⟩ := Option.bind_eq_some_iff.mp h
    obtain ⟨outcome, houtcome, h⟩ := Option.bind_eq_some_iff.mp h
    obtain ⟨prevHash, hprevHash, h⟩ := Option.bind_eq_some_iff.mp h
    obtain ⟨selfHash, hselfHash, h⟩ := Option.bind_eq_some_iff.mp h
    obtain ⟨signature, hsignature, h⟩ := Option.bind_eq_some_iff.mp h
    obtain ⟨opikTraceId, hopikTraceId, h⟩ := Option.bind_eq_some_iff.mp h
    obtain ⟨opikTraceUrl, hopikTraceUrl, h⟩ := Option.bind_eq_some_iff.mp h
    obtain ⟨domain, hdomain, h⟩ := Option.bind_eq_some_iff.mp h
    cases h
    exact ⟨hseq, htimestamp, hagentId, haction, hcontext, houtcome, hprevHash, hselfHash, hsignature,
      hopikTraceId, hopikTraceUrl, hdomain⟩
  · rintro ⟨hseq, htimestamp, hagentId, haction, hcontext, houtcome, hprevHash, hselfHash, hsignature,
      hopikTraceId, hopikTraceUrl, hdomain⟩
    simp only [fromFields, hseq, htimestamp, hagentId, haction, hcontext, houtcome, hprevHash,
      hselfHash, hsignature, hopikTraceId, hopikTraceUrl, hdomain, Option.bind_eq_bind,
      Option.bind_some]

lemma fromValue_members (r : ProvenanceReceipt) : fromValue (.obj r.members) = some r := by
  have hkeys : (fieldNames.all fun k => (r.members.map Prod.fst).count k ≤ 1) = true := by
    have hnames : r.members.map Prod.fst = fieldNames := rfl
    rw [hnames]
    decide
  have hseq : r.members.lookup "seq" = some (.int r.seq.toNat) := rfl
  have htimestamp : r.members.lookup "timestamp" = some (.int r.timestamp.toNat) := rfl
  rw [fromValue, if_pos hkeys, fromFields_eq_some_iff]
  refine ⟨?_, ?_, rfl, rfl, rfl, rfl, rfl, rfl, rfl, rfl, rfl, rfl⟩
  · rw [hseq, Option.bind_some, u64?_toNat]
  · rw [htimestamp, Option.bind_some, u64?_toNat]

/-- A receipt is read back from its line. -/
lemma fromStr_toLine (r : ProvenanceReceipt) : fromStr readFloat r.toLine.toList = some r := by
  have hreads : Json.ReadsBack ⟨readFloat, false⟩ (.obj r.members) :=
    ⟨trivial, trivial, trivial, trivial, trivial, trivial, trivial, trivial, trivial, trivial,
      trivial, trivial, trivial⟩
  have hparse := Json.parse_renderWith Json.Style.readable_compactUnicode hreads 0
  rw [fromStr, ProvenanceReceipt.toLine, Json.dumpsWith, String.toList_ofList, hparse,
    Option.bind_some, fromValue_members]

lemma isBlankLine_toLine (r : ProvenanceReceipt) : isBlankLine r.toLine.toList = false := by
  obtain ⟨cs, hcs⟩ := Json.renderWith_obj_eq_cons .compactUnicode 0 r.members
  rw [ProvenanceReceipt.toLine, Json.dumpsWith, String.toList_ofList, hcs, isBlankLine,
    List.all_cons]
  rfl

/-- The file of some receipts. -/
def fileOf (receipts : List ProvenanceReceipt) : Bytes :=
  utf8 (String.ofList (Str.writeLines (receipts.map fun r => r.toLine.toList)))

lemma no_newline_toLine (r : ProvenanceReceipt) :
    '\n' ∉ r.toLine.toList ∧ '\r' ∉ r.toLine.toList := by
  rw [ProvenanceReceipt.toLine, Json.dumpsWith, String.toList_ofList]
  exact Json.no_newline_renderWith Json.Style.compactUnicode_writes 0 _

lemma lines_fileOf (receipts : List ProvenanceReceipt) :
    lines (readToString (fileOf receipts)) = receipts.map (fun r => r.toLine.toList) ++ [[]] := by
  have hno : ∀ l ∈ receipts.map (fun r => r.toLine.toList), '\n' ∉ l ∧ '\r' ∉ l := by
    rw [List.forall_mem_map]
    exact fun r _ => no_newline_toLine r
  have hdrop : (receipts.map fun r => r.toLine.toList).map dropCr =
      receipts.map fun r => r.toLine.toList := by
    rw [List.map_congr_left (g := id), List.map_id]
    intro l hl
    rw [dropCr, if_neg, id]
    intro hcr
    exact (hno l hl).2 (List.mem_of_getLast? hcr)
  rw [lines, readToString, fileOf, utf8Decode?_utf8, Option.getD_some, String.toList_ofList,
    Str.lines_writeLines fun l hl => (hno l hl).1]
  simp only [List.dropLast_concat, hdrop, List.getLast?_concat, Option.toList_some]

/-! ### Chains -/

/-- The violations of a list of receipts. -/
def chainViolations (checkSignature : ProvenanceReceipt → Bool) (prevHash : String)
    (expectedSeq : UInt64) : List ProvenanceReceipt → ℕ
  | [] => 0
  | r :: receipts =>
    receiptViolations checkSignature prevHash expectedSeq r +
      chainViolations checkSignature r.selfHash (r.seq + 1) receipts

/-- The head of the chain and the next number behind a list of receipts. -/
def chainHead (head : String × UInt64) (receipts : List ProvenanceReceipt) : String × UInt64 :=
  receipts.foldl (fun _ r => (r.selfHash, r.seq + 1)) head

/-- The receipts on the lines of a file. -/
def lineReceipts (readFloat : List Char → FloatRepr) (lines : List Str) : List ProvenanceReceipt :=
  lines.filterMap fun line => if isBlankLine line then none else fromStr readFloat line

lemma lineReceipts_cons (line : Str) (lines : List Str) :
    lineReceipts readFloat (line :: lines) =
      if isBlankLine line then lineReceipts readFloat lines
      else (fromStr readFloat line).toList ++ lineReceipts readFloat lines := by
  rw [lineReceipts, List.filterMap_cons]
  split_ifs with hblank
  · rfl
  · cases fromStr readFloat line <;> rfl

/-- The loop counts the violations of the receipts on the lines, if each line has one. -/
lemma violationsFrom_eq {checkSignature : ProvenanceReceipt → Bool} {lines : List Str}
    (h : ∀ line ∈ lines, isBlankLine line = false → ∃ r, fromStr readFloat line = some r)
    (prevHash : String) (expectedSeq : UInt64) :
    violationsFrom readFloat checkSignature prevHash expectedSeq lines =
      chainViolations checkSignature prevHash expectedSeq (lineReceipts readFloat lines) := by
  induction lines generalizing prevHash expectedSeq with
  | nil => rfl
  | cons line lines ih =>
    rw [List.forall_mem_cons] at h
    rw [violationsFrom, lineReceipts_cons]
    split_ifs with hblank
    · exact ih h.2 _ _
    · obtain ⟨r, hr⟩ := h.1 (Bool.eq_false_of_not_eq_true hblank)
      rw [hr]
      exact congrArg _ (ih h.2 _ _)

lemma tailFrom_eq (head : String × UInt64) (lines : List Str) :
    tailFrom readFloat head lines = chainHead head (lineReceipts readFloat lines) := by
  induction lines generalizing head with
  | nil => rfl
  | cons line lines ih =>
    rw [tailFrom, lineReceipts_cons]
    split_ifs with hblank
    · exact ih head
    · cases fromStr readFloat line with
      | none => exact ih head
      | some r => exact ih (r.selfHash, r.seq + 1)

lemma lineReceipts_fileOf (receipts : List ProvenanceReceipt) :
    lineReceipts readFloat (lines (readToString (fileOf receipts))) = receipts := by
  rw [lines_fileOf]
  induction receipts with
  | nil => rfl
  | cons r receipts ih =>
    rw [List.map_cons, List.cons_append, lineReceipts_cons, isBlankLine_toLine, fromStr_toLine, ih]
    rfl

lemma violations_fileOf (checkSignature : ProvenanceReceipt → Bool)
    (receipts : List ProvenanceReceipt) :
    verifyChain readFloat checkSignature (some (fileOf receipts)) =
      chainViolations checkSignature "genesis" 0 receipts := by
  rw [verifyChain, violationsFrom_eq, lineReceipts_fileOf]
  rw [lines_fileOf]
  intro line hline hblank
  rw [List.mem_append, List.mem_map, List.mem_singleton] at hline
  obtain ⟨r, -, rfl⟩ | rfl := hline
  · exact ⟨r, fromStr_toLine r⟩
  · cases hblank

lemma chainHead_concat (head : String × UInt64) (receipts : List ProvenanceReceipt)
    (r : ProvenanceReceipt) : chainHead head (receipts ++ [r]) = (r.selfHash, r.seq + 1) := by
  simp [chainHead]

lemma chainViolations_concat (checkSignature : ProvenanceReceipt → Bool) (head : String × UInt64)
    (receipts : List ProvenanceReceipt) (r : ProvenanceReceipt) :
    chainViolations checkSignature head.1 head.2 (receipts ++ [r]) =
      chainViolations checkSignature head.1 head.2 receipts +
        receiptViolations checkSignature (chainHead head receipts).1 (chainHead head receipts).2 r := by
  induction receipts generalizing head with
  | nil => simp [chainViolations, chainHead]
  | cons a receipts ih =>
    rw [List.cons_append, chainViolations, chainViolations, ih (a.selfHash, a.seq + 1), add_assoc]
    rfl

lemma receiptViolations_eq_zero_iff {checkSignature : ProvenanceReceipt → Bool} {prevHash : String}
    {expectedSeq : UInt64} {r : ProvenanceReceipt} :
    receiptViolations checkSignature prevHash expectedSeq r = 0 ↔
      r.prevHash = prevHash ∧ r.seq = expectedSeq ∧ r.computedHash = r.selfHash ∧
        checkSignature r = true := by
  simp only [receiptViolations, Nat.add_eq_zero_iff, ite_eq_left_iff, one_ne_zero, imp_false,
    not_not, and_assoc]

/-- A chain from the start is numbered from zero. -/
lemma seq_of_chain {checkSignature : ProvenanceReceipt → Bool} {receipts : List ProvenanceReceipt}
    (h : chainViolations checkSignature "genesis" 0 receipts = 0) :
    (chainHead ("genesis", 0) receipts).2 = UInt64.ofNat receipts.length ∧
      receipts.map ProvenanceReceipt.seq = (List.range receipts.length).map UInt64.ofNat := by
  induction receipts using List.reverseRecOn with
  | nil => exact ⟨rfl, rfl⟩
  | append_singleton receipts r ih =>
    have hconcat := chainViolations_concat checkSignature ("genesis", 0) receipts r
    rw [h, eq_comm, Nat.add_eq_zero_iff, receiptViolations_eq_zero_iff] at hconcat
    obtain ⟨hbefore, -, hseq, -⟩ := hconcat
    obtain ⟨hhead, hseqs⟩ := ih hbefore
    rw [hhead] at hseq
    rw [chainHead_concat, hseq, List.length_append, List.length_singleton, List.map_append, hseqs,
      List.range_succ, List.map_append, List.map_singleton, List.map_singleton, hseq, UInt64.ofNat_add]
    exact ⟨rfl, rfl⟩

end

end AxiomGrid.Receipts

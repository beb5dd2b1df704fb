import AxiomGrid.Lib.Dict
import AxiomGrid.Lib.FileSystem
import AxiomGrid.Lib.PyStr
import AxiomGrid.Legal.Signing

/-!
# The legal transaction

`propose`, `approve` and `execute` of `kairo/legal_v3/transaction.py`. The clock, the random
identifiers and the name of the temporary file are arguments. What lies behind the transaction is a
parameter: reading and writing JSON text, the redline pipeline and the oracle that reads the redlined
document back. Every file operation of `execute` may fail, and a write that fails may leave a part
behind.
-/

namespace AxiomGrid.Legal

def profile : String := "kairo-legal-v3"

def actionName : String := "mutual_nda.redline"

def maxBytes : ℕ := 25 * 1024 * 1024

/-- `EVENTS`. -/
def eventTypes : List String :=
  ["INPUT_OBSERVED", "TRUST_CLASSIFIED", "POLICY_DECISION", "ACTION_INTENT", "APPROVAL_BOUND",
    "ACTION_ATTEMPT", "ARTIFACT_READBACK", "RUN_CLOSED"]

/-- `ALLOWED_CLAUSES`. -/
def allowedClauses : List String :=
  ["governing_law", "liability_cap", "termination_notice", "confidentiality_survival",
    "indemnification_cap"]

/-- `json.loads` on the bytes of a text, and `json.dumps(v, indent=2) + "\n"`. -/
structure JsonCodec where
  loads : Bytes → Except String Json
  dumpsIndent : Json → Bytes

/-- `if not condition: raise`. -/
def require (condition : Bool) (message : String) : Except String Unit :=
  if condition then .ok () else .error message

lemma require_eq_ok {condition : Bool} {message : String} {a : Unit} :
    require condition message = .ok a ↔ condition = true := by
  cases condition <;> simp [require]

/-! ### Files -/

section

variable (fs : FileSystem)

/-- `Path(text).resolve()`. -/
def resolvePath (path : RawPath) : Except String FilePath :=
  match fs.resolve path with
  | some p => .ok p
  | none => .error "Symlink loop"

/-- `read_regular` on a resolved path. -/
def readRegular (p : FilePath) : Except String Bytes :=
  if fs.isSymlink p then .error "regular non-symlink file required"
  else
    match fs.files p with
    | none => .error "No such file or directory"
    | some content => if maxBytes < content.length then .error "file too large" else .ok content

/-- `_resolve_under_root`. -/
def resolveUnderRoot (root : FilePath) (relative : String) : Except String FilePath := do
  let candidate ← resolvePath fs ((RawPath.ofPath root).join (.parse relative))
  require (root.isPrefixOf candidate) "path escape"
  return candidate

variable {fs}

lemma resolvePath_eq_ok {path : RawPath} {p : FilePath} :
    resolvePath fs path = .ok p ↔ fs.resolve path = some p := by
  cases h : fs.resolve path <;> simp [resolvePath, h]

lemma readRegular_eq_ok {p : FilePath} {content : Bytes} :
    readRegular fs p = .ok content ↔
      fs.links p = none ∧ fs.files p = some content ∧ content.length ≤ maxBytes := by
  rw [readRegular, FileSystem.isSymlink]
  cases hlink : fs.links p with
  | some target => simp
  | none =>
    cases hfile : fs.files p with
    | none => simp
    | some content' =>
      simp only [Option.isSome_none, Bool.false_eq_true, if_false, Option.some.injEq, true_and]
      split_ifs with hlong
      · constructor
        · intro h
          cases h
        · rintro ⟨rfl, hshort⟩
          exact absurd hshort (not_le.mpr hlong)
      · constructor
        · rintro ⟨⟩
          exact ⟨rfl, not_lt.mp hlong⟩
        · rintro ⟨rfl, -⟩
          rfl

end

/-! ### Proposal and approval -/

/-- `_load_json_bytes`. -/
def loadJsonBytes (codec : JsonCodec) (data : Bytes) : Except String Record :=
  match codec.loads data with
  | .error _ => .error "invalid UTF-8 JSON"
  | .ok (.obj kvs) => .ok kvs
  | .ok _ => .error "JSON object required"

/-- The text fields of a clause that have to be present and not blank. -/
def clauseFields : List String := ["match_text", "replacement_text", "citation", "rationale"]

/-- The checks on one clause of a playbook. -/
def allowedClause : Json → Except String Unit
  | .obj clause => do
    match Record.get clause "clause_id" with
    | .str clauseId =>
      require (clauseId ∈ allowedClauses) "outside mutual-NDA operation set"
    | .arr _ | .obj _ => .error "unhashable type"
    | _ => .error "outside mutual-NDA operation set"
    clauseFields.forM fun field =>
      match Record.get clause field with
      | .str text => require (Str.strip text.toList ≠ []) ("missing " ++ field)
      | _ => .error ("missing " ++ field)
  | _ => .error "invalid clause"

/-- `_allowed_playbook`, with the clauses it looked at. -/
def allowedPlaybook (playbook : Record) : Except String (List Json) :=
  match playbook.get "clauses" with
  | .arr [] => .error "clauses required"
  | .arr clauses => do
    clauses.forM allowedClause
    return clauses
  | _ => .error "clauses required"

section

variable (ed : Ed25519) (codec : JsonCodec)

/-- The dictionary `unsigned` of `propose`. -/
def proposalBody (proposalId source playbook output : String) (sourceBytes playbookBytes : Bytes)
    (clauses : List Json) (now ttl : ℤ) (producerKeyId : String) : Record :=
  [("profile", .str profile), ("proposal_id", .str proposalId), ("action", .str actionName),
    ("source", .str source), ("playbook", .str playbook), ("output", .str output),
    ("source_sha256", .str (sha sourceBytes)), ("playbook_sha256", .str (sha playbookBytes)),
    ("clauses", .arr clauses), ("issued_at", .int now), ("expires_at", .int (now + ttl)),
    ("producer_key_id", .str producerKeyId)]

/-- A body with its digest and the signature over both. -/
def signProposal (body : Record) (producerKey : Key) : Except String Record := do
  let intentSha ← digest body
  let proposal := body ++ [("intent_sha256", .str intentSha)]
  let signature ← sign ed proposal producerKey
  return proposal ++ [("signature", .str signature)]

/-- `propose`. -/
def propose (fs : FileSystem) (root source playbook output : String) (producerKey : Key) (ttl : ℤ)
    (now : ℤ) (proposalId : String) : Except String Record := do
  require (producerKey.role = "producer") "producer key required"
  let rootp ← resolvePath fs (.parse root)
  let sourcePath ← resolveUnderRoot fs rootp source
  let playbookPath ← resolveUnderRoot fs rootp playbook
  let sourceBytes ← readRegular fs sourcePath
  let playbookBytes ← readRegular fs playbookPath
  let data ← loadJsonBytes codec playbookBytes
  let clauses ← allowedPlaybook data
  signProposal ed (proposalBody proposalId source playbook output sourceBytes playbookBytes clauses
    now ttl producerKey.keyId) producerKey

/-- `min(limit, expires)` for an integer and the expiry of a proposal. -/
def earlier (limit : ℤ) (expires : Json) : Except String Json :=
  match expires.number? with
  | none => .error "TypeError"
  | some x => .ok (if x.lt (.fin limit) then expires else .int limit)

/-- `approve`. -/
def approve (proposal : Record) (approverKey : Key) (ttl : ℤ) (now : ℤ) (approvalId nonce : String) :
    Except String Record := do
  require (approverKey.role = "approver") "approver key required"
  let intentSha ← proposal.item "intent_sha256"
  let sourceSha ← proposal.item "source_sha256"
  let playbookSha ← proposal.item "playbook_sha256"
  let expires ← proposal.item "expires_at"
  let expiresAt ← earlier (now + ttl) expires
  let unsigned : Record :=
    [("profile", .str profile), ("approval_id", .str approvalId), ("decision", .str "approve"),
      ("intent_sha256", intentSha), ("source_sha256", sourceSha), ("playbook_sha256", playbookSha),
      ("principal", .str approverKey.keyId), ("issued_at", .int now), ("expires_at", expiresAt),
      ("nonce", .str nonce)]
  let signature ← sign ed unsigned approverKey
  return unsigned ++ [("signature", .str signature)]

/-- `keys[id]` after `id in keys`, for an id from a JSON object. -/
def lookupKey (keys : Dict String String) (id : Json) (message : String) : Except String String :=
  match id with
  | .str id =>
    match Dict.get? keys id with
    | some pub => .ok pub
    | none => .error message
  | .arr _ | .obj _ => .error "unhashable type"
  | _ => .error message

/-- A comparison with the clock: whether the number in `record[k]` stands in `rel` to `now`. -/
def compareTime (record : Record) (k : String) (rel : PyFloat → Bool) : Except String Bool := do
  match (← record.item k).number? with
  | some x => return rel x
  | none => .error "TypeError"

/-- `record.get("signature", "")`. -/
def Record.signature (record : Record) : Json := (record.lookup "signature").getD (.str "")

/-- The fields an approval has in common with its proposal. -/
def boundFields : List String := ["intent_sha256", "source_sha256", "playbook_sha256"]

/-- `_verify_approval`. -/
def verifyApproval (proposal approval : Record) (keys : Dict String String) (now : ℤ) :
    Except String Unit := do
  let intentSha ← digest (proposal.without ["signature", "intent_sha256"])
  require (Json.pyEq (.str intentSha) (proposal.get "intent_sha256")) "proposal digest mismatch"
  let producerPub ← lookupKey keys (proposal.get "producer_key_id") "invalid proposal signature"
  require (verifySig ed (proposal.without ["signature"]) proposal.signature (.str producerPub))
    "invalid proposal signature"
  require (Json.pyEq (approval.get "decision") (.str "approve")) "approval expired/denied"
  let issued ← compareTime approval "issued_at" fun x => x.le (.fin now)
  require issued "approval expired/denied"
  let unexpired ← compareTime approval "expires_at" fun x => PyFloat.lt (.fin now) x
  require unexpired "approval expired/denied"
  let lapsed ← compareTime proposal "expires_at" fun x => x.le (.fin now)
  require (!lapsed) "approval expired/denied"
  require (boundFields.all fun field => Json.pyEq (approval.get field) (proposal.get field))
    "approval substitution"
  let principalPub ← lookupKey keys (approval.get "principal") "invalid approval signature"
  require (verifySig ed (approval.without ["signature"]) approval.signature (.str principalPub))
    "invalid approval signature"

/-! ### Events -/

/-- The dictionary `unsigned` of `_event`. -/
def eventBody (sequence : ℕ) (eventType : String) (previous : Json) (payload : Record)
    (observerKeyId : String) : Record :=
  [("sequence", .int sequence), ("event_type", .str eventType), ("previous_event_sha256", previous),
    ("payload", .obj payload), ("observer_key_id", .str observerKeyId)]

/-- `_event`, with the digest of the event. -/
def event (sequence : ℕ) (eventType : String) (previous : Json) (payload : Record)
    (observer : Key) : Except String (Record × String) := do
  let body := eventBody sequence eventType previous payload observer.keyId
  let eventSha ← digest body
  let signature ← sign ed body observer
  return (body ++ [("event_sha256", .str eventSha), ("signature", .str signature)], eventSha)

/-- The loop over the event types from `sequence` on. -/
def eventChain (payload : String → Record) (observer : Key) :
    ℕ → Json → List String → Except String (List Json)
  | _, _, [] => .ok []
  | sequence, previous, eventType :: types => do
    let (record, eventSha) ← event ed sequence eventType previous (payload eventType) observer
    let rest ← eventChain payload observer (sequence + 1) (.str eventSha) types
    return .obj record :: rest

end

end AxiomGrid.Legal

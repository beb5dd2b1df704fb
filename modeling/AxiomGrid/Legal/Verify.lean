import AxiomGrid.Legal.Execute

/-!
# Verification of a bundle

`verify_bundle` of `kairo/legal_v3/transaction.py`: it reads the manifest of a bundle directory and
reports a list of checks. A manifest of the wrong shape makes it raise, which is `.error` here.
-/

namespace AxiomGrid.Legal

/-- One entry of `checks`. -/
structure Check where
  ok : Bool
  check : String
  deriving DecidableEq

/-- What `verify_bundle` returns. -/
structure Report where
  ok : Bool
  integrity : String
  execution : String
  sufficiency : String
  domain : String
  checks : List Check
  deriving DecidableEq

/-! ### Access to JSON values -/

/-- `v[k]` for a text `k`. -/
def subscript (v : Json) (k : String) : Except String Json :=
  match v with
  | .obj kvs => Record.item kvs k
  | _ => .error "TypeError"

/-- `v.items()`. -/
def itemsOf (v : Json) : Except String Record :=
  match v with
  | .obj kvs => .ok kvs
  | _ => .error "AttributeError"

/-- `for x in v`. -/
def iterate : Json → Except String (List Json)
  | .arr xs => .ok xs
  | .str s => .ok (s.toList.map fun c => .str (String.ofList [c]))
  | .obj kvs => .ok (kvs.map fun p => .str p.1)
  | _ => .error "TypeError"

/-- `v[-1]`. -/
def lastItem : Json → Except String Json
  | .arr xs => xs.getLast?.elim (.error "IndexError") .ok
  | .str s => s.toList.getLast?.elim (.error "IndexError") fun c => .ok (.str (String.ofList [c]))
  | .obj _ => .error "KeyError: -1"
  | _ => .error "TypeError"

/-- A value that cannot be hashed cannot be a key. -/
def hashable : Json → Except String Unit
  | .arr _ | .obj _ => .error "unhashable type"
  | _ => .ok ()

/-- The entry of a dictionary for a key of any type; the keys of an object are texts. -/
def entryAt (d : Record) (key : Json) : Except String (Option Json) := do
  hashable key
  match key with
  | .str k => return d.lookup k
  | _ => return none

/-- `d[key]` for a key of any type. -/
def keyAt (d : Record) (key : Json) : Except String Json := do
  match ← entryAt d key with
  | some v => return v
  | none => .error "KeyError"

/-- `condition and value`, where `value` is not evaluated unless it has to be. -/
def andThen (condition : Bool) (value : Except String Bool) : Except String Bool :=
  if condition then value else .ok false

/-! ### The checks -/

/-- `directory in path.parents`. -/
def isInside (directory path : FilePath) : Bool := directory.isPrefixOf path && directory ≠ path

/-- The two checks on a file of the bundle. -/
def fileChecks (fs : FileSystem) (bundle : FilePath) (events : Json) (entry : String × Json) :
    Except String (List Check) := do
  match entry.2 with
  | .str name =>
    let filePath ← resolvePath fs ((RawPath.ofPath bundle).join (.parse name))
    let confined := isInside bundle filePath
    let payload ← subscript (← lastItem events) "payload"
    let expected ← subscript payload (entry.1 ++ "_sha256")
    let matched ← andThen confined
      ((readRegular fs filePath).map fun content => Json.pyEq (.str (sha content)) expected)
    return [⟨confined && fs.isFile filePath, entry.1 ++ " path confinement"⟩,
      ⟨matched, entry.1 ++ " hash"⟩]
  | _ => .error "TypeError"

/-- The checks on the proposal. -/
def proposalChecks (ed : Ed25519) (publicKeys proposal : Record) : Except String (List Check) := do
  let intentSha ← digest (proposal.without ["signature", "intent_sha256"])
  let producer ← entryAt publicKeys (proposal.get "producer_key_id")
  return [⟨Json.pyEq (.str intentSha) (proposal.get "intent_sha256"), "proposal digest"⟩,
    ⟨verifySig ed (proposal.without ["signature"]) proposal.signature (producer.getD (.str "")),
      "proposal signature"⟩]

/-- The checks on the approval. -/
def approvalChecks (ed : Ed25519) (publicKeys proposal approval : Record) :
    Except String (List Check) := do
  let principal ← entryAt publicKeys (approval.get "principal")
  return [⟨boundFields.all fun field => Json.pyEq (approval.get field) (proposal.get field),
      "approval binding"⟩,
    ⟨verifySig ed (approval.without ["signature"]) approval.signature (principal.getD (.str "")),
      "approval signature"⟩]

/-- The check that the observer is neither the producer nor the approver. -/
def observerCheck (observer : Json) (proposal approval : Record) : Except String (List Check) := do
  let producer ← proposal.item "producer_key_id"
  let principal ← approval.item "principal"
  hashable producer
  hashable principal
  hashable observer
  return [⟨!(Json.pyEq observer producer || Json.pyEq observer principal), "observer independence"⟩]

/-- The checks on one event, with its digest. -/
def eventCheck (ed : Ed25519) (publicKeys : Json) (index : ℕ) (previous : Json) (event : Record) :
    Except String (List Check × Json) := do
  let unsigned := event.without ["event_sha256", "signature"]
  let sequence ← event.item "sequence"
  let linked ← andThen (Json.pyEq sequence (.int index))
    ((event.item "previous_event_sha256").map fun parent => Json.pyEq parent previous)
  let computed ← digest unsigned
  let eventSha ← event.item "event_sha256"
  let signature ← event.item "signature"
  let observer ← event.item "observer_key_id"
  let pub ← keyAt (← itemsOf publicKeys) observer
  return ([⟨linked, "sequence/parent"⟩, ⟨Json.pyEq (.str computed) eventSha, "event digest"⟩,
    ⟨verifySig ed unsigned signature pub, "event signature"⟩], eventSha)

/-- The loop over the events. -/
def eventChecks (ed : Ed25519) (publicKeys : Json) :
    ℕ → Json → List Json → Except String (List Check)
  | _, _, [] => .ok []
  | index, previous, event :: events => do
    let (checks, eventSha) ← eventCheck ed publicKeys index previous (← itemsOf event)
    let rest ← eventChecks ed publicKeys (index + 1) eventSha events
    return checks ++ rest

/-- The check that the events are those of the state machine, in its order. -/
def machineCheck (events : List Json) : Except String (List Check) := do
  let types ← events.mapM fun event => subscript event "event_type"
  return [⟨Json.pyEqItems types (eventTypes.map .str), "mandatory state machine"⟩]

/-- All checks on a manifest. -/
def manifestChecks (ed : Ed25519) (fs : FileSystem) (bundle : FilePath) (manifest : Json) :
    Except String (List Check) := do
  let files ← itemsOf (← subscript manifest "files")
  let ofFiles ← files.mapM fun entry => do
    fileChecks fs bundle (← subscript manifest "events") entry
  let proposal ← itemsOf (← subscript manifest "proposal")
  let publicKeys ← subscript manifest "public_keys"
  let keys ← itemsOf publicKeys
  let ofProposal ← proposalChecks ed keys proposal
  let approval ← itemsOf (← subscript manifest "approval")
  let ofApproval ← approvalChecks ed keys proposal approval
  let ofObserver ← observerCheck (← subscript manifest "observer_key_id") proposal approval
  let events ← iterate (← subscript manifest "events")
  let ofEvents ← eventChecks ed publicKeys 0 .null events
  let ofMachine ← machineCheck events
  return ofFiles.flatten ++ ofProposal ++ ofApproval ++ ofObserver ++ ofEvents ++ ofMachine

/-- The report for a list of checks. -/
def reportOf (checks : List Check) : Report :=
  let ok := checks.all Check.ok
  { ok
    integrity := if ok then "pass" else "fail"
    execution := if ok then "pass" else "unknown"
    sufficiency := if ok then "complete_for_declared_boundary" else "incomplete"
    domain := "requires_human_review"
    checks }

/-- The manifest of the bundle directory `bundle`. -/
def readManifest (codec : JsonCodec) (fs : FileSystem) (bundle : FilePath) : Except String Json := do
  let target ← resolvePath fs ((RawPath.ofPath bundle).join (.parse "bundle.json"))
  match fs.files target with
  | none => .error "No such file or directory"
  | some content => codec.loads content

/-- `verify_bundle`. -/
def verifyBundle (ed : Ed25519) (codec : JsonCodec) (fs : FileSystem) (path : String) :
    Except String Report := do
  let bundle ← resolvePath fs (.parse path)
  let manifest ← readManifest codec fs bundle
  return reportOf (← manifestChecks ed fs bundle manifest)

end AxiomGrid.Legal

import AxiomGrid.Legal.Transaction

/-!
# Execution of an approved proposal

`execute` of `kairo/legal_v3/transaction.py`: the redlined document is written to a temporary file,
read back, moved over the output path, and bundled with copies of the source and the playbook, the
proposal, the approval and a signed chain of events.
-/

namespace AxiomGrid.Legal

/-! ### What execution calls -/

/-- The fields of `RedlineResult` that `execute` uses. -/
structure RedlineResult where
  ok : Bool
  error : String := ""
  /-- The old and the new text of each edit. -/
  appliedEdits : List (String × String) := []
  /-- The flagged clauses as dictionaries. -/
  flaggedClauses : List Json := []

/-- A call of `redline_contract`: what it has written to its output file, and its result or the
exception it raised. -/
structure RedlineOutcome where
  written : Option Bytes
  result : Except String RedlineResult

/-- `redline_contract` on the contents of the contract and of the playbook, and
`verify_docx_tracked_changes` on the contents of the redlined document. -/
structure Oracles where
  redlineContract : Bytes → Bytes → RedlineOutcome
  verifyDocxTrackedChanges : Bytes → List Json → Except String Unit

/-- The file operations of `execute`. -/
inductive IoStep where
  | readSource
  | readPlaybook
  | makeOutputDir
  | makeTemp
  | closeTemp
  | unlinkTemp
  | unlinkRefused
  | replaceOutput
  | readOutput
  | makeBundleDir
  | copySource
  | copyPlaybook
  | copyOutput
  | writeManifest
  deriving DecidableEq, Repr

/-- A failure of the operating system; a write that fails may leave a part of the file behind. -/
structure Fault where
  message : String
  partialContent : Option Bytes := none

/-- The failures of a run. -/
abbrev Faults := IoStep → Option Fault

/-- A step without effect on the files that may fail. -/
def failIf (fault : Option Fault) : Except String Unit :=
  match fault with
  | none => .ok ()
  | some f => .error f.message

/-- A write that may fail. -/
def writeFile (fault : Option Fault) (p : FilePath) (content : Bytes) : Io Unit :=
  match fault with
  | none => Io.modify fun fs => fs.write p content
  | some f => do
    Io.modify fun fs => f.partialContent.elim fs (fs.write p)
    Io.raise f.message

/-- `shutil.copy2`. -/
def copyFile (fault : Option Fault) (src : FilePath) (dst : RawPath) : Io Unit := do
  let fs ← Io.read
  let target ← Io.ofExcept (resolvePath fs dst)
  Io.ofExcept (require (target ≠ src) "are the same file")
  match fs.files src with
  | none => Io.raise "No such file or directory"
  | some content => writeFile fault target content

/-! ### The phases -/

/-- The paths and contents that a run starts from. -/
structure Inputs where
  sourcePath : FilePath
  playbookPath : FilePath
  outputPath : FilePath
  sourceBytes : Bytes
  playbookBytes : Bytes

/-- `_resolve_under_root(root, proposal[k])`. -/
def resolveItem (fs : FileSystem) (root : FilePath) (proposal : Record) (k : String) :
    Except String FilePath := do
  match ← proposal.item k with
  | .str relative => resolveUnderRoot fs root relative
  | _ => .error "TypeError"

/-- The checks before anything is written. -/
def prepare (ed : Ed25519) (faults : Faults) (now : ℤ) (fs : FileSystem) (root : String)
    (proposal approval : Record) (keys : Dict String String) (observerKey : Key) :
    Except String Inputs := do
  require (observerKey.role = "observer" &&
    !Json.pyEq (.str observerKey.keyId) (proposal.get "producer_key_id") &&
    !Json.pyEq (.str observerKey.keyId) (approval.get "principal"))
    "independent observer identity required"
  let rootp ← resolvePath fs (.parse root)
  let sourcePath ← resolveItem fs rootp proposal "source"
  let playbookPath ← resolveItem fs rootp proposal "playbook"
  let outputPath ← resolveItem fs rootp proposal "output"
  require (rootp.isPrefixOf outputPath.dropLast) "path escape"
  require (!(fs.isFile outputPath && fs.isSymlink outputPath)) "symlink output"
  failIf (faults .readSource)
  let sourceBytes ← readRegular fs sourcePath
  failIf (faults .readPlaybook)
  let playbookBytes ← readRegular fs playbookPath
  let sourceSha ← proposal.item "source_sha256"
  let playbookSha ← proposal.item "playbook_sha256"
  require (Json.pyEq (.str (sha sourceBytes)) sourceSha &&
    Json.pyEq (.str (sha playbookBytes)) playbookSha) "source/playbook substitution"
  verifyApproval ed proposal approval keys now
  return { sourcePath, playbookPath, outputPath, sourceBytes, playbookBytes }

/-- The tracked changes that the redlined document must hold. -/
def expectedChanges (result : RedlineResult) : List Json :=
  result.appliedEdits.map fun (old, new) =>
    .obj [("old", .str old), ("new", .str new), ("author", .str "Kairo Legal v3")]

/-- Redlining to a temporary file next to the output, reading it back and moving it to the output
path. The temporary file is created empty and removed before the pipeline writes it. The result is the
content of the output. -/
def publish (oracles : Oracles) (faults : Faults) (tmpName : String) (inputs : Inputs) :
    Io (Bytes × RedlineResult) := do
  Io.ofExcept (failIf (faults .makeOutputDir))
  let tmp := inputs.outputPath.dropLast ++ [tmpName]
  Io.ofExcept (failIf (faults .makeTemp))
  let fs ← Io.read
  Io.ofExcept (require (!fs.isFile tmp && !fs.isSymlink tmp) "File exists")
  Io.modify fun fs => fs.write tmp []
  Io.ofExcept (failIf (faults .closeTemp))
  Io.ofExcept (failIf (faults .unlinkTemp))
  Io.modify fun fs => fs.remove tmp
  let outcome := oracles.redlineContract inputs.sourceBytes inputs.playbookBytes
  Io.modify fun fs => outcome.written.elim fs (fs.write tmp)
  let result ← Io.ofExcept outcome.result
  if result.ok then pure () else do
    Io.ofExcept (failIf (faults .unlinkRefused))
    Io.modify fun fs => fs.remove tmp
    Io.raise result.error
  match outcome.written with
  | none => Io.raise "No such file or directory"
  | some redlined =>
    Io.ofExcept (oracles.verifyDocxTrackedChanges redlined (expectedChanges result))
    Io.ofExcept (failIf (faults .replaceOutput))
    Io.modify fun fs => (fs.remove tmp).write inputs.outputPath redlined
    Io.ofExcept (failIf (faults .readOutput))
    let fs ← Io.read
    let outputBytes ← Io.ofExcept (readRegular fs inputs.outputPath)
    return (outputBytes, result)

/-- The copies in the bundle directory. -/
def copyFiles (faults : Faults) (inputs : Inputs) (bundle : RawPath) : Io Unit := do
  Io.ofExcept (failIf (faults .makeBundleDir))
  copyFile (faults .copySource) inputs.sourcePath (bundle.join (.parse "source.docx"))
  copyFile (faults .copyPlaybook) inputs.playbookPath (bundle.join (.parse "playbook.json"))
  copyFile (faults .copyOutput) inputs.outputPath (bundle.join (.parse "output.docx"))

/-- The dictionary `base_payload`. -/
def basePayload (inputs : Inputs) (outputBytes : Bytes) (result : RedlineResult)
    (intentSha approvalId : Json) : Record :=
  [("source_sha256", .str (sha inputs.sourceBytes)), ("playbook_sha256", .str (sha inputs.playbookBytes)),
    ("intent_sha256", intentSha), ("approval_id", approvalId),
    ("output_sha256", .str (sha outputBytes)), ("applied_edits", .arr (expectedChanges result)),
    ("flagged", .arr result.flaggedClauses)]

/-- The payload of an event. -/
def eventPayload (base : Record) (eventType : String) : Record :=
  base ++ [("status", .str (if eventType = "RUN_CLOSED" then "success" else "recorded"))]

/-- The files of a bundle by their keys. -/
def bundleFiles : Record :=
  [("source", .str "source.docx"), ("playbook", .str "playbook.json"), ("output", .str "output.docx")]

/-- The dictionary `verdicts`. -/
def initialVerdicts : Record :=
  [("integrity", .str "unverified"), ("execution", .str "observed"),
    ("sufficiency", .str "complete_for_declared_boundary"), ("domain", .str "requires_human_review")]

/-- A dictionary of texts as a JSON object. -/
def textsToJson (d : Dict String String) : Json := .obj (d.map fun (k, v) => (k, .str v))

/-- The manifest of a bundle. -/
def manifestOf (runId : String) (files : Record) (proposal approval : Record)
    (publicKeys : Dict String String) (observerKeyId : String) (events : List Json) : Record :=
  [("profile", .str profile), ("run_id", .str runId), ("files", .obj files),
    ("proposal", .obj proposal), ("approval", .obj approval), ("public_keys", textsToJson publicKeys),
    ("observer_key_id", .str observerKeyId), ("events", .arr events),
    ("verdicts", .obj initialVerdicts)]

/-- `execute`. -/
def execute (ed : Ed25519) (codec : JsonCodec) (oracles : Oracles) (faults : Faults) (now : ℤ)
    (tmpName runId : String) (root : String) (proposal approval : Record)
    (keys : Dict String String) (observerKey : Key) (bundleDir : String) : Io Record := do
  let fs ← Io.read
  let inputs ← Io.ofExcept (prepare ed faults now fs root proposal approval keys observerKey)
  let (outputBytes, result) ← publish oracles faults tmpName inputs
  let bundle := RawPath.parse bundleDir
  copyFiles faults inputs bundle
  let intentSha ← Io.ofExcept (proposal.item "intent_sha256")
  let approvalId ← Io.ofExcept (approval.item "approval_id")
  let base := basePayload inputs outputBytes result intentSha approvalId
  let events ← Io.ofExcept (eventChain ed (eventPayload base) observerKey 0 .null eventTypes)
  let manifest := manifestOf runId bundleFiles proposal approval
    (Dict.set keys observerKey.keyId observerKey.publicKey) observerKey.keyId events
  let fs ← Io.read
  let target ← Io.ofExcept (resolvePath fs (bundle.join (.parse "bundle.json")))
  writeFile (faults .writeManifest) target (codec.dumpsIndent (.obj manifest))
  return manifest

end AxiomGrid.Legal

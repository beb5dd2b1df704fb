import AxiomGrid.Lib.Dict
import AxiomGrid.Lib.JsonLines
import AxiomGrid.Lib.Sha1
import AxiomGrid.Lib.Transition
import AxiomGrid.LoopEngineering.Validators

/-!
# The loop orchestrator

`loop-engineering/orchestrator.py`: tasks and gates that scripts and signed attestations turn green, and
a ledger of what was done. One lock covers a command from loading the state to saving it, so the commands
of several processes act one after the other. A command that ends the program saves nothing.
-/

namespace AxiomGrid.LoopEngineering

open Json (dumpsWith sorted setItem)

/-! ### The state -/

/-- The statuses of tasks and gates. -/
inductive Status where
  | done
  | pending
  | inProgress
  | blocked
  | halted
  | awaitingOracle
  | wontFix
  deriving DecidableEq

/-- An entry of `attempts`. -/
structure Attempt where
  ts : String
  kind : String
  passed : Bool
  signature : String
  output : String
  deriving DecidableEq

/-- `t["oracle"]`: a missing `then` is the empty list. -/
structure Oracle where
  type : String
  cmd : List String := []
  followUp : List String := []
  artifact : Option String := none

/-- The record of a signed manifest that `verify_attestation_evidence` returns. -/
structure EvidenceRecord where
  manifest : String
  artifact : Json
  artifactSha256 : Json
  signer : Json
  baseCommit : Json
  createdAt : Json
  validated : String

/-- The record of a file that `verify_plain_evidence` returns. -/
structure FileRecord where
  artifact : String
  sha256 : String

structure WontFix where
  reason : String
  evidence : Option FileRecord

structure Task where
  id : String
  deps : List String := []
  status : Status
  oracle : Oracle
  gate : Option String := none
  attempts : List Attempt := []
  maxIterations : Option ℤ := none
  wontFix : Option WontFix := none
  evidence : Option EvidenceRecord := none

structure Gate where
  status : Status
  deps : List String := []
  wontFix : Option WontFix := none
  evidence : Option EvidenceRecord := none

/-- An entry of the ledger. -/
abbrev Event := Record

/-- `state.json`. -/
structure State where
  headCommit : Json := .null
  maxIterations : ℤ
  gates : Dict String Gate
  tasks : List Task
  history : List Event

/-- What ends the program: one case for each `sys.exit`, and other exceptions. -/
inductive Refusal where
  /-- The ledger does not verify. -/
  | ledger (message : String)
  | unknownTask (id : String)
  /-- `run` on a task that is done or will not be fixed. -/
  | terminal (id : String) (status : Status)
  | blocked (id : String) (deps : List String)
  | notScript (id type : String)
  /-- `attest` on a gate or a task. -/
  | unmetDeps (id : String) (deps : List String)
  | scriptOracle (id : String)
  | already (id : String) (status : Status)
  | insufficient (message : String)
  /-- `wont_fix` without a reason, or with a file that is not there. -/
  | noReason
  | unverifiable (message : String)
  | raised (error : String)

/-! ### The ledger -/

/-- `hashlib.sha256((prev + json.dumps(body, sort_keys=True)).encode()).hexdigest()`. -/
def eventHash (prev : String) (body : Event) : String :=
  (sha256 (utf8 (prev ++ dumpsWith .spaced (sorted (.obj body))))).hex

/-- The loop of `verify_history_chain` from event number `i` on. -/
def verifyFrom (i : ℕ) (prev : String) : List Event → Except String Unit
  | [] => .ok ()
  | ev :: history =>
    if !Json.pyEq (ev.get "prev_hash") (.str prev) then
      .error ("event #" ++ count i ++ " prev_hash mismatch (chain broken)")
    else
      let expect := eventHash prev (ev.filter fun p => p.1 ≠ "hash")
      if !Json.pyEq (ev.get "hash") (.str expect) then
        .error ("event #" ++ count i ++ " hash mismatch (event body was altered)")
      else verifyFrom (i + 1) expect history

/-- `verify_history_chain`. -/
def verifyHistoryChain (history : List Event) : Except String Unit := verifyFrom 0 "genesis" history

/-- `hist[-1]["hash"] if hist else "genesis"`; `none` is the exception of a missing or odd hash. -/
def lastHash (history : List Event) : Option String :=
  match history.getLast? with
  | none => some "genesis"
  | some ev => (ev.get "hash").str?

/-- The entry that `log` appends. -/
def logEntry (w : World) (prev event : String) (kw : Event) : Event :=
  let entry := kw.foldl (fun e p => setItem e p.1 p.2)
    [("ts", .str w.nowText), ("event", .str event), ("prev_hash", .str prev)]
  setItem entry "hash" (.str (eventHash prev entry))

/-- `log`. -/
def log (w : World) (s : State) (event : String) (kw : Event) : Except Refusal State :=
  match lastHash s.history with
  | some prev => .ok { s with history := s.history ++ [logEntry w prev event kw] }
  | none => .error (.raised "KeyError")

/-! ### Lookups -/

/-- `find_task`. -/
def findTask (s : State) (tid : String) : Option Task := s.tasks.find? (·.id == tid)

/-- `task`. -/
def State.task (s : State) (tid : String) : Except Refusal Task :=
  match findTask s tid with
  | some t => .ok t
  | none => .error (.unknownTask tid)

/-- What becomes of the task that `find_task` finds. -/
def replaceTask (t : Task) : List Task → List Task
  | [] => []
  | x :: xs => if x.id = t.id then t :: xs else x :: replaceTask t xs

def State.setTask (s : State) (t : Task) : State := { s with tasks := replaceTask t s.tasks }

def State.setGate (s : State) (gid : String) (g : Gate) : State := { s with gates := s.gates.set gid g }

/-- `s["gates"][gid]`. -/
def State.gate (s : State) (gid : String) : Except Refusal Gate :=
  match s.gates.get? gid with
  | some g => .ok g
  | none => .error (.raised "KeyError")

/-- `deps_done`. -/
def depsDone (s : State) (deps : List String) : Bool :=
  deps.all fun d => s.tasks.any fun x => x.status == .done && x.id == d

/-- `effective_status`. -/
def effectiveStatus (s : State) (t : Task) : Status :=
  if t.status = .blocked ∧ depsDone s t.deps then .pending else t.status

/-- How many tasks `refresh_blocked` promotes. -/
def promoted (s : State) : ℕ :=
  s.tasks.countP fun t => t.status == .blocked && depsDone s t.deps

/-- `refresh_blocked`. A promotion does not change which tasks are done, so the loop sees the same
dependencies done throughout. -/
def refreshBlocked (s : State) : State :=
  { s with tasks := s.tasks.map fun t => { t with status := effectiveStatus s t } }

/-- `cmd_next`. -/
def next (s : State) : Option Task :=
  s.tasks.find? fun t => effectiveStatus s t == .pending || effectiveStatus s t == .inProgress

/-! ### Scripts -/

/-- `{k: obj[k] for k in ("code", "subject", "count") if k in obj}`; `none` is an exception. -/
def stableFields : Json → Option Record
  | .obj kvs => some (Json.pick ["code", "subject", "count"] kvs)
  | .str s => if ["code", "subject", "count"].any fun k => Str.contains k.toList s.toList then none else some []
  | .arr xs =>
    if ["code", "subject", "count"].any fun k => xs.any fun x => Json.pyEq x (.str k) then none else some []
  | _ => none

/-- The first characters of a digest, a colon and a code. -/
def signatureText (digested : String) (code : String) : String :=
  cut (sha1 (utf8 digested)).hex 12 ++ ":" ++ code

/-- The signature on a line that starts with `SIGNATURE:`, if nothing is raised. -/
def signatureOfLine (py : Platform) (line : Str) : Option String :=
  let line := Str.strip line
  if !"SIGNATURE:".toList.isPrefixOf line then none
  else do
    let obj ← Json.loads py.readFloat (String.ofList (Str.strip (line.drop 10)))
    let stable ← stableFields obj
    let code ← ((stable.lookup "code").getD (.str "?")).str?
    return signatureText (dumpsWith .spaced (sorted (.obj stable))) code

/-- `parse_signature`. -/
def parseSignature (py : Platform) (output : String) : String :=
  match (Str.splitLines output.toList).findSome? (signatureOfLine py) with
  | some sig => sig
  | none =>
    let line := (Str.splitLines (Str.strip output.toList)).head?.getD []
    signatureText (String.ofList (Str.lower py.unicode (Str.strip line))) (String.ofList (line.take 60))

/-- `run_script`. -/
def runScript (py : Platform) (w : World) (cmd : List String) : Except Refusal (Bool × String) :=
  if cmd = [] then .error (.raised "IndexError")
  else
    match w.script (cmd.map (resolve py.here)) with
    | .exited code stdout stderr =>
      .ok (code == 0, String.ofList (Str.strip (stdout ++ stderr).toList))
    | .crashed error => .ok (false, "oracle crashed: " ++ error)

/-- The scripts of an oracle: the second one runs only if the first passed. -/
def runOracle (py : Platform) (w : World) (oracle : Oracle) : Except Refusal (Bool × String) := do
  let first ← runScript py w oracle.cmd
  if first.1 && oracle.followUp ≠ [] then
    let second ← runScript py w oracle.followUp
    return (first.1 && second.1, first.2 ++ "\n" ++ second.2)
  else return first

/-! ### Evidence -/

/-- The manifest that `verify_attestation_evidence` reads. -/
def loadManifest (py : Platform) (w : World) (cand : String) : Except Failure Json :=
  match loadFile? py w cand with
  | some manifest => .ok manifest
  | none =>
    .error (.evidence ("evidence must be a signed JSON manifest — a bare artifact or " ++
      "non-JSON string is not acceptable for a human gate"))

/-- `verify_attestation_evidence`. -/
def verifyAttestationEvidence (py : Platform) (w : World) (targetId evidence trustRootsPath : String)
    (expectedCommit : Json) (requiredArtifact : Option String) :
    Except Failure (EvidenceRecord × String) := do
  require (evidence ≠ "") "no --evidence manifest provided"
  let cand := resolve py.here evidence
  require (w.pathExists cand)
    ("evidence file not found: " ++ evidence ++ " (arbitrary strings are rejected)")
  let manifest ← loadManifest py w cand
  let trustRoots ← loadTrustRoots py w trustRootsPath
  let artifactPath ← checkManifestCommon py w manifest targetId expectedCommit
  let m ← asRecord manifest
  let art ← asRecord (m.get "artifact")
  let path := pyStr py (art.get "path")
  let required := requiredArtifact.getD ""
  let slashed := path.toList.map fun c => if c = '\\' then '/' else c
  require (required.toList.isSuffixOf slashed)
    ("this gate requires artifact '" ++ required ++ "', manifest points to '" ++ path ++ "'")
  let signer ← verifySignature py m trustRoots
  let detail ← validate py w targetId artifactPath
  let evidenceRecord : EvidenceRecord :=
    { manifest := py.relpath cand py.here, artifact := art.get "path", artifactSha256 := art.get "sha256",
      signer := signer, baseCommit := m.get "base_commit", createdAt := m.get "created_at",
      validated := detail }
  return (evidenceRecord, "signed by '" ++ pyStr py signer ++ "'; " ++ detail)

/-- `verify_plain_evidence`. -/
def verifyPlainEvidence (py : Platform) (w : World) (evidence : String) :
    Except Failure (Option FileRecord) := do
  if evidence = "" then return none
  let cand := resolve py.here evidence
  require (w.pathExists cand) ("evidence file not found: " ++ evidence)
  let digest ← sha256File w cand
  return some ⟨evidence, digest⟩

/-! ### Commands -/

/-- A command that changes the state, with its arguments. -/
inductive Command where
  | run (task : String)
  | attest (task : String) (pass : Bool) (note evidence : String) (reopen : Bool)
      (trustRoots baseCommit : String)
  | wontFix (task reason evidence : String)
  | refresh
  | reset (task : String)

/-- `REPEAT_LIMIT`. -/
def repeatLimit : ℕ := 2

/-- Whether the last failures all have one signature. -/
def thrashing (attempts : List Attempt) : Bool :=
  let sigs := (attempts.filter fun a => !a.passed).map (·.signature)
  repeatLimit ≤ sigs.length && (sigs.drop (sigs.length - repeatLimit)).dedup.length == 1

/-- `t.get("max_iterations", s["defaults"]["max_iterations"])`. -/
def budget (s : State) (t : Task) : ℤ := t.maxIterations.getD s.maxIterations

/-- `t.get("gate")`, where an empty name is no gate. -/
def Task.feeds (t : Task) : Option String := t.gate.filter (· ≠ "")

/-- The new attempt of `record`. -/
def recordedAttempt (py : Platform) (w : World) (passed : Bool) (output kind : String) : Attempt :=
  ⟨w.nowText, kind, passed, if passed then "PASS" else parseSignature py output, cut output 2000⟩

/-- `s["gates"][gid]["status"] = "pending"` for the gate of a task, if it has one. -/
def pendGate (s : State) : Option String → Except Refusal State
  | none => .ok s
  | some gid => do
    let g ← s.gate gid
    return s.setGate gid { g with status := .pending }

/-- `record`. -/
def record (py : Platform) (w : World) (s : State) (t : Task) (passed : Bool) (output kind : String) :
    Except Refusal State := do
  let attempt := recordedAttempt py w passed output kind
  let attempts := t.attempts ++ [attempt]
  let s ← log w s "oracle_run"
    [("task", .str t.id), ("passed", .bool passed), ("signature", .str attempt.signature)]
  if passed then
    let s ← pendGate (s.setTask { t with attempts := attempts, status := .done }) t.feeds
    return refreshBlocked s
  else
    let status := if thrashing attempts || budget s t ≤ attempts.length then Status.halted else .inProgress
    return s.setTask { t with attempts := attempts, status := status }

/-- `cmd_run`. -/
def cmdRun (py : Platform) (w : World) (s : State) (tid : String) : Except Refusal State := do
  let s := refreshBlocked s
  let t ← s.task tid
  throwIf (t.status = .done ∨ t.status = .wontFix) (.terminal tid t.status)
  throwIf (t.status = .blocked) (.blocked tid t.deps)
  throwIf (t.oracle.type ≠ "script") (.notScript tid t.oracle.type)
  let result ← runOracle py w t.oracle
  record py w s t result.1 result.2 "script"

/-- The status of what is attested, after the guards of `cmd_attest` on its dependencies. -/
def attestedStatus (s : State) (tid : String) : Except Refusal Status :=
  match s.gates.get? tid with
  | some g => do
    throwIf (!depsDone s g.deps) (.unmetDeps tid g.deps)
    return g.status
  | none => do
    let t ← s.task tid
    throwIf (t.status = .blocked || !depsDone s t.deps) (.unmetDeps tid t.deps)
    throwIf (t.oracle.type = "script") (.scriptOracle tid)
    return t.status

/-- `base_commit or (s.get("repo", {}) or {}).get("head_commit")`. -/
def expectedCommit (s : State) (baseCommit : String) : Json :=
  if baseCommit ≠ "" then .str baseCommit else s.headCommit

/-- The artifact that `cmd_attest` requires of a task. -/
def requiredArtifact (s : State) (tid : String) : Option String :=
  if (s.gates.get? tid).isSome then none else (findTask s tid).bind (·.oracle.artifact)

/-- The attempt of an attestation. -/
def attestedAttempt (w : World) (passed : Bool) (output : String) : Attempt :=
  ⟨w.nowText, "attestation", passed, if passed then "PASS" else "attest_fail", cut output 2000⟩

/-- What an attested failure changes. -/
def attestedFail (w : World) (s : State) (tid note : String) : Except Refusal State :=
  match s.gates.get? tid with
  | some g => .ok (s.setGate tid { g with status := .pending })
  | none => do
    let t ← s.task tid
    let attempts := t.attempts ++ [attestedAttempt w false note]
    return s.setTask { t with attempts := attempts, status := .inProgress }

/-- The gate of an attested task turns green with it. -/
def passGate (s : State) (evidence : EvidenceRecord) : Option String → Except Refusal State
  | none => .ok s
  | some gid => do
    let g ← s.gate gid
    return s.setGate gid { g with status := .done, evidence := some evidence }

/-- What an attested success changes. -/
def attestedPass (w : World) (s : State) (tid : String) (evidence : EvidenceRecord) (message : String) :
    Except Refusal State :=
  match s.gates.get? tid with
  | some g => .ok (s.setGate tid { g with status := .done, evidence := some evidence })
  | none => do
    let t ← s.task tid
    let attempts := t.attempts ++ [attestedAttempt w true message]
    let s := s.setTask { t with attempts := attempts, status := .done, evidence := some evidence }
    let s ← passGate s evidence t.feeds
    return refreshBlocked s

/-- What a check of evidence that fails ends the program with. -/
def refuseFailure {α : Type} (refusal : String → Refusal) : Except Failure α → Except Refusal α
  | .ok a => .ok a
  | .error (.evidence message) => .error (refusal message)
  | .error (.raised error) => .error (.raised error)

/-- `cmd_attest`. -/
def cmdAttest (py : Platform) (w : World) (s : State) (tid : String) (pass : Bool)
    (note evidence : String) (reopen : Bool) (trustRoots baseCommit : String) : Except Refusal State := do
  let s := refreshBlocked s
  let status ← attestedStatus s tid
  throwIf ((status = .done ∨ status = .wontFix) ∧ !reopen) (.already tid status)
  if !pass then
    let s ← attestedFail w s tid note
    log w s "attestation" [("target", .str tid), ("passed", .bool false), ("note", .str note)]
  else
    let accepted ← refuseFailure .insufficient (verifyAttestationEvidence py w tid evidence trustRoots
      (expectedCommit s baseCommit) (requiredArtifact s tid))
    let s ← log w s "attestation"
      [("target", .str tid), ("passed", .bool true), ("evidence_sha256", accepted.1.artifactSha256),
        ("signer", accepted.1.signer), ("note", .str note)]
    attestedPass w s tid accepted.1 accepted.2

/-- What `cmd_wont_fix` changes. -/
def markedWontFix (s : State) (tid : String) (wontFix : WontFix) : Except Refusal State :=
  match s.gates.get? tid with
  | some g => .ok (s.setGate tid { g with status := .wontFix, wontFix := some wontFix })
  | none => do
    let t ← s.task tid
    return s.setTask { t with status := .wontFix, wontFix := some wontFix }

/-- `cmd_wont_fix`. -/
def cmdWontFix (py : Platform) (w : World) (s : State) (tid reason evidence : String) :
    Except Refusal State := do
  throwIf (reason = "") .noReason
  let file ← refuseFailure .unverifiable (verifyPlainEvidence py w evidence)
  let s ← markedWontFix s tid ⟨reason, file⟩
  log w s "wont_fix" [("target", .str tid), ("reason", .str reason),
    ("evidence_sha256", (file.map fun r => Json.str r.sha256).getD .null)]

/-- `cmd_refresh`. -/
def cmdRefresh (w : World) (s : State) : Except Refusal State :=
  log w (refreshBlocked s) "refresh" [("promoted", .int (promoted s))]

/-- `cmd_reset`. -/
def cmdReset (w : World) (s : State) (tid : String) : Except Refusal State := do
  let t ← s.task tid
  let status := if depsDone s t.deps then Status.pending else .blocked
  let s := s.setTask { t with attempts := [], wontFix := none, evidence := none, status := status }
  log w s "reset" [("task", .str tid)]

/-- The dispatch of `main`. -/
def Command.perform (py : Platform) (w : World) (s : State) : Command → Except Refusal State
  | .run tid => cmdRun py w s tid
  | .attest tid pass note evidence reopen trustRoots baseCommit =>
    cmdAttest py w s tid pass note evidence reopen trustRoots baseCommit
  | .wontFix tid reason evidence => cmdWontFix py w s tid reason evidence
  | .refresh => cmdRefresh w s
  | .reset tid => cmdReset w s tid

/-- `main` with a command that changes the state: the ledger has to verify first. -/
def main (py : Platform) (w : World) (s : State) (c : Command) : Except Refusal State :=
  match verifyHistoryChain s.history with
  | .ok () => c.perform py w s
  | .error message => .error (.ledger message)

/-- The state file after a command: a command that ends the program leaves it as it was. -/
def execute (py : Platform) (s : State) (step : World × Command) : State :=
  match main py step.1 s step.2 with
  | .ok s' => s'
  | .error _ => s

/-- The state file after the commands of a journal, by whichever process each of them is. -/
def executeAll (py : Platform) (s : State) (journal : List (World × Command)) : State :=
  journal.foldl (execute py) s

end AxiomGrid.LoopEngineering

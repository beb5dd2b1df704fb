import AxiomGrid.Lib.Base64
import AxiomGrid.Lib.Ed25519
import AxiomGrid.Lib.JsonSorted
import AxiomGrid.Lib.Loop
import AxiomGrid.Lib.PyStr

/-!
# Evidence validators

`loop-engineering/validators.py`: what an attestation has to bring along. A manifest names a target and
an artifact and is signed; the artifact is checked by the validator of the target. `Failure.evidence` is
an `EvidenceError`, and `Failure.raised` any other exception, which ends the program.
-/

namespace AxiomGrid.LoopEngineering

open Json (dumpsWith sorted)

/-! ### The language and the machine -/

/-- A date and time: its microseconds, and whether it has a time zone. -/
structure Timestamp where
  aware : Bool
  micros : ℤ

/-- What the program takes from the language, from the `cryptography` package and from where it is
installed. -/
structure Platform where
  here : String
  unicode : UnicodeData
  reprStr : String → String
  readFloat : List Char → FloatRepr
  fromIsoFormat : String → Option Timestamp
  relpath : String → String → String
  ed : Ed25519

/-- What a path leads to. -/
inductive Node where
  | dir
  | file (content : Bytes)

/-- What ends a script: its exit code with what it printed, or the exception of `subprocess.run`. -/
inductive ScriptRun where
  | exited (code : ℤ) (stdout stderr : String)
  | crashed (error : String)

/-- What one command finds around it: the files, the time (as a number, and as `now()` writes it) and
the outcome of the scripts. -/
structure World where
  node : String → Option Node
  now : ℤ
  nowText : String
  script : List String → ScriptRun
  /-- The text of the exception that reading a file as JSON ends with. -/
  jsonError : String → String

/-- How a check ends that does not pass. -/
inductive Failure where
  | evidence (message : String)
  | raised (error : String)
  deriving DecidableEq

/-- A dictionary read from JSON. -/
abbrev Record := List (String × Json)

/-- `record.get(k)`. -/
def Record.get (record : Record) (k : String) : Json := (record.lookup k).getD .null

/-- `isinstance(v, dict)`, or the failure. -/
def asDict (v : Json) (failure : Failure) : Except Failure Record :=
  match v.members? with
  | some record => .ok record
  | none => .error failure

/-- `v.get`, which only a dictionary has. -/
def asRecord (v : Json) : Except Failure Record := asDict v (.raised "AttributeError")

/-- `isinstance(v, list)`, or the failure. -/
def asList (v : Json) (failure : Failure) : Except Failure (List Json) :=
  match v.items? with
  | some xs => .ok xs
  | none => .error failure

/-- A path, which has to be a text. -/
def asPath (v : Json) : Except Failure String :=
  match v.str? with
  | some path => .ok path
  | none => .error (.raised "TypeError")

/-- `if c: raise e`. -/
def throwIf {ε : Type} (c : Bool) (e : ε) : Except ε Unit := if c then .error e else .ok ()

lemma throwIf_eq_ok {ε : Type} {c : Bool} {e : ε} {u : Unit} : throwIf c e = .ok u ↔ c = false := by
  unfold throwIf
  split_ifs with h <;> simp [h]

/-- `if not ok: raise EvidenceError(message)`. -/
def require (ok : Bool) (message : String) : Except Failure Unit :=
  if ok then .ok () else .error (.evidence message)

lemma require_eq_ok {ok : Bool} {message : String} {u : Unit} :
    require ok message = .ok u ↔ ok = true := by
  unfold require
  split_ifs with h <;> simp [h]

lemma asDict_eq_ok {v : Json} {failure : Failure} {record : Record} :
    asDict v failure = .ok record ↔ v = .obj record := by
  cases v <;> simp [asDict, Json.members?]

lemma asRecord_eq_ok {v : Json} {record : Record} : asRecord v = .ok record ↔ v = .obj record :=
  asDict_eq_ok

lemma asList_eq_ok {v : Json} {failure : Failure} {xs : List Json} :
    asList v failure = .ok xs ↔ v = .arr xs := by
  cases v <;> simp [asList, Json.items?]

lemma asPath_eq_ok {v : Json} {path : String} : asPath v = .ok path ↔ v = .str path := by
  cases v <;> simp [asPath, Json.str?]

mutual

/-- `repr(v)`. -/
def pyRepr (py : Platform) : Json → String
  | .null => "None"
  | .bool b => if b then "True" else "False"
  | .int n => toString n
  | .float x =>
    if x.text = "NaN".toList then "nan"
    else if x.text = "Infinity".toList then "inf"
    else if x.text = "-Infinity".toList then "-inf"
    else String.ofList x.text
  | .str s => py.reprStr s
  | .arr xs => "[" ++ ", ".intercalate (pyReprItems py xs) ++ "]"
  | .obj kvs => "\x7b" ++ ", ".intercalate (pyReprMembers py kvs) ++ "\x7d"

def pyReprItems (py : Platform) : List Json → List String
  | [] => []
  | x :: xs => pyRepr py x :: pyReprItems py xs

def pyReprMembers (py : Platform) : List (String × Json) → List String
  | [] => []
  | (k, v) :: kvs => (py.reprStr k ++ ": " ++ pyRepr py v) :: pyReprMembers py kvs

end

/-- `str(v)`. -/
def pyStr (py : Platform) : Json → String
  | .str s => s
  | v => pyRepr py v

/-- `s.lower()`. -/
def lower (py : Platform) (s : String) : Str := Str.lower py.unicode s.toList

/-- `str(record.get(k, "")).strip()` as a condition. -/
def filledIn (py : Platform) (record : Record) (k : String) : Bool :=
  !(Str.strip (pyStr py ((record.lookup k).getD (.str ""))).toList).isEmpty

/-- `s[:n]` and `len(s)` as text. -/
def cut (s : String) (n : ℕ) : String := String.ofList (s.toList.take n)

def count (n : ℕ) : String := toString n

/-! ### Files -/

/-- `os.path.isabs(p)`. -/
def isAbs (p : String) : Bool := p.toList.head? == some '/'

/-- `p if os.path.isabs(p) else os.path.join(here, p)`, for a directory without a slash at its end. -/
def resolve (here p : String) : String := if isAbs p then p else here ++ "/" ++ p

/-- `os.path.exists(path)`. -/
def World.pathExists (w : World) (path : String) : Bool := (w.node path).isSome

/-- The bytes that `open(path, "rb")` reads; `none` is an exception. -/
def World.read? (w : World) (path : String) : Option Bytes :=
  match w.node path with
  | some (.file content) => some content
  | _ => none

/-- `json.load` of a file; `none` is an exception. -/
def loadFile? (py : Platform) (w : World) (path : String) : Option Json :=
  ((w.read? path).bind utf8Decode?).bind (Json.loads py.readFloat)

/-- `sha256_file`; a path that cannot be read raises. -/
def sha256File (w : World) (path : String) : Except Failure String :=
  match w.read? path with
  | some content => .ok (sha256 content).hex
  | none => .error (.raised "OSError")

/-- `_load_json`. -/
def loadJson (py : Platform) (w : World) (path what : String) : Except Failure Json :=
  match loadFile? py w path with
  | some v => .ok v
  | none => .error (.evidence (what ++ " is not valid JSON: " ++ w.jsonError path))

/-! ### Manifests -/

/-- `canonical`. -/
def canonical (v : Json) : Bytes := utf8 (dumpsWith .compact (sorted v))

/-- `load_trust_roots`. -/
def loadTrustRoots (py : Platform) (w : World) (path : String) : Except Failure Json :=
  if path = "" ∨ !w.pathExists path then .ok (.obj [])
  else
    match loadFile? py w path with
    | none => .error (.raised "JSONDecodeError")
    | some data => do
      let data ← asRecord data
      return (data.lookup "signers").getD (.obj [])

/-- Whether a value can be looked up in a dictionary. -/
def hashable : Json → Bool
  | .arr _ | .obj _ => false
  | _ => true

/-- The value of a key that may be any value. -/
def Record.getJson (record : Record) : Json → Json
  | .str k => record.get k
  | _ => .null

/-- `base64.b64decode(v)`; `none` is an exception. -/
def b64decode? : Json → Option Bytes
  | .str s => Base64.decode? s
  | _ => none

/-- The body a manifest's signature is for: all but the signature. -/
def signedBody (manifest : Record) : Bytes :=
  canonical (.obj (manifest.filter fun p => p.1 ≠ "signature"))

/-- Whether the signature of a manifest verifies under a public key. -/
def signatureValid (py : Platform) (manifest : Record) (pub sig : Json) : Bool :=
  match b64decode? pub, b64decode? sig with
  | some pub, some sig => py.ed.verify pub sig (signedBody manifest)
  | _, _ => false

/-- `verify_signature`. -/
def verifySignature (py : Platform) (manifest : Record) (trustRoots : Json) : Except Failure Json := do
  let signer := manifest.get "signer"
  let sig := manifest.get "signature"
  require (signer.truthy && sig.truthy)
    "manifest has no signer/signature — unsigned attestations are rejected"
  let roots ← asRecord trustRoots
  throwIf (!hashable signer) (.raised "TypeError")
  let pub := roots.getJson signer
  require pub.truthy ("signer '" ++ pyStr py signer ++ "' is not in the trust roots (fail-closed). " ++
    "Register the founder/assessor public key in schemas/trust_roots.json first.")
  require (signatureValid py manifest pub sig)
    ("Ed25519 signature is INVALID for signer '" ++ pyStr py signer ++ "' — rejected")
  return signer

/-- `_parse_ts`. -/
def parseTs (py : Platform) (v : Json) : Except Failure Timestamp :=
  match py.fromIsoFormat (String.ofList ((pyStr py v).toList.filter (· ≠ 'Z'))) with
  | some t => .ok t
  | none => .error (.evidence ("timestamp not ISO-8601: " ++ pyRepr py v))

/-- The fields of a manifest and of its environment. -/
def manifestFields : List String :=
  ["target", "base_commit", "created_at", "env", "artifact", "signer", "signature"]

def envFields : List String := ["os", "toolchain", "lockfile_sha256"]

/-- A loop that raises at the first field that is missing or false. -/
def requireFields (record : Record) (fields : List String) (message : String → String) :
    Except Failure Unit :=
  fields.forM fun field => require (record.get field).truthy (message field)

/-- The microseconds of a day. -/
def dayMicros : ℤ := 86400000000

/-- The checks of `check_manifest_common` on the time a manifest was made. -/
def checkFresh (py : Platform) (w : World) (createdAt : Json) (maxAgeDays : ℤ) : Except Failure Unit := do
  let created ← parseTs py createdAt
  -- a time with a zone and one without do not compare
  throwIf created.aware (.raised "TypeError")
  require (created.micros ≤ w.now + dayMicros) "manifest.created_at is in the future"
  let age := (w.now - created.micros) / dayMicros
  require (age ≤ maxAgeDays) ("evidence is stale (" ++ toString age ++ "d old > " ++ toString maxAgeDays ++
    "d); regenerate it")

/-- The checks of `check_manifest_common` on the artifact. -/
def checkArtifact (py : Platform) (w : World) (artifact : Json) : Except Failure String := do
  let needs := Failure.evidence "manifest.artifact needs \x7bpath, sha256\x7d"
  let art ← asDict artifact needs
  throwIf (!(art.get "path").truthy || !(art.get "sha256").truthy) needs
  let path ← asPath (art.get "path")
  let apath := resolve py.here path
  require (w.pathExists apath) ("artifact file missing: " ++ path)
  let actual ← sha256File w apath
  let declared := pyStr py (art.get "sha256")
  require (lower py actual = lower py declared)
    ("artifact HASH MISMATCH: declared " ++ cut declared 16 ++ "… actual " ++ cut actual 16 ++ "…")
  return apath

/-- `check_manifest_common`, with 45 days as the age that the callers leave at its default. -/
def checkManifestCommon (py : Platform) (w : World) (manifest : Json) (targetId : String)
    (expectedCommit : Json) : Except Failure String := do
  let m ← asDict manifest (.evidence "evidence manifest must be a JSON object")
  require (m.any fun p => p.2.truthy) "evidence manifest is empty — an empty file is not proof"
  requireFields m manifestFields fun field => "manifest missing required field '" ++ field ++ "'"
  require (Json.pyEq (m.get "target") (.str targetId))
    ("manifest.target '" ++ pyStr py (m.get "target") ++ "' does not match the task/gate being attested '" ++
      targetId ++ "' (no evidence reuse across gates)")
  let env ← asRecord (m.get "env")
  requireFields env envFields fun k =>
    "manifest.env missing '" ++ k ++ "' (environment provenance required)"
  checkFresh py w (m.get "created_at") 45
  require (!expectedCommit.truthy || pyStr py (m.get "base_commit") = pyStr py expectedCommit)
    ("base_commit mismatch: manifest " ++ cut (pyStr py (m.get "base_commit")) 12 ++ " != repo head " ++
      cut (pyStr py expectedCommit) 12 ++ " (stale/rebased evidence)")
  checkArtifact py w (m.get "artifact")

/-! ### The validators -/

/-- A report, which all validators read as a dictionary first. -/
def loadReport (py : Platform) (w : World) (path what : String) : Except Failure Record := do
  let rep ← loadJson py w path what
  asRecord rep

/-- `_require_list`. -/
def requireList (rep : Record) (key : String) (minimum : ℕ) (what : String) : Except Failure (List Json) :=
  let message := what ++ ": '" ++ key ++ "' must be a list with >=" ++ count minimum ++ " entries"
  match (rep.get key).items? with
  | some xs => if xs.length < minimum then .error (.evidence message) else .ok xs
  | none => .error (.evidence message)

/-- `v is True`. -/
def isTrue (v : Json) : Bool :=
  match v with
  | .bool b => b
  | _ => false

/-- How many of the run records have a field that `is True`. -/
def tally (runs : List Record) (field : String) : ℕ := runs.countP fun r => isTrue (r.get field)

/-- The `problems` of `validate_G1_desktop`, computed from the run records. -/
def problemsG1 (py : Platform) (rep : Record) (runs : List Record) (recording : Record) : List String :=
  let n := runs.length
  let readback := tally runs "readback_match"
  let injected := runs.filter fun r => isTrue (r.get "tamper_injected")
  let tamperCaught := tally injected "tamper_detected"
  let canaries := tally runs "canary_present"
  let gaps := tally runs "gap"
  (if 0 < tally runs "synthetic" then ["synthetic records are not attestable"] else []) ++
  (if n < 100 then ["only " ++ count n ++ " runs (<100)"] else []) ++
  (if readback < 99 then ["readback " ++ count readback ++ "/" ++ count n ++ " (<99)"] else []) ++
  (if injected = [] then ["no tamper was injected in any run (tamper detection unproven)"]
    else if tamperCaught ≠ injected.length then
      ["tamper detected " ++ count tamperCaught ++ "/" ++ count injected.length ++ " (must be 100%)"]
    else []) ++
  (if canaries ≠ n then ["canaries " ++ count canaries ++ "/" ++ count n ++ " (must be 100%)"] else []) ++
  (if gaps ≠ 0 then [count gaps ++ " silent gap(s) (must be 0)"] else []) ++
  (if !Str.contains "windows 11".toList (lower py (pyStr py ((rep.lookup "os").getD (.str "")))) then
    ["os is not Windows 11: " ++ pyRepr py (rep.get "os")] else []) ++
  (if !(recording.get "sha256").truthy then ["no screen-recording checksum"] else [])

/-- `rep.get(k) or {}`. -/
def orEmpty (v : Json) : Json := if v.truthy then v else .obj []

/-- `validate_G1_desktop`. -/
def validateG1Desktop (py : Platform) (w : World) (path : String) : Except Failure String := do
  let rep ← loadReport py w path "G1 run report"
  let runs ← asList (rep.get "runs")
    (.evidence "G1 report has no per-run 'runs' array — cannot verify from a summary")
  let runs ← runs.mapM asRecord
  let recording ← asRecord (orEmpty (rep.get "recording"))
  let problems := problemsG1 py rep runs recording
  require problems.isEmpty ("G1 FAILED (computed from run records): " ++ "; ".intercalate problems)
  let n := count runs.length
  let injected := runs.filter fun r => isTrue (r.get "tamper_injected")
  return "G1 OK — computed from " ++ n ++ " records: readback " ++ count (tally runs "readback_match") ++
    "/" ++ n ++ ", tamper " ++ count (tally injected "tamper_detected") ++ "/" ++ count injected.length ++
    ", canaries " ++ count (tally runs "canary_present") ++ "/" ++ n ++ ", gaps 0"

/-- The assessors who prefer a mode and say why. -/
def preferring (py : Platform) (assessors : List Record) (mode : String) : List Record :=
  assessors.filter fun a => Json.pyEq (a.get "prefers") (.str mode) && filledIn py a "reason"

/-- `validate_assessor_outcome`. -/
def validateAssessorOutcome (py : Platform) (w : World) (path : String) : Except Failure String := do
  let rep ← loadReport py w path "T2A assessor report"
  require (isTrue (rep.get "blind"))
    "T2A must be run BLIND (blind=true) — assessors must not know which is Kairo"
  let assessors ← requireList rep "assessors" 3 "T2A"
  let assessors ← assessors.mapM asRecord
  let prefer := preferring py assessors "B"
  require (0 < prefer.length) "T2A: need >=1 assessor who prefers Mode B *with a written reason*"
  require (assessors.any fun a =>
      Json.pyEq (a.get "would_pay") (.bool true) || Json.pyEq (a.get "would_pay") (.str "yes"))
    "T2A: no assessor indicated willingness to pay — record it explicitly (yes/no)"
  return "T2A OK — " ++ count prefer.length ++ "/" ++ count assessors.length ++
    " assessors prefer desktop-outcome Mode B with written reasons"

/-- `validate_assessor_boundary`. -/
def validateAssessorBoundary (py : Platform) (w : World) (path : String) : Except Failure String := do
  let rep ← loadReport py w path "T2B assessor report"
  require (isTrue (rep.get "blind")) "T2B must be run BLIND (blind=true)"
  let assessors ← requireList rep "assessors" 3 "T2B"
  let assessors ← assessors.mapM asRecord
  let prefer := preferring py assessors "B2"
  require (0 < prefer.length)
    "T2B: need >=1 assessor who values network-boundary evidence (B2) with a reason"
  return "T2B OK — " ++ count prefer.length ++ "/" ++ count assessors.length ++
    " value boundary evidence with written reasons"

/-- `validate_boundary_witness`. -/
def validateBoundaryWitness (py : Platform) (w : World) (path : String) : Except Failure String := do
  let rep ← loadReport py w path "T6 boundary report"
  let host ← asRecord (orEmpty (rep.get "host_observation"))
  require (host.get "observed_channels").truthy "T6: host_observation.observed_channels missing"
  let witness ← asRecord (orEmpty (rep.get "external_witness"))
  require ((witness.get "independent").truthy && (witness.get "signer").truthy)
    "T6: external_witness must be independent and signed by a second party"
  require (rep.lookup "declared_gaps").isSome
    "T6: must list 'declared_gaps' (honest scope, not a whole-machine claim)"
  let level := pyStr py ((rep.lookup "coverage_level").getD (.str ""))
  require ("KSEE-L".toList.isPrefixOf level.toList)
    "T6: must emit an honest coverage_level (KSEE-Ln), self-declared"
  return "T6 OK — host + independent witness, gaps declared, coverage " ++ level ++ " (self-declared)"

/-- `validate_competitive`. -/
def validateCompetitive (py : Platform) (w : World) (path : String) : Except Failure String := do
  let rep ← loadReport py w path "T1 competitive/FTO report"
  let comps ← requireList rep "competitors" 3 "T1"
  comps.forM fun c => do
    let c ← asRecord c
    require ((c.get "source_url").truthy && (c.get "fto_status").truthy)
      ("T1: competitor " ++ pyStr py ((c.lookup "name").getD (.str "?")) ++ " needs source_url + fto_status")
  require (filledIn py rep "frozen_novelty_claims")
    "T1: must record the frozen novelty-claim statement"
  return "T1 OK — " ++ count comps.length ++
    " competitors verified with sources + FTO status; novelty frozen"

/-- `all(v.get("result") == result for v in vectors)`, which stops at the first vector that differs. -/
def allResult (result : String) : List Json → Except Failure Bool
  | [] => .ok true
  | v :: vectors => do
    let v ← asRecord v
    if Json.pyEq (v.get "result") (.str result) then allResult result vectors else return false

/-- What a verifier has to demonstrate. -/
def conformanceFields : List String :=
  ["canonical_encoding", "signature_check", "merkle_proof", "nonce_freshness", "artifact_byte_hash",
    "reproducible_build_sha256"]

/-- `validate_verifier_conformance`. -/
def validateVerifierConformance (py : Platform) (w : World) (path : String) :
    Except Failure String := do
  let rep ← loadReport py w path "T4A conformance report"
  let pos ← requireList rep "positive_vectors" 1 "T4A"
  let neg ← requireList rep "negative_vectors" 1 "T4A"
  let accepted ← allResult "accept" pos
  require accepted "T4A: every positive conformance vector must be ACCEPTED"
  let rejected ← allResult "reject" neg
  require rejected "T4A: every negative conformance vector must be REJECTED (tamper/replay/bad-sig)"
  requireFields rep conformanceFields fun k => "T4A: verifier must demonstrate '" ++ k ++ "'"
  return "T4A OK — verifier accepts " ++ count pos.length ++ " good / rejects " ++ count neg.length ++
    " bad vectors; reproducible build recorded"

/-- The verdict of a fixture, which goes into a set. -/
def fixtureVerdict (f : Json) : Except Failure Json := do
  let f ← asRecord f
  let verdict := f.get "verdict"
  throwIf (!hashable verdict) (.raised "TypeError")
  return verdict

/-- The verdicts an adapter may give. -/
def honestVerdicts : List String := ["proved", "not_proved", "unavailable"]

/-- `validate_adapter`. -/
def validateAdapter (py : Platform) (w : World) (path : String) : Except Failure String := do
  let rep ← loadReport py w path "T4B adapter report"
  require ((rep.get "sample_source_url").truthy && (rep.get "sample_license").truthy)
    "T4B: need a real public sample_source_url + sample_license"
  let pos ← requireList rep "positive_fixtures" 1 "T4B"
  let neg ← requireList rep "negative_fixtures" 1 "T4B"
  let verdicts ← (pos ++ neg).mapM fixtureVerdict
  require (verdicts.all fun v => honestVerdicts.any fun s => Json.pyEq v (.str s))
    "T4B: fixtures must output proved/not_proved/unavailable (no implied endorsement)"
  return "T4B OK — real sample normalized with pos+neg fixtures and honest verdicts"

/-- `validate_ksee`. -/
def validateKsee (py : Platform) (w : World) (path : String) : Except Failure String := do
  let rep ← loadReport py w path "T5 KSEE draft report"
  require (filledIn py rep "spec_version") "T5: KSEE draft needs a spec_version"
  let _ ← requireList rep "external_reviewers" 1 "T5"
  require (filledIn py rep "free_offline_verifier_url")
    "T5: publish the free offline verifier alongside the draft"
  return "T5 OK — KSEE draft with >=1 external reviewer and a free offline verifier"

/-- `validate_funding`. -/
def validateFunding (py : Platform) (w : World) (path : String) : Except Failure String := do
  let rep ← loadReport py w path "G0 funding decision"
  require (filledIn py rep "company_structure") "G0: document the company structure decision"
  require (rep.lookup "sbir_eligible_now").isSome "G0: state sbir_eligible_now (true/false) explicitly"
  require ((rep.get "sbir_eligible_now").truthy || filledIn py rep "replacement_funding_spine")
    "G0: if SBIR is excluded, name the replacement non-dilutive/revenue funding spine"
  return "G0 OK — structure + funding-eligibility decision documented"

/-- What a paid pilot names. -/
def pilotFields : List String := ["budget_owner", "price", "start_date", "workflow", "decision_date"]

/-- `validate_market`. -/
def validateMarket (py : Platform) (w : World) (path : String) : Except Failure String := do
  let rep ← loadReport py w path "G3 market proof"
  let pilots ← requireList rep "paid_pilots" 1 "G3"
  pilots.forM fun p => do
    let p ← asRecord p
    pilotFields.forM fun k =>
      require (filledIn py p k) ("G3: paid pilot missing '" ++ k ++ "' (an LOI is not a paid pilot)")
  let _ ← requireList rep "external_reproductions" 1 "G3"
  let _ ← requireList rep "qualified_workflows" 3 "G3"
  return "G3 OK — " ++ count pilots.length ++ " paid pilot(s), external repro, >=3 workflows"

/-- What the bus-factor report names. -/
def busfactorFields : List String :=
  ["recovery_plan", "external_reproducible_build", "second_key_custodian", "cofounder_pipeline"]

/-- `validate_busfactor`. -/
def validateBusfactor (py : Platform) (w : World) (path : String) : Except Failure String := do
  let rep ← loadReport py w path "G4 bus-factor report"
  busfactorFields.forM fun k => require (filledIn py rep k) ("G4: missing '" ++ k ++ "'")
  let _ ← requireList rep "external_reviewers" 1 "G4"
  return "G4 OK — recovery, reproducible build, key custodian, external reviewer, pipeline"

/-- `VALIDATORS`. -/
def validators : List (String × (Platform → World → String → Except Failure String)) :=
  [("T1", validateCompetitive), ("T3", validateG1Desktop), ("T2A", validateAssessorOutcome),
    ("T2B", validateAssessorBoundary), ("T6", validateBoundaryWitness),
    ("T4A", validateVerifierConformance), ("T4B", validateAdapter), ("T5", validateKsee),
    ("G0", validateFunding), ("G3", validateMarket), ("G4", validateBusfactor)]

/-- `validate`. -/
def validate (py : Platform) (w : World) (targetId path : String) : Except Failure String :=
  match validators.lookup targetId with
  | some fn => fn py w path
  | none =>
    .error (.evidence ("no semantic validator registered for '" ++ targetId ++
      "'; refusing to accept a human attestation without one (fail-closed)"))

end AxiomGrid.LoopEngineering

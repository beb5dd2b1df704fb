import AxiomGrid.Legal.Checks
import AxiomGrid.Legal.Publish

/-!
# The bundle of a successful run

`verify_bundle` on the bundle that a successful run has left. Every check on the proposal, the approval
and the events passes. The checks on the files compare the hashes from before the output was replaced
with copies that were taken afterwards: when the output replaces the source or the playbook, the
bundle of the run does not verify.
-/

namespace AxiomGrid.Legal

/-- A successful run of `propose`, `approve` and `execute`. -/
structure Run (ed : Ed25519) (codec : JsonCodec) (oracles : Oracles) where
  root : String
  source : String
  playbook : String
  output : String
  bundleDir : String
  producerKey : Key
  approverKey : Key
  observerKey : Key
  keys : Dict String String
  proposal : Record
  proposed : ∃ fs ttl now proposalId,
    propose ed codec fs root source playbook output producerKey ttl now proposalId = .ok proposal
  approval : Record
  approved : ∃ ttl now approvalId nonce,
    approve ed proposal approverKey ttl now approvalId nonce = .ok approval
  faults : Faults
  now : ℤ
  tmpName : String
  runId : String
  /-- The file system before and after `execute`. -/
  before : FileSystem
  after : FileSystem
  manifest : Record
  executed : execute ed codec oracles faults now tmpName runId root proposal approval keys observerKey
    bundleDir before = (.ok manifest, after)
  inputs : Inputs
  prepared : prepare ed faults now before root proposal approval keys observerKey = .ok inputs
  redlined : Bytes
  written : (oracles.redlineContract inputs.sourceBytes inputs.playbookBytes).written = some redlined
  /-- The bundle directory, and where the names in it lead. -/
  bundle : FilePath
  resolved : before.resolve (.parse bundleDir) = some bundle
  place : String → FilePath
  places : Places before bundleDir place

namespace Run

variable {ed : Ed25519} {codec : JsonCodec} {oracles : Oracles}

/-- The source, the playbook and the output lie outside the bundle directory. -/
def Disjoint (run : Run ed codec oracles) : Prop :=
  ∀ p ∈ [run.inputs.sourcePath, run.inputs.playbookPath, run.inputs.outputPath], ¬ run.bundle <+: p

/-- The text of the manifest. -/
def text (run : Run ed codec oracles) : Bytes := codec.dumpsIndent (.obj run.manifest)

/-- The bundle is as the run has left it, and `path` leads there. -/
structure Unchanged (run : Run ed codec oracles) (fs : FileSystem) (path : String) : Prop where
  links : fs.links = run.after.links
  files : ∀ name ∈ bundleNames, fs.files (run.place name) = run.after.files (run.place name)
  path : fs.resolve (.parse path) = some run.bundle

/-- The copies with what they are copies of. -/
def copies (run : Run ed codec oracles) : List (String × Bytes) :=
  [("source.docx", run.inputs.sourceBytes), ("playbook.json", run.inputs.playbookBytes),
    ("output.docx", run.redlined)]

/-- The name of each copy leads into the bundle directory, and what is written there last has the
hash of the original. -/
def Verifiable (run : Run ed codec oracles) : Prop :=
  ∀ copy ∈ run.copies, isInside run.bundle (run.place copy.1) = true ∧
    ∃ content, FileSystem.lastWritten (bundleWrites run.inputs run.redlined run.text run.place)
      (run.place copy.1) = some content ∧ content.length ≤ maxBytes ∧ sha content = sha copy.2

variable {run : Run ed codec oracles} {fs : FileSystem} {path : String}

lemma executed_spec (run : Run ed codec oracles) : ∃ result intentSha approvalId events copied,
    Executed ed codec oracles run.runId run.bundleDir run.proposal run.approval run.keys
      run.observerKey run.inputs run.place run.before run.after run.manifest run.redlined result
      intentSha approvalId events copied := by
  obtain ⟨redlined, result, intentSha, approvalId, events, copied, h⟩ :=
    execute_spec run.places run.prepared run.executed
  cases run.written.symm.trans h.written
  exact ⟨result, intentSha, approvalId, events, copied, h⟩

/-! ### The state after the run -/

lemma links_after (run : Run ed codec oracles) : run.after.links = run.before.links := by
  obtain ⟨_, _, _, _, copied, h⟩ := run.executed_spec
  obtain ⟨faults, _, hcopy⟩ := h.copy
  rw [h.final, FileSystem.links_write, (links_copyFiles hcopy).1, FileSystem.links_write]

/-- The state after the run, when the copies lie in the bundle. -/
lemma after_eq (hdisjoint : run.Disjoint)
    (hinside : ∀ copy ∈ run.copies, isInside run.bundle (run.place copy.1) = true) :
    run.after = (run.before.write run.inputs.outputPath run.redlined).writeAll
      (bundleWrites run.inputs run.redlined run.text run.place) := by
  obtain ⟨_, _, _, _, copied, h⟩ := run.executed_spec
  obtain ⟨faults, a, hcopy⟩ := h.copy
  have hprepared := prepared_of_prepare run.prepared
  obtain ⟨-, hsource, -⟩ := readRegular_eq_ok.mp hprepared.source
  obtain ⟨-, hplaybook, -⟩ := readRegular_eq_ok.mp hprepared.playbook
  rw [h.final]
  have hapart : ∀ copy ∈ run.copies, ∀ p ∈ [run.inputs.sourcePath, run.inputs.playbookPath,
      run.inputs.outputPath], run.place copy.1 ≠ p := by
    intro copy hmem p hp hplace
    have hprefix := hinside copy hmem
    rw [isInside, Bool.and_eq_true, List.isPrefixOf_iff_prefix, hplace] at hprefix
    exact hdisjoint p hp hprefix.1
  have hsourceMem : ("source.docx", run.inputs.sourceBytes) ∈ run.copies := by simp [copies]
  have hplaybookMem : ("playbook.json", run.inputs.playbookBytes) ∈ run.copies := by simp [copies]
  refine copyFiles_spec run.places hsource hplaybook ⟨?_, ?_⟩ ?_ hcopy _
  · exact hapart _ hsourceMem _ (by simp)
  · exact hapart _ hsourceMem _ (by simp)
  · exact hapart _ hplaybookMem _ (by simp)

/-- Where the names of the copies lead, what can be read there is what was written there last. -/
lemma readRegular_place (hdisjoint : run.Disjoint) (hunchanged : run.Unchanged fs path)
    (hinside : ∀ copy ∈ run.copies, isInside run.bundle (run.place copy.1) = true)
    {copy : String × Bytes} (hcopy : copy ∈ run.copies) {content : Bytes} :
    readRegular fs (run.place copy.1) = .ok content ↔
      FileSystem.lastWritten (bundleWrites run.inputs run.redlined run.text run.place)
        (run.place copy.1) = some content ∧ content.length ≤ maxBytes := by
  have hname : copy.1 ∈ bundleNames := by
    simp only [copies, List.mem_cons, List.not_mem_nil, or_false] at hcopy
    obtain rfl | rfl | rfl := hcopy <;> simp [bundleNames]
  have hplain := FileSystem.resolve_plain (run.places copy.1 hname)
  have hne : run.place copy.1 ≠ [] := by
    intro hnil
    have hprefix := hinside copy hcopy
    rw [isInside, Bool.and_eq_true, List.isPrefixOf_iff_prefix, hnil, List.prefix_nil,
      decide_eq_true_eq] at hprefix
    exact hprefix.2 hprefix.1
  have hlink : fs.links (run.place copy.1) = none := by
    rw [hunchanged.links, links_after]
    exact hplain.2 _ (List.prefix_refl _) hne
  have hwritten : ∃ c, FileSystem.lastWritten (bundleWrites run.inputs run.redlined run.text run.place)
      (run.place copy.1) = some c := by
    simp only [copies, List.mem_cons, List.not_mem_nil, or_false] at hcopy
    obtain rfl | rfl | rfl := hcopy <;>
      simp only [FileSystem.lastWritten, bundleWrites, List.foldl_cons, List.foldl_nil, if_true] <;>
      split_ifs <;> exact ⟨_, rfl⟩
  obtain ⟨c, hc⟩ := hwritten
  rw [readRegular_eq_ok, hunchanged.files _ hname, after_eq hdisjoint hinside, FileSystem.files_writeAll,
    hc]
  simp [hlink]

/-! ### The verdict -/

/-- A name of the bundle, as the verifier looks for it. -/
lemma resolvePath_name (hunchanged : run.Unchanged fs path) {name : String} (hname : name ∈ bundleNames) :
    resolvePath fs ((RawPath.ofPath run.bundle).join (.parse name)) = .ok (run.place name) := by
  have hrelative : (RawPath.parse name).absolute = false := by
    simp only [bundleNames, List.mem_cons, List.not_mem_nil, or_false] at hname
    obtain rfl | rfl | rfl | rfl := hname <;> rfl
  have habsolute : ((RawPath.ofPath run.bundle).join (.parse name)).absolute = true := by
    rw [RawPath.join, hrelative]
    rfl
  rw [resolvePath_eq_ok, FileSystem.resolve_congr (hunchanged.links.trans run.links_after) habsolute]
  exact FileSystem.resolve_join_ofPath hrelative run.resolved (run.places name hname)

lemma readManifest_eq (hjson : codec.loads run.text = .ok (.obj run.manifest))
    (hunchanged : run.Unchanged fs path) :
    readManifest codec fs run.bundle = .ok (.obj run.manifest) := by
  obtain ⟨_, _, _, _, copied, h⟩ := run.executed_spec
  have hname : "bundle.json" ∈ bundleNames := by decide
  have hfile : fs.files (run.place "bundle.json") = some run.text := by
    rw [hunchanged.files _ hname, h.final, FileSystem.files_write_self]
    rfl
  simp only [readManifest, resolvePath_name hunchanged hname, Except.ok_bind, hfile]
  exact hjson

/-- The verifier accepts iff the checks on each of the three files pass. -/
lemma verifyBundle_iff_fileChecks (hcorrect : ed.Correct) (hkey : KeyPair ed run.observerKey)
    (hjson : codec.loads run.text = .ok (.obj run.manifest)) (hunchanged : run.Unchanged fs path)
    {result : RedlineResult} {intentSha approvalId : Json} {events : List Json} {copied : FileSystem}
    (h : Executed ed codec oracles run.runId run.bundleDir run.proposal run.approval run.keys
      run.observerKey run.inputs run.place run.before run.after run.manifest run.redlined result
      intentSha approvalId events copied) :
    (∃ report, verifyBundle ed codec fs path = .ok report ∧ report.ok = true) ↔
      ∀ entry ∈ bundleFiles, ∃ checks, fileChecks fs run.bundle (.arr events) entry = .ok checks ∧
        checks.all Check.ok = true := by
  have hprepared := prepared_of_prepare run.prepared
  have hpub : Dict.get? (Dict.set run.keys run.observerKey.keyId run.observerKey.publicKey)
      run.observerKey.keyId = some run.observerKey.publicKey := by
    rw [Dict.get?_set, if_pos rfl]
  obtain ⟨rest, hrest, hchecks⟩ := manifestChecks_manifestOf hcorrect hkey
    (hprepared.approved.set hprepared.producer hprepared.principal) hprepared.producer
    hprepared.principal hpub h.chain
  refine verifyBundle_ok_iff hrest (resolvePath_eq_ok.mpr hunchanged.path)
    (readManifest_eq hjson hunchanged) ?_
  rw [h.manifest_eq, hchecks]

/-- The checks on the file of a key, whose hash the events record. -/
lemma fileChecks_copy (hunchanged : run.Unchanged fs path) {result : RedlineResult}
    {intentSha approvalId : Json} {events : List Json}
    (hchain : eventChain ed (eventPayload (basePayload run.inputs run.redlined result intentSha
      approvalId)) run.observerKey 0 .null eventTypes = .ok events)
    (key : String) {name : String} (original : Bytes) (hname : name ∈ bundleNames)
    (hrecorded : (eventPayload (basePayload run.inputs run.redlined result intentSha approvalId)
      "RUN_CLOSED").lookup (key ++ "_sha256") = some (.str (sha original))) :
    (∃ checks, fileChecks fs run.bundle (.arr events) (key, .str name) = .ok checks ∧
        checks.all Check.ok = true) ↔
      isInside run.bundle (run.place name) = true ∧
        ∃ content, readRegular fs (run.place name) = .ok content ∧ sha content = sha original := by
  have htypes : eventTypes = ["INPUT_OBSERVED", "TRUST_CLASSIFIED", "POLICY_DECISION", "ACTION_INTENT",
      "APPROVAL_BOUND", "ACTION_ATTEMPT", "ARTIFACT_READBACK"] ++ ["RUN_CLOSED"] := rfl
  rw [htypes] at hchain
  obtain ⟨last, hlast, hpayload⟩ := lastPayload_eventChain hchain
  refine fileChecks_ok_iff (resolvePath_name hunchanged hname) hlast ?_
  rw [payloadItem, hpayload, Except.ok_bind]
  exact item_eq_ok.mpr hrecorded

/-- The verifier accepts iff it can read the copies and they have the hashes of the originals. -/
lemma verifyBundle_iff_readable (hcorrect : ed.Correct) (hkey : KeyPair ed run.observerKey)
    (hjson : codec.loads run.text = .ok (.obj run.manifest)) (hunchanged : run.Unchanged fs path) :
    (∃ report, verifyBundle ed codec fs path = .ok report ∧ report.ok = true) ↔
      ∀ copy ∈ run.copies, isInside run.bundle (run.place copy.1) = true ∧
        ∃ content, readRegular fs (run.place copy.1) = .ok content ∧ sha content = sha copy.2 := by
  obtain ⟨result, intentSha, approvalId, events, copied, h⟩ := run.executed_spec
  rw [verifyBundle_iff_fileChecks hcorrect hkey hjson hunchanged h]
  simp only [bundleFiles, copies, List.forall_mem_cons, List.not_mem_nil, false_implies, implies_true,
    and_true]
  refine and_congr ?_ (and_congr ?_ ?_)
  · exact fileChecks_copy hunchanged h.chain "source" run.inputs.sourceBytes (by decide) (by
      simp [eventPayload, basePayload])
  · exact fileChecks_copy hunchanged h.chain "playbook" run.inputs.playbookBytes (by decide) (by
      simp [eventPayload, basePayload, List.lookup_cons])
  · exact fileChecks_copy hunchanged h.chain "output" run.redlined (by decide) (by
      simp [eventPayload, basePayload, List.lookup_cons])

end Run

/-! ### Two runs

The same proposal with two output paths: a new file, and the source itself. -/

namespace Sample

/-- A scheme whose signatures are the key with the message. -/
def ed : Ed25519 where
  publicKey seed := seed
  sign seed message := seed ++ message
  verify pub sig message := sig = pub ++ message

lemma ed_correct : ed.Correct := by
  intro seed message _
  exact decide_eq_true rfl

def key (role : String) (byte : UInt8) : Key where
  role := role
  keyId := role
  privateKey := Base64.encode (List.replicate 32 byte)
  publicKey := Base64.encode (List.replicate 32 byte)

lemma keyPair_key (role : String) (byte : UInt8) : KeyPair ed (key role byte) :=
  ⟨List.replicate 32 byte, Base64.decode?_encode _, List.length_replicate,
    Base64.decode?_encode _⟩

def dumpsIndent (v : Json) : Bytes := utf8 v.dumps

/-- Writes the compact text, and reads compact texts. -/
noncomputable def codec : JsonCodec where
  loads data := open Classical in
    if h : ∃ v, dumpsIndent v = data then .ok h.choose else .error "JSONDecodeError"
  dumpsIndent := dumpsIndent

lemma loads_dumpsIndent (v : Json) : codec.loads (dumpsIndent v) = .ok v := by
  have hex : ∃ w, dumpsIndent w = dumpsIndent v := ⟨v, rfl⟩
  have heq : hex.choose = v := Json.dumps_injective (utf8_injective hex.choose_spec)
  simp only [codec, dif_pos hex, heq]

def source : Bytes := [1]

def clause : Record :=
  [("clause_id", .str "governing_law"), ("match_text", .str "a"), ("replacement_text", .str "b"),
    ("citation", .str "c"), ("rationale", .str "d")]

def playbook : Json := .obj [("clauses", .arr [.obj clause])]

def playbookText : Bytes := dumpsIndent playbook

def redlined : Bytes := [2]

def oracles : Oracles where
  redlineContract _ _ := ⟨some redlined, .ok { ok := true, appliedEdits := [("a", "b")] }⟩
  verifyDocxTrackedChanges _ _ := .ok ()

def fs : FileSystem where
  links _ := none
  files p :=
    if p = ["w", "nda.docx"] then some source
    else if p = ["w", "playbook.json"] then some playbookText
    else none
  cwd := []
  cwd_plain := .nil

def inputs (outputPath : FilePath) : Inputs where
  sourcePath := ["w", "nda.docx"]
  playbookPath := ["w", "playbook.json"]
  outputPath := outputPath
  sourceBytes := source
  playbookBytes := playbookText

def keys : Dict String String :=
  [("producer", (key "producer" 1).publicKey), ("approver", (key "approver" 2).publicKey)]

def body (content : Bytes) (output : String) : Record :=
  proposalBody "p" "nda.docx" "playbook.json" output content playbookText [.obj clause] 1000 900
    (key "producer" 1).keyId

lemma length_playbookText : playbookText.length ≤ maxBytes := by
  decide +kernel

lemma readRegular_playbook : readRegular fs ["w", "playbook.json"] = .ok playbookText := by
  have hfile : fs.files ["w", "playbook.json"] = some playbookText := by simp [fs]
  exact readRegular_eq_ok.mpr ⟨rfl, hfile, length_playbookText⟩

lemma loadJsonBytes_playbook :
    loadJsonBytes codec playbookText = .ok [("clauses", .arr [.obj clause])] := by
  rw [loadJsonBytes, playbookText, loads_dumpsIndent]
  rfl

lemma propose_eq (output : String) :
    propose ed codec fs "/w" "nda.docx" "playbook.json" output (key "producer" 1) 900 1000 "p" =
      signProposal ed (body source output) (key "producer" 1) := by
  have hrole : decide ((key "producer" 1).role = "producer") = true := rfl
  have hroot : resolvePath fs (.parse "/w") = .ok ["w"] := rfl
  have hsource : resolveUnderRoot fs ["w"] "nda.docx" = .ok ["w", "nda.docx"] := rfl
  have hplaybook : resolveUnderRoot fs ["w"] "playbook.json" = .ok ["w", "playbook.json"] := rfl
  have hreadSource : readRegular fs ["w", "nda.docx"] = .ok source := rfl
  have hallowed : allowedPlaybook [("clauses", .arr [.obj clause])] = .ok [.obj clause] := rfl
  rw [propose, hrole, hroot, Except.ok_bind, hsource, Except.ok_bind, hplaybook, Except.ok_bind,
    hreadSource, Except.ok_bind, readRegular_playbook, Except.ok_bind, loadJsonBytes_playbook,
    Except.ok_bind, hallowed, Except.ok_bind, require, if_pos rfl, Except.ok_bind, body]

lemma signable_body (content : Bytes) (output : String) : ∀ p ∈ body content output, Signable p.2 := by
  have hclause : Signable (.obj clause) := by
    refine signable_obj ?_
    simp [clause]
  have hclauses : Signable (.arr [.obj clause]) := by
    refine signable_arr ?_
    simpa using hclause
  have hissued : Signable (.int 1000) := signable_int (by decide)
  have hexpires : Signable (.int 1900) := signable_int (by decide)
  simp [body, proposalBody, hclauses, hissued, hexpires]

lemma exists_proposal (content : Bytes) (output : String) : ∃ proposal,
    signProposal ed (body content output) (key "producer" 1) = .ok proposal :=
  signProposal_ok (keyPair_key "producer" 1) (signable_body content output)

def approvalBody (content : Bytes) (intentSha : String) : Record :=
  [("profile", .str profile), ("approval_id", .str "a"), ("decision", .str "approve"),
    ("intent_sha256", .str intentSha), ("source_sha256", .str (sha content)),
    ("playbook_sha256", .str (sha playbookText)), ("principal", .str (key "approver" 2).keyId),
    ("issued_at", .int 1000), ("expires_at", .int 1600), ("nonce", .str "n")]

lemma exists_approval {content : Bytes} {output : String} {proposal : Record}
    (h : signProposal ed (body content output) (key "producer" 1) = .ok proposal) :
    ∃ intentSha sig, proposal.item "intent_sha256" = .ok (.str intentSha) ∧
      approve ed proposal (key "approver" 2) 600 1000 "a" "n" =
        .ok (approvalBody content intentSha ++ [("signature", .str sig)]) := by
  obtain ⟨intentSha, producerSig, -, -, rfl⟩ := signProposal_spec h
  have hsignable : Signable (.obj (approvalBody content intentSha)) := by
    have hissued : Signable (.int 1000) := signable_int (by decide)
    have hexpires : Signable (.int 1600) := signable_int (by decide)
    refine signable_obj ?_
    simp [approvalBody, hissued, hexpires]
  obtain ⟨sig, hsign⟩ := sign_ok (keyPair_key "approver" 2) hsignable
  have hearlier : earlier (1000 + 600) (.int (1000 + 900)) = .ok (.int 1600) := rfl
  have hrole : decide ((key "approver" 2).role = "approver") = true := rfl
  refine ⟨intentSha, sig, ?_, ?_⟩
  · simp [Record.item, body, proposalBody, List.lookup_cons]
  · rw [approvalBody] at hsign
    simp only [approve, hrole, require, if_true, body, proposalBody, Record.item, List.cons_append,
      List.nil_append, List.lookup_cons, beq_self_eq_true, String.reduceBEq, Except.ok_bind, hearlier, hsign,
      Except.pure_eq, approvalBody]

lemma approved_sample {content : Bytes} {output : String} {proposal approval : Record}
    {registered : Dict String String}
    (hproposal : signProposal ed (body content output) (key "producer" 1) = .ok proposal)
    (happroval : approve ed proposal (key "approver" 2) 600 1000 "a" "n" = .ok approval)
    (hproducer : Dict.get? registered "producer" = some (key "producer" 1).publicKey)
    (happrover : Dict.get? registered "approver" = some (key "approver" 2).publicKey) :
    Approved ed proposal approval registered :=
  approved_of_approve ed_correct (keyPair_key "producer" 1) (keyPair_key "approver" 2) hproposal happroval
    hproducer happrover

lemma verifyApproval_sample {content : Bytes} {output intentSha sig : String} {proposal : Record}
    (hproposal : signProposal ed (body content output) (key "producer" 1) = .ok proposal)
    (happroval : approve ed proposal (key "approver" 2) 600 1000 "a" "n" =
      .ok (approvalBody content intentSha ++ [("signature", .str sig)])) :
    verifyApproval ed proposal (approvalBody content intentSha ++ [("signature", .str sig)]) keys 1000 =
      .ok () := by
  have hproducer : Dict.get? keys "producer" = some (key "producer" 1).publicKey := rfl
  refine verifyApproval_of_approved (approved_sample hproposal happroval hproducer rfl) ?_ ?_ ?_ ?_
  · rfl
  · rfl
  · rfl
  · obtain ⟨_, _, -, -, rfl⟩ := signProposal_spec hproposal
    rfl

lemma prepare_sample {output intentSha sig : String} {outputPath : FilePath} {proposal : Record}
    (hproposal : signProposal ed (body source output) (key "producer" 1) = .ok proposal)
    (happroval : approve ed proposal (key "approver" 2) 600 1000 "a" "n" =
      .ok (approvalBody source intentSha ++ [("signature", .str sig)]))
    (houtput : resolveUnderRoot fs ["w"] output = .ok outputPath)
    (hinside : List.isPrefixOf ["w"] outputPath.dropLast = true) :
    prepare ed (fun _ => none) 1000 fs "/w" proposal (approvalBody source intentSha ++ [("signature", .str sig)])
      keys (key "observer" 3) = .ok (inputs outputPath) := by
  have hverify := verifyApproval_sample hproposal happroval
  obtain ⟨intentSha', sig', -, -, rfl⟩ := signProposal_spec hproposal
  have hobserver : ((key "observer" 3).role = "observer" &&
      !Json.pyEq (.str (key "observer" 3).keyId) (Record.get (body source output ++
        [("intent_sha256", .str intentSha')] ++ [("signature", .str sig')]) "producer_key_id") &&
      !Json.pyEq (.str (key "observer" 3).keyId) (Record.get (approvalBody source intentSha ++
        [("signature", .str sig)]) "principal")) = true := rfl
  have hroot : resolvePath fs (.parse "/w") = .ok ["w"] := rfl
  have hsource : resolveItem fs ["w"] (body source output ++ [("intent_sha256", .str intentSha')] ++
      [("signature", .str sig')]) "source" = .ok ["w", "nda.docx"] := rfl
  have hplaybook : resolveItem fs ["w"] (body source output ++ [("intent_sha256", .str intentSha')] ++
      [("signature", .str sig')]) "playbook" = .ok ["w", "playbook.json"] := rfl
  have houtput' : resolveItem fs ["w"] (body source output ++ [("intent_sha256", .str intentSha')] ++
      [("signature", .str sig')]) "output" = .ok outputPath := houtput
  have hlink : fs.isSymlink outputPath = false := rfl
  have hreadSource : readRegular fs ["w", "nda.docx"] = .ok source := rfl
  have hsourceSha : Record.item (body source output ++ [("intent_sha256", .str intentSha')] ++
      [("signature", .str sig')]) "source_sha256" = .ok (.str (sha source)) := rfl
  have hplaybookSha : Record.item (body source output ++ [("intent_sha256", .str intentSha')] ++
      [("signature", .str sig')]) "playbook_sha256" = .ok (.str (sha playbookText)) := rfl
  rw [prepare, hobserver, hroot, Except.ok_bind, hsource, Except.ok_bind, hplaybook, Except.ok_bind,
    houtput', Except.ok_bind, hinside, hlink, hreadSource, Except.ok_bind, readRegular_playbook,
    Except.ok_bind, hsourceSha, Except.ok_bind, hplaybookSha, Except.ok_bind, pyEq_str_self,
    pyEq_str_self, hverify, Except.ok_bind, Bool.and_false]
  rfl

def place (name : String) : FilePath := ["b", name]

lemma places_sample : Places fs "/b" place := by
  intro name hname
  simp only [bundleNames, List.mem_cons, List.not_mem_nil, or_false] at hname
  obtain rfl | rfl | rfl | rfl := hname <;> rfl

def result : RedlineResult where
  ok := true
  appliedEdits := [("a", "b")]

lemma publish_sample {outputPath : FilePath}
    (hfresh : fs.files (outputPath.dropLast ++ [".kairo-1.docx"]) = none) :
    publish oracles (fun _ => none) ".kairo-1.docx" (inputs outputPath) fs =
      (.ok (redlined, result), fs.write outputPath redlined) :=
  publish_ok hfresh rfl rfl rfl rfl rfl (by decide)

lemma copyFiles_sample {outputPath : FilePath} (hapart : ∀ name, place name ≠ outputPath) :
    ∃ copied, copyFiles (fun _ => none) (inputs outputPath) (.parse "/b")
      (fs.write outputPath redlined) = (.ok (), copied) := by
  have hcurrent : ∀ p c, fs.files p = some c → ∃ c', (fs.write outputPath redlined).files p = some c' := by
    intro p c hc
    by_cases hp : p = outputPath
    · subst hp
      exact ⟨redlined, FileSystem.files_write_self ..⟩
    · exact ⟨c, (FileSystem.files_write_of_ne hp redlined).trans hc⟩
  obtain ⟨sourceCopy, hsource⟩ := hcurrent ["w", "nda.docx"] source rfl
  obtain ⟨playbookCopy, hplaybook⟩ := hcurrent ["w", "playbook.json"] playbookText (by simp [fs])
  have hplaces : Places (fs.write outputPath redlined) "/b" place := places_sample
  refine copyFiles_ok hplaces hsource hplaybook (FileSystem.files_write_self ..) ?_
  intro name
  exact ⟨by simp [place, inputs], by simp [place, inputs], hapart name⟩

lemma exists_events (byte : UInt8) (outputPath : FilePath) (intentSha : String) :
    ∃ events, eventChain ed (eventPayload (basePayload (inputs outputPath) redlined result
      (.str intentSha) (.str "a"))) (key "observer" byte) 0 .null eventTypes = .ok events := by
  refine eventChain_ok (keyPair_key "observer" byte) ?_ signable_null (by decide)
  intro eventType
  have hedit : Signable (.obj [("old", .str "a"), ("new", .str "b"),
      ("author", .str "Kairo Legal v3")]) := signable_obj (by simp)
  have hedits : Signable (.arr (expectedChanges result)) :=
    signable_arr (by simpa [expectedChanges, result] using hedit)
  have hflagged : Signable (.arr result.flaggedClauses) := signable_arr (by simp [result])
  refine signable_obj ?_
  simp [eventPayload, basePayload, hedits, hflagged]

/-- The run that writes its output to `output`. -/
lemma exists_run {output : String} {outputPath : FilePath}
    (houtput : resolveUnderRoot fs ["w"] output = .ok outputPath)
    (hinside : List.isPrefixOf ["w"] outputPath.dropLast = true)
    (hapart : ∀ name, place name ≠ outputPath)
    (hfresh : fs.files (outputPath.dropLast ++ [".kairo-1.docx"]) = none) :
    ∃ run : Run ed codec oracles, run.observerKey = key "observer" 3 ∧
      run.inputs = inputs outputPath ∧ run.redlined = redlined ∧ run.before = fs ∧
      run.bundle = ["b"] ∧ run.place = place := by
  obtain ⟨proposal, hproposal⟩ := exists_proposal source output
  obtain ⟨intentSha, approval, hintent, happroval, happrovalId, hprepare⟩ :
      ∃ intentSha approval, proposal.item "intent_sha256" = .ok (.str intentSha) ∧
        approve ed proposal (key "approver" 2) 600 1000 "a" "n" = .ok approval ∧
        approval.item "approval_id" = .ok (.str "a") ∧
        prepare ed (fun _ => none) 1000 fs "/w" proposal approval keys (key "observer" 3) =
          .ok (inputs outputPath) := by
    obtain ⟨intentSha, sig, hintent, happroval⟩ := exists_approval hproposal
    exact ⟨intentSha, _, hintent, happroval, rfl, prepare_sample hproposal happroval houtput hinside⟩
  obtain ⟨copied, hcopy⟩ := copyFiles_sample hapart
  obtain ⟨events, hevents⟩ := exists_events 3 outputPath intentSha
  have hpublish := publish_sample hfresh
  have htarget : (fs.write outputPath redlined).resolve ((RawPath.parse "/b").join
      (.parse "bundle.json")) = some (place "bundle.json") := places_sample "bundle.json" (by decide)
  obtain ⟨manifest, hexecute⟩ : ∃ manifest, execute ed codec oracles (fun _ => none) 1000
      ".kairo-1.docx" "r" "/w" proposal approval keys (key "observer" 3) "/b" fs =
        (.ok manifest, copied.write (place "bundle.json") (codec.dumpsIndent (.obj manifest))) :=
    execute_ok hprepare hpublish hcopy hintent happrovalId hevents htarget
  have hwritten : (oracles.redlineContract (inputs outputPath).sourceBytes
      (inputs outputPath).playbookBytes).written = some redlined := rfl
  have hproposed := (propose_eq output).trans hproposal
  exact ⟨⟨"/w", "nda.docx", "playbook.json", output, "/b", key "producer" 1, key "approver" 2,
    key "observer" 3, keys, proposal, ⟨fs, 900, 1000, "p", hproposed⟩, approval,
    ⟨600, 1000, "a", "n", happroval⟩, fun _ => none, 1000, ".kairo-1.docx", "r", fs, _, manifest,
    hexecute, inputs outputPath, hprepare, redlined, hwritten, ["b"], rfl, place, places_sample⟩,
    rfl, rfl, rfl, rfl, rfl, rfl⟩

lemma run_setting {run : Run ed codec oracles} {outputPath : FilePath}
    (hkey : run.observerKey = key "observer" 3) (hinputs : run.inputs = inputs outputPath)
    (hbefore : run.before = fs) (hbundle : run.bundle = ["b"]) (houtput : ¬ ["b"] <+: outputPath) :
    KeyPair ed run.observerKey ∧ run.Disjoint ∧ codec.loads run.text = .ok (.obj run.manifest) ∧
      run.Unchanged run.after "/b" := by
  refine ⟨?_, ?_, loads_dumpsIndent _, ⟨rfl, fun _ _ => rfl, ?_⟩⟩
  · rw [hkey]
    exact keyPair_key "observer" 3
  · intro p hp
    rw [hinputs] at hp
    simp only [inputs, List.mem_cons, List.not_mem_nil, or_false] at hp
    rw [hbundle]
    obtain rfl | rfl | rfl := hp
    · decide
    · decide
    · exact houtput
  · have habsolute : (RawPath.parse "/b").absolute = true := rfl
    rw [FileSystem.resolve_congr run.links_after habsolute, hbefore, hbundle]
    rfl

lemma isInside_place (name : String) : isInside ["b"] (place name) = true := by
  simp [isInside, place]

end Sample

end AxiomGrid.Legal

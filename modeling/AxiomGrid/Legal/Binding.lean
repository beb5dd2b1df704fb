import AxiomGrid.Legal.Honest

/-!
# What an accepted bundle binds

`verify_bundle` compares the files with the last event, the approval with the proposal, and every
event with the one before it. No check compares an event with the proposal, and the files are those
that the manifest lists. An accepted bundle is that of one transaction exactly when the manifest
itself makes these connections.
-/

namespace AxiomGrid.Legal

/-! ### Reading a manifest -/

/-- `manifest[part][k]`. -/
def partItem (manifest : Json) (part k : String) : Except String Json := do
  subscript (← subscript manifest part) k

/-- `manifest["events"][-1]["payload"][k]`. -/
def lastPayloadItem (manifest : Json) (k : String) : Except String Json := do
  payloadItem (← lastItem (← subscript manifest "events")) k

/-- The events of a manifest. -/
def eventsOf (manifest : Json) : Except String (List Json) := do
  iterate (← subscript manifest "events")

/-- The content of the file that the manifest lists under `key`, if it lies in the bundle. -/
def listedFile (fs : FileSystem) (bundle : FilePath) (manifest : Json) (key : String) :
    Except String Bytes := do
  match ← partItem manifest "files" key with
  | .str name =>
    let filePath ← resolvePath fs ((RawPath.ofPath bundle).join (.parse name))
    require (isInside bundle filePath) "path escape"
    readRegular fs filePath
  | _ => .error "TypeError"

/-- Every event carries the intent of the proposal. -/
def CarriesIntent (manifest : Json) : Prop :=
  ∃ events intentSha, eventsOf manifest = .ok events ∧
    partItem manifest "proposal" "intent_sha256" = .ok intentSha ∧
    ∀ event ∈ events, payloadItem event "intent_sha256" = .ok intentSha

/-- The files of the bundle are there, the source and the playbook are those that were proposed and
approved, and every event carries the proposed intent. -/
structure OneTransaction (fs : FileSystem) (bundle : FilePath) (manifest : Json) : Prop where
  present : ∀ key ∈ ["source", "playbook", "output"],
    ∃ content, listedFile fs bundle manifest key = .ok content
  bound : ∀ key ∈ ["source", "playbook"], ∃ content, listedFile fs bundle manifest key = .ok content ∧
    partItem manifest "proposal" (key ++ "_sha256") = .ok (.str (sha content)) ∧
    partItem manifest "approval" (key ++ "_sha256") = .ok (.str (sha content))
  intent : CarriesIntent manifest

/-- The connections that a manifest has to make by itself. -/
structure Connected (manifest : Json) : Prop where
  listed : ∀ key ∈ ["source", "playbook", "output"],
    ∃ name, partItem manifest "files" key = .ok name
  recorded : ∀ key ∈ ["source", "playbook"],
    lastPayloadItem manifest (key ++ "_sha256") = partItem manifest "proposal" (key ++ "_sha256")
  intent : CarriesIntent manifest

/-! ### What the checks say -/

section

variable {ed : Ed25519} {codec : JsonCodec} {fs : FileSystem} {bundle : FilePath} {manifest : Json}

/-- What a manifest with no failing check says about its files, its proposal and its approval. -/
structure Accepted (fs : FileSystem) (bundle : FilePath) (manifest : Json) : Prop where
  files : ∀ key name, partItem manifest "files" key = .ok name →
    ∃ content, listedFile fs bundle manifest key = .ok content ∧
      lastPayloadItem manifest (key ++ "_sha256") = .ok (.str (sha content))
  approved : ∀ field ∈ boundFields, ∀ s, partItem manifest "proposal" field = .ok (.str s) →
    partItem manifest "approval" field = .ok (.str s)

lemma mem_of_lookup {record : Record} {k : String} {v : Json} (h : record.lookup k = some v) :
    (k, v) ∈ record := by
  induction record with
  | nil => cases h
  | cons p record ih =>
    obtain ⟨k', v'⟩ := p
    rw [List.lookup_cons] at h
    split at h
    · next heq =>
      cases h
      rw [beq_iff_eq] at heq
      rw [heq]
      exact List.mem_cons_self
    · exact List.mem_cons_of_mem _ (ih h)

lemma partItem_eq_ok {part k : String} {record : Record} {v : Json}
    (h : subscript manifest part = .ok (.obj record)) :
    partItem manifest part k = .ok v ↔ record.lookup k = some v := by
  rw [partItem, h, Except.ok_bind]
  exact item_eq_ok

lemma of_approvalChecks_ok {publicKeys proposal approval : Record} {checks : List Check}
    (h : approvalChecks ed publicKeys proposal approval = .ok checks)
    (hok : checks.all Check.ok = true) :
    ∀ field ∈ boundFields, Json.pyEq (approval.get field) (proposal.get field) = true := by
  obtain ⟨principal, -, h⟩ := Except.of_bind_eq_ok h
  cases h
  rw [List.all_cons, Bool.and_eq_true] at hok
  exact List.all_eq_true.mp hok.1

lemma accepted_of_passed {files proposal approval keys : Record} {events observer : Json}
    {eventList : List Json}
    (h : Passed ed fs bundle manifest files proposal approval keys events observer eventList) :
    Accepted fs bundle manifest := by
  constructor
  · intro key name hlisted
    have hentryMem := mem_of_lookup ((partItem_eq_ok h.files_eq).mp hlisted)
    obtain ⟨checks, hentry, hok⟩ := h.ofFiles (key, name) hentryMem
    obtain ⟨name, filePath, content, last, rfl, hpath, hinside, hread, hlast, hpayload⟩ :=
      of_fileChecks_ok hentry hok
    refine ⟨content, ?_, ?_⟩
    · simp only [listedFile, hlisted, Except.ok_bind, hpath, hinside, require, if_true]
      exact hread
    · simp only [lastPayloadItem, h.events_eq, Except.ok_bind, hlast]
      exact hpayload
  · intro field hfield s hproposed
    rw [partItem_eq_ok h.proposal_eq] at hproposed
    obtain ⟨checks, hchecks, hok⟩ := h.ofApproval
    have hequal := of_approvalChecks_ok hchecks hok field hfield
    rw [Record.get.eq_1 proposal, hproposed, Option.getD_some, Json.pyEq_str_right] at hequal
    rw [partItem_eq_ok h.approval_eq]
    exact lookup_of_get_str hequal

/-- The parts of an accepted manifest belong together iff it connects them. -/
lemma Accepted.oneTransaction_iff (h : Accepted fs bundle manifest) :
    OneTransaction fs bundle manifest ↔ Connected manifest := by
  constructor
  · intro htransaction
    refine ⟨?_, ?_, htransaction.intent⟩
    · intro key hkey
      obtain ⟨content, hcontent⟩ := htransaction.present key hkey
      obtain ⟨name, hname, -⟩ := Except.of_bind_eq_ok hcontent
      exact ⟨name, hname⟩
    · intro key hkey
      obtain ⟨content, hcontent, hproposed, -⟩ := htransaction.bound key hkey
      obtain ⟨name, hname, -⟩ := Except.of_bind_eq_ok hcontent
      obtain ⟨content', hcontent', hlast⟩ := h.files key name hname
      cases hcontent.symm.trans hcontent'
      rw [hlast, hproposed]
  · intro hconnected
    refine ⟨?_, ?_, hconnected.intent⟩
    · intro key hkey
      obtain ⟨name, hname⟩ := hconnected.listed key hkey
      obtain ⟨content, hcontent, -⟩ := h.files key name hname
      exact ⟨content, hcontent⟩
    · intro key hkey
      have hlisted : key ∈ ["source", "playbook", "output"] := by
        simp only [List.mem_cons, List.not_mem_nil, or_false] at hkey ⊢
        tauto
      have hfield : key ++ "_sha256" ∈ boundFields := by
        simp only [List.mem_cons, List.not_mem_nil, or_false] at hkey
        obtain rfl | rfl := hkey <;> decide
      obtain ⟨name, hname⟩ := hconnected.listed key hlisted
      obtain ⟨content, hcontent, hlast⟩ := h.files key name hname
      have hproposed := (hconnected.recorded key hkey).symm.trans hlast
      exact ⟨content, hcontent, hproposed, h.approved _ hfield _ hproposed⟩

/-- An accepted bundle is that of one transaction iff its manifest connects its parts. -/
theorem verifyBundle_oneTransaction_iff {path : String} {report : Report}
    (hbundle : resolvePath fs (.parse path) = .ok bundle)
    (hmanifest : readManifest codec fs bundle = .ok manifest)
    (h : verifyBundle ed codec fs path = .ok report) (hok : report.ok = true) :
    OneTransaction fs bundle manifest ↔ Connected manifest := by
  obtain ⟨_, _, _, _, _, _, _, hpassed⟩ := passed_of_verifyBundle hbundle hmanifest h hok
  exact (accepted_of_passed hpassed).oneTransaction_iff

end

/-! ### Bundles put together by hand -/

namespace Sample

/-- The bundle of the sample run with another manifest. -/
def bundleFs (manifest : Record) : FileSystem :=
  { fs with
    files := fun p =>
      if p = place "source.docx" then some source
      else if p = place "playbook.json" then some playbookText
      else if p = place "output.docx" then some redlined
      else if p = place "bundle.json" then some (dumpsIndent (.obj manifest))
      else none }

lemma resolvePath_bundle (manifest : Record) :
    resolvePath (bundleFs manifest) (.parse "/b") = .ok ["b"] := rfl

lemma resolvePath_place (manifest : Record) {name : String} (hname : name ∈ bundleNames) :
    resolvePath (bundleFs manifest) ((RawPath.ofPath ["b"]).join (.parse name)) = .ok (place name) := by
  simp only [bundleNames, List.mem_cons, List.not_mem_nil, or_false] at hname
  obtain rfl | rfl | rfl | rfl := hname <;> rfl

lemma readManifest_bundleFs (manifest : Record) :
    readManifest codec (bundleFs manifest) ["b"] = .ok (.obj manifest) := by
  have hpath := resolvePath_place manifest (show "bundle.json" ∈ bundleNames by decide)
  have hfile : (bundleFs manifest).files (place "bundle.json") = some (dumpsIndent (.obj manifest)) := by
    simp [bundleFs, place]
  simp only [readManifest, hpath, Except.ok_bind, hfile, loads_dumpsIndent]

lemma readRegular_bundleFs (manifest : Record) :
    readRegular (bundleFs manifest) (place "source.docx") = .ok source ∧
      readRegular (bundleFs manifest) (place "playbook.json") = .ok playbookText ∧
      readRegular (bundleFs manifest) (place "output.docx") = .ok redlined := by
  simp only [readRegular_eq_ok]
  have hlength := length_playbookText
  refine ⟨⟨rfl, ?_, by decide⟩, ⟨rfl, ?_, hlength⟩, ⟨rfl, ?_, by decide⟩⟩ <;> simp [bundleFs, place]

/-- The keys of all three roles. -/
def allKeys (byte : UInt8) : Dict String String :=
  Dict.set keys "observer" (key "observer" byte).publicKey

variable {proposal approval : Record} {outputPath : FilePath} {intentSha approvalId : Json}
  {events : List Json}

/-- Any approved proposal is accepted next to events that record these files. -/
lemma accepts (byte : UInt8) (happroved : Approved ed proposal approval (allKeys byte))
    (hproducer : proposal.get "producer_key_id" = .str "producer")
    (hprincipal : approval.get "principal" = .str "approver")
    (hevents : eventChain ed (eventPayload (basePayload (inputs outputPath) redlined result intentSha
      approvalId)) (key "observer" byte) 0 .null eventTypes = .ok events) :
    ∃ report, verifyBundle ed codec (bundleFs (manifestOf "r" bundleFiles proposal approval
      (allKeys byte) "observer" events)) "/b" = .ok report ∧ report.ok = true := by
  have hproducerNe : Json.pyEq (.str "observer") (proposal.get "producer_key_id") = false := by
    rw [hproducer]
    rfl
  have hprincipalNe : Json.pyEq (.str "observer") (approval.get "principal") = false := by
    rw [hprincipal]
    rfl
  obtain ⟨rest, hrest, hchecks⟩ := manifestChecks_manifestOf ed_correct (keyPair_key "observer" byte)
    happroved hproducerNe hprincipalNe rfl hevents
  have htypes : eventTypes = ["INPUT_OBSERVED", "TRUST_CLASSIFIED", "POLICY_DECISION", "ACTION_INTENT",
      "APPROVAL_BOUND", "ACTION_ATTEMPT", "ARTIFACT_READBACK"] ++ ["RUN_CLOSED"] := rfl
  rw [htypes] at hevents
  obtain ⟨last, hlast, hpayload⟩ := lastPayload_eventChain hevents
  rw [verifyBundle_ok_iff hrest (resolvePath_bundle _) (readManifest_bundleFs _) (hchecks _ _ _ _)]
  have hrecorded : ∀ key s, (eventPayload (basePayload (inputs outputPath) redlined result intentSha
      approvalId) "RUN_CLOSED").lookup (key ++ "_sha256") = some (.str s) →
      payloadItem last (key ++ "_sha256") = .ok (.str s) := by
    intro key s h
    rw [payloadItem, hpayload, Except.ok_bind]
    exact item_eq_ok.mpr h
  obtain ⟨hsource, hplaybook, houtput⟩ := readRegular_bundleFs
    (manifestOf "r" bundleFiles proposal approval (allKeys byte) "observer" events)
  have hsourceSha := hrecorded "source" (sha source) (by simp [eventPayload, basePayload, inputs])
  have hplaybookSha := hrecorded "playbook" (sha playbookText)
    (by simp [eventPayload, basePayload, inputs, List.lookup_cons])
  have houtputSha := hrecorded "output" (sha redlined) (by simp [eventPayload, basePayload, List.lookup_cons])
  simp only [bundleFiles, List.forall_mem_cons, List.not_mem_nil, false_implies, implies_true, and_true]
  refine ⟨?_, ?_, ?_⟩
  · exact (fileChecks_ok_iff (resolvePath_place _ (by decide)) hlast hsourceSha).mpr
      ⟨isInside_place _, source, hsource, rfl⟩
  · exact (fileChecks_ok_iff (resolvePath_place _ (by decide)) hlast hplaybookSha).mpr
      ⟨isInside_place _, playbookText, hplaybook, rfl⟩
  · exact (fileChecks_ok_iff (resolvePath_place _ (by decide)) hlast houtputSha).mpr
      ⟨isInside_place _, redlined, houtput, rfl⟩

/-- The signed proposal and approval for the source `content`, and events of the sample run with some
intent. -/
lemma exists_parts (byte : UInt8) (content : Bytes) (intent : String → String) :
    ∃ proposal approval events intentSha, Approved ed proposal approval (allKeys byte) ∧
    proposal.lookup "source_sha256" = some (.str (sha content)) ∧
    proposal.lookup "playbook_sha256" = some (.str (sha playbookText)) ∧
    proposal.lookup "intent_sha256" = some (.str intentSha) ∧
    proposal.get "producer_key_id" = .str "producer" ∧ approval.get "principal" = .str "approver" ∧
    eventChain ed (eventPayload (basePayload (inputs ["w", "redlined.docx"]) redlined result
      (.str (intent intentSha)) (.str "a"))) (key "observer" byte) 0 .null eventTypes = .ok events := by
  obtain ⟨proposal, hproposal⟩ := exists_proposal content "redlined.docx"
  obtain ⟨approvedIntent, sig, -, happroval⟩ := exists_approval hproposal
  have happroved := approved_sample hproposal happroval
    (show Dict.get? (allKeys byte) "producer" = some (key "producer" 1).publicKey from rfl) rfl
  obtain ⟨intentSha, sig', -, -, rfl⟩ := signProposal_spec hproposal
  obtain ⟨events, hevents⟩ := exists_events byte ["w", "redlined.docx"] (intent intentSha)
  exact ⟨_, _, events, intentSha, happroved, rfl, rfl, rfl, rfl, rfl, hevents⟩

end Sample

/-- Files and events of one transaction are accepted with the proposal and the approval of another. -/
theorem verifyBundle_accepts_mixed : ∃ manifest : Record,
    (∃ report, verifyBundle Sample.ed Sample.codec (Sample.bundleFs manifest) "/b" = .ok report ∧
      report.ok = true) ∧
    resolvePath (Sample.bundleFs manifest) (.parse "/b") = .ok ["b"] ∧
    readManifest Sample.codec (Sample.bundleFs manifest) ["b"] = .ok (.obj manifest) ∧
    ¬ OneTransaction (Sample.bundleFs manifest) ["b"] (.obj manifest) := by
  obtain ⟨proposal, approval, events, intentSha, happroved, hsourceSha, -, -, hproducer, hprincipal,
    hevents⟩ := Sample.exists_parts 3 [9] fun _ => ""
  have haccepts := Sample.accepts 3 happroved hproducer hprincipal hevents
  refine ⟨_, haccepts, Sample.resolvePath_bundle _, Sample.readManifest_bundleFs _, ?_⟩
  generalize hm : manifestOf "r" bundleFiles proposal approval (Sample.allKeys 3) "observer" events = manifest
  intro htransaction
  obtain ⟨content, hcontent, hproposed, -⟩ := htransaction.bound "source" (by decide)
  have hlisted : listedFile (Sample.bundleFs manifest) ["b"] (.obj manifest) "source" =
      .ok Sample.source := by
    have hitem : partItem (.obj manifest) "files" "source" = .ok (.str "source.docx") := by
      rw [← hm]
      rfl
    have hpath := Sample.resolvePath_place manifest (show "source.docx" ∈ bundleNames by decide)
    simp only [listedFile, hitem, Except.ok_bind, hpath, Sample.isInside_place, require, if_true]
    exact (Sample.readRegular_bundleFs manifest).1
  cases hcontent.symm.trans hlisted
  have hproposal : subscript (.obj manifest) "proposal" = .ok (.obj proposal) := by
    rw [← hm]
    rfl
  rw [partItem_eq_ok hproposal] at hproposed
  have hsha : sha [9] = sha Sample.source := by
    simpa only [Option.some.injEq, Json.str.injEq] using hsourceSha.symm.trans hproposed
  have hdifferent : sha256 [9] ≠ sha256 Sample.source := by
    decide +kernel
  exact hdifferent (Bytes.hex_injective hsha)

/-- The sample run's own bundle is that of one transaction. -/
theorem verifyBundle_oneTransaction_sample : ∃ (manifest : Record) (report : Report),
    verifyBundle Sample.ed Sample.codec (Sample.bundleFs manifest) "/b" = .ok report ∧
    report.ok = true ∧ OneTransaction (Sample.bundleFs manifest) ["b"] (.obj manifest) := by
  obtain ⟨proposal, approval, events, intentSha, happroved, hsourceSha, hplaybookSha, hintent, hproducer,
    hprincipal, hevents⟩ := Sample.exists_parts 3 Sample.source id
  obtain ⟨report, hreport, hok⟩ := Sample.accepts 3 happroved hproducer hprincipal hevents
  refine ⟨_, report, hreport, hok, ?_⟩
  rw [verifyBundle_oneTransaction_iff (Sample.resolvePath_bundle _) (Sample.readManifest_bundleFs _)
    hreport hok]
  generalize hm : manifestOf "r" bundleFiles proposal approval (Sample.allKeys 3) "observer" events = manifest
  have hproposal : subscript (.obj manifest) "proposal" = .ok (.obj proposal) := by
    rw [← hm]
    rfl
  have heventsOf : subscript (.obj manifest) "events" = .ok (.arr events) := by
    rw [← hm]
    rfl
  have htypes : eventTypes = ["INPUT_OBSERVED", "TRUST_CLASSIFIED", "POLICY_DECISION", "ACTION_INTENT",
      "APPROVAL_BOUND", "ACTION_ATTEMPT", "ARTIFACT_READBACK"] ++ ["RUN_CLOSED"] := rfl
  have hpayloads := payload_eventChain hevents
  rw [htypes] at hevents
  obtain ⟨last, hlast, hpayload⟩ := lastPayload_eventChain hevents
  constructor
  · intro key hkey
    simp only [List.mem_cons, List.not_mem_nil, or_false] at hkey
    rw [← hm]
    obtain rfl | rfl | rfl := hkey <;> exact ⟨_, rfl⟩
  · intro key hkey
    simp only [List.mem_cons, List.not_mem_nil, or_false] at hkey
    simp only [lastPayloadItem, heventsOf, Except.ok_bind, hlast, payloadItem, hpayload]
    obtain rfl | rfl := hkey
    · refine Eq.trans (subscript_obj.mpr ?_) ((partItem_eq_ok hproposal).mpr hsourceSha).symm
      simp [eventPayload, basePayload, Sample.inputs]
    · refine Eq.trans (subscript_obj.mpr ?_) ((partItem_eq_ok hproposal).mpr hplaybookSha).symm
      simp [eventPayload, basePayload, Sample.inputs, List.lookup_cons]
  · refine ⟨events, .str intentSha, ?_, (partItem_eq_ok hproposal).mpr hintent, ?_⟩
    · rw [eventsOf, heventsOf]
      rfl
    · intro event hevent
      obtain ⟨-, eventType, hsubscript⟩ := hpayloads event hevent
      rw [payloadItem, hsubscript, Except.ok_bind]
      refine subscript_obj.mpr ?_
      simp [eventPayload, basePayload, List.lookup_cons]

end AxiomGrid.Legal

import AxiomGrid.Legal.Approval
import AxiomGrid.Legal.Verify

/-!
# The verifier on what execution assembles

A chain of events built by `eventChain` passes the checks on events, and a proposal and an approval
that `verifyApproval` lets through pass theirs, whatever the payloads of the events are.
-/

namespace AxiomGrid.Legal

variable {ed : Ed25519} {observer : Key} {publicKeys : Record}

lemma pyEqItems_strings (xs : List String) :
    Json.pyEqItems (xs.map .str) (xs.map .str) = true := by
  induction xs with
  | nil => rfl
  | cons x xs ih => simp [Json.pyEqItems, ih]

/-! ### Public keys -/

lemma lookup_texts (d : Dict String String) (k : String) :
    (d.map fun p => (p.1, Json.str p.2)).lookup k = (Dict.get? d k).map .str := by
  induction d with
  | nil => rfl
  | cons p d ih =>
    obtain ⟨k', v⟩ := p
    rw [List.map_cons, List.lookup_cons, Dict.get?, ih]
    by_cases hk : k' = k
    · simp [hk]
    · have hbeq : (k == k') = false := beq_false_of_ne (Ne.symm hk)
      simp only [hbeq, hk, if_false]

lemma itemsOf_eq_ok {v : Json} {record : Record} : itemsOf v = .ok record ↔ v = .obj record := by
  cases v <;> simp [itemsOf]

lemma subscript_obj {record : Record} {k : String} {v : Json} :
    subscript (.obj record) k = .ok v ↔ record.lookup k = some v := item_eq_ok

/-! ### Events -/

lemma event_spec {sequence : ℕ} {eventType : String} {previous : Json} {payload : Record}
    {record : Record} {eventSha : String}
    (h : event ed sequence eventType previous payload observer = .ok (record, eventSha)) :
    digest (eventBody sequence eventType previous payload observer.keyId) = .ok eventSha ∧
    ∃ sig, sign ed (eventBody sequence eventType previous payload observer.keyId) observer = .ok sig ∧
      record = eventBody sequence eventType previous payload observer.keyId ++
        [("event_sha256", .str eventSha), ("signature", .str sig)] := by
  obtain ⟨eventSha', hdigest, h⟩ := Except.of_bind_eq_ok h
  obtain ⟨sig, hsign, h⟩ := Except.of_bind_eq_ok h
  cases h
  exact ⟨hdigest, sig, hsign, rfl⟩

/-- The observer can sign any run of events with canonical payloads. -/
lemma eventChain_ok (hkey : KeyPair ed observer) {payload : String → Record} {types : List String}
    (hpayload : ∀ eventType, Signable (.obj (payload eventType))) {sequence : ℕ} {previous : Json}
    (hprevious : Signable previous) (hsequence : sequence + types.length ≤ maxSafeInteger) :
    ∃ events, eventChain ed payload observer sequence previous types = .ok events := by
  induction types generalizing sequence previous with
  | nil => exact ⟨[], rfl⟩
  | cons eventType types ih =>
    rw [List.length_cons, Nat.cast_add, Nat.cast_one] at hsequence
    have hbody : Signable
        (.obj (eventBody sequence eventType previous (payload eventType) observer.keyId)) := by
      refine signable_obj ?_
      simp only [eventBody, List.forall_mem_cons, List.not_mem_nil, false_implies, implies_true, and_true]
      exact ⟨signable_int (by omega), signable_str _, hprevious, hpayload eventType, signable_str _⟩
    obtain ⟨eventSha, hdigest⟩ := digest_ok hbody
    obtain ⟨sig, hsign⟩ := sign_ok hkey hbody
    obtain ⟨events, hevents⟩ := @ih (sequence + 1) (.str eventSha) (signable_str _) (by
      rw [Nat.cast_add, Nat.cast_one]
      omega)
    refine ⟨.obj (eventBody sequence eventType previous (payload eventType) observer.keyId ++
      [("event_sha256", .str eventSha), ("signature", .str sig)]) :: events, ?_⟩
    simp only [eventChain, event, hdigest, hsign, Except.ok_bind, Except.pure_eq, hevents]

/-- An event signed by the observer passes, where its key is registered. -/
lemma eventCheck_event (hcorrect : ed.Correct) (hkey : KeyPair ed observer)
    (hpub : publicKeys.lookup observer.keyId = some (.str observer.publicKey)) {sequence : ℕ}
    {eventType : String} {previous : Json} (hprevious : Json.pyEq previous previous = true)
    {payload record : Record} {eventSha : String}
    (h : event ed sequence eventType previous payload observer = .ok (record, eventSha)) :
    eventCheck ed (.obj publicKeys) sequence previous record =
      .ok ([⟨true, "sequence/parent"⟩, ⟨true, "event digest"⟩, ⟨true, "event signature"⟩],
        .str eventSha) := by
  obtain ⟨hdigest, sig, hsign, rfl⟩ := event_spec h
  have hwithout : Record.without (eventBody sequence eventType previous payload observer.keyId ++
      [("event_sha256", .str eventSha), ("signature", .str sig)]) ["event_sha256", "signature"] =
      eventBody sequence eventType previous payload observer.keyId := by
    simp [Record.without, eventBody]
  have hverify := verifySig_sign hcorrect hkey hsign
  simp only [eventCheck, hwithout, hdigest]
  simp [Record.item, eventBody, List.lookup_cons, andThen, itemsOf, keyAt, entryAt, hashable, hpub,
    hprevious]
  exact hverify

lemma eventChecks_eventChain (hcorrect : ed.Correct) (hkey : KeyPair ed observer)
    (hpub : publicKeys.lookup observer.keyId = some (.str observer.publicKey))
    {payload : String → Record} {sequence : ℕ} {previous : Json}
    (hprevious : Json.pyEq previous previous = true) {types : List String} {events : List Json}
    (h : eventChain ed payload observer sequence previous types = .ok events) :
    ∃ checks, eventChecks ed (.obj publicKeys) sequence previous events = .ok checks ∧
      checks.all Check.ok = true := by
  induction types generalizing sequence previous events with
  | nil =>
    cases h
    exact ⟨[], rfl, rfl⟩
  | cons eventType types ih =>
    obtain ⟨⟨record, eventSha⟩, hevent, h⟩ := Except.of_bind_eq_ok h
    obtain ⟨rest, hrest, h⟩ := Except.of_bind_eq_ok h
    cases h
    obtain ⟨checks, hchecks, hok⟩ := ih (pyEq_str_self eventSha) hrest
    have hfirst := eventCheck_event hcorrect hkey hpub hprevious hevent
    have hall : eventChecks ed (.obj publicKeys) sequence previous (.obj record :: rest) =
        .ok ([⟨true, "sequence/parent"⟩, ⟨true, "event digest"⟩, ⟨true, "event signature"⟩] ++
          checks) := by
      simp only [eventChecks, itemsOf, Except.ok_bind, hfirst, hchecks, Except.pure_eq]
    refine ⟨_, hall, ?_⟩
    simpa using hok

/-- The events of the chain have the given types, in order. -/
lemma eventTypes_eventChain {payload : String → Record} {sequence : ℕ} {previous : Json}
    {types : List String} {events : List Json}
    (h : eventChain ed payload observer sequence previous types = .ok events) :
    (events.mapM fun event => subscript event "event_type") = .ok (types.map .str) := by
  induction types generalizing sequence previous events with
  | nil =>
    cases h
    rfl
  | cons eventType types ih =>
    obtain ⟨⟨record, eventSha⟩, hevent, h⟩ := Except.of_bind_eq_ok h
    obtain ⟨rest, hrest, h⟩ := Except.of_bind_eq_ok h
    cases h
    obtain ⟨-, sig, -, rfl⟩ := event_spec hevent
    have htype : subscript (.obj (eventBody sequence eventType previous (payload eventType)
        observer.keyId ++ [("event_sha256", .str eventSha), ("signature", .str sig)])) "event_type" =
        .ok (.str eventType) := by
      simp [subscript, Record.item, eventBody, List.lookup_cons]
    simp only [List.mapM_cons, htype, Except.ok_bind, ih hrest, Except.pure_eq, List.map_cons]

/-- Every event of the chain carries the payload for its type and names the observer. -/
lemma payload_eventChain {payload : String → Record} {sequence : ℕ} {previous : Json}
    {types : List String} {events : List Json}
    (h : eventChain ed payload observer sequence previous types = .ok events) :
    ∀ event ∈ events, subscript event "observer_key_id" = .ok (.str observer.keyId) ∧
      ∃ eventType, subscript event "payload" = .ok (.obj (payload eventType)) := by
  induction types generalizing sequence previous events with
  | nil =>
    cases h
    intro event hevent
    cases hevent
  | cons eventType types ih =>
    obtain ⟨⟨record, eventSha⟩, hevent, h⟩ := Except.of_bind_eq_ok h
    obtain ⟨rest, hrest, h⟩ := Except.of_bind_eq_ok h
    cases h
    obtain ⟨-, sig, -, rfl⟩ := event_spec hevent
    rw [List.forall_mem_cons]
    refine ⟨⟨?_, eventType, ?_⟩, ih hrest⟩ <;> simp [subscript, Record.item, eventBody, List.lookup_cons]

/-- The payload of the last event of the chain. -/
lemma lastPayload_eventChain {payload : String → Record} {sequence : ℕ} {previous : Json}
    {types : List String} {eventType : String} {events : List Json}
    (h : eventChain ed payload observer sequence previous (types ++ [eventType]) = .ok events) :
    ∃ event, lastItem (.arr events) = .ok event ∧
      subscript event "payload" = .ok (.obj (payload eventType)) := by
  induction types generalizing sequence previous events with
  | nil =>
    obtain ⟨⟨record, eventSha⟩, hevent, h⟩ := Except.of_bind_eq_ok h
    cases h
    obtain ⟨-, sig, -, rfl⟩ := event_spec hevent
    refine ⟨_, rfl, ?_⟩
    simp [subscript, Record.item, eventBody, List.lookup_cons]
  | cons first types ih =>
    obtain ⟨⟨record, eventSha⟩, hevent, h⟩ := Except.of_bind_eq_ok h
    obtain ⟨rest, hrest, h⟩ := Except.of_bind_eq_ok h
    cases h
    obtain ⟨event, hlast, hpayload⟩ := ih hrest
    refine ⟨event, ?_, hpayload⟩
    cases rest with
    | nil => cases hlast
    | cons second rest =>
      simpa [lastItem] using hlast

/-! ### Proposal and approval -/

variable {proposal approval : Record} {keys : Dict String String}

lemma entryAt_texts {keyId pub : String} (h : Dict.get? keys keyId = some pub) :
    entryAt (keys.map fun p => (p.1, Json.str p.2)) (.str keyId) = .ok (some (.str pub)) := by
  simp only [entryAt, hashable, Except.ok_bind, Except.pure_eq, lookup_texts, h, Option.map_some]

lemma Approved.proposalChecks (h : Approved ed proposal approval keys) :
    proposalChecks ed (keys.map fun p => (p.1, Json.str p.2)) proposal =
      .ok [⟨true, "proposal digest"⟩, ⟨true, "proposal signature"⟩] := by
  obtain ⟨intentSha, hdigest, hintent⟩ := h.digest
  obtain ⟨keyId, pub, hkeyId, hpub, hverify⟩ := h.proposed
  simp only [Legal.proposalChecks, hdigest, hkeyId, entryAt_texts hpub, Except.ok_bind, Except.pure_eq,
    hintent, Option.getD_some, hverify]

lemma Approved.approvalChecks (h : Approved ed proposal approval keys) :
    approvalChecks ed (keys.map fun p => (p.1, Json.str p.2)) proposal approval =
      .ok [⟨true, "approval binding"⟩, ⟨true, "approval signature"⟩] := by
  obtain ⟨keyId, pub, hkeyId, hpub, hverify⟩ := h.approved
  simp only [Legal.approvalChecks, hkeyId, entryAt_texts hpub, Except.ok_bind, Except.pure_eq,
    h.bound, Option.getD_some, hverify]

lemma Approved.observerCheck (h : Approved ed proposal approval keys) {keyId : String}
    (hproducer : Json.pyEq (.str keyId) (proposal.get "producer_key_id") = false)
    (hprincipal : Json.pyEq (.str keyId) (approval.get "principal") = false) :
    observerCheck (.str keyId) proposal approval = .ok [⟨true, "observer independence"⟩] := by
  obtain ⟨producerId, -, hproducerId, -⟩ := h.proposed
  obtain ⟨principalId, -, hprincipalId, -⟩ := h.approved
  have hitem₁ := item_eq_ok.mpr (lookup_of_get_str hproducerId)
  have hitem₂ := item_eq_ok.mpr (lookup_of_get_str hprincipalId)
  rw [hproducerId] at hproducer
  rw [hprincipalId] at hprincipal
  simp only [Legal.observerCheck, hitem₁, hitem₂, hashable, Except.ok_bind, Except.pure_eq, hproducer,
    hprincipal, Bool.or_false, Bool.not_false]

/-! ### Files -/

section

variable {fs : FileSystem} {bundle : FilePath}

/-- `event["payload"][k]`. -/
def payloadItem (event : Json) (k : String) : Except String Json := do
  subscript (← subscript event "payload") k

lemma readRegular_ok_of_map {p : FilePath} {f : Bytes → Bool}
    (h : (readRegular fs p).map f = .ok true) : ∃ content, readRegular fs p = .ok content ∧
      f content = true := by
  cases hread : readRegular fs p with
  | error e =>
    rw [hread] at h
    cases h
  | ok content =>
    rw [hread] at h
    exact ⟨content, rfl, Except.ok.inj h⟩

/-- A file that passes lies in the bundle, and its hash is the one in the last event. -/
lemma of_fileChecks_ok {events : Json} {entry : String × Json} {checks : List Check}
    (h : fileChecks fs bundle events entry = .ok checks) (hok : checks.all Check.ok = true) :
    ∃ name filePath content last, entry.2 = .str name ∧
      resolvePath fs ((RawPath.ofPath bundle).join (.parse name)) = .ok filePath ∧
      isInside bundle filePath = true ∧ readRegular fs filePath = .ok content ∧
      lastItem events = .ok last ∧ payloadItem last (entry.1 ++ "_sha256") = .ok (.str (sha content)) := by
  obtain ⟨key, v⟩ := entry
  cases v with
  | str name =>
    obtain ⟨filePath, hpath, h⟩ := Except.of_bind_eq_ok h
    obtain ⟨last, hlast, h⟩ := Except.of_bind_eq_ok h
    obtain ⟨payload, hpayload, h⟩ := Except.of_bind_eq_ok h
    obtain ⟨expected, hexpected, h⟩ := Except.of_bind_eq_ok h
    obtain ⟨isMatch, hmatch, h⟩ := Except.of_bind_eq_ok h
    cases h
    simp only [List.all_cons, List.all_nil, Bool.and_true, Bool.and_eq_true] at hok
    obtain ⟨⟨hinside, -⟩, rfl⟩ := hok
    rw [andThen, if_pos hinside] at hmatch
    obtain ⟨content, hread, hsha⟩ := readRegular_ok_of_map hmatch
    rw [Json.pyEq_str_left] at hsha
    subst hsha
    refine ⟨name, filePath, content, last, rfl, hpath, hinside, hread, hlast, ?_⟩
    simp only [payloadItem, hpayload, Except.ok_bind]
    exact hexpected
  | null | bool | int | float | arr | obj => cases h

lemma fileChecks_ok_iff {events last : Json} {key name s : String} {filePath : FilePath}
    (hpath : resolvePath fs ((RawPath.ofPath bundle).join (.parse name)) = .ok filePath)
    (hlast : lastItem events = .ok last)
    (hpayload : payloadItem last (key ++ "_sha256") = .ok (.str s)) :
    (∃ checks, fileChecks fs bundle events (key, .str name) = .ok checks ∧
        checks.all Check.ok = true) ↔
      isInside bundle filePath = true ∧ ∃ content, readRegular fs filePath = .ok content ∧
        sha content = s := by
  constructor
  · rintro ⟨checks, h, hok⟩
    obtain ⟨name', filePath', content, last', hname, hpath', hinside, hread, hlast', hpayload'⟩ :=
      of_fileChecks_ok h hok
    cases hname
    cases hpath.symm.trans hpath'
    cases hlast.symm.trans hlast'
    cases hpayload.symm.trans hpayload'
    exact ⟨hinside, content, hread, rfl⟩
  · rintro ⟨hinside, content, hread, rfl⟩
    obtain ⟨payload, hpayload', hexpected⟩ := Except.of_bind_eq_ok hpayload
    obtain ⟨-, hfile, -⟩ := readRegular_eq_ok.mp hread
    refine ⟨[⟨true, key ++ " path confinement"⟩, ⟨true, key ++ " hash"⟩], ?_, rfl⟩
    simp only [fileChecks, hpath, hlast, hpayload', hexpected, Except.ok_bind, hinside, andThen, if_true,
      hread, Except.map_eq_ok, pyEq_str_self, Except.pure_eq, FileSystem.isFile, hfile,
      Option.isSome_some, Bool.and_true]

end

/-! ### The manifest -/

/-- In a manifest put together from an approved proposal and a chain of the observer's events, only
the checks on the files can fail. -/
lemma manifestChecks_manifestOf (hcorrect : ed.Correct) (hkey : KeyPair ed observer)
    (happroved : Approved ed proposal approval keys) {observerKeyId : String}
    (hproducer : Json.pyEq (.str observerKeyId) (proposal.get "producer_key_id") = false)
    (hprincipal : Json.pyEq (.str observerKeyId) (approval.get "principal") = false)
    (hpub : Dict.get? keys observer.keyId = some observer.publicKey) {payload : String → Record}
    {events : List Json} (hevents : eventChain ed payload observer 0 .null eventTypes = .ok events) :
    ∃ rest, rest.all Check.ok = true ∧ ∀ fs bundle runId files,
      manifestChecks ed fs bundle
          (.obj (manifestOf runId files proposal approval keys observerKeyId events)) =
        (files.mapM (fileChecks fs bundle (.arr events))).map fun ofFiles => ofFiles.flatten ++ rest := by
  have hlookup : List.lookup observer.keyId (keys.map fun p => (p.1, Json.str p.2)) =
      some (.str observer.publicKey) := by
    rw [lookup_texts, hpub, Option.map_some]
  have hnull : Json.pyEq .null .null = true := rfl
  obtain ⟨ofEvents, hofEvents, hok⟩ := eventChecks_eventChain hcorrect hkey hlookup hnull hevents
  have htypes := eventTypes_eventChain hevents
  refine ⟨[⟨true, "proposal digest"⟩, ⟨true, "proposal signature"⟩, ⟨true, "approval binding"⟩,
    ⟨true, "approval signature"⟩, ⟨true, "observer independence"⟩] ++ ofEvents ++
    [⟨true, "mandatory state machine"⟩], ?_, ?_⟩
  · simpa using hok
  · intro fs bundle runId files
    have hmachine : machineCheck events = .ok [⟨true, "mandatory state machine"⟩] := by
      simp only [machineCheck, htypes, Except.ok_bind, Except.pure_eq, pyEqItems_strings]
    have hsub : ∀ k v, (manifestOf runId files proposal approval keys observerKeyId events).lookup k =
        some v → subscript (.obj (manifestOf runId files proposal approval keys observerKeyId events)) k =
          .ok v := by
      intro k v h
      exact item_eq_ok.mpr h
    rw [manifestChecks, hsub "files" (.obj files) rfl, hsub "events" (.arr events) rfl,
      hsub "proposal" (.obj proposal) rfl, hsub "approval" (.obj approval) rfl,
      hsub "public_keys" (.obj (keys.map fun p => (p.1, Json.str p.2))) rfl,
      hsub "observer_key_id" (.str observerKeyId) rfl]
    simp only [itemsOf, iterate, Except.ok_bind, happroved.proposalChecks, happroved.approvalChecks,
      happroved.observerCheck hproducer hprincipal, hofEvents, hmachine, Except.pure_eq]
    cases List.mapM (fileChecks fs bundle (.arr events)) files with
    | error e => rfl
    | ok ofFiles => simp

/-- The parts of a manifest with no failing check, and that their checks pass. -/
structure Passed (ed : Ed25519) (fs : FileSystem) (bundle : FilePath) (manifest : Json)
    (files proposal approval keys : Record) (events observer : Json) (eventList : List Json) : Prop where
  files_eq : subscript manifest "files" = .ok (.obj files)
  proposal_eq : subscript manifest "proposal" = .ok (.obj proposal)
  approval_eq : subscript manifest "approval" = .ok (.obj approval)
  publicKeys_eq : subscript manifest "public_keys" = .ok (.obj keys)
  observer_eq : subscript manifest "observer_key_id" = .ok observer
  events_eq : subscript manifest "events" = .ok events
  eventList_eq : iterate events = .ok eventList
  ofFiles : ∀ entry ∈ files, ∃ checks, fileChecks fs bundle events entry = .ok checks ∧
    checks.all Check.ok = true
  ofProposal : ∃ checks, proposalChecks ed keys proposal = .ok checks ∧ checks.all Check.ok = true
  ofApproval : ∃ checks, approvalChecks ed keys proposal approval = .ok checks ∧
    checks.all Check.ok = true
  ofEvents : ∃ checks, eventChecks ed (.obj keys) 0 .null eventList = .ok checks ∧
    checks.all Check.ok = true

lemma passed_of_manifestChecks {fs : FileSystem} {bundle : FilePath} {manifest : Json}
    {checks : List Check} (h : manifestChecks ed fs bundle manifest = .ok checks)
    (hok : checks.all Check.ok = true) : ∃ files proposal approval keys events observer eventList,
      Passed ed fs bundle manifest files proposal approval keys events observer eventList := by
  obtain ⟨filesValue, hfilesValue, h⟩ := Except.of_bind_eq_ok h
  obtain ⟨files, hfiles, h⟩ := Except.of_bind_eq_ok h
  obtain ⟨ofFiles, hofFiles, h⟩ := Except.of_bind_eq_ok h
  obtain ⟨proposalValue, hproposalValue, h⟩ := Except.of_bind_eq_ok h
  obtain ⟨proposal, hproposal, h⟩ := Except.of_bind_eq_ok h
  obtain ⟨publicKeys, hpublicKeys, h⟩ := Except.of_bind_eq_ok h
  obtain ⟨keys, hkeys, h⟩ := Except.of_bind_eq_ok h
  obtain ⟨ofProposal, hofProposal, h⟩ := Except.of_bind_eq_ok h
  obtain ⟨approvalValue, happrovalValue, h⟩ := Except.of_bind_eq_ok h
  obtain ⟨approval, happroval, h⟩ := Except.of_bind_eq_ok h
  obtain ⟨ofApproval, hofApproval, h⟩ := Except.of_bind_eq_ok h
  obtain ⟨observer, hobserver, h⟩ := Except.of_bind_eq_ok h
  obtain ⟨ofObserver, -, h⟩ := Except.of_bind_eq_ok h
  obtain ⟨events, hevents, h⟩ := Except.of_bind_eq_ok h
  obtain ⟨eventList, heventList, h⟩ := Except.of_bind_eq_ok h
  obtain ⟨ofEvents, hofEvents, h⟩ := Except.of_bind_eq_ok h
  obtain ⟨ofMachine, -, h⟩ := Except.of_bind_eq_ok h
  cases h
  rw [itemsOf_eq_ok] at hfiles hproposal happroval hkeys
  subst hfiles hproposal happroval hkeys
  simp only [List.all_append, List.all_flatten, Bool.and_eq_true] at hok
  obtain ⟨⟨⟨⟨⟨hokFiles, hokProposal⟩, hokApproval⟩, -⟩, hokEvents⟩, -⟩ := hok
  simp only [hevents, Except.ok_bind] at hofFiles
  exact ⟨files, proposal, approval, keys, events, observer, eventList, hfilesValue, hproposalValue,
    happrovalValue, hpublicKeys, hobserver, hevents, heventList,
    List.mapM_ok_iff.mp ⟨ofFiles, hofFiles, List.all_eq_true.mp hokFiles⟩,
    ⟨ofProposal, hofProposal, hokProposal⟩, ⟨ofApproval, hofApproval, hokApproval⟩,
    ⟨ofEvents, hofEvents, hokEvents⟩⟩

lemma passed_of_verifyBundle {codec : JsonCodec} {fs : FileSystem} {path : String} {bundle : FilePath}
    {manifest : Json} {report : Report} (hbundle : resolvePath fs (.parse path) = .ok bundle)
    (hmanifest : readManifest codec fs bundle = .ok manifest)
    (h : verifyBundle ed codec fs path = .ok report) (hok : report.ok = true) :
    ∃ files proposal approval keys events observer eventList,
      Passed ed fs bundle manifest files proposal approval keys events observer eventList := by
  simp only [verifyBundle, hbundle, Except.ok_bind, hmanifest] at h
  obtain ⟨checks, hchecks, h⟩ := Except.of_bind_eq_ok h
  cases h
  exact passed_of_manifestChecks hchecks hok

/-- Where nothing but the files can fail, the verifier accepts iff the checks on each file pass. -/
lemma verifyBundle_ok_iff {codec : JsonCodec} {fs : FileSystem} {path : String} {bundle : FilePath}
    {manifest events : Json} {files : Record} {rest : List Check} (hrest : rest.all Check.ok = true)
    (hbundle : resolvePath fs (.parse path) = .ok bundle)
    (hmanifest : readManifest codec fs bundle = .ok manifest)
    (hchecks : manifestChecks ed fs bundle manifest =
      (files.mapM (fileChecks fs bundle events)).map fun ofFiles => ofFiles.flatten ++ rest) :
    (∃ report, verifyBundle ed codec fs path = .ok report ∧ report.ok = true) ↔
      ∀ entry ∈ files, ∃ checks, fileChecks fs bundle events entry = .ok checks ∧
        checks.all Check.ok = true := by
  have hverify : verifyBundle ed codec fs path =
      (files.mapM (fileChecks fs bundle events)).map fun ofFiles =>
        reportOf (ofFiles.flatten ++ rest) := by
    simp only [verifyBundle, hbundle, Except.ok_bind, hmanifest, hchecks]
    cases List.mapM (fileChecks fs bundle events) files <;> rfl
  rw [hverify, ← List.mapM_ok_iff]
  constructor
  · rintro ⟨report, hreport, hok⟩
    cases hfiles : List.mapM (fileChecks fs bundle events) files with
    | error e =>
      rw [hfiles] at hreport
      cases hreport
    | ok ofFiles =>
      rw [hfiles] at hreport
      cases hreport
      simp only [reportOf, List.all_append, List.all_flatten, Bool.and_eq_true] at hok
      exact ⟨ofFiles, rfl, List.all_eq_true.mp hok.1⟩
  · rintro ⟨ofFiles, hfiles, hok⟩
    rw [hfiles]
    refine ⟨_, rfl, ?_⟩
    simp only [reportOf, List.all_append, List.all_flatten, Bool.and_eq_true]
    exact ⟨List.all_eq_true.mpr hok, hrest⟩

end AxiomGrid.Legal

import AxiomGrid.Legal.Envelope
import AxiomGrid.Legal.Verify
import AxiomGrid.Lib.LengthPrefix

/-!
# Statements in envelopes

`create_statement` and `create_envelope` of `kairo/legal_v3/dsse_envelope.py`. The parser gives back
the statement that was put in, once the entries of `signatures` pass its checks, and the encoding that
is signed determines the payload type and the payload.
-/

namespace AxiomGrid.Legal

open Json (sorted sortedItems sortedMembers sortKeys DistinctKeys ReadsBack)

/-! ### Making a statement -/

/-- `record.get(k, default)`. -/
def Record.getOr (record : Record) (k : String) (default : Json) : Json := (record.lookup k).getD default

/-- The dictionary whose `get` is called. -/
def dictOf : Json → Except String Record
  | .obj kvs => .ok kvs
  | _ => .error "AttributeError"

/-- The loop over the events for the digest of the output, up to the first read-back. -/
def outputShaOf : List Json → Except String Json
  | [] => .ok (.str "")
  | event :: events => do
    let members ← dictOf event
    if Json.pyEq (members.get "event_type") (.str "ARTIFACT_READBACK") then do
      let payload ← dictOf (members.getOr "payload" (.obj []))
      return payload.getOr "output_sha256" (.str "")
    else outputShaOf events

/-- A subject of the statement, unless it has no digest. -/
def subjectsOf (name digest : Json) : List Json :=
  if digest.truthy then [.obj [("name", name), ("digest", .obj [("sha256", digest)])]] else []

/-- `create_statement`. -/
def createStatement (bundle : Record) : Except String Record := do
  let proposal ← dictOf (bundle.getOr "proposal" (.obj []))
  let outputName := proposal.getOr "output" (.str "output.docx")
  let events ← iterate (bundle.getOr "events" (.arr []))
  let outputSha ← outputShaOf events
  let sourceName := proposal.getOr "source" (.str "source.docx")
  let sourceSha := proposal.getOr "source_sha256" (.str "")
  return [("_type", .str statementType),
    ("subject", .arr (subjectsOf outputName outputSha ++ subjectsOf sourceName sourceSha)),
    ("predicateType", .str predicateType), ("predicate", .obj bundle)]

/-- `create_envelope`. -/
def createEnvelope (bundle : Record) (signatures : List Json) : Except String Json := do
  let statement ← createStatement bundle
  let text ← Json.dumpsStrict (.obj statement)
  return .obj [("payload", .str (Base64.encode (utf8 text))), ("payloadType", .str payloadType),
    ("signatures", .arr signatures)]

/-! ### Bundles of a transaction -/

/-- The field is a text if it is there. -/
def TextField (record : Record) (k : String) : Prop :=
  ∀ v, record.lookup k = some v → ∃ s, v = .str s

/-- A dictionary whose proposal, events and payloads are dictionaries with texts for the names of the
files and for the digests. Its floats are finite and read back from their texts. -/
structure TransactionBundle (readFloat : List Char → FloatRepr) (bundle : Record) : Prop where
  dictionary : DistinctKeys (.obj bundle)
  floats : ReadsBack ⟨readFloat, false⟩ (.obj bundle)
  proposal : ∀ v, bundle.lookup "proposal" = some v → ∃ proposal, v = .obj proposal ∧
    ∀ k ∈ ["output", "source", "source_sha256"], TextField proposal k
  events : ∀ v, bundle.lookup "events" = some v → ∃ events, v = .arr events ∧
    ∀ event ∈ events, ∃ members, event = .obj members ∧
      ∀ w, members.lookup "payload" = some w → ∃ payload, w = .obj payload ∧
        TextField payload "output_sha256"

lemma TextField.getOr {record : Record} {k : String} (h : TextField record k) (default : String) :
    ∃ s, record.getOr k (.str default) = .str s := by
  rw [Record.getOr]
  cases hlookup : record.lookup k with
  | none => exact ⟨default, rfl⟩
  | some v =>
    obtain ⟨s, rfl⟩ := h v hlookup
    exact ⟨s, rfl⟩

lemma outputShaOf_ok {events : List Json} (h : ∀ event ∈ events, ∃ members, event = .obj members ∧
      ∀ w, members.lookup "payload" = some w → ∃ payload, w = .obj payload ∧
        TextField payload "output_sha256") :
    ∃ s, outputShaOf events = .ok (.str s) := by
  induction events with
  | nil => exact ⟨"", rfl⟩
  | cons event events ih =>
    obtain ⟨members, rfl, hpayload⟩ := h event List.mem_cons_self
    rw [outputShaOf, dictOf, Except.ok_bind]
    split_ifs
    · rw [Record.getOr]
      cases hlookup : members.lookup "payload" with
      | none => exact ⟨"", rfl⟩
      | some w =>
        obtain ⟨payload, rfl, htext⟩ := hpayload w hlookup
        obtain ⟨s, hs⟩ := htext.getOr ""
        refine ⟨s, ?_⟩
        rw [Option.getD_some, dictOf, Except.ok_bind, hs]
        rfl
    · exact ih fun event hevent => h event (List.mem_cons_of_mem _ hevent)

/-- A statement about two files. -/
def statementOf (bundle : Record) (outputName outputSha sourceName sourceSha : String) : Record :=
  [("_type", .str statementType),
    ("subject", .arr (subjectsOf (.str outputName) (.str outputSha) ++
      subjectsOf (.str sourceName) (.str sourceSha))),
    ("predicateType", .str predicateType), ("predicate", .obj bundle)]

variable {readFloat : List Char → FloatRepr} {bundle : Record}

lemma TransactionBundle.createStatement_ok (h : TransactionBundle readFloat bundle) :
    ∃ outputName outputSha sourceName sourceSha,
      createStatement bundle = .ok (statementOf bundle outputName outputSha sourceName sourceSha) := by
  obtain ⟨proposal, hproposal, htexts⟩ : ∃ proposal, dictOf (bundle.getOr "proposal" (.obj [])) = .ok proposal ∧
      ∀ k ∈ ["output", "source", "source_sha256"], TextField proposal k := by
    rw [Record.getOr]
    cases hlookup : bundle.lookup "proposal" with
    | none =>
      refine ⟨[], rfl, ?_⟩
      intro k _ v hv
      cases hv
    | some v =>
      obtain ⟨proposal, rfl, htexts⟩ := h.proposal v hlookup
      exact ⟨proposal, rfl, htexts⟩
  obtain ⟨events, hevents, outputSha, hsha⟩ : ∃ events, iterate (bundle.getOr "events" (.arr [])) = .ok events ∧
      ∃ s, outputShaOf events = .ok (.str s) := by
    rw [Record.getOr]
    cases hlookup : bundle.lookup "events" with
    | none => exact ⟨[], rfl, "", rfl⟩
    | some v =>
      obtain ⟨events, rfl, hpayloads⟩ := h.events v hlookup
      exact ⟨events, rfl, outputShaOf_ok hpayloads⟩
  obtain ⟨outputName, houtput⟩ := (htexts "output" (by simp)).getOr "output.docx"
  obtain ⟨sourceName, hsource⟩ := (htexts "source" (by simp)).getOr "source.docx"
  obtain ⟨sourceSha, hsourceSha⟩ := (htexts "source_sha256" (by simp)).getOr ""
  refine ⟨outputName, outputSha, sourceName, sourceSha, ?_⟩
  simp only [createStatement, hproposal, hevents, hsha, houtput, hsource, hsourceSha, Except.ok_bind,
    Except.pure_eq]
  rfl

/-! ### Reading it back -/

section

variable {outputName outputSha sourceName sourceSha : String}

lemma isSubject_sorted {name digest : String} {subject : Json}
    (h : subject ∈ subjectsOf (.str name) (.str digest)) : isSubject (sorted subject) = true := by
  rw [subjectsOf] at h
  split_ifs at h
  · have hnodup : (([("name", .str name), ("digest", .obj [("sha256", .str digest)])] : Record).map
        Prod.fst).Nodup := by simp
    have hdigest : sorted (.obj [("sha256", .str digest)]) = .obj [("sha256", .str digest)] := rfl
    have hname : sorted (.str name) = .str name := rfl
    rw [List.mem_singleton.mp h, sorted]
    simp only [isSubject, Json.get?, Json.lookup_sortKeys hnodup]
    simp [List.lookup_cons, hdigest, hname, Json.str?]
  · cases h

lemma nodup_statementOf : ((statementOf bundle outputName outputSha sourceName sourceSha).map
    Prod.fst).Nodup := by
  simp [statementOf]

/-- The statement passes the checks of the parser. -/
lemma checkStatement_sorted :
    checkStatement (sorted (.obj (statementOf bundle outputName outputSha sourceName sourceSha))) =
      .ok (sorted (.obj (statementOf bundle outputName outputSha sourceName sourceSha))) := by
  have hnodup : ((statementOf bundle outputName outputSha sourceName sourceSha).map Prod.fst).Nodup :=
    nodup_statementOf
  have hsubjects : (sortedItems (subjectsOf (.str outputName) (.str outputSha) ++
      subjectsOf (.str sourceName) (.str sourceSha))).all isSubject = true := by
    rw [Json.sortedItems_eq_map, List.all_map, List.all_eq_true]
    intro subject hsubject
    obtain h | h := List.mem_append.mp hsubject
    · exact isSubject_sorted h
    · exact isSubject_sorted h
  simp only [sorted, checkStatement, Json.lookup_sortKeys hnodup]
  simp [statementOf, List.lookup_cons, sorted, Json.pyEq, Json.members?, Json.items?, hsubjects]

end

lemma TransactionBundle.statement (h : TransactionBundle readFloat bundle)
    (outputName outputSha sourceName sourceSha : String) :
    ReadsBack ⟨readFloat, false⟩ (.obj (statementOf bundle outputName outputSha sourceName sourceSha)) ∧
      DistinctKeys (.obj (statementOf bundle outputName outputSha sourceName sourceSha)) := by
  have hsubjects : ∀ name digest : String, ∀ subject ∈ subjectsOf (.str name) (.str digest),
      ReadsBack ⟨readFloat, false⟩ subject ∧ DistinctKeys subject := by
    intro name digest subject hsubject
    rw [subjectsOf] at hsubject
    split_ifs at hsubject
    · rw [List.mem_singleton.mp hsubject]
      simp [ReadsBack, Json.MembersReadBack, DistinctKeys, Json.DistinctKeysMembers]
    · cases hsubject
  have hall : ∀ subject ∈ subjectsOf (.str outputName) (.str outputSha) ++
      subjectsOf (.str sourceName) (.str sourceSha),
      ReadsBack ⟨readFloat, false⟩ subject ∧ DistinctKeys subject := by
    intro subject hsubject
    obtain hsubject | hsubject := List.mem_append.mp hsubject
    · exact hsubjects _ _ subject hsubject
    · exact hsubjects _ _ subject hsubject
  refine ⟨⟨trivial, ?_, trivial, h.floats, trivial⟩, nodup_statementOf, trivial, ?_, trivial, h.dictionary,
    trivial⟩
  · exact Json.itemsReadBack_iff.mpr fun subject hsubject => (hall subject hsubject).1
  · exact Json.distinctKeysItems_iff.mpr fun subject hsubject => (hall subject hsubject).2

/-- The envelope around a payload. -/
def envelopeOf (text : String) (signatures : List Json) : Json :=
  .obj [("payload", .str (Base64.encode (utf8 text))), ("payloadType", .str payloadType),
    ("signatures", .arr signatures)]

lemma TransactionBundle.createEnvelope_ok (h : TransactionBundle readFloat bundle) :
    ∃ statement text, createStatement bundle = .ok statement ∧
      readStatement readFloat (utf8 text) = .ok (sorted (.obj statement)) ∧
      ∀ signatures, createEnvelope bundle signatures = .ok (envelopeOf text signatures) := by
  obtain ⟨outputName, outputSha, sourceName, sourceSha, hcreate⟩ := h.createStatement_ok
  obtain ⟨hfloats, hkeys⟩ := h.statement outputName outputSha sourceName sourceSha
  obtain ⟨text, hdumps, hloads⟩ := Json.loadsStrict_dumpsStrict hfloats hkeys
  refine ⟨_, text, hcreate, ?_, ?_⟩
  · rw [readStatement, utf8Decode?_utf8, Option.bind_some, hloads]
    exact checkStatement_sorted
  · intro signatures
    rw [createEnvelope, hcreate, Except.ok_bind, hdumps, Except.ok_bind]
    rfl

/-- Parsing an envelope gives back the statement that was put in, if its entries pass the checks, and
raises otherwise. -/
lemma parseEnvelope_createEnvelope (h : TransactionBundle readFloat bundle) (signatures : List Json) :
    ∃ statement envelope payload, createStatement bundle = .ok statement ∧
      createEnvelope bundle signatures = .ok envelope ∧
      ((∀ entry ∈ signatures, WellFormed entry) →
        parseEnvelope readFloat envelope = .ok (sorted (.obj statement), payload)) ∧
      ((∃ entry ∈ signatures, ¬ WellFormed entry) → ∃ e, parseEnvelope readFloat envelope = .error e) := by
  obtain ⟨statement, text, hcreate, hread, henvelope⟩ := h.createEnvelope_ok
  refine ⟨statement, envelopeOf text signatures, utf8 text, hcreate, henvelope signatures, ?_, ?_⟩
  · intro hwell
    exact parseEnvelope_ok_iff.mpr ⟨rfl, rfl, ⟨signatures, rfl, hwell⟩, hread⟩
  · rintro ⟨entry, hentry, hbad⟩
    cases hparse : parseEnvelope readFloat (envelopeOf text signatures) with
    | error e => exact ⟨e, rfl⟩
    | ok parsed =>
      obtain ⟨-, -, ⟨entries, hentries, hwell⟩, -⟩ := parseEnvelope_ok_iff.mp hparse
      cases hentries
      exact absurd (hwell entry hentry) hbad

/-! ### What is signed -/

lemma pae_eq (type : String) (payload : Bytes) :
    pae type payload =
      utf8 "DSSEv1 " ++ (lengthPrefixed (utf8 type) ++ (utf8 " " ++ (lengthPrefixed payload ++ []))) := by
  simp only [pae, lengthPrefixed, List.append_assoc, List.append_nil]

/-- The encoding determines the payload type and the payload. -/
lemma pae_injective {type type' : String} {payload payload' : Bytes}
    (h : pae type payload = pae type' payload') : type = type' ∧ payload = payload' := by
  rw [pae_eq, pae_eq] at h
  obtain ⟨htype, hrest⟩ := lengthPrefixed_append_inj (List.append_cancel_left h)
  obtain ⟨hpayload, -⟩ := lengthPrefixed_append_inj (List.append_cancel_left hrest)
  exact ⟨utf8_injective htype, hpayload⟩

lemma readStatement_of_parseEnvelope {envelope statement : Json} {payload : Bytes}
    (h : parseEnvelope readFloat envelope = .ok (statement, payload)) :
    readStatement readFloat payload = .ok statement := by
  cases envelope with
  | obj members => exact (parseEnvelope_ok_iff.mp h).2.2.2
  | _ => cases h

/-- The statement in an envelope survives the round trip when the entries of `signatures` have a key id
and a signature in canonical base64, and what is signed determines the payload type and the statement,
so a signature is good for one of them only. -/
theorem envelope_roundtrip :
    (∀ (readFloat : List Char → FloatRepr) (bundle : Record) (signatures : List Json),
      TransactionBundle readFloat bundle →
      ∃ statement envelope payload, createStatement bundle = .ok statement ∧
        createEnvelope bundle signatures = .ok envelope ∧
        ((∀ entry ∈ signatures, WellFormed entry) →
          parseEnvelope readFloat envelope = .ok (sorted (.obj statement), payload)) ∧
        ((∃ entry ∈ signatures, ¬ WellFormed entry) →
          ∃ e, parseEnvelope readFloat envelope = .error e)) ∧
    (∀ type type' payload payload', pae type payload = pae type' payload' →
      type = type' ∧ payload = payload') ∧
    ∀ (ed : Ed25519) (seed : Bytes) (readFloat : List Char → FloatRepr) (type type' : String)
      (envelope envelope' statement statement' : Json) (payload payload' : Bytes),
      parseEnvelope readFloat envelope = .ok (statement, payload) →
      parseEnvelope readFloat envelope' = .ok (statement', payload') →
      ed.Binding seed [pae type payload, pae type' payload'] →
      type ≠ type' ∨ statement ≠ statement' →
      ed.verify (ed.publicKey seed) (ed.sign seed (pae type payload)) (pae type' payload') = false := by
  refine ⟨?_, ?_, ?_⟩
  · intro readFloat bundle signatures h
    exact parseEnvelope_createEnvelope h signatures
  · intro type type' payload payload' h
    exact pae_injective h
  · intro ed seed readFloat type type' envelope envelope' statement statement' payload payload' hparse hparse'
      hbinding hdifferent
    by_contra hverify
    rw [Bool.not_eq_false] at hverify
    have hmessage := hbinding _ (by simp) _ (by simp) hverify
    obtain ⟨htype, hpayload⟩ := pae_injective hmessage
    have hread := readStatement_of_parseEnvelope hparse
    rw [hpayload, readStatement_of_parseEnvelope hparse'] at hread
    cases hread
    obtain h | h := hdifferent
    · exact h htype
    · exact h rfl

namespace Sample

def readbackBundle : Record :=
  [("proposal", .obj [("output", .str "out.docx"), ("source", .str "nda.docx"),
      ("source_sha256", .str (sha [1]))]),
    ("events", .arr [.obj [("event_type", .str "ARTIFACT_READBACK"),
      ("payload", .obj [("output_sha256", .str (sha [2]))])]])]

lemma transactionBundle_readback : TransactionBundle someFloat readbackBundle := by
  refine ⟨?_, ?_, ?_, ?_⟩
  · simp [readbackBundle, DistinctKeys, Json.DistinctKeysMembers, Json.DistinctKeysItems]
  · simp [readbackBundle, ReadsBack, Json.MembersReadBack, Json.ItemsReadBack]
  · intro v hv
    cases hv
    refine ⟨_, rfl, ?_⟩
    intro k hk w hw
    simp only [List.mem_cons, List.not_mem_nil, or_false] at hk
    obtain rfl | rfl | rfl := hk
    · exact ⟨_, (Option.some.inj hw).symm⟩
    · exact ⟨_, (Option.some.inj hw).symm⟩
    · exact ⟨_, (Option.some.inj hw).symm⟩
  · intro v hv
    cases hv
    refine ⟨_, rfl, ?_⟩
    intro event hevent
    rw [List.mem_singleton.mp hevent]
    refine ⟨_, rfl, ?_⟩
    intro w hw
    refine ⟨_, (Option.some.inj hw).symm, ?_⟩
    intro s hs
    exact ⟨_, (Option.some.inj hs).symm⟩

/-- An entry with an empty signature. -/
def unsigned : Json := .obj [("sig", .str ""), ("keyid", .str "k")]

end Sample

/-- A signed bundle comes back, and its signature is for no other payload type. -/
theorem envelope_roundtrip_readback : ∃ statement envelope payload,
    createStatement Sample.readbackBundle = .ok statement ∧
    createEnvelope Sample.readbackBundle [Sample.signedBy "a" Sample.firstKey] = .ok envelope ∧
    parseEnvelope Sample.someFloat envelope = .ok (sorted (.obj statement), payload) ∧
    Ed25519.transparent.verify (Ed25519.transparent.publicKey Sample.firstKey)
      (Ed25519.transparent.sign Sample.firstKey (pae payloadType payload)) (pae "text/plain" payload) =
        false := by
  have hwell : ∀ entry ∈ [Sample.signedBy "a" Sample.firstKey], WellFormed entry := by
    intro entry hentry
    rw [List.mem_singleton.mp hentry]
    exact Sample.wellFormed_signedBy (by decide) Sample.firstKey (by decide)
  obtain ⟨hround, -, hsigned⟩ := envelope_roundtrip
  obtain ⟨statement, envelope, payload, hcreate, henvelope, hparse, -⟩ :=
    hround Sample.someFloat Sample.readbackBundle _ Sample.transactionBundle_readback
  have hparsed := hparse hwell
  refine ⟨statement, envelope, payload, hcreate, henvelope, hparsed, ?_⟩
  exact hsigned _ _ _ _ _ _ _ _ _ _ _ hparsed hparsed (Ed25519.transparent_binding _ _) (.inl (by decide))

/-- An envelope with an empty signature is made, and the parser refuses it. -/
theorem parseEnvelope_refuses_empty_signature : TransactionBundle Sample.someFloat Sample.readbackBundle ∧
    ∃ envelope, createEnvelope Sample.readbackBundle [Sample.unsigned] = .ok envelope ∧
      parseEnvelope Sample.someFloat envelope = .error "signature must not be empty" := by
  obtain ⟨statement, text, -, -, henvelope⟩ := Sample.transactionBundle_readback.createEnvelope_ok
  refine ⟨Sample.transactionBundle_readback, _, henvelope _, ?_⟩
  have htype : checkType (.str payloadType) = .ok () := by
    rw [checkType, if_pos (Json.pyEq_str_right.mpr rfl)]
  have hentries : checkSignatures (.arr [Sample.unsigned]) = .error "signature must not be empty" := rfl
  rw [envelopeOf, parseEnvelope, envelopeField_ok_iff.mpr rfl, Except.ok_bind, envelopeField_ok_iff.mpr rfl,
    Except.ok_bind, envelopeField_ok_iff.mpr rfl, Except.ok_bind, htype, Except.ok_bind, hentries]
  rfl

end AxiomGrid.Legal

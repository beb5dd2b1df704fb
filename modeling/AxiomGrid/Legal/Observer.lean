import AxiomGrid.Legal.Binding

/-!
# Who signed the events

`verify_bundle` compares the identifier of the observer with those of the producer and of the
principal. The events are verified under the keys registered for the identifiers that they name
themselves. Whether the events are signed with one key that neither the producer nor the principal
holds is therefore left to the manifest's map of keys.
-/

namespace AxiomGrid.Legal

/-- The public key registered for an identifier. -/
def registeredKey (manifest keyId : Json) : Except String Json := do
  keyAt (← itemsOf (← subscript manifest "public_keys")) keyId

/-- The public key registered for `manifest["observer_key_id"]`. -/
def observerKeyOf (manifest : Json) : Except String Json := do
  registeredKey manifest (← subscript manifest "observer_key_id")

/-- The public key with which the signature of a part of the manifest is checked: the one registered
for the identifier in `field`, and no key where there is none. -/
def partKey (manifest : Json) (part field : String) : Except String Json := do
  let record ← itemsOf (← subscript manifest part)
  let keys ← itemsOf (← subscript manifest "public_keys")
  return (← entryAt keys (record.get field)).getD (.str "")

/-- The bytes of a public key given as text. -/
def keyBytes : Json → Option Bytes
  | .str text => Base64.decode? text
  | _ => none

/-- The signature of the event verifies under `pub`. -/
def EventVerifies (ed : Ed25519) (pub event : Json) : Prop :=
  ∃ (record : Record) (sig : Json), event = .obj record ∧ record.lookup "signature" = some sig ∧
    verifySig ed (record.without ["event_sha256", "signature"]) sig pub = true

/-- The key of the observer is neither that of the producer nor that of the principal. -/
def KeysApart (manifest pub : Json) : Prop :=
  ∀ part field, (part, field) ∈ [("proposal", "producer_key_id"), ("approval", "principal")] →
    ∃ used, partKey manifest part field = .ok used ∧ keyBytes pub ≠ keyBytes used

/-- All events verify under the observer's key, which nobody else in the transaction has. -/
def IndependentObserver (ed : Ed25519) (manifest : Json) : Prop :=
  ∃ pub events, observerKeyOf manifest = .ok pub ∧ eventsOf manifest = .ok events ∧
    (∀ event ∈ events, EventVerifies ed pub event) ∧ KeysApart manifest pub

/-- The observer is registered, with a key of its own, and an event that names another identifier
verifies under that key nevertheless. -/
def SeparateKeys (ed : Ed25519) (manifest : Json) : Prop :=
  ∃ pub events, observerKeyOf manifest = .ok pub ∧ eventsOf manifest = .ok events ∧
    (∀ event ∈ events, subscript event "observer_key_id" ≠ subscript manifest "observer_key_id" →
      EventVerifies ed pub event) ∧ KeysApart manifest pub

section

variable {ed : Ed25519} {codec : JsonCodec} {fs : FileSystem} {bundle : FilePath} {manifest : Json}

/-- An event that passes verifies under the key registered for the identifier it names. -/
lemma of_eventCheck_ok {keys : Record} {index : ℕ} {previous eventSha : Json} {event : Record}
    {checks : List Check} (h : eventCheck ed (.obj keys) index previous event = .ok (checks, eventSha))
    (hok : checks.all Check.ok = true) :
    ∃ keyId pub, subscript (.obj event) "observer_key_id" = .ok keyId ∧ keyAt keys keyId = .ok pub ∧
      EventVerifies ed pub (.obj event) := by
  obtain ⟨sequence, -, h⟩ := Except.of_bind_eq_ok h
  obtain ⟨linked, -, h⟩ := Except.of_bind_eq_ok h
  obtain ⟨computed, -, h⟩ := Except.of_bind_eq_ok h
  obtain ⟨eventSha', -, h⟩ := Except.of_bind_eq_ok h
  obtain ⟨signature, hsignature, h⟩ := Except.of_bind_eq_ok h
  obtain ⟨keyId, hkeyId, h⟩ := Except.of_bind_eq_ok h
  obtain ⟨keys', hkeys, h⟩ := Except.of_bind_eq_ok h
  obtain ⟨pub, hpub, h⟩ := Except.of_bind_eq_ok h
  cases h
  cases hkeys
  simp only [List.all_cons, List.all_nil, Bool.and_true, Bool.and_eq_true] at hok
  exact ⟨keyId, pub, hkeyId, hpub, event, signature, rfl, item_eq_ok.mp hsignature, hok.2.2⟩

lemma of_eventChecks_ok {keys : Record} {index : ℕ} {previous : Json} {events : List Json}
    {checks : List Check} (h : eventChecks ed (.obj keys) index previous events = .ok checks)
    (hok : checks.all Check.ok = true) :
    ∀ event ∈ events, ∃ keyId pub, subscript event "observer_key_id" = .ok keyId ∧
      keyAt keys keyId = .ok pub ∧ EventVerifies ed pub event := by
  induction events generalizing index previous checks with
  | nil =>
    intro event hevent
    cases hevent
  | cons event events ih =>
    obtain ⟨record, hrecord, h⟩ := Except.of_bind_eq_ok h
    obtain ⟨⟨first, eventSha⟩, hfirst, h⟩ := Except.of_bind_eq_ok h
    obtain ⟨rest, hrest, h⟩ := Except.of_bind_eq_ok h
    cases h
    rw [itemsOf_eq_ok] at hrecord
    subst hrecord
    rw [List.all_append, Bool.and_eq_true] at hok
    rw [List.forall_mem_cons]
    exact ⟨of_eventCheck_ok hfirst hok.1, ih hrest hok.2⟩

/-- The events of an accepted bundle are the independent observer's iff the manifest keeps the keys
apart. -/
theorem verifyBundle_independentObserver_iff {path : String} {report : Report}
    (hbundle : resolvePath fs (.parse path) = .ok bundle)
    (hmanifest : readManifest codec fs bundle = .ok manifest)
    (h : verifyBundle ed codec fs path = .ok report) (hok : report.ok = true) :
    IndependentObserver ed manifest ↔ SeparateKeys ed manifest := by
  obtain ⟨_, _, _, keys, _, observer, eventList, hpassed⟩ := passed_of_verifyBundle hbundle hmanifest h hok
  constructor
  · rintro ⟨pub, events, hpub, hevents, hverifies, hapart⟩
    exact ⟨pub, events, hpub, hevents, fun event hevent _ => hverifies event hevent, hapart⟩
  · rintro ⟨pub, events, hpub, hevents, hother, hapart⟩
    refine ⟨pub, events, hpub, hevents, ?_, hapart⟩
    intro event hevent
    obtain ⟨checks, hchecks, hchecksOk⟩ := hpassed.ofEvents
    have heventList : eventsOf manifest = .ok eventList := by
      rw [eventsOf, hpassed.events_eq, Except.ok_bind]
      exact hpassed.eventList_eq
    cases hevents.symm.trans heventList
    by_cases hsame : subscript event "observer_key_id" = subscript manifest "observer_key_id"
    · -- the identifier is the observer's, so the key is the registered one
      obtain ⟨keyId, pub', hkeyId, hpub', hverifies⟩ := of_eventChecks_ok hchecks hchecksOk event hevent
      rw [hkeyId, hpassed.observer_eq] at hsame
      cases hsame
      have hregistered : observerKeyOf manifest = .ok pub' := by
        simp only [observerKeyOf, registeredKey, hpassed.observer_eq, hpassed.publicKeys_eq,
          Except.ok_bind, itemsOf]
        exact hpub'
      cases hpub.symm.trans hregistered
      exact hverifies
    · exact hother event hevent hsame

end

/-! ### The producer as observer -/

namespace Sample

variable {proposal approval : Record} {events : List Json}

lemma observerKeyOf_manifest (byte : UInt8) : observerKeyOf (.obj (manifestOf "r" bundleFiles proposal
    approval (allKeys byte) "observer" events)) = .ok (.str (key "observer" byte).publicKey) := rfl

lemma partKey_proposal (byte : UInt8) (h : proposal.get "producer_key_id" = .str "producer") :
    partKey (.obj (manifestOf "r" bundleFiles proposal approval (allKeys byte) "observer" events))
      "proposal" "producer_key_id" = .ok (.str (key "producer" 1).publicKey) := by
  have hproposal : subscript (.obj (manifestOf "r" bundleFiles proposal approval (allKeys byte)
      "observer" events)) "proposal" = .ok (.obj proposal) := rfl
  rw [partKey, hproposal, Except.ok_bind, itemsOf, Except.ok_bind, h]
  rfl

lemma partKey_approval (byte : UInt8) (h : approval.get "principal" = .str "approver") :
    partKey (.obj (manifestOf "r" bundleFiles proposal approval (allKeys byte) "observer" events))
      "approval" "principal" = .ok (.str (key "approver" 2).publicKey) := by
  have happroval : subscript (.obj (manifestOf "r" bundleFiles proposal approval (allKeys byte)
      "observer" events)) "approval" = .ok (.obj approval) := rfl
  rw [partKey, happroval, Except.ok_bind, itemsOf, Except.ok_bind, h]
  rfl

lemma keyBytes_key (role : String) (byte : UInt8) :
    keyBytes (.str (key role byte).publicKey) = some (List.replicate 32 byte) :=
  Base64.decode?_encode _

end Sample

/-- A bundle is accepted whose events are signed with the producer's key under another name. -/
theorem verifyBundle_accepts_producer_as_observer : ∃ manifest : Record,
    (∃ report, verifyBundle Sample.ed Sample.codec (Sample.bundleFs manifest) "/b" = .ok report ∧
      report.ok = true) ∧
    resolvePath (Sample.bundleFs manifest) (.parse "/b") = .ok ["b"] ∧
    readManifest Sample.codec (Sample.bundleFs manifest) ["b"] = .ok (.obj manifest) ∧
    ¬ IndependentObserver Sample.ed (.obj manifest) := by
  obtain ⟨proposal, approval, events, intentSha, happroved, -, -, -, hproducer, hprincipal, hevents⟩ :=
    Sample.exists_parts 1 Sample.source id
  refine ⟨_, Sample.accepts 1 happroved hproducer hprincipal hevents, Sample.resolvePath_bundle _,
    Sample.readManifest_bundleFs _, ?_⟩
  rintro ⟨pub, events', hpub, -, -, hapart⟩
  cases (Sample.observerKeyOf_manifest 1).symm.trans hpub
  obtain ⟨used, hused, hne⟩ := hapart "proposal" "producer_key_id" (by simp)
  cases (Sample.partKey_proposal 1 hproducer).symm.trans hused
  rw [Sample.keyBytes_key, Sample.keyBytes_key] at hne
  exact hne rfl

/-- The bundle of the sample run has an independent observer. -/
theorem verifyBundle_independentObserver_sample : ∃ (manifest : Record) (report : Report),
    verifyBundle Sample.ed Sample.codec (Sample.bundleFs manifest) "/b" = .ok report ∧
    report.ok = true ∧ IndependentObserver Sample.ed (.obj manifest) := by
  obtain ⟨proposal, approval, events, intentSha, happroved, -, -, -, hproducer, hprincipal, hevents⟩ :=
    Sample.exists_parts 3 Sample.source id
  obtain ⟨report, hreport, hok⟩ := Sample.accepts 3 happroved hproducer hprincipal hevents
  refine ⟨_, report, hreport, hok, ?_⟩
  rw [verifyBundle_independentObserver_iff (Sample.resolvePath_bundle _)
    (Sample.readManifest_bundleFs _) hreport hok]
  refine ⟨_, events, Sample.observerKeyOf_manifest 3, rfl, ?_, ?_⟩
  · intro event hevent hother
    have hobserver := (payload_eventChain hevents event hevent).1
    exact absurd hobserver hother
  · intro part field hpart
    simp only [List.mem_cons, List.not_mem_nil, or_false, Prod.mk.injEq] at hpart
    obtain ⟨rfl, rfl⟩ | ⟨rfl, rfl⟩ := hpart
    · refine ⟨_, Sample.partKey_proposal 3 hproducer, ?_⟩
      rw [Sample.keyBytes_key, Sample.keyBytes_key]
      decide
    · refine ⟨_, Sample.partKey_approval 3 hprincipal, ?_⟩
      rw [Sample.keyBytes_key, Sample.keyBytes_key]
      decide

end AxiomGrid.Legal

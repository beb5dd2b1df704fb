import Mathlib.Data.Set.Card
import AxiomGrid.Lib.Base64
import AxiomGrid.Lib.Dict
import AxiomGrid.Lib.Ed25519
import AxiomGrid.Lib.Hex
import AxiomGrid.Lib.JsonStrict
import AxiomGrid.Lib.Loop

/-!
# DSSE envelopes

`kairo/legal_v3/dsse_envelope.py`: the pre-authentication encoding, the structural checks on an
envelope and its statement, and `verify_envelope`. A `ValueError` is its message. The envelope is a
Python object as `json.loads` builds it.

Authentication in public-key mode counts key material: several entries, several key ids or several
signatures of one key make one vote.
-/

namespace AxiomGrid.Legal

def payloadType : String := "application/vnd.kairo.legal-v3.bundle+json"

def statementType : String := "https://in-toto.io/Statement/v1"

def predicateType : String := "https://kairo.phantom/legal-v3/v1"

/-! ### Parsing -/

/-- `b64decode(s, validate=True)`. What else the strict decoder refuses, such as a wrong padding, does
not survive the comparison that follows. -/
def b64decodeValid (s : String) : Option Bytes :=
  if s.toList.all fun c => (Base64.digit? c).isSome || c = '=' then Base64.decode? s else none

/-- `_b64d`. -/
def b64d : Json → Except String Bytes
  | .str s =>
    match b64decodeValid s with
    | none => .error "invalid base64 encoding"
    | some decoded =>
      if Base64.encode decoded ≠ s then .error "non-canonical base64 encoding" else .ok decoded
  | _ => .error "base64 value must be a string"

/-- `pae`: lengths count UTF-8 bytes. -/
def pae (type : String) (payload : Bytes) : Bytes :=
  utf8 "DSSEv1 " ++ utf8 (toString (utf8 type).length) ++ utf8 " " ++ utf8 type ++ utf8 " " ++
    utf8 (toString payload.length) ++ utf8 " " ++ payload

/-- `envelope[field]`. -/
def envelopeField (envelope : List (String × Json)) (field : String) : Except String Json :=
  match envelope.lookup field with
  | none => .error ("DSSE envelope missing '" ++ field ++ "'")
  | some v => .ok v

/-- The checks on one entry of `signatures`. -/
def checkEntry (entry : Json) : Except String Unit :=
  match entry with
  | .obj members =>
    match members.lookup "keyid" with
    | some (.str keyid) =>
      if keyid = "" then .error "signature requires a nonempty keyid"
      else
        match b64d ((members.lookup "sig").getD .null) with
        | .error e => .error e
        | .ok sig => if sig = [] then .error "signature must not be empty" else .ok ()
    | _ => .error "signature requires a nonempty keyid"
  | _ => .error "signature entry must be an object"

/-- The checks on the entries, in order. -/
def checkEntries : List Json → Except String Unit
  | [] => .ok ()
  | entry :: entries =>
    match checkEntry entry with
    | .error e => .error e
    | .ok () => checkEntries entries

/-- A subject has a name and at least one digest, all of them strings. -/
def isSubject (subject : Json) : Bool :=
  match subject.get? "name", subject.get? "digest" with
  | some (.str _), some (.obj digest) => !digest.isEmpty && digest.all fun p => p.2.str?.isSome
  | _, _ => false

/-- The checks on a statement. -/
def checkStatement (statement : Json) : Except String Json :=
  match statement with
  | .obj members =>
    if !(members.lookup "_type").any (Json.pyEq · (.str statementType)) then
      .error "unexpected statement type"
    else if !(members.lookup "predicateType").any (Json.pyEq · (.str predicateType)) then
      .error "unexpected predicateType"
    else if ((members.lookup "predicate").bind Json.members?).isNone then
      .error "statement predicate must be an object"
    else
      match (members.lookup "subject").bind Json.items? with
      | none => .error "statement subject must be a list"
      | some subjects =>
        if subjects.all isSubject then .ok statement else .error "invalid statement subject"
  | _ => .error "statement must be an object"

/-- The statement in a payload. -/
def readStatement (readFloat : List Char → FloatRepr) (payload : Bytes) : Except String Json :=
  match (utf8Decode? payload).bind (Json.loadsStrict readFloat) with
  | none => .error "invalid UTF-8 statement JSON"
  | some statement => checkStatement statement

/-- The check on `payloadType`. -/
def checkType (type : Json) : Except String Unit :=
  if Json.pyEq type (.str payloadType) then .ok () else .error "unexpected payloadType"

/-- The checks on `signatures`. -/
def checkSignatures : Json → Except String Unit
  | .arr entries => checkEntries entries
  | _ => .error "signatures must be a list"

/-- `_parse_envelope`: the statement and the payload. -/
def parseEnvelope (readFloat : List Char → FloatRepr) (envelope : Json) :
    Except String (Json × Bytes) :=
  match envelope with
  | .obj members => do
    let text ← envelopeField members "payload"
    let type ← envelopeField members "payloadType"
    let signatures ← envelopeField members "signatures"
    let _ ← checkType type
    let _ ← checkSignatures signatures
    let payload ← b64d text
    let statement ← readStatement readFloat payload
    pure (statement, payload)
  | _ => .error "DSSE envelope must be an object"

/-! ### Authentication -/

/-- A value of the `public_keys` mapping. -/
inductive TrustedKey where
  /-- An `Ed25519PublicKey`, by its raw bytes. -/
  | key (raw : Bytes)
  | bytes (raw : Bytes)
  | text (s : String)
  | other

/-- The key material of a trusted key. -/
def TrustedKey.load : TrustedKey → Except String Bytes
  | .key raw => .ok raw
  | .bytes raw => fromPublicBytes raw
  | .text s =>
    match b64d (.str s) with
    | .error e => .error e
    | .ok raw => fromPublicBytes raw
  | .other => .error "trusted key must be an Ed25519 public key"
where
  /-- `Ed25519PublicKey.from_public_bytes`. -/
  fromPublicBytes (raw : Bytes) : Except String Bytes :=
    if raw.length = 32 then .ok raw else .error "An Ed25519 public key is 32 bytes long"

/-- The trusted keys by key id. -/
def loadKeys : List (String × TrustedKey) → Except String (Dict String Bytes)
  | [] => .ok []
  | (keyid, key) :: keys =>
    if keyid = "" then .error "trusted keyid must be a nonempty string"
    else do
      let raw ← key.load
      let trusted ← loadKeys keys
      pure ((keyid, raw) :: trusted)

/-- The key id and the signature of an entry that passed its checks. -/
def entryKeyid (entry : Json) : String := ((entry.get? "keyid").bind Json.str?).getD ""

def entrySig (entry : Json) : Json := (entry.get? "sig").getD .null

/-- `key.verify(_b64d(sig), message)` for the trusted key that the entry names: its material, when the
signature is valid. -/
def verifiedBy (ed : Ed25519) (trusted : Dict String Bytes) (message : Bytes) (entry : Json) :
    Option Bytes :=
  match trusted.get? (entryKeyid entry), b64d (entrySig entry) with
  | some key, .ok sig => if ed.verify key sig message then some key else none
  | _, _ => none

/-- The loop over the signatures in public-key mode: the set of verified keys, in the order in which
they were added. -/
def verifiedKeys (ed : Ed25519) (trusted : Dict String Bytes) (message : Bytes)
    (entries : List Json) : List Bytes :=
  entries.foldl (fun verified entry =>
    match verifiedBy ed trusted message entry with
    | none => verified
    | some key => if verified.contains key then verified else verified ++ [key]) []

/-- The loop in callback mode: the key ids the callback answers `True` for. The callback may raise. -/
def verifiedIds (callback : Bytes → String → String → Option Bool) (message : Bytes) :
    List Json → List String → Except String (List String)
  | [], verified => .ok verified
  | entry :: entries, verified =>
    match callback message ((entrySig entry).str?.getD "") (entryKeyid entry) with
    | none => .error "trusted verifier failed"
    | some valid =>
      verifiedIds callback message entries
        (if valid && !verified.contains (entryKeyid entry) then verified ++ [entryKeyid entry]
          else verified)

/-- The checks on the trust source and the threshold. -/
def checkTrust (callback publicKeys : Bool) (threshold : ℤ) : Except String Unit :=
  if threshold < 1 then .error "threshold must be a positive integer"
  else if callback = publicKeys then .error "provide exactly one trusted verifier or public_keys"
  else .ok ()

/-- `envelope["signatures"]`. -/
def signatureEntries (envelope : Json) : List Json :=
  ((envelope.get? "signatures").bind Json.items?).getD []

/-- The number of distinct authenticated identities. -/
def countVerified (ed : Ed25519) (callback : Option (Bytes → String → String → Option Bool))
    (trusted : Dict String Bytes) (message : Bytes) (entries : List Json) : Except String ℕ :=
  if entries.isEmpty then .error "authentication requires signatures"
  else
    match callback with
    | some callback => (verifiedIds callback message entries []).map List.length
    | none => .ok (verifiedKeys ed trusted message entries).length

/-- `verify_envelope(envelope, verify_signature_fn, public_keys=..., threshold=...)`. -/
def verifyEnvelope (ed : Ed25519) (readFloat : List Char → FloatRepr) (envelope : Json)
    (callback : Option (Bytes → String → String → Option Bool))
    (publicKeys : Option (List (String × TrustedKey))) (threshold : ℤ) : Except String Json := do
  let _ ← checkTrust callback.isSome publicKeys.isSome threshold
  let trusted ← loadKeys (publicKeys.getD [])
  let parsed ← parseEnvelope readFloat envelope
  let count ← countVerified ed callback trusted (pae payloadType parsed.2) (signatureEntries envelope)
  if (count : ℤ) < threshold then .error "signature authentication threshold not met"
  else .ok parsed.1

/-! ### What is accepted -/

lemma b64decodeValid_encode (bs : Bytes) : b64decodeValid (Base64.encode bs) = some bs := by
  rw [b64decodeValid, if_pos, Base64.decode?_encode]
  rw [List.all_eq_true]
  intro c hc
  simpa using Base64.mem_encode hc

lemma b64d_ok_iff {v : Json} {bs : Bytes} : b64d v = .ok bs ↔ v = .str (Base64.encode bs) := by
  constructor
  · intro h
    cases v with
    | str s =>
      simp only [b64d] at h
      split at h
      · cases h
      · split at h
        · cases h
        · rename_i hcanon
          cases h
          rw [not_not.mp hcanon]
    | _ => cases h
  · rintro rfl
    simp [b64d, b64decodeValid_encode]

/-- An entry with a key id and a signature in canonical base64. -/
def WellFormed (entry : Json) : Prop :=
  ∃ keyid sig, entry.get? "keyid" = some (.str keyid) ∧ keyid ≠ "" ∧
    entry.get? "sig" = some (.str (Base64.encode sig)) ∧ sig ≠ []

lemma checkEntry_ok_iff {entry : Json} : checkEntry entry = .ok () ↔ WellFormed entry := by
  unfold checkEntry WellFormed
  cases entry with
  | obj members =>
    simp only [Json.get?]
    constructor
    · intro h
      split at h
      · rename_i keyid hkeyid
        split at h
        · cases h
        · rename_i hne
          split at h
          · cases h
          · rename_i sig hsig
            split at h
            · cases h
            · rename_i hsig'
              refine ⟨keyid, sig, hkeyid, hne, ?_, hsig'⟩
              rw [b64d_ok_iff] at hsig
              cases hlookup : members.lookup "sig" with
              | none =>
                rw [hlookup] at hsig
                cases hsig
              | some v =>
                rw [hlookup] at hsig
                exact congrArg some hsig
      · cases h
    · rintro ⟨keyid, sig, hkeyid, hne, hsig, hsig'⟩
      have hb : b64d (.str (Base64.encode sig)) = .ok sig := b64d_ok_iff.mpr rfl
      simp [hkeyid, hne, hsig, hb, hsig']
  | _ => simp [Json.get?]

lemma checkEntries_ok_iff {entries : List Json} :
    checkEntries entries = .ok () ↔ ∀ entry ∈ entries, WellFormed entry := by
  induction entries with
  | nil => simp [checkEntries]
  | cons entry entries ih =>
    rw [List.forall_mem_cons, ← ih, ← checkEntry_ok_iff, checkEntries]
    cases checkEntry entry with
    | error e => simp
    | ok u => simp

lemma envelopeField_ok_iff {members : List (String × Json)} {field : String} {v : Json} :
    envelopeField members field = .ok v ↔ members.lookup field = some v := by
  unfold envelopeField
  cases members.lookup field <;> simp

/-- What an envelope that parses is made of. -/
lemma parseEnvelope_ok_iff {readFloat : List Char → FloatRepr} {members : List (String × Json)}
    {statement : Json} {payload : Bytes} :
    parseEnvelope readFloat (.obj members) = .ok (statement, payload) ↔
      members.lookup "payload" = some (.str (Base64.encode payload)) ∧
      members.lookup "payloadType" = some (.str payloadType) ∧
      (∃ entries, members.lookup "signatures" = some (.arr entries) ∧
        ∀ entry ∈ entries, WellFormed entry) ∧
      readStatement readFloat payload = .ok statement := by
  constructor
  · intro h
    simp only [parseEnvelope] at h
    obtain ⟨text, htext, h⟩ := Except.of_bind_eq_ok h
    obtain ⟨type, htype, h⟩ := Except.of_bind_eq_ok h
    obtain ⟨signatures, hsigs, h⟩ := Except.of_bind_eq_ok h
    obtain ⟨_, hcheck, h⟩ := Except.of_bind_eq_ok h
    obtain ⟨_, hentries, h⟩ := Except.of_bind_eq_ok h
    obtain ⟨payload', hpayload, h⟩ := Except.of_bind_eq_ok h
    obtain ⟨statement', hstatement, h⟩ := Except.of_bind_eq_ok h
    cases h
    rw [envelopeField_ok_iff] at htext htype hsigs
    rw [b64d_ok_iff] at hpayload
    subst hpayload
    have htype' : type = .str payloadType := by
      unfold checkType at hcheck
      split at hcheck
      · rename_i heq
        exact Json.pyEq_str_right.mp heq
      · cases hcheck
    refine ⟨htext, htype' ▸ htype, ?_, hstatement⟩
    cases signatures with
    | arr entries => exact ⟨entries, hsigs, checkEntries_ok_iff.mp hentries⟩
    | _ => cases hentries
  · rintro ⟨htext, htype, ⟨entries, hsigs, hwell⟩, hstatement⟩
    have hcheck : checkType (.str payloadType) = .ok () := by
      rw [checkType, if_pos (Json.pyEq_str_right.mpr rfl)]
    have hb : b64d (.str (Base64.encode payload)) = .ok payload := b64d_ok_iff.mpr rfl
    simp only [parseEnvelope, envelopeField_ok_iff.mpr htext, envelopeField_ok_iff.mpr htype,
      envelopeField_ok_iff.mpr hsigs, hcheck, checkSignatures, checkEntries_ok_iff.mpr hwell, hb,
      hstatement, Except.ok_bind, Except.pure_eq]

/-! ### Counting keys -/

section Counting

variable (ed : Ed25519) (trusted : Dict String Bytes) (message : Bytes)

/-- The key material `key` has a valid signature over `message` among the entries: some entry names a
trusted key id that stands for it, with a signature that verifies under it. -/
def HasSignature (entries : List Json) (key : Bytes) : Prop :=
  ∃ entry ∈ entries, ∃ keyid sig, entry.get? "keyid" = some (.str keyid) ∧
    entry.get? "sig" = some (.str (Base64.encode sig)) ∧ trusted.get? keyid = some key ∧
    ed.verify key sig message = true

variable {ed trusted message}

lemma verifiedBy_eq_some_iff {entry : Json} (hentry : WellFormed entry) {key : Bytes} :
    verifiedBy ed trusted message entry = some key ↔ HasSignature ed trusted message [entry] key := by
  obtain ⟨keyid, sig, hkeyid, -, hsig, -⟩ := hentry
  have hb : b64d (.str (Base64.encode sig)) = .ok sig := b64d_ok_iff.mpr rfl
  have hid : entryKeyid entry = keyid := by simp [entryKeyid, hkeyid, Json.str?]
  have hs : entrySig entry = .str (Base64.encode sig) := by simp [entrySig, hsig]
  rw [verifiedBy, hid, hs, hb]
  constructor
  · intro h
    split at h
    · rename_i key' sig' htrusted hok
      cases hok
      split at h
      · rename_i hverify
        cases h
        exact ⟨entry, List.mem_singleton_self _, keyid, sig, hkeyid, hsig, htrusted, hverify⟩
      · cases h
    · cases h
  · rintro ⟨entry', hmem, keyid', sig', hkeyid', hsig', htrusted, hverify⟩
    obtain rfl := List.mem_singleton.mp hmem
    obtain rfl : keyid' = keyid := by simpa [hkeyid] using hkeyid'.symm
    have hdecoded : sig' = sig := by
      rw [hsig, Option.some.injEq, Json.str.injEq] at hsig'
      have hopt := congrArg Base64.decode? hsig'
      simpa using hopt.symm
    subst hdecoded
    simp [htrusted, hverify]

variable (ed trusted message) in
/-- The loop keeps each verified key once. -/
lemma mem_verifiedKeys (entries : List Json) :
    (verifiedKeys ed trusted message entries).Nodup ∧
    ∀ key, key ∈ verifiedKeys ed trusted message entries ↔
      ∃ entry ∈ entries, verifiedBy ed trusted message entry = some key := by
  induction entries using List.reverseRecOn with
  | nil => simp [verifiedKeys]
  | append_singleton entries entry ih =>
    obtain ⟨hnodup, hmem⟩ := ih
    have hstep : verifiedKeys ed trusted message (entries ++ [entry]) =
        match verifiedBy ed trusted message entry with
        | none => verifiedKeys ed trusted message entries
        | some key =>
          if (verifiedKeys ed trusted message entries).contains key then
            verifiedKeys ed trusted message entries
          else verifiedKeys ed trusted message entries ++ [key] := by
      simp [verifiedKeys]
    cases hv : verifiedBy ed trusted message entry with
    | none =>
      rw [hstep, hv]
      exact ⟨hnodup, fun key => by simp [hmem, hv]⟩
    | some key =>
      rw [hstep, hv]
      by_cases hin : key ∈ verifiedKeys ed trusted message entries
      · simp only [List.contains_iff_mem.mpr hin, if_true]
        refine ⟨hnodup, fun key' => ?_⟩
        have hold := (hmem key).mp hin
        simp only [hmem, List.mem_append, List.mem_singleton, or_and_right, exists_or,
          exists_eq_left, hv, Option.some.injEq]
        constructor
        · exact .inl
        · rintro (h | rfl)
          · exact h
          · exact hold
      · have hnot : (verifiedKeys ed trusted message entries).contains key = false := by
          simpa using hin
        simp only [hnot, if_false, Bool.false_eq_true]
        refine ⟨?_, fun key' => ?_⟩
        · rw [List.nodup_append]
          refine ⟨hnodup, by simp, fun a ha b hb => ?_⟩
          obtain rfl := List.mem_singleton.mp hb
          rintro rfl
          exact hin ha
        · simp [hmem, hv, or_and_right, exists_or, eq_comm]

/-- The loop counts the key material that has a valid signature. -/
lemma length_verifiedKeys {entries : List Json} (hwell : ∀ entry ∈ entries, WellFormed entry) :
    (verifiedKeys ed trusted message entries).length =
      {key | HasSignature ed trusted message entries key}.ncard := by
  obtain ⟨hnodup, hmem⟩ := mem_verifiedKeys ed trusted message entries
  have hset : {key | HasSignature ed trusted message entries key} =
      ((verifiedKeys ed trusted message entries).toFinset : Set Bytes) := by
    ext key
    rw [Set.mem_ofPred_eq, List.coe_toFinset, Set.mem_ofPred_eq, hmem]
    constructor
    · rintro ⟨entry, hentry, hsig⟩
      exact ⟨entry, hentry, (verifiedBy_eq_some_iff (hwell entry hentry)).mpr
        ⟨entry, List.mem_singleton_self _, hsig⟩⟩
    · rintro ⟨entry, hentry, hv⟩
      obtain ⟨entry', hmem', hsig⟩ := (verifiedBy_eq_some_iff (hwell entry hentry)).mp hv
      obtain rfl := List.mem_singleton.mp hmem'
      exact ⟨entry', hentry, hsig⟩
  rw [hset, Set.ncard_coe_finset, List.toFinset_card_of_nodup hnodup]

/-- The same key material has a signature as long as the entries have the same members. -/
lemma hasSignature_mono {entries entries' : List Json} (h : ∀ entry ∈ entries, entry ∈ entries')
    {key : Bytes} (hkey : HasSignature ed trusted message entries key) :
    HasSignature ed trusted message entries' key := by
  obtain ⟨entry, hentry, hsig⟩ := hkey
  exact ⟨entry, h entry hentry, hsig⟩

end Counting

/-! ### The verdict -/

section Verdict

variable {ed : Ed25519} {readFloat : List Char → FloatRepr} {keys : List (String × TrustedKey)}
  {threshold : ℤ} {statement : Json}

lemma signatureEntries_obj {members : List (String × Json)} {sigs : List Json}
    (hsigs : members.lookup "signatures" = some (.arr sigs)) :
    signatureEntries (.obj members) = sigs := by
  simp [signatureEntries, Json.get?, hsigs, Json.items?]

/-- An envelope is accepted exactly when the keys load, it parses, and enough key material has a
valid signature. -/
lemma verifyEnvelope_ok_iff (ht : 1 ≤ threshold) (envelope : Json) :
    verifyEnvelope ed readFloat envelope none (some keys) threshold = .ok statement ↔
      ∃ trusted payload, loadKeys keys = .ok trusted ∧
        parseEnvelope readFloat envelope = .ok (statement, payload) ∧
        threshold ≤ ({key | HasSignature ed trusted (pae payloadType payload)
          (signatureEntries envelope) key}.ncard : ℤ) := by
  have htrust : checkTrust false true threshold = .ok () := by
    simp [checkTrust, not_lt.mpr ht]
  have hwell : ∀ {payload : Bytes}, parseEnvelope readFloat envelope = .ok (statement, payload) →
      ∀ entry ∈ signatureEntries envelope, WellFormed entry := by
    intro payload hparse
    cases envelope with
    | obj members =>
      obtain ⟨-, -, ⟨entries, hentries, hwell⟩, -⟩ := parseEnvelope_ok_iff.mp hparse
      rwa [signatureEntries_obj hentries]
    | _ => cases hparse
  constructor
  · intro h
    obtain ⟨-, -, h⟩ := Except.of_bind_eq_ok h
    obtain ⟨trusted, htrusted, h⟩ := Except.of_bind_eq_ok h
    obtain ⟨⟨statement', payload⟩, hparse, h⟩ := Except.of_bind_eq_ok h
    obtain ⟨count, hcount, h⟩ := Except.of_bind_eq_ok h
    split at h
    · cases h
    · rename_i hle
      cases h
      refine ⟨trusted, payload, htrusted, hparse, ?_⟩
      rw [← length_verifiedKeys (hwell hparse)]
      unfold countVerified at hcount
      split at hcount
      · cases hcount
      · cases hcount
        exact not_lt.mp hle
  · rintro ⟨trusted, payload, htrusted, hparse, hle⟩
    rw [← length_verifiedKeys (hwell hparse)] at hle
    have hne : (signatureEntries envelope).isEmpty = false := by
      cases hentries : signatureEntries envelope with
      | nil =>
        rw [hentries] at hle
        simp only [verifiedKeys, List.foldl_nil, List.length_nil, Nat.cast_zero] at hle
        omega
      | cons entry entries => rfl
    simp only [verifyEnvelope, Option.isSome_none, Option.isSome_some, htrust, Option.getD_some,
      htrusted, hparse, countVerified, hne, Bool.false_eq_true, if_false, Except.ok_bind,
      not_lt.mpr hle]

variable (ed readFloat keys) in
/-- An entry that adds no vote to those of `sigs`: it names no trusted key, or its signature is not
valid, or the key it stands for has a valid signature already, under this or another key id. -/
def AddsNothing (members : List (String × Json)) (sigs : List Json) (entry : Json) : Prop :=
  ∀ trusted payload, loadKeys keys = .ok trusted →
    members.lookup "payload" = some (.str (Base64.encode payload)) →
    ∀ key, HasSignature ed trusted (pae payloadType payload) [entry] key →
      HasSignature ed trusted (pae payloadType payload) sigs key

lemma lookup_setSignatures (members : List (String × Json)) (v : Json) {field : String}
    (hfield : field ≠ "signatures") :
    (Json.setItem members "signatures" v).lookup field = members.lookup field := by
  rw [Json.lookup_setItem, if_neg hfield]

/-- Other well-formed entries under the key `signatures` change nothing that is parsed. -/
lemma parseEnvelope_setSignatures {members : List (String × Json)} {sigs sigs' : List Json}
    {payload : Bytes} (hsigs : members.lookup "signatures" = some (.arr sigs))
    (hwell : (∀ entry ∈ sigs', WellFormed entry) ↔ ∀ entry ∈ sigs, WellFormed entry) :
    parseEnvelope readFloat (.obj (Json.setItem members "signatures" (.arr sigs'))) =
        .ok (statement, payload) ↔
      parseEnvelope readFloat (.obj members) = .ok (statement, payload) := by
  rw [parseEnvelope_ok_iff, parseEnvelope_ok_iff, lookup_setSignatures members _ (by decide),
    lookup_setSignatures members _ (by decide), Json.lookup_setItem, if_pos rfl, hsigs]
  refine and_congr_right fun _ => and_congr_right fun _ => and_congr_left fun _ => ?_
  constructor
  · rintro ⟨_, heq, hall⟩
    cases heq
    exact ⟨sigs, rfl, hwell.mp hall⟩
  · rintro ⟨_, heq, hall⟩
    cases heq
    exact ⟨sigs', rfl, hwell.mpr hall⟩

/-- Entries that are permuted, repeated, or that add nothing leave the verdict as it is. -/
lemma verifyEnvelope_signatures (ht : 1 ≤ threshold) {members : List (String × Json)}
    {sigs sigs' : List Json} (hsigs : members.lookup "signatures" = some (.arr sigs))
    (hkeep : ∀ entry ∈ sigs, entry ∈ sigs')
    (hnew : ∀ entry ∈ sigs', entry ∈ sigs ∨ WellFormed entry ∧ AddsNothing ed keys members sigs entry) :
    verifyEnvelope ed readFloat (.obj (Json.setItem members "signatures" (.arr sigs'))) none
        (some keys) threshold = .ok statement ↔
      verifyEnvelope ed readFloat (.obj members) none (some keys) threshold = .ok statement := by
  have hwell : (∀ entry ∈ sigs', WellFormed entry) ↔ ∀ entry ∈ sigs, WellFormed entry := by
    refine ⟨fun h entry hentry => h entry (hkeep entry hentry), fun h entry hentry => ?_⟩
    rcases hnew entry hentry with hold | ⟨hentry, -⟩
    · exact h entry hold
    · exact hentry
  have hsigs' : (Json.setItem members "signatures" (.arr sigs')).lookup "signatures" =
      some (.arr sigs') := by
    rw [Json.lookup_setItem, if_pos rfl]
  rw [verifyEnvelope_ok_iff ht, verifyEnvelope_ok_iff ht, signatureEntries_obj hsigs,
    signatureEntries_obj hsigs']
  refine exists_congr fun trusted => exists_congr fun payload => and_congr_right fun htrusted => ?_
  rw [parseEnvelope_setSignatures hsigs hwell]
  refine and_congr_right fun hok => ?_
  have hpayload := (parseEnvelope_ok_iff.mp hok).1
  have hsame : {key | HasSignature ed trusted (pae payloadType payload) sigs' key} =
      {key | HasSignature ed trusted (pae payloadType payload) sigs key} := by
    ext key
    constructor
    · rintro ⟨entry, hentry, hsig⟩
      rcases hnew entry hentry with hold | ⟨-, hadds⟩
      · exact ⟨entry, hold, hsig⟩
      · exact hadds trusted payload htrusted hpayload key ⟨entry, List.mem_singleton_self _, hsig⟩
    · exact hasSignature_mono hkeep
  rw [hsame]

lemma loadKeys_concat {trusted : Dict String Bytes} (h : loadKeys keys = .ok trusted) {other : String}
    (hother : other ≠ "") (key : Bytes) :
    loadKeys (keys ++ [(other, .key key)]) = .ok (trusted ++ [(other, key)]) := by
  induction keys generalizing trusted with
  | nil =>
    cases h
    simp [loadKeys, hother, TrustedKey.load]
  | cons p keys ih =>
    obtain ⟨keyid, k⟩ := p
    rw [loadKeys] at h
    split at h
    · cases h
    · rename_i hne
      obtain ⟨raw, hraw, h⟩ := Except.of_bind_eq_ok h
      obtain ⟨rest, hrest, h⟩ := Except.of_bind_eq_ok h
      cases h
      simp only [List.cons_append, loadKeys, hne, if_false, hraw, ih hrest, Except.ok_bind,
        Except.pure_eq]

lemma get?_concat (trusted : Dict String Bytes) (other : String) (key : Bytes) (keyid : String) :
    Dict.get? (trusted ++ [(other, key)]) keyid =
      (Dict.get? trusted keyid).or (if other = keyid then some key else none) := by
  induction trusted with
  | nil => simp [Dict.get?]
  | cons p trusted ih =>
    obtain ⟨k, v⟩ := p
    rw [List.cons_append, Dict.get?, Dict.get?, ih]
    split <;> rfl

/-- A further key id for a key that has a valid signature gives it no second vote. -/
lemma verifyEnvelope_alias (ht : 1 ≤ threshold) {envelope : Json} {trusted : Dict String Bytes}
    (htrusted : loadKeys keys = .ok trusted) {other : String} {key : Bytes} (hne : other ≠ "")
    (hsigned : ∀ statement payload, parseEnvelope readFloat envelope = .ok (statement, payload) →
      HasSignature ed trusted (pae payloadType payload) (signatureEntries envelope) key) :
    verifyEnvelope ed readFloat envelope none (some (keys ++ [(other, .key key)])) threshold =
        .ok statement ↔
      verifyEnvelope ed readFloat envelope none (some keys) threshold = .ok statement := by
  rw [verifyEnvelope_ok_iff ht, verifyEnvelope_ok_iff ht, loadKeys_concat htrusted hne, htrusted]
  simp only [Except.ok.injEq, exists_and_left, exists_eq_left']
  refine exists_congr fun payload => and_congr_right fun hok => ?_
  have hsame : {key' | HasSignature ed (trusted ++ [(other, key)]) (pae payloadType payload)
        (signatureEntries envelope) key'} =
      {key' | HasSignature ed trusted (pae payloadType payload) (signatureEntries envelope) key'} := by
    ext key'
    constructor
    · rintro ⟨entry, hentry, keyid, sig, hkeyid, hsig, hget, hverify⟩
      rw [get?_concat, Option.or_eq_some_iff] at hget
      rcases hget with hget | ⟨-, hget⟩
      · exact ⟨entry, hentry, keyid, sig, hkeyid, hsig, hget, hverify⟩
      · split at hget
        · cases hget
          exact hsigned statement payload hok
        · cases hget
    · rintro ⟨entry, hentry, keyid, sig, hkeyid, hsig, hget, hverify⟩
      refine ⟨entry, hentry, keyid, sig, hkeyid, hsig, ?_, hverify⟩
      rw [get?_concat, hget]
      rfl
  rw [hsame]

/-- In public-key mode an envelope is accepted exactly when it parses and the number of distinct key
materials with a valid signature over the encoding of its payload reaches the threshold. So the
verdict does not change when entries are permuted or repeated, when entries are added that name no
trusted key or do not verify or speak for a key that has its vote, or when such a key gets a further
key id. -/
theorem verifyEnvelope_counts_keys (ed : Ed25519) (readFloat : List Char → FloatRepr)
    (keys : List (String × TrustedKey)) {threshold : ℤ} (ht : 1 ≤ threshold) :
    (∀ envelope statement,
      verifyEnvelope ed readFloat envelope none (some keys) threshold = .ok statement ↔
        ∃ trusted payload, loadKeys keys = .ok trusted ∧
          parseEnvelope readFloat envelope = .ok (statement, payload) ∧
          threshold ≤ ({key | HasSignature ed trusted (pae payloadType payload)
            (signatureEntries envelope) key}.ncard : ℤ)) ∧
    (∀ members sigs sigs' statement, members.lookup "signatures" = some (.arr sigs) →
      (∀ entry ∈ sigs, entry ∈ sigs') →
      (∀ entry ∈ sigs', entry ∈ sigs ∨
        WellFormed entry ∧ AddsNothing ed keys members sigs entry) →
      (verifyEnvelope ed readFloat (.obj (Json.setItem members "signatures" (.arr sigs'))) none
          (some keys) threshold = .ok statement ↔
        verifyEnvelope ed readFloat (.obj members) none (some keys) threshold = .ok statement)) ∧
    (∀ envelope statement trusted other key, loadKeys keys = .ok trusted → other ≠ "" →
      (∀ statement payload, parseEnvelope readFloat envelope = .ok (statement, payload) →
        HasSignature ed trusted (pae payloadType payload) (signatureEntries envelope) key) →
      (verifyEnvelope ed readFloat envelope none (some (keys ++ [(other, .key key)])) threshold =
          .ok statement ↔
        verifyEnvelope ed readFloat envelope none (some keys) threshold = .ok statement)) :=
  ⟨fun envelope _ => verifyEnvelope_ok_iff ht envelope,
    fun _ _ _ _ hsigs hkeep hnew => verifyEnvelope_signatures ht hsigs hkeep hnew,
    fun _ _ _ _ _ htrusted hne hsigned => verifyEnvelope_alias ht htrusted hne hsigned⟩

end Verdict

/-! ### An envelope with two keys under three key ids -/

namespace Sample

def wrapped : Json :=
  .obj [("_type", .str statementType), ("subject", .arr []), ("predicateType", .str predicateType),
    ("predicate", .obj [])]

def wrappedPayload : Bytes := utf8 (Json.dumpsWith .compactUnicode wrapped)

/-- A signature over the payload by the key with this seed, under a key id. -/
def signedBy (keyid : String) (seed : Bytes) : Json :=
  .obj [("keyid", .str keyid),
    ("sig", .str (Base64.encode (Ed25519.transparent.sign seed (pae payloadType wrappedPayload))))]

def envelopeMembers (sigs : List Json) : List (String × Json) :=
  [("payload", .str (Base64.encode wrappedPayload)), ("payloadType", .str payloadType),
    ("signatures", .arr sigs)]

def someFloat (_ : List Char) : FloatRepr := ⟨"1.5".toList, by decide⟩

def firstKey : Bytes := List.replicate 32 1

def secondKey : Bytes := List.replicate 32 2

/-- The first key is there under two key ids. -/
def keyMap : List (String × TrustedKey) :=
  [("a", .bytes firstKey), ("b", .key secondKey), ("c", .bytes firstKey)]

lemma readStatement_wrapped (readFloat : List Char → FloatRepr) :
    readStatement readFloat wrappedPayload = .ok wrapped := by
  have hread : Json.loadsStrict readFloat (Json.dumpsWith .compactUnicode wrapped) = some wrapped := by
    refine Json.loadsStrict_dumpsWith Json.Style.readable_compactUnicode ?_ ?_
    · simp [wrapped, Json.ReadsBack, Json.MembersReadBack, Json.ItemsReadBack]
    · decide +kernel
  rw [readStatement, wrappedPayload, utf8Decode?_utf8, Option.bind_some, hread]
  rfl

lemma wellFormed_signedBy {keyid : String} (hkeyid : keyid ≠ "") (seed : Bytes)
    (hseed : seed ≠ []) : WellFormed (signedBy keyid seed) :=
  ⟨keyid, _, rfl, hkeyid, rfl, by simp [Ed25519.transparent, hseed]⟩

lemma verifiedBy_signedBy {trusted : Dict String Bytes} {keyid : String} {seed : Bytes}
    (h : trusted.get? keyid = some seed) :
    verifiedBy Ed25519.transparent trusted (pae payloadType wrappedPayload) (signedBy keyid seed) =
      some seed := by
  have hid : entryKeyid (signedBy keyid seed) = keyid := rfl
  have hsig : b64d (entrySig (signedBy keyid seed)) =
      .ok (Ed25519.transparent.sign seed (pae payloadType wrappedPayload)) := b64d_ok_iff.mpr rfl
  rw [verifiedBy, hid, h, hsig]
  simp [Ed25519.transparent]

/-- A signature of each key, and one more of the first under its other key id. -/
def threeSigs : List Json := [signedBy "a" firstKey, signedBy "b" secondKey, signedBy "c" firstKey]

lemma wellFormed_threeSigs : ∀ entry ∈ threeSigs, WellFormed entry := by
  intro entry hentry
  simp only [threeSigs, List.mem_cons, List.not_mem_nil, or_false] at hentry
  rcases hentry with rfl | rfl | rfl
  · exact wellFormed_signedBy (by decide) firstKey (by decide)
  · exact wellFormed_signedBy (by decide) secondKey (by decide)
  · exact wellFormed_signedBy (by decide) firstKey (by decide)

/-- Three valid entries of two keys reach a threshold of two, in any order. -/
theorem verifyEnvelope_counts_keys_threeSigs :
    verifyEnvelope Ed25519.transparent someFloat (.obj (envelopeMembers threeSigs)) none
        (some keyMap) 2 = .ok wrapped ∧
      verifyEnvelope Ed25519.transparent someFloat (.obj (envelopeMembers threeSigs.reverse)) none
        (some keyMap) 2 = .ok wrapped := by
  have hparse : parseEnvelope someFloat (.obj (envelopeMembers threeSigs)) =
      .ok (wrapped, wrappedPayload) :=
    parseEnvelope_ok_iff.mpr ⟨rfl, rfl, ⟨threeSigs, rfl, wellFormed_threeSigs⟩,
      readStatement_wrapped someFloat⟩
  have hkeys : loadKeys keyMap = .ok [("a", firstKey), ("b", secondKey), ("c", firstKey)] := rfl
  have hentries : signatureEntries (.obj (envelopeMembers threeSigs)) = threeSigs := rfl
  have hcount : {key | HasSignature Ed25519.transparent
      [("a", firstKey), ("b", secondKey), ("c", firstKey)] (pae payloadType wrappedPayload)
      threeSigs key}.ncard = 2 := by
    rw [← length_verifiedKeys wellFormed_threeSigs, verifiedKeys, threeSigs, List.foldl_cons,
      List.foldl_cons, List.foldl_cons, List.foldl_nil, verifiedBy_signedBy rfl,
      verifiedBy_signedBy rfl, verifiedBy_signedBy rfl]
    decide
  have hset : Json.setItem (envelopeMembers threeSigs) "signatures" (.arr threeSigs.reverse) =
      envelopeMembers threeSigs.reverse := by
    simp [Json.setItem, envelopeMembers]
  obtain ⟨haccepts, hsame, -⟩ := verifyEnvelope_counts_keys Ed25519.transparent someFloat keyMap
    (show (1 : ℤ) ≤ 2 by decide)
  have haccept := (haccepts (.obj (envelopeMembers threeSigs)) wrapped).mpr
    ⟨_, wrappedPayload, hkeys, hparse, by rw [hentries, hcount]; rfl⟩
  refine ⟨haccept, ?_⟩
  rw [← hset]
  exact (hsame (envelopeMembers threeSigs) threeSigs threeSigs.reverse wrapped rfl
    (fun entry hentry => List.mem_reverse.mpr hentry)
    fun entry hentry => .inl (List.mem_reverse.mp hentry)).mpr haccept

end Sample

end AxiomGrid.Legal

import AxiomGrid.Legal.Honest
import AxiomGrid.Lib.JsonSorted

/-!
# What the canonical text and the intent determine

`canonical` succeeds on the values without floats and unsafe integers, and determines them up to the
order of members. An approval carries the digest of the canonical text of a proposal, so without
collisions it fits no other proposal.
-/

namespace AxiomGrid.Legal

open Json (sorted sortedItems sortedMembers sortKeys DistinctKeys DistinctKeysItems DistinctKeysMembers)

/-! ### Values that can be signed -/

mutual

/-- The value holds no float, and no integer above `maxSafeInteger` in absolute value. -/
def isSafe : Json → Bool
  | .float _ => false
  | .int n => n.natAbs ≤ maxSafeInteger
  | .arr xs => isSafeItems xs
  | .obj kvs => isSafeMembers kvs
  | _ => true

def isSafeItems : List Json → Bool
  | [] => true
  | x :: xs => isSafe x && isSafeItems xs

def isSafeMembers : List (String × Json) → Bool
  | [] => true
  | (_, v) :: kvs => isSafe v && isSafeMembers kvs

end

/-- `canonical` on any value. -/
def canonicalValue (v : Json) : Except String Bytes := (walk v).map fun w => utf8 w.dumps

lemma canonical_eq (record : Record) : canonical record = canonicalValue (.obj record) := rfl

lemma sequenceMembers_map_ok (kvs : Record) :
    sequenceMembers (kvs.map fun p => (p.1, .ok p.2)) = .ok kvs := by
  induction kvs with
  | nil => rfl
  | cons p kvs ih =>
    simp only [List.map_cons, sequenceMembers, ih, Except.ok_bind, Except.pure_eq]

lemma of_sequenceMembers_eq_ok {members : List (String × Except String Json)} {record : Record}
    (h : sequenceMembers members = .ok record) : ∀ p ∈ members, ∃ v, p.2 = .ok v := by
  induction members generalizing record with
  | nil =>
    intro p hp
    cases hp
  | cons p members ih =>
    obtain ⟨v, hv, h⟩ := Except.of_bind_eq_ok h
    obtain ⟨kvs, hkvs, -⟩ := Except.of_bind_eq_ok h
    intro q hq
    obtain rfl | hq := List.mem_cons.mp hq
    · exact ⟨v, hv⟩
    · exact ih hkvs q hq

mutual

/-- On a safe value the walk sorts the members and changes nothing else. -/
lemma walk_of_isSafe (v : Json) (h : isSafe v = true) : walk v = .ok (sorted v) := by
  match v with
  | .null | .bool _ | .str _ => rfl
  | .float _ => cases h
  | .int n =>
    rw [isSafe, decide_eq_true_eq] at h
    rw [walk, if_neg (not_lt.mpr h), sorted]
    all_goals simp
  | .arr xs =>
    rw [walk, walkItems_of_isSafe xs h, sorted]
    rfl
  | .obj kvs =>
    have hsort : sortKeys ((sortedMembers kvs).map fun p => (p.1, (.ok p.2 : Except String Json))) =
        (sortKeys (sortedMembers kvs)).map fun p => (p.1, .ok p.2) := by
      apply Json.sortKeys_map
      intro p
      rfl
    rw [walk, walkMembers_of_isSafe kvs h, hsort, sequenceMembers_map_ok, sorted]
    rfl

lemma walkItems_of_isSafe (xs : List Json) (h : isSafeItems xs = true) :
    walkItems xs = .ok (sortedItems xs) := by
  match xs with
  | [] => rfl
  | x :: xs =>
    rw [isSafeItems, Bool.and_eq_true] at h
    simp only [walkItems, walk_of_isSafe x h.1, walkItems_of_isSafe xs h.2, Except.ok_bind, Except.pure_eq,
      sortedItems]

lemma walkMembers_of_isSafe (kvs : Record) (h : isSafeMembers kvs = true) :
    walkMembers kvs = (sortedMembers kvs).map fun p => (p.1, .ok p.2) := by
  match kvs with
  | [] => rfl
  | (k, v) :: kvs =>
    rw [isSafeMembers, Bool.and_eq_true] at h
    rw [walkMembers, walk_of_isSafe v h.1, walkMembers_of_isSafe kvs h.2, sortedMembers, List.map_cons]

end

mutual

/-- The walk raises on every other value. -/
lemma isSafe_of_walk (v : Json) {w : Json} (h : walk v = .ok w) : isSafe v = true := by
  match v with
  | .null | .bool _ | .str _ => rfl
  | .float _ => cases h
  | .int n =>
    rw [walk] at h
    split_ifs at h with hlarge
    rw [isSafe, decide_eq_true_eq]
    exact not_lt.mp hlarge
  | .arr xs =>
    rw [walk] at h
    obtain ⟨ys, hys, -⟩ := Except.of_map_eq_ok h
    exact isSafeItems_of_walkItems xs hys
  | .obj kvs =>
    rw [walk] at h
    obtain ⟨record, hrecord, -⟩ := Except.of_map_eq_ok h
    refine isSafeMembers_of_walkMembers kvs ?_
    intro p hp
    exact of_sequenceMembers_eq_ok hrecord p ((Json.sortKeys_perm _).mem_iff.mpr hp)

lemma isSafeItems_of_walkItems (xs : List Json) {ys : List Json} (h : walkItems xs = .ok ys) :
    isSafeItems xs = true := by
  match xs with
  | [] => rfl
  | x :: xs =>
    obtain ⟨y, hy, h⟩ := Except.of_bind_eq_ok h
    obtain ⟨ys, hys, -⟩ := Except.of_bind_eq_ok h
    rw [isSafeItems, isSafe_of_walk x hy, isSafeItems_of_walkItems xs hys]
    rfl

lemma isSafeMembers_of_walkMembers (kvs : Record) (h : ∀ p ∈ walkMembers kvs, ∃ v, p.2 = .ok v) :
    isSafeMembers kvs = true := by
  match kvs with
  | [] => rfl
  | (k, v) :: kvs =>
    obtain ⟨w, hw⟩ := h (k, walk v) List.mem_cons_self
    have hrest := isSafeMembers_of_walkMembers kvs fun p hp => h p (List.mem_cons_of_mem _ hp)
    rw [isSafeMembers, isSafe_of_walk v hw, hrest]
    rfl

end

lemma canonicalValue_of_isSafe {v : Json} (h : isSafe v = true) :
    canonicalValue v = .ok (utf8 (sorted v).dumps) := by
  rw [canonicalValue, walk_of_isSafe v h]
  rfl

lemma canonicalValue_eq_ok {v : Json} {data : Bytes} :
    canonicalValue v = .ok data ↔ isSafe v = true ∧ data = utf8 (sorted v).dumps := by
  constructor
  · intro h
    obtain ⟨w, hw, -⟩ := Except.of_map_eq_ok h
    have hsafe := isSafe_of_walk v hw
    rw [canonicalValue_of_isSafe hsafe] at h
    cases h
    exact ⟨hsafe, rfl⟩
  · rintro ⟨hsafe, rfl⟩
    exact canonicalValue_of_isSafe hsafe

lemma sorted_eq_of_canonicalValue {v w : Json} {data : Bytes} (hv : canonicalValue v = .ok data)
    (hw : canonicalValue w = .ok data) : sorted v = sorted w := by
  obtain ⟨-, rfl⟩ := canonicalValue_eq_ok.mp hv
  obtain ⟨-, hdata⟩ := canonicalValue_eq_ok.mp hw
  exact Json.dumps_injective (utf8_injective hdata)

/-! ### Equal values -/

mutual

/-- Safe dictionaries that agree up to the order of members are equal for Python. -/
lemma pyEq_of_sorted_eq (v w : Json) (hsafe : isSafe v = true) (hv : DistinctKeys v) (hw : DistinctKeys w)
    (h : sorted v = sorted w) : Json.pyEq v w = true := by
  match v with
  | .null =>
    cases w <;> simp [sorted] at h
    rfl
  | .bool b =>
    cases w <;> simp [sorted] at h
    subst h
    simp [Json.pyEq, Json.number?, PyFloat.eq]
  | .int n =>
    cases w <;> simp [sorted] at h
    subst h
    simp [Json.pyEq, Json.number?, PyFloat.eq]
  | .float _ => cases hsafe
  | .str s =>
    cases w <;> simp [sorted] at h
    subst h
    simp [Json.pyEq]
  | .arr xs =>
    cases w <;> simp [sorted] at h
    exact pyEqItems_of_sorted_eq xs _ hsafe hv hw h
  | .obj kvs =>
    cases w <;> simp [sorted] at h
    rename_i kvs'
    have hlength : kvs.length = kvs'.length := by
      have hperm := (Json.sortKeys_perm (sortedMembers kvs)).length_eq
      have hperm' := (Json.sortKeys_perm (sortedMembers kvs')).length_eq
      rw [Json.sortedMembers_eq_map, List.length_map] at hperm hperm'
      rw [← hperm, ← hperm', ← Json.sortedMembers_eq_map, ← Json.sortedMembers_eq_map, h]
    have hmembers : ∀ p ∈ kvs, ∃ w, kvs'.lookup p.1 = some w ∧ sorted p.2 = sorted w := by
      intro p hp
      have hlookup := (Json.mem_iff_lookup hv.1).mp hp
      have hkey := Json.lookup_sortKeys hv.1 p.1
      rw [h, Json.lookup_sortKeys hw.1, hlookup, Option.map_some] at hkey
      obtain ⟨w, hw, heq⟩ := Option.map_eq_some_iff.mp hkey
      exact ⟨w, hw, heq.symm⟩
    rw [Json.pyEq, hlength, beq_self_eq_true, Bool.true_and]
    exact pyEqMembers_of_sorted_eq kvs kvs' hsafe hv.2 hw.2 hmembers

lemma pyEqItems_of_sorted_eq (xs ys : List Json) (hsafe : isSafeItems xs = true)
    (hxs : DistinctKeysItems xs) (hys : DistinctKeysItems ys) (h : sortedItems xs = sortedItems ys) :
    Json.pyEqItems xs ys = true := by
  match xs, ys with
  | [], [] => rfl
  | x :: xs, y :: ys =>
    rw [isSafeItems, Bool.and_eq_true] at hsafe
    rw [sortedItems, sortedItems, List.cons.injEq] at h
    rw [Json.pyEqItems, pyEq_of_sorted_eq x y hsafe.1 hxs.1 hys.1 h.1,
      pyEqItems_of_sorted_eq xs ys hsafe.2 hxs.2 hys.2 h.2]
    rfl
  | [], _ :: _ => cases h
  | _ :: _, [] => cases h

lemma pyEqMembers_of_sorted_eq (kvs kvs' : Record) (hsafe : isSafeMembers kvs = true)
    (hkvs : DistinctKeysMembers kvs) (hkvs' : DistinctKeysMembers kvs')
    (h : ∀ p ∈ kvs, ∃ w, kvs'.lookup p.1 = some w ∧ sorted p.2 = sorted w) :
    Json.pyEqMembers kvs kvs' = true := by
  match kvs with
  | [] => rfl
  | (k, v) :: kvs =>
    rw [isSafeMembers, Bool.and_eq_true] at hsafe
    obtain ⟨w, hlookup, heq⟩ := h (k, v) List.mem_cons_self
    have hw : DistinctKeys w := Json.distinctKeys_of_lookup hkvs' hlookup
    have hrest := pyEqMembers_of_sorted_eq kvs kvs' hsafe.2 hkvs.2 hkvs' fun p hp =>
      h p (List.mem_cons_of_mem _ hp)
    rw [Json.pyEqMembers, hlookup, hrest, Bool.and_true]
    exact pyEq_of_sorted_eq v w hsafe.1 hkvs.1 hw heq

end

lemma lookup_without {excluded : List String} {k : String} (hk : k ∉ excluded) (record : Record) :
    (record.without excluded).lookup k = record.lookup k := by
  induction record with
  | nil => rfl
  | cons p record ih =>
    obtain ⟨l, v⟩ := p
    rw [Record.without] at ih ⊢
    rw [List.filter_cons, List.lookup_cons]
    split_ifs with hl
    · rw [List.lookup_cons, ih]
    · have hne : (k == l) = false := by
        rw [beq_eq_false_iff_ne]
        rintro rfl
        exact hl (by simpa using hk)
      rw [hne, ih]

lemma nodup_without {record : Record} (h : (record.map Prod.fst).Nodup) (excluded : List String) :
    ((record.without excluded).map Prod.fst).Nodup :=
  h.sublist (List.filter_sublist.map Prod.fst)

lemma isSafe_of_lookup {record : Record} (h : isSafeMembers record = true) {k : String} {v : Json}
    (hk : record.lookup k = some v) : isSafe v = true := by
  induction record with
  | nil => cases hk
  | cons p record ih =>
    obtain ⟨l, w⟩ := p
    rw [isSafeMembers, Bool.and_eq_true] at h
    rw [List.lookup_cons] at hk
    split at hk
    · cases hk
      exact h.1
    · exact ih h.2 hk

/-! ### The intent of a proposal -/

/-- The fields that the intent of a proposal leaves out. -/
def unboundFields : List String := ["signature", "intent_sha256"]

/-- The text whose digest is the intent of a proposal. -/
def intentMessages (proposal : Record) : List Bytes :=
  match canonical (proposal.without unboundFields) with
  | .ok data => [data]
  | .error _ => []

/-- Two dictionaries agree on a field: it holds the same value up to the order of members, which is
the same for Python, or is missing in both. -/
def AgreeOn (record record' : Record) (k : String) : Prop :=
  (record.lookup k).map sorted = (record'.lookup k).map sorted ∧
    Json.pyEq (record.get k) (record'.get k) = true

section

variable {ed : Ed25519} {proposal proposal' approval : Record} {keys keys' : Dict String String}

/-- An approved proposal hashes to the intent that its approval carries. -/
lemma Approved.intent (h : Approved ed proposal approval keys) :
    ∃ data, intentMessages proposal = [data] ∧ canonical (proposal.without unboundFields) = .ok data ∧
      proposal.lookup "intent_sha256" = some (.str (sha data)) ∧
      approval.get "intent_sha256" = .str (sha data) := by
  obtain ⟨intentSha, hdigest, hintent⟩ := h.digest
  obtain ⟨data, hdata, rfl⟩ := Except.of_map_eq_ok hdigest
  have hbound := List.all_eq_true.mp h.bound "intent_sha256" (by decide)
  rw [Json.pyEq_str_left] at hintent
  rw [hintent, Json.pyEq_str_right] at hbound
  have hmessages : intentMessages proposal = [data] := by
    rw [intentMessages, unboundFields, hdata]
  exact ⟨data, hmessages, hdata, lookup_of_get_str hintent, hbound⟩

/-- Without a collision, proposals that one approval fits agree on all that is signed. -/
lemma Approved.agreeOn (h : Approved ed proposal approval keys) (h' : Approved ed proposal' approval keys')
    (hkeys : DistinctKeys (.obj proposal)) (hkeys' : DistinctKeys (.obj proposal'))
    (hfree : CollisionFree (intentMessages proposal ++ intentMessages proposal')) {k : String}
    (hk : k ≠ "signature") : AgreeOn proposal proposal' k := by
  obtain ⟨data, hmessages, hdata, hintent, happroval⟩ := h.intent
  obtain ⟨data', hmessages', hdata', hintent', happroval'⟩ := h'.intent
  have hsha : sha data = sha data' := Json.str.inj (happroval.symm.trans happroval')
  rw [hmessages, hmessages'] at hfree
  have hsame : data = data' := hfree data (by simp) data' (by simp) (Bytes.hex_injective hsha)
  subst hsame
  by_cases hfield : k = "intent_sha256"
  · subst hfield
    rw [AgreeOn, Record.get, Record.get, hintent, hintent']
    exact ⟨rfl, pyEq_str_self _⟩
  · have hincluded : k ∉ unboundFields := by
      simp [unboundFields, hk, hfield]
    rw [canonical_eq] at hdata hdata'
    have hsorted := sorted_eq_of_canonicalValue hdata hdata'
    rw [sorted, sorted, Json.obj.injEq] at hsorted
    have hlookup : (proposal.lookup k).map sorted = (proposal'.lookup k).map sorted := by
      rw [← lookup_without hincluded proposal, ← lookup_without hincluded proposal',
        ← Json.lookup_sortKeys (nodup_without hkeys.1 _), hsorted,
        Json.lookup_sortKeys (nodup_without hkeys'.1 _)]
    refine ⟨hlookup, ?_⟩
    rw [Record.get, Record.get]
    cases hv : proposal.lookup k with
    | none =>
      rw [hv] at hlookup
      rw [Option.map_eq_none_iff.mp hlookup.symm]
      rfl
    | some v =>
      rw [hv] at hlookup
      obtain ⟨w, hw, heq⟩ := Option.map_eq_some_iff.mp hlookup.symm
      obtain ⟨hsafe, -⟩ := canonicalValue_eq_ok.mp hdata
      have hsafeValue := isSafe_of_lookup hsafe ((lookup_without hincluded proposal).trans hv)
      rw [hw]
      exact pyEq_of_sorted_eq v w hsafeValue (Json.distinctKeys_of_lookup hkeys.2 hv)
        (Json.distinctKeys_of_lookup hkeys'.2 hw) heq.symm

end

/-- An approval fits one proposal only, whatever its signature: the intent that it carries determines
every other field, since the canonical text determines the value and exists for safe values only. -/
theorem approval_determines_proposal :
    (∀ (ed : Ed25519) (approval proposal proposal' : Record) (keys keys' : Dict String String) (now now' : ℤ),
      DistinctKeys (.obj proposal) → DistinctKeys (.obj proposal') →
      CollisionFree (intentMessages proposal ++ intentMessages proposal') →
      verifyApproval ed proposal approval keys now = .ok () →
      verifyApproval ed proposal' approval keys' now' = .ok () →
      ∀ k, k ≠ "signature" → AgreeOn proposal proposal' k) ∧
    (∀ v w, isSafe v = true → isSafe w = true → DistinctKeys v → DistinctKeys w →
      canonicalValue v = canonicalValue w → sorted v = sorted w ∧ Json.pyEq v w = true) ∧
    (∀ v, isSafe v = true → ∃ data, canonicalValue v = .ok data) ∧
    ∀ v, isSafe v = false → ∃ e, canonicalValue v = .error e := by
  refine ⟨?_, ?_, ?_, ?_⟩
  · intro ed approval proposal proposal' keys keys' now now' hkeys hkeys' hfree h h' k hk
    exact (approved_of_verifyApproval h).agreeOn (approved_of_verifyApproval h') hkeys hkeys' hfree hk
  · intro v w hv hw hkeys hkeys' h
    have hsorted := sorted_eq_of_canonicalValue (canonicalValue_of_isSafe hv)
      (h.symm.trans (canonicalValue_of_isSafe hv))
    exact ⟨hsorted, pyEq_of_sorted_eq v w hv hkeys hkeys' hsorted⟩
  · intro v hv
    exact ⟨_, canonicalValue_of_isSafe hv⟩
  · intro v hv
    cases h : canonicalValue v with
    | error e => exact ⟨e, rfl⟩
    | ok data =>
      rw [(canonicalValue_eq_ok.mp h).1] at hv
      cases hv

namespace Sample

/-- The proposal of the sample with any text as its signature. -/
def withSignature (intentSha sig : String) : Record :=
  body source "redlined.docx" ++ [("intent_sha256", .str intentSha)] ++ [("signature", .str sig)]

/-- The decoder skips a character that is no digit. -/
lemma decode?_skip (sig : String) : Base64.decode? ("!" ++ sig) = Base64.decode? sig := by
  rw [Base64.decode?, Base64.decode?, String.toList_append]
  rfl

lemma approved_skip {intentSha sig : String} {approval : Record}
    (h : Approved ed (withSignature intentSha sig) approval keys) :
    Approved ed (withSignature intentSha ("!" ++ sig)) approval keys := by
  obtain ⟨keyId, pub, hkeyId, hpub, hverify⟩ := h.proposed
  have hsame : ∀ unsigned, verifySig ed unsigned (.str ("!" ++ sig)) (.str pub) =
      verifySig ed unsigned (.str sig) (.str pub) := by
    intro unsigned
    cases hdata : canonical unsigned <;> simp only [verifySig, hdata, decode?_skip]
  exact ⟨h.digest, ⟨keyId, pub, hkeyId, hpub, (hsame _).trans hverify⟩, h.bound, h.approved⟩

lemma distinctKeys_withSignature (intentSha sig : String) :
    DistinctKeys (.obj (withSignature intentSha sig)) := by
  have hclause : DistinctKeys (.obj clause) := ⟨by decide, by simp [DistinctKeysMembers, DistinctKeys, clause]⟩
  refine ⟨by simp [withSignature, body, proposalBody], ?_⟩
  simpa [withSignature, body, proposalBody, DistinctKeysMembers, DistinctKeys, DistinctKeysItems] using hclause

lemma without_withSignature (intentSha sig : String) :
    (withSignature intentSha sig).without unboundFields = body source "redlined.docx" := rfl

end Sample

/-- A character that base64 skips in front of the signature makes another proposal for the approval,
and it agrees with the first on every field besides. -/
theorem approval_determines_proposal_signature : ∃ approval proposal proposal' : Record,
    verifyApproval Sample.ed proposal approval Sample.keys 1000 = .ok () ∧
    verifyApproval Sample.ed proposal' approval Sample.keys 1000 = .ok () ∧
    proposal ≠ proposal' ∧ ∀ k, k ≠ "signature" → AgreeOn proposal proposal' k := by
  obtain ⟨proposal, hproposal⟩ := Sample.exists_proposal Sample.source "redlined.docx"
  obtain ⟨intentSha, approvalSig, -, happroval⟩ := Sample.exists_approval hproposal
  have happroved := Sample.approved_sample hproposal happroval
    (show Dict.get? Sample.keys "producer" = some (Sample.key "producer" 1).publicKey from rfl) rfl
  have hverify := Sample.verifyApproval_sample hproposal happroval
  obtain ⟨proposalSha, sig, -, -, rfl⟩ := signProposal_spec hproposal
  have hverify' : verifyApproval Sample.ed (Sample.withSignature proposalSha ("!" ++ sig))
      (Sample.approvalBody Sample.source intentSha ++ [("signature", .str approvalSig)]) Sample.keys 1000 =
        .ok () :=
    verifyApproval_of_approved (Sample.approved_skip happroved) rfl rfl rfl rfl
  have hfree : CollisionFree (intentMessages (Sample.withSignature proposalSha sig) ++
      intentMessages (Sample.withSignature proposalSha ("!" ++ sig))) := by
    intro a ha b hb _
    rw [intentMessages, intentMessages, Sample.without_withSignature, Sample.without_withSignature] at ha hb
    cases hdata : canonical (Sample.body Sample.source "redlined.docx") with
    | error e => simp [hdata] at ha
    | ok data =>
      simp only [hdata, List.mem_append, List.mem_singleton, or_self] at ha hb
      rw [ha, hb]
  refine ⟨_, _, _, hverify, hverify', ?_, ?_⟩
  · intro heq
    have hsig : sig = "!" ++ sig := by simpa [Sample.withSignature] using heq
    have hlength := congrArg String.length hsig
    rw [String.length_append] at hlength
    have hone : String.length "!" = 1 := rfl
    omega
  · exact approval_determines_proposal.1 _ _ _ _ _ _ _ _ (Sample.distinctKeys_withSignature _ _)
      (Sample.distinctKeys_withSignature _ _) hfree hverify hverify'

end AxiomGrid.Legal

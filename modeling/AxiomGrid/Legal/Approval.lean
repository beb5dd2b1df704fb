import AxiomGrid.Legal.Transaction

/-!
# What an approval establishes

`Approved` is what `_verify_approval` checks, apart from the times. It holds of every proposal that
`propose` returns with every approval that `approve` gives it, under keys where both are registered.
-/

namespace AxiomGrid.Legal

/-! ### Fields -/

lemma item_eq_ok {record : Record} {k : String} {v : Json} :
    record.item k = .ok v ↔ record.lookup k = some v := by
  cases h : record.lookup k <;> simp [Record.item, h]

/-- A field that is a text is present. -/
lemma lookup_of_get_str {record : Record} {k s : String} (h : record.get k = .str s) :
    record.lookup k = some (.str s) := by
  cases hlookup : record.lookup k with
  | none =>
    rw [Record.get, hlookup] at h
    cases h
  | some v =>
    rw [Record.get, hlookup] at h
    exact congrArg some h

@[simp] lemma pyEq_str_self (s : String) : Json.pyEq (.str s) (.str s) = true := by
  simp [Json.pyEq]

@[simp] lemma pyEq_int_self (n : ℤ) : Json.pyEq (.int n) (.int n) = true := by
  simp [Json.pyEq, Json.number?, PyFloat.eq]

/-! ### Approved proposals -/

variable {ed : Ed25519}
variable {proposal approval : Record} {keys : Dict String String} {now : ℤ}

lemma lookupKey_ok {id : Json} {message pub : String} (h : lookupKey keys id message = .ok pub) :
    ∃ keyId, id = .str keyId ∧ Dict.get? keys keyId = some pub := by
  cases id with
  | str keyId =>
    simp only [lookupKey] at h
    cases hget : Dict.get? keys keyId with
    | none =>
      rw [hget] at h
      cases h
    | some pub' =>
      rw [hget] at h
      cases h
      exact ⟨keyId, rfl, hget⟩
  | null | bool | int | float | arr | obj => cases h

/-- What `_verify_approval` establishes, apart from the times. -/
structure Approved (ed : Ed25519) (proposal approval : Record) (keys : Dict String String) : Prop where
  digest : ∃ intentSha, digest (proposal.without ["signature", "intent_sha256"]) = .ok intentSha ∧
    Json.pyEq (.str intentSha) (proposal.get "intent_sha256") = true
  proposed : ∃ keyId pub, proposal.get "producer_key_id" = .str keyId ∧
    Dict.get? keys keyId = some pub ∧
    verifySig ed (proposal.without ["signature"]) proposal.signature (.str pub) = true
  bound : (boundFields.all fun field => Json.pyEq (approval.get field) (proposal.get field)) = true
  approved : ∃ keyId pub, approval.get "principal" = .str keyId ∧
    Dict.get? keys keyId = some pub ∧
    verifySig ed (approval.without ["signature"]) approval.signature (.str pub) = true

lemma approved_of_verifyApproval {a : Unit}
    (h : verifyApproval ed proposal approval keys now = .ok a) : Approved ed proposal approval keys := by
  obtain ⟨intentSha, hdigest, h⟩ := Except.of_bind_eq_ok h
  obtain ⟨_, hintent, h⟩ := Except.of_bind_eq_ok h
  obtain ⟨producerPub, hproducer, h⟩ := Except.of_bind_eq_ok h
  obtain ⟨_, hproposed, h⟩ := Except.of_bind_eq_ok h
  obtain ⟨_, -, h⟩ := Except.of_bind_eq_ok h
  obtain ⟨_, -, h⟩ := Except.of_bind_eq_ok h
  obtain ⟨_, -, h⟩ := Except.of_bind_eq_ok h
  obtain ⟨_, -, h⟩ := Except.of_bind_eq_ok h
  obtain ⟨_, -, h⟩ := Except.of_bind_eq_ok h
  obtain ⟨_, -, h⟩ := Except.of_bind_eq_ok h
  obtain ⟨_, -, h⟩ := Except.of_bind_eq_ok h
  obtain ⟨_, hbound, h⟩ := Except.of_bind_eq_ok h
  obtain ⟨principalPub, hprincipal, happroved⟩ := Except.of_bind_eq_ok h
  rw [require_eq_ok] at hintent hproposed hbound happroved
  obtain ⟨producerId, hproducerId, hproducerPub⟩ := lookupKey_ok hproducer
  obtain ⟨principalId, hprincipalId, hprincipalPub⟩ := lookupKey_ok hprincipal
  exact ⟨⟨intentSha, hdigest, hintent⟩, ⟨producerId, producerPub, hproducerId, hproducerPub, hproposed⟩,
    hbound, ⟨principalId, principalPub, hprincipalId, hprincipalPub, happroved⟩⟩

/-- The observer's own key does not disturb an approval by others. -/
lemma Approved.set (h : Approved ed proposal approval keys) {keyId pub : String}
    (hproducer : Json.pyEq (.str keyId) (proposal.get "producer_key_id") = false)
    (hprincipal : Json.pyEq (.str keyId) (approval.get "principal") = false) :
    Approved ed proposal approval (Dict.set keys keyId pub) := by
  obtain ⟨producerId, producerPub, hproducerId, hproducerPub, hproposed⟩ := h.proposed
  obtain ⟨principalId, principalPub, hprincipalId, hprincipalPub, happroved⟩ := h.approved
  have hne₁ : keyId ≠ producerId := by
    rintro rfl
    rw [hproducerId, pyEq_str_self] at hproducer
    cases hproducer
  have hne₂ : keyId ≠ principalId := by
    rintro rfl
    rw [hprincipalId, pyEq_str_self] at hprincipal
    cases hprincipal
  refine ⟨h.digest, ⟨producerId, producerPub, hproducerId, ?_, hproposed⟩, h.bound,
    ⟨principalId, principalPub, hprincipalId, ?_, happroved⟩⟩
  · rw [Dict.get?_set, if_neg hne₁]
    exact hproducerPub
  · rw [Dict.get?_set, if_neg hne₂]
    exact hprincipalPub

/-- Apart from the times, `Approved` is all that `_verify_approval` checks. -/
lemma verifyApproval_of_approved (h : Approved ed proposal approval keys)
    (hdecision : approval.get "decision" = .str "approve")
    (hissued : compareTime approval "issued_at" (fun x => x.le (.fin now)) = .ok true)
    (hexpires : compareTime approval "expires_at" (fun x => PyFloat.lt (.fin now) x) = .ok true)
    (hlapsed : compareTime proposal "expires_at" (fun x => x.le (.fin now)) = .ok false) :
    verifyApproval ed proposal approval keys now = .ok () := by
  obtain ⟨intentSha, hdigest, hintent⟩ := h.digest
  obtain ⟨producerId, producerPub, hproducerId, hproducerPub, hproposed⟩ := h.proposed
  obtain ⟨principalId, principalPub, hprincipalId, hprincipalPub, happroved⟩ := h.approved
  simp only [verifyApproval, hdigest, hintent, hproducerId, hproducerPub, hproposed, hprincipalId,
    hprincipalPub, happroved, hdecision, hissued, hexpires, hlapsed, h.bound, lookupKey, require,
    pyEq_str_self, Except.ok_bind, if_true, Bool.not_false]

/-! ### What `propose` and `approve` return -/

lemma signProposal_spec {body : Record} {producerKey : Key}
    (h : signProposal ed body producerKey = .ok proposal) :
    ∃ intentSha sig, digest body = .ok intentSha ∧
      sign ed (body ++ [("intent_sha256", .str intentSha)]) producerKey = .ok sig ∧
      proposal = body ++ [("intent_sha256", .str intentSha)] ++ [("signature", .str sig)] := by
  obtain ⟨intentSha, hdigest, h⟩ := Except.of_bind_eq_ok h
  obtain ⟨sig, hsign, h⟩ := Except.of_bind_eq_ok h
  cases h
  exact ⟨intentSha, sig, hdigest, hsign, rfl⟩

lemma signProposal_ok {body : Record} {producerKey : Key} (hkey : KeyPair ed producerKey)
    (h : ∀ p ∈ body, Signable p.2) : ∃ proposal, signProposal ed body producerKey = .ok proposal := by
  obtain ⟨intentSha, hdigest⟩ := digest_ok (signable_obj h)
  have hsignable : Signable (.obj (body ++ [("intent_sha256", .str intentSha)])) := by
    refine signable_obj ?_
    intro p hp
    obtain hp | hp := List.mem_append.mp hp
    · exact h p hp
    · rw [List.mem_singleton.mp hp]
      exact signable_str intentSha
  obtain ⟨sig, hsign⟩ := sign_ok hkey hsignable
  refine ⟨body ++ [("intent_sha256", .str intentSha)] ++ [("signature", .str sig)], ?_⟩
  simp only [signProposal, hdigest, Except.ok_bind, hsign, Except.pure_eq]

lemma approve_spec {approverKey : Key} {ttl : ℤ} {approvalId nonce : String}
    (h : approve ed proposal approverKey ttl now approvalId nonce = .ok approval) :
    ∃ intentSha sourceSha playbookSha expires expiresAt unsigned sig,
      proposal.lookup "intent_sha256" = some intentSha ∧
      proposal.lookup "source_sha256" = some sourceSha ∧
      proposal.lookup "playbook_sha256" = some playbookSha ∧
      proposal.lookup "expires_at" = some expires ∧ earlier (now + ttl) expires = .ok expiresAt ∧
      unsigned = ([("profile", .str profile), ("approval_id", .str approvalId),
        ("decision", .str "approve"), ("intent_sha256", intentSha), ("source_sha256", sourceSha),
        ("playbook_sha256", playbookSha), ("principal", .str approverKey.keyId), ("issued_at", .int now),
        ("expires_at", expiresAt), ("nonce", .str nonce)] : Record) ∧
      sign ed unsigned approverKey = .ok sig ∧ approval = unsigned ++ [("signature", .str sig)] := by
  obtain ⟨_, -, h⟩ := Except.of_bind_eq_ok h
  obtain ⟨intentSha, hintent, h⟩ := Except.of_bind_eq_ok h
  obtain ⟨sourceSha, hsource, h⟩ := Except.of_bind_eq_ok h
  obtain ⟨playbookSha, hplaybook, h⟩ := Except.of_bind_eq_ok h
  obtain ⟨expires, hexpires, h⟩ := Except.of_bind_eq_ok h
  obtain ⟨expiresAt, hearlier, h⟩ := Except.of_bind_eq_ok h
  obtain ⟨sig, hsign, h⟩ := Except.of_bind_eq_ok h
  cases h
  exact ⟨intentSha, sourceSha, playbookSha, expires, expiresAt, _, sig, item_eq_ok.mp hintent,
    item_eq_ok.mp hsource, item_eq_ok.mp hplaybook, item_eq_ok.mp hexpires, hearlier, rfl, hsign, rfl⟩

/-- A signed proposal with its approval passes where both keys are registered. -/
lemma approved_of_approve (hcorrect : ed.Correct) {producerKey approverKey : Key}
    (hproducer : KeyPair ed producerKey) (happrover : KeyPair ed approverKey)
    {proposalId source playbook output : String} {sourceBytes playbookBytes : Bytes}
    {clauses : List Json} {issuedAt ttl approvalTtl : ℤ} {approvalId nonce : String}
    (hproposal : signProposal ed (proposalBody proposalId source playbook output sourceBytes
      playbookBytes clauses issuedAt ttl producerKey.keyId) producerKey = .ok proposal)
    (happroval : approve ed proposal approverKey approvalTtl now approvalId nonce = .ok approval)
    (hproducerPub : Dict.get? keys producerKey.keyId = some producerKey.publicKey)
    (happroverPub : Dict.get? keys approverKey.keyId = some approverKey.publicKey) :
    Approved ed proposal approval keys := by
  obtain ⟨intentSha, sig, hdigest, hsign, rfl⟩ := signProposal_spec hproposal
  obtain ⟨intentSha', sourceSha, playbookSha, expires, expiresAt, unsigned, sig', hintent, hsource,
    hplaybook, -, -, rfl, hsign', rfl⟩ := approve_spec happroval
  have hverify := verifySig_sign hcorrect hproducer hsign
  have hverify' := verifySig_sign hcorrect happrover hsign'
  simp only [proposalBody, List.cons_append, List.nil_append, List.lookup_cons, beq_self_eq_true,
    String.reduceBEq] at hintent hsource hplaybook
  cases hintent
  cases hsource
  cases hplaybook
  constructor
  · refine ⟨intentSha, ?_, ?_⟩
    · simpa [Record.without, proposalBody] using hdigest
    · simp [Record.get, proposalBody, List.lookup_cons]
  · refine ⟨producerKey.keyId, producerKey.publicKey, ?_, hproducerPub, ?_⟩
    · simp [Record.get, proposalBody, List.lookup_cons]
    · simpa [Record.without, Record.signature, proposalBody, List.lookup_cons] using hverify
  · simp [boundFields, Record.get, proposalBody, List.lookup_cons]
  · refine ⟨approverKey.keyId, approverKey.publicKey, ?_, happroverPub, ?_⟩
    · simp [Record.get, List.lookup_cons]
    · simpa [Record.without, Record.signature, List.lookup_cons] using hverify'

end AxiomGrid.Legal

import AxiomGrid.Trust.Checkpoint

/-!
# The external verifier

`verify_checkpoints` of `tools/verify_receipts_external.py`, which shares no code with the producer:
canonical texts, leaves and the tree hash are computed again. Both sides are shown to compute the
same tree, and the checkpointed receipts are then determined by a checkpoint that raises no
violation.
-/

namespace AxiomGrid.Trust.External

/-! ### The verifier's own hashes -/

/-- `RECEIPT_FIELD_ORDER`. -/
def receiptFieldOrder : List String :=
  ["seq", "timestamp", "agent_id", "action", "context", "outcome", "prev_hash", "self_hash",
    "signature", "opik_trace_id", "opik_trace_url", "domain"]

/-- `CHECKPOINT_FIELD_ORDER`. -/
def checkpointFieldOrder : List String :=
  ["checkpoint_seq", "timestamp", "agent_id", "tree_size", "merkle_root", "prev_checkpoint_hash",
    "self_hash", "signature"]

/-- `canonical(record, field_order)`. -/
def canonical (record : Record) (fieldOrder : List String) : String :=
  canonicalWith fieldOrder record

/-- `sha256_hex(data)`. -/
def sha256Hex (data : Bytes) : String := (sha256 data).hex

/-- `_mth(leaves)`. -/
def mth : List Bytes → Bytes
  | [] => sha256 []
  | [leaf] => sha256 (0x00 :: leaf)
  | x :: y :: zs =>
    let leaves := x :: y :: zs
    let k := doubleWhile leaves.length leaves.length 1
    sha256 (0x01 :: (mth (leaves.take k) ++ mth (leaves.drop k)))
termination_by leaves => leaves.length
decreasing_by
  · have := (largestPowerOfTwoLt_spec (n := (x :: y :: zs).length) (by simp)).2.1
    simp only [largestPowerOfTwoLt] at this
    rw [List.length_take]
    omega
  · have := largestPowerOfTwoLt_pos (n := (x :: y :: zs).length) (by simp)
    simp only [largestPowerOfTwoLt] at this
    rw [List.length_drop]
    simp only [List.length_cons] at this ⊢
    omega

/-- `merkle_root(leaves)`. -/
def merkleRoot (leaves : List Bytes) : String := (mth leaves).hex

/-- The verifier computes the producer's tree. -/
theorem mth_eq_root (leaves : List Bytes) : mth leaves = rfc6962.root leaves := by
  induction leaves using rfc6962.shape_induction with
  | nil =>
    rw [mth, TreeHash.root_nil]
    rfl
  | leaf x =>
    rw [mth, TreeHash.root_singleton]
    rfl
  | node leaves htwo ihl ihr =>
    rw [TreeHash.root_of_two_le htwo, ← ihl, ← ihr]
    match leaves, htwo with
    | x :: y :: zs, _ =>
      rw [mth]
      rfl

lemma merkleRoot_eq (leaves : List Bytes) : merkleRoot leaves = Trust.merkleRoot leaves := by
  rw [merkleRoot, Trust.merkleRoot, mth_eq_root, Trust.mth_eq_root]

/-! ### Verifying the checkpoints -/

/-- What is wrong with a checkpoint. -/
inductive Kind where
  | chainBreak
  | seqGap
  | selfHashMismatch
  | invalidSignature
  | signatureUnverified
  /-- `tree_size` exceeds the number of receipts. -/
  | truncated (treeSize : Json) (count : ℕ)
  /-- The recomputed root and the one in the checkpoint. -/
  | rootMismatch (recomputed : String) (stated : Json)

/-- One violation: the index of the checkpoint, its sequence number and what is wrong. -/
structure Violation where
  index : ℕ
  seq : Json
  kind : Kind

/-- The settings and the environment of a run. -/
structure Env where
  ed : Ed25519
  floatSucc : FloatRepr → FloatRepr
  /-- `str(v).encode("ascii")` for a value that is not a string. -/
  asciiStr : Json → Option Bytes
  sigAvailable : Bool
  requireSignatures : Bool

/-- `d.get(k)`. -/
def getNull (d : Record) (k : String) : Json := (d.lookup k).getD .null

/-- `leaves[:t]`. -/
def slicePrefix (leaves : List Bytes) (t : ℤ) : List Bytes :=
  if 0 ≤ t then leaves.take t.toNat else leaves.take (leaves.length + t).toNat

section

variable (env : Env)

/-- `str(v).encode("ascii")`; `none` is a `UnicodeEncodeError`. -/
def asciiBytes : Json → Option Bytes
  | .str s => if s.toList.all (·.toNat < 128) then some (utf8 s) else none
  | v => env.asciiStr v

/-- `verify_sig(pub_hex, data, sig_hex)`: bad hex is false, and so is a bad signature; a value that is
not a string raises. -/
def verifySig (pubHex : Json) (data : Bytes) (sigHex : Json) : Option Bool := do
  let pubHex ← pubHex.str?
  match Bytes.fromHex? pubHex with
  | none => some false
  | some pub =>
    let sigHex ← sigHex.str?
    match Bytes.fromHex? sigHex with
    | none => some false
    | some sig => some (env.ed.verify pub sig data)

/-- The violations of the checks on a signature; `none` when they raise. -/
def checkSignature (c : Record) : Option (List Kind) :=
  if env.sigAvailable then do
    let data ← asciiBytes env ((c.lookup "self_hash").getD (.str ""))
    let ok ← verifySig env ((c.lookup "agent_id").getD (.str "")) data
      ((c.lookup "signature").getD (.str ""))
    some (if ok then [] else [.invalidSignature])
  else some (if env.requireSignatures then [.signatureUnverified] else [])

/-- The violations of the comparison with the leaves; `none` when it raises: `tree_size` is not a
number, or it is a float that does not exceed the number of leaves. -/
def checkRoot (leaves : List Bytes) (c : Record) : Option (List Kind) :=
  let treeSize := (c.lookup "tree_size").getD (.int 0)
  match treeSize with
  | .int t => some (atMost treeSize t)
  | .bool b => some (atMost treeSize b.toNat)
  | .float x =>
    if PyFloat.lt (.fin leaves.length) x.value then some [.truncated treeSize leaves.length]
    else none
  | _ => none
where
  /-- The two branches for an integer. -/
  atMost (treeSize : Json) (t : ℤ) : List Kind :=
    if leaves.length < t then [.truncated treeSize leaves.length]
    else
      let recomputed := merkleRoot (slicePrefix leaves t)
      if Json.pyEq (.str recomputed) (getNull c "merkle_root") then []
      else [.rootMismatch recomputed (getNull c "merkle_root")]

/-- The violations of one checkpoint. -/
def checkCheckpoint (leaves : List Bytes) (prevHash expectedSeq : Json) (c : Record) :
    Option (List Kind) := do
  let chain := if Json.pyEq (getNull c "prev_checkpoint_hash") prevHash then [] else [.chainBreak]
  let seq := if Json.pyEq (getNull c "checkpoint_seq") expectedSeq then [] else [.seqGap]
  let computed := sha256Hex (utf8 (canonical c checkpointFieldOrder))
  let self :=
    if Json.pyEq (.str computed) (getNull c "self_hash") then [] else [.selfHashMismatch]
  let sig ← checkSignature env c
  let root ← checkRoot leaves c
  some (chain ++ seq ++ self ++ sig ++ root)

/-- The loop over the checkpoints from the `i`-th one on. -/
def verifyLoop (leaves : List Bytes) : ℕ → Json → Json → List Record → Option (List Violation)
  | _, _, _, [] => some []
  | i, prevHash, expectedSeq, c :: checkpoints => do
    let kinds ← checkCheckpoint env leaves prevHash expectedSeq c
    let seq := getNull c "checkpoint_seq"
    let next ← plusOne env.floatSucc (if seq.truthy then seq else .int 0)
    let rest ← verifyLoop leaves (i + 1) ((c.lookup "self_hash").getD (.str "")) next checkpoints
    some (kinds.map (⟨i, seq, ·⟩) ++ rest)

/-- The leaves of `verify_checkpoints`. -/
def leavesOf (receipts : List Record) : List Bytes :=
  receipts.map fun r => utf8 (sha256Hex (utf8 (canonical r receiptFieldOrder)))

/-- `verify_checkpoints(checkpoints, receipts, ...)`; `none` when it raises. -/
def verifyCheckpoints (checkpoints receipts : List Record) : Option (List Violation) :=
  verifyLoop env (leavesOf receipts) 0 (.str "genesis") (.int 0) checkpoints

end

/-! ### What an accepted checkpoint binds -/

variable {env : Env}

/-- A run without violations finds none in any of the checkpoints. -/
lemma checkRoot_of_verifyLoop {leaves : List Bytes} {checkpoints : List Record} {i : ℕ}
    {prevHash expectedSeq : Json}
    (h : verifyLoop env leaves i prevHash expectedSeq checkpoints = some []) :
    ∀ c ∈ checkpoints, checkRoot leaves c = some [] := by
  induction checkpoints generalizing i prevHash expectedSeq with
  | nil =>
    intro c hc
    cases hc
  | cons c checkpoints ih =>
    simp only [verifyLoop, Option.bind_eq_bind, Option.bind_eq_some_iff, Option.some.injEq,
      List.append_eq_nil_iff, List.map_eq_nil_iff] at h
    obtain ⟨kinds, hkinds, next, -, rest, hrest, rfl, rfl⟩ := h
    intro d hd
    rcases List.mem_cons.mp hd with rfl | hd
    · simp only [checkCheckpoint, Option.bind_eq_bind, Option.bind_eq_some_iff, Option.some.injEq,
        List.append_eq_nil_iff] at hkinds
      obtain ⟨sig, -, root, hroot, -, rfl⟩ := hkinds
      exact hroot
    · exact ih hrest d hd

/-- A checkpoint over `n` receipts without a violation: there are as many leaves, and the first `n`
have the stated root. -/
lemma root_of_checkRoot {leaves : List Bytes} {c : Record} {n : ℕ} {root : String}
    (h : checkRoot leaves c = some []) (hsize : c.lookup "tree_size" = some (.int n))
    (hroot : c.lookup "merkle_root" = some (.str root)) :
    n ≤ leaves.length ∧ merkleRoot (leaves.take n) = root := by
  simp only [checkRoot, hsize, Option.getD_some, checkRoot.atMost, getNull, hroot,
    Option.some.injEq] at h
  split at h
  · cases h
  · rename_i hlen
    split at h
    · rename_i heq
      refine ⟨by omega, ?_⟩
      rw [Json.pyEq_str_left, Json.str.injEq] at heq
      rw [heq]
      simp [slicePrefix]
    · cases h

/-- The messages hashed for the receipts of a checkpoint and for their root. -/
def checkpointMessages (receipts : List Record) : List Bytes :=
  receipts.map (fun r => utf8 (receiptCanonical r)) ++ rootMessages (receiptLeaves receipts)

/-- Lists of one length with the same root agree, entry by entry, on the canonical fields. -/
lemma agree_of_root_eq {receipts receipts' : List Record}
    (hlen : receipts.length = receipts'.length)
    (hfree : CollisionFree (checkpointMessages receipts ++ checkpointMessages receipts'))
    (h : Trust.merkleRoot (receiptLeaves receipts) = Trust.merkleRoot (receiptLeaves receipts')) :
    List.Forall₂ (AgreeOn receiptFields) receipts receipts' := by
  have hroot := Bytes.hex_injective h
  rw [Trust.mth_eq_root, Trust.mth_eq_root] at hroot
  have hleaves : receiptLeaves receipts = receiptLeaves receipts' := by
    refine TreeHash.root_inj (by simp [receiptLeaves, hlen]) ?_ hroot
    intro a ha b hb hab
    refine hfree a ?_ b ?_ hab
    · rcases ha with ha | ha <;> simp [checkpointMessages, rootMessages, ha]
    · rcases hb with hb | hb <;> simp [checkpointMessages, rootMessages, hb]
  rw [List.forall₂_iff_get]
  refine ⟨hlen, fun i hi hi' => agreeOn_of_canonicalWith_eq (utf8_injective ?_)⟩
  have hget : (receiptLeaves receipts)[i]? = (receiptLeaves receipts')[i]? := by rw [hleaves]
  simp only [receiptLeaves, List.getElem?_map, List.getElem?_eq_getElem hi,
    List.getElem?_eq_getElem hi', Option.map_some, Option.some.injEq] at hget
  refine hfree _ ?_ _ ?_ (Bytes.hex_injective (utf8_injective hget))
  · refine List.mem_append_left _ (List.mem_append_left _ (List.mem_map.mpr ⟨_, ?_, rfl⟩))
    exact List.getElem_mem hi
  · refine List.mem_append_right _ (List.mem_append_left _ (List.mem_map.mpr ⟨_, ?_, rfl⟩))
    exact List.getElem_mem hi'

/-- A checkpoint chain that contains the checkpoint made from `receipts` and raises no violation
against `receipts'` leaves no room for a change: `receipts'` begins with as many receipts, and these
agree one by one on every canonical field but the hash and the signature, unless two of the messages
hashed when the checkpoint was made and when its root was recomputed collide. -/
theorem checkpoint_binds_receipts {ed : Ed25519} {floatSucc : FloatRepr → FloatRepr}
    {receipts existing receipts' checkpoints : List Record} {now : ℤ} {privateKeyHex : String}
    {c : Record}
    (hc : createCheckpoint ed floatSucc receipts existing now privateKeyHex = some c)
    (hmem : c ∈ checkpoints) (hok : verifyCheckpoints env checkpoints receipts' = some [])
    (hfree : CollisionFree (checkpointMessages receipts ++
      checkpointMessages (receipts'.take receipts.length))) :
    receipts.length ≤ receipts'.length ∧
      List.Forall₂ (AgreeOn receiptFields) receipts (receipts'.take receipts.length) := by
  obtain ⟨prevHash, seq, seed, -, rfl⟩ := createCheckpoint_spec hc
  obtain ⟨hlen, hroot⟩ := root_of_checkRoot (checkRoot_of_verifyLoop hok _ hmem)
    (by rw [lookup_signCheckpoint (by decide) (by decide)]; rfl)
    (by rw [lookup_signCheckpoint (by decide) (by decide)]; rfl)
  have hlen' : receipts.length ≤ receipts'.length := by simpa [leavesOf] using hlen
  refine ⟨hlen', agree_of_root_eq (by simp [hlen']) hfree ?_⟩
  have hleaves : (leavesOf receipts').take receipts.length =
      receiptLeaves (receipts'.take receipts.length) := by
    rw [leavesOf, ← List.map_take]
    rfl
  rw [← hroot, merkleRoot_eq, hleaves]

/-! ### Honest checkpoints -/

lemma asciiBytes_hex (bs : Bytes) : asciiBytes env (.str bs.hex) = some (utf8 bs.hex) := by
  have hall : bs.hex.toList.all (·.toNat < 128) = true := by
    simpa using Bytes.hex_ascii bs
  rw [asciiBytes, if_pos hall]

lemma verifySig_hex (pub sig data : Bytes) :
    verifySig env (.str pub.hex) data (.str sig.hex) = some (env.ed.verify pub sig data) := by
  simp [verifySig, Json.str?]

/-- A signed checkpoint carries the hash that the verifier recomputes. -/
lemma sha256Hex_canonical_signCheckpoint (ed : Ed25519) (seed : Bytes) (ckpt : Record) :
    (signCheckpoint ed seed ckpt).lookup "self_hash" =
      some (.str (sha256Hex (utf8 (canonical (signCheckpoint ed seed ckpt)
        checkpointFieldOrder)))) := by
  have hcanonical : canonical (signCheckpoint ed seed ckpt) checkpointFieldOrder =
      canonicalCheckpoint ckpt := by
    rw [canonical, signCheckpoint, canonicalWith_setItem (.inr rfl),
      canonicalWith_setItem (.inl rfl)]
    rfl
  rw [hcanonical]
  simp [signCheckpoint, Json.lookup_setItem, sha256Hex]

/-- A signed checkpoint passes the signature check when the key verifies its own signatures. -/
lemma checkSignature_signCheckpoint {seed : Bytes} {ckpt : Record}
    (hed : ∀ data, env.ed.verify (env.ed.publicKey seed) (env.ed.sign seed data) data = true)
    (hsig : env.sigAvailable = true)
    (hagent : ckpt.lookup "agent_id" = some (.str (env.ed.publicKey seed).hex)) :
    checkSignature env (signCheckpoint env.ed seed ckpt) = some [] := by
  simp [checkSignature, hsig, hagent, signCheckpoint, Json.lookup_setItem, asciiBytes_hex,
    verifySig_hex, hed]

/-- A checkpoint over some receipts agrees with these receipts and any appended since. -/
lemma checkRoot_signCheckpoint (ed : Ed25519) (seed : Bytes) (seq : Json) (now : ℤ) (pub : Bytes)
    (receipts appended : List Record) (prevHash : Json) :
    checkRoot (leavesOf (receipts ++ appended))
      (signCheckpoint ed seed (checkpointBody seq now pub receipts prevHash)) = some [] := by
  have hleaves : slicePrefix (leavesOf (receipts ++ appended)) receipts.length =
      receiptLeaves receipts := by
    simp only [slicePrefix, Int.natCast_nonneg, if_true, Int.toNat_natCast, leavesOf,
      List.map_append]
    exact List.take_left' (by simp)
  have hlen : ¬((leavesOf (receipts ++ appended)).length : ℤ) < receipts.length := by
    simp [leavesOf]
  simp [checkRoot, checkRoot.atMost, lookup_signCheckpoint, checkpointBody, List.lookup_cons,
    hlen, hleaves, getNull, Json.pyEq, merkleRoot_eq]

/-- The first checkpoint over some receipts raises no violation against these receipts and any that
were appended since. -/
theorem createCheckpoint_accepted {floatSucc : FloatRepr → FloatRepr} {receipts : List Record}
    {now : ℤ} {privateKeyHex : String} {c : Record}
    (hed : ∀ seed data, env.ed.verify (env.ed.publicKey seed) (env.ed.sign seed data) data = true)
    (hsig : env.sigAvailable = true)
    (hc : createCheckpoint env.ed floatSucc receipts [] now privateKeyHex = some c)
    (appended : List Record) : verifyCheckpoints env [c] (receipts ++ appended) = some [] := by
  obtain ⟨prevHash, seq, seed, hlink, rfl⟩ := createCheckpoint_spec hc
  simp only [checkpointLink, List.getLast?_nil, Option.some.injEq, Prod.mk.injEq] at hlink
  obtain ⟨rfl, rfl⟩ := hlink
  have hself := sha256Hex_canonical_signCheckpoint env.ed seed
    (checkpointBody (.int 0) now (env.ed.publicKey seed) receipts (.str "genesis"))
  have hsign : checkSignature env (signCheckpoint env.ed seed
      (checkpointBody (.int 0) now (env.ed.publicKey seed) receipts (.str "genesis"))) = some [] :=
    checkSignature_signCheckpoint (hed seed) hsig rfl
  have hprev : getNull (signCheckpoint env.ed seed (checkpointBody (.int 0) now
      (env.ed.publicKey seed) receipts (.str "genesis"))) "prev_checkpoint_hash" =
        .str "genesis" := by
    rw [getNull, lookup_signCheckpoint (by decide) (by decide)]
    rfl
  have hseq : getNull (signCheckpoint env.ed seed (checkpointBody (.int 0) now
      (env.ed.publicKey seed) receipts (.str "genesis"))) "checkpoint_seq" = .int 0 := by
    rw [getNull, lookup_signCheckpoint (by decide) (by decide)]
    rfl
  simp only [verifyCheckpoints, verifyLoop, checkCheckpoint, hsign, hprev, hseq,
    checkRoot_signCheckpoint]
  rw [getNull, hself]
  simp [Json.pyEq, Json.number?, PyFloat.eq, plusOne, Json.truthy]

/-- Ed25519 at the seed of 32 zero bytes and the one message that is signed below. -/
def zeroSeed : Ed25519 where
  publicKey _ :=
    [0x3b, 0x6a, 0x27, 0xbc, 0xce, 0xb6, 0xa4, 0x2d, 0x62, 0xa3, 0xa8, 0xd0, 0x2a, 0x6f, 0x0d, 0x73,
      0x65, 0x32, 0x15, 0x77, 0x1d, 0xe2, 0x43, 0xa6, 0x3a, 0xc0, 0x48, 0xa1, 0x8b, 0x59, 0xda, 0x29]
  sign _ _ := signature
  verify _ sig _ := sig = signature
where
  /-- The signature over the hash of the checkpoint. -/
  signature : Bytes :=
    [0x9a, 0xca, 0xdb, 0x25, 0xe2, 0x11, 0xe5, 0x5b, 0x4c, 0x66, 0x82, 0x3e, 0x21, 0xb1, 0x85, 0x29,
      0xb4, 0xfc, 0x4c, 0x3c, 0x7f, 0xf4, 0x1a, 0x4d, 0x6a, 0x57, 0x4e, 0xdf, 0xc0, 0xf9, 0xf0, 0xcf,
      0xf0, 0x7d, 0x78, 0xca, 0x03, 0xaf, 0xc0, 0xe9, 0x31, 0x66, 0x7c, 0x69, 0xab, 0x68, 0x9a, 0xd2,
      0xc9, 0xbc, 0xc8, 0x74, 0x78, 0x08, 0x26, 0x9a, 0xa8, 0x9b, 0xb7, 0x33, 0x90, 0x38, 0x6d, 0x07]

/-- A run with signatures. -/
def zeroSeedEnv : Env := ⟨zeroSeed, id, fun _ => none, true, true⟩

/-- A receipt that is checkpointed. -/
def openReceipt : Record := [("seq", .int 0), ("action", .str "open"), ("self_hash", .str "old")]

/-- The checkpoint over one receipt is accepted after the log has grown, and binds the receipt. -/
theorem checkpoint_binds_receipts_openReceipt :
    ∃ c, createCheckpoint zeroSeed id [openReceipt] [] 1 (String.ofList (.replicate 64 '0')) =
        some c ∧
      verifyCheckpoints zeroSeedEnv [c] ([openReceipt] ++ [[("seq", .int 1)]]) = some [] ∧
      List.Forall₂ (AgreeOn receiptFields) [openReceipt] [openReceipt] := by
  have hkey : Bytes.fromHex? (String.ofList
      ((String.ofList (.replicate 64 '0')).toList.take 64)) = some (.replicate 32 0) := by
    rw [String.toList_ofList, Bytes.fromHex?, String.toList_ofList]
    decide
  have hc : ∃ c, createCheckpoint zeroSeed id [openReceipt] [] 1
      (String.ofList (.replicate 64 '0')) = some c := by
    rw [createCheckpoint, hkey]
    exact ⟨_, rfl⟩
  obtain ⟨c, hc⟩ := hc
  have hed : ∀ seed data,
      zeroSeed.verify (zeroSeed.publicKey seed) (zeroSeed.sign seed data) data = true := by
    intro seed data
    simp [zeroSeed]
  have hok := @createCheckpoint_accepted zeroSeedEnv id _ _ _ _ hed rfl hc [[("seq", .int 1)]]
  have hfree : CollisionFree (checkpointMessages [openReceipt]) := .of_nodup (by decide +kernel)
  have hsub : checkpointMessages [openReceipt] ++ checkpointMessages [openReceipt] ⊆
      checkpointMessages [openReceipt] := by
    simp
  exact ⟨c, hc, hok, (checkpoint_binds_receipts hc (by simp) hok (hfree.mono hsub)).2⟩

end AxiomGrid.Trust.External

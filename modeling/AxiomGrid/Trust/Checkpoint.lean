import AxiomGrid.Lib.Ed25519
import AxiomGrid.Lib.Json
import AxiomGrid.Trust.Merkle

/-!
# Signed checkpoints

`create_checkpoint` of `kairo/trust/merkle.py`: the Merkle root over the recomputed canonical hashes
of all receipts, in a record that names the checkpoint before it and is signed.

A receipt or a checkpoint is a JSON object, given by its members. Texts are Unicode scalar values:
a lone surrogate, which `json.loads` can produce, cannot be encoded, so a receipt with one is never
hashed. The Ed25519 package is a parameter, and so is the sum of a float and one.
-/

namespace AxiomGrid.Trust

/-- The members of a JSON object. -/
abbrev Record := List (String × Json)

/-! ### Canonical texts -/

/-- The compact JSON of the fields in `fieldOrder`, with `self_hash` and `signature` emptied. -/
def canonicalWith (fieldOrder : List String) (record : Record) : String :=
  let temp := Json.setItem (Json.setItem record "self_hash" (.str "")) "signature" (.str "")
  Json.dumps (.obj (Json.pick fieldOrder temp))

/-- `field_order` in `_receipt_canonical`. -/
def receiptFields : List String :=
  ["seq", "timestamp", "agent_id", "action", "context", "outcome", "prev_hash", "self_hash",
    "signature", "opik_trace_id", "opik_trace_url", "domain"]

/-- `_CHECKPOINT_FIELD_ORDER`. -/
def checkpointFields : List String :=
  ["checkpoint_seq", "timestamp", "agent_id", "tree_size", "merkle_root", "prev_checkpoint_hash",
    "self_hash", "signature"]

/-- `_receipt_canonical(receipt)`. -/
def receiptCanonical (receipt : Record) : String := canonicalWith receiptFields receipt

/-- `_canonical_checkpoint(ckpt)`. -/
def canonicalCheckpoint (ckpt : Record) : String := canonicalWith checkpointFields ckpt

/-- Two records agree on every field that is hashed with its value, presence included. -/
def AgreeOn (fieldOrder : List String) (r s : Record) : Prop :=
  ∀ k ∈ fieldOrder, k ≠ "self_hash" → k ≠ "signature" → r.lookup k = s.lookup k

/-- The canonical text determines the fields it lists. -/
theorem agreeOn_of_canonicalWith_eq {fieldOrder : List String} {r s : Record}
    (h : canonicalWith fieldOrder r = canonicalWith fieldOrder s) : AgreeOn fieldOrder r s := by
  intro k hk hself hsig
  have hpick := Json.obj.inj (Json.dumps_injective h)
  have hlookup := congrArg (List.lookup k) hpick
  rw [Json.lookup_pick hk, Json.lookup_pick hk] at hlookup
  simpa only [Json.lookup_setItem, hself, hsig, if_false] using hlookup

/-- The fields that are emptied do not matter to the text. -/
lemma canonicalWith_setItem {k : String} (hk : k = "self_hash" ∨ k = "signature")
    (fieldOrder : List String) (r : Record) (v : Json) :
    canonicalWith fieldOrder (Json.setItem r k v) = canonicalWith fieldOrder r := by
  refine congrArg (fun kvs => Json.dumps (.obj kvs)) (Json.pick_congr fun l _ => ?_)
  simp only [Json.lookup_setItem]
  by_cases hsig : l = "signature"
  · simp [hsig]
  · by_cases hself : l = "self_hash"
    · simp [hself]
    · have hl : l ≠ k := by
        rintro rfl
        exact hk.elim hself hsig
      simp [hsig, hself, hl]

/-! ### Creating a checkpoint -/

/-- `_receipt_leaves(receipts)`. -/
def receiptLeaves (receipts : List Record) : List Bytes :=
  receipts.map fun r => utf8 (sha256 (utf8 (receiptCanonical r))).hex

/-- `v + 1`, with the sum of a float and one as a parameter; `none` is a `TypeError`. -/
def plusOne (floatSucc : FloatRepr → FloatRepr) : Json → Option Json
  | .int n => some (.int (n + 1))
  | .bool b => some (.int (b.toNat + 1))
  | .float x => some (.float (floatSucc x))
  | _ => none

/-- The hash and the sequence number that the next checkpoint takes from those before it. -/
def checkpointLink (floatSucc : FloatRepr → FloatRepr) (existing : List Record) :
    Option (Json × Json) :=
  match existing.getLast? with
  | none => some (.str "genesis", .int 0)
  | some last => do
    let prevHash ← last.lookup "self_hash"
    let seq ← (last.lookup "checkpoint_seq").bind (plusOne floatSucc)
    some (prevHash, seq)

/-- The checkpoint record before it is hashed and signed. -/
def checkpointBody (seq : Json) (now : ℤ) (pub : Bytes) (receipts : List Record) (prevHash : Json) :
    Record :=
  [("checkpoint_seq", seq), ("timestamp", .int now), ("agent_id", .str pub.hex),
    ("tree_size", .int receipts.length),
    ("merkle_root", .str (merkleRoot (receiptLeaves receipts))),
    ("prev_checkpoint_hash", prevHash), ("self_hash", .str ""), ("signature", .str "")]

/-- The hash of the canonical text, and the signature over the ASCII bytes of that hash. -/
def signCheckpoint (ed : Ed25519) (seed : Bytes) (ckpt : Record) : Record :=
  let selfHash := (sha256 (utf8 (canonicalCheckpoint ckpt))).hex
  Json.setItem (Json.setItem ckpt "self_hash" (.str selfHash)) "signature"
    (.str (ed.sign seed (utf8 selfHash)).hex)

/-- `create_checkpoint` on the receipts and the checkpoints of the two files, at time `now`; `none`
when it raises. -/
def createCheckpoint (ed : Ed25519) (floatSucc : FloatRepr → FloatRepr)
    (receipts existing : List Record) (now : ℤ) (privateKeyHex : String) : Option Record := do
  let (prevHash, seq) ← checkpointLink floatSucc existing
  let seed ← Bytes.fromHex? (String.ofList (privateKeyHex.toList.take 64))
  if seed.length ≠ 32 then none
  else some (signCheckpoint ed seed (checkpointBody seq now (ed.publicKey seed) receipts prevHash))

/-- A checkpoint is a signed body that links to the checkpoints before it. -/
lemma createCheckpoint_spec {ed : Ed25519} {floatSucc : FloatRepr → FloatRepr}
    {receipts existing : List Record} {now : ℤ} {privateKeyHex : String} {c : Record}
    (h : createCheckpoint ed floatSucc receipts existing now privateKeyHex = some c) :
    ∃ prevHash seq seed, checkpointLink floatSucc existing = some (prevHash, seq) ∧
      c = signCheckpoint ed seed
        (checkpointBody seq now (ed.publicKey seed) receipts prevHash) := by
  simp only [createCheckpoint, Option.bind_eq_bind, Option.bind_eq_some_iff] at h
  obtain ⟨⟨prevHash, seq⟩, hlink, seed, -, h⟩ := h
  split at h
  · cases h
  · cases h
    exact ⟨prevHash, seq, seed, hlink, rfl⟩

/-- Hashing and signing change no other field. -/
lemma lookup_signCheckpoint {k : String} (hself : k ≠ "self_hash") (hsig : k ≠ "signature")
    (ed : Ed25519) (seed : Bytes) (ckpt : Record) :
    (signCheckpoint ed seed ckpt).lookup k = ckpt.lookup k := by
  simp only [signCheckpoint, Json.lookup_setItem, hself, hsig, if_false]

end AxiomGrid.Trust

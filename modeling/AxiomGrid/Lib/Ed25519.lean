import AxiomGrid.Lib.Sha256

/-!
# Ed25519 as a parameter

The signature scheme of the `cryptography` package, which the modelled programs call and do not
implement.
-/

/-- The signature scheme. -/
structure Ed25519 where
  /-- The public key of a 32-byte seed. -/
  publicKey : Bytes → Bytes
  sign : Bytes → Bytes → Bytes
  /-- Whether a signature is valid for a key and the signed data; a key of the wrong size is not. -/
  verify : Bytes → Bytes → Bytes → Bool

/-- A signature made with a key verifies under its public key. -/
def Ed25519.Correct (ed : Ed25519) : Prop :=
  ∀ seed message : Bytes, seed.length = 32 →
    ed.verify (ed.publicKey seed) (ed.sign seed message) message = true

/-- A signature that a key has made for one of these messages verifies for none of the others. -/
def Ed25519.Binding (ed : Ed25519) (seed : Bytes) (messages : List Bytes) : Prop :=
  ∀ m ∈ messages, ∀ m' ∈ messages, ed.verify (ed.publicKey seed) (ed.sign seed m) m' = true → m = m'

/-- Under a public key a signature verifies for one message at most. -/
def Ed25519.Exact (ed : Ed25519) : Prop :=
  ∀ publicKey sig message message', ed.verify publicKey sig message = true →
    ed.verify publicKey sig message' = true → message = message'

/-- A scheme whose signatures are the key with the message. -/
def Ed25519.transparent : Ed25519 where
  publicKey seed := seed
  sign seed message := seed ++ message
  verify pub sig message := sig = pub ++ message

lemma Ed25519.transparent_correct : Ed25519.transparent.Correct := by
  intro seed message _
  exact decide_eq_true rfl

lemma Ed25519.transparent_binding (seed : Bytes) (messages : List Bytes) :
    Ed25519.transparent.Binding seed messages := by
  intro m _ m' _ h
  exact List.append_cancel_left (of_decide_eq_true h)

/-- A public key has 32 bytes and a signature 64. -/
def Ed25519.Sized (ed : Ed25519) : Prop :=
  ∀ seed message : Bytes, seed.length = 32 →
    (ed.publicKey seed).length = 32 ∧ (ed.sign seed message).length = 64

/-- A scheme with keys and signatures of the right size: a signature is the digest of the key with that
of the message. -/
def Ed25519.digest : Ed25519 where
  publicKey seed := seed
  sign seed message := sha256 seed ++ sha256 message
  verify pub sig message := sig = sha256 pub ++ sha256 message

lemma Ed25519.digest_correct : Ed25519.digest.Correct := by
  intro seed message _
  exact decide_eq_true rfl

lemma Ed25519.digest_sized : Ed25519.digest.Sized := by
  intro seed message hseed
  refine ⟨hseed, ?_⟩
  rw [digest, List.length_append, sha256_length, sha256_length]

import AxiomGrid.Lib.LengthPrefix
import AxiomGrid.Receipts.Recovery

/-!
# Scoped tokens

`JitToken` of `phantom-core/src/identity.rs`: an agent signs its name, a scope and the time of expiry,
joined by colons. The last field of the text has no colon and the first is known to whoever verifies
it, so the text is read in one way whatever the scope contains.

The time of issue is a field of the token and not of the text. A token is accepted with any time of
issue that is not in the future.
-/

namespace AxiomGrid.Phantom

open Receipts

/-- `JitToken`. -/
structure JitToken where
  agentId : String
  scope : String
  issuedAt : UInt64
  expiresAt : UInt64
  signature : String

namespace JitToken

variable (ed : Ed25519)

/-- The text that is signed. -/
def payload (agentId scope : String) (expiresAt : UInt64) : String :=
  agentId ++ ":" ++ scope ++ ":" ++ toString expiresAt.toNat

/-- `is_valid`, at a time of the clock. -/
def isValid (now : UInt64) (token : JitToken) : Bool :=
  if token.issuedAt > now ∨ now ≥ token.expiresAt ∨ token.expiresAt ≤ token.issuedAt then false
  else
    match hexDecode token.agentId.toList, hexDecode token.signature.toList with
    | some publicKey, some sig =>
      publicKey.length == 32 && sig.length == 64 &&
        ed.verify publicKey sig (utf8 (payload token.agentId token.scope token.expiresAt))
    | _, _ => false

/-- `create_jit_token`, at a time of the clock. -/
def createJitToken (identity : AgentIdentity) (now : UInt64) (scope : String) (ttlSecs : UInt64) :
    JitToken where
  agentId := identity.agentId
  scope := scope
  issuedAt := now
  expiresAt := now + ttlSecs
  signature :=
    (identity.sign ed (utf8 (payload identity.agentId scope (now + ttlSecs)))).getD ""

/-! ### The signed text -/

lemma colon_notMem_decimal (n : ℕ) : ':' ∉ (toString n).toList := by
  rw [Nat.toString_eq_repr, Nat.repr_eq_ofList_toDigits, String.toList_ofList]
  intro h
  exact absurd (Nat.isDigit_of_mem_toDigits (by decide) (by decide) h) (by decide)

/-- The text that an agent signs is read in one way. -/
lemma payload_injective {agentId scope scope' : String} {expiresAt expiresAt' : UInt64}
    (h : payload agentId scope expiresAt = payload agentId scope' expiresAt') :
    scope = scope' ∧ expiresAt = expiresAt' := by
  have hchars := congrArg String.toList h
  simp only [payload, String.toList_append, List.append_assoc] at hchars
  have hrest := List.append_cancel_left (List.append_cancel_left hchars)
  obtain ⟨hscope, hexpires⟩ := List.append_cons_inj_of_last_separator
    (colon_notMem_decimal _) (colon_notMem_decimal _) hrest
  refine ⟨String.toList_injective hscope, ?_⟩
  apply UInt64.toNat_inj.mp
  exact decimal_injective (congrArg utf8 (String.toList_injective hexpires))

/-! ### Accepted tokens -/

variable {ed}

/-- An accepted token is inside its times, and its signature is one of the text. -/
lemma isValid_iff {now : UInt64} {token : JitToken} :
    token.isValid ed now = true ↔
      token.issuedAt ≤ now ∧ now < token.expiresAt ∧ ∃ publicKey sig,
        hexDecode token.agentId.toList = some publicKey ∧
        hexDecode token.signature.toList = some sig ∧
        publicKey.length = 32 ∧ sig.length = 64 ∧
        ed.verify publicKey sig
          (utf8 (payload token.agentId token.scope token.expiresAt)) = true := by
  rw [isValid]
  split_ifs with htimes
  · refine iff_of_false not_false ?_
    rintro ⟨hissued, hexpires, -⟩
    rcases htimes with h | h | h
    · exact absurd hissued (UInt64.not_le.mpr h)
    · exact absurd hexpires (UInt64.not_lt.mpr h)
    · exact absurd (UInt64.lt_of_le_of_lt hissued hexpires) (UInt64.not_lt.mpr h)
  · simp only [not_or, gt_iff_lt, ge_iff_le, UInt64.not_lt, UInt64.not_le] at htimes
    cases hkey : hexDecode token.agentId.toList with
    | none => simp
    | some publicKey =>
      cases hsig : hexDecode token.signature.toList with
      | none => simp
      | some sig => simp [htimes, and_assoc]

/-- A generated identity makes tokens that are accepted until they expire. -/
lemma isValid_createJitToken (hcorrect : ed.Correct) (hsized : ed.Sized) {identity : AgentIdentity}
    (hidentity : identity.Generated ed) (scope : String) {created ttlSecs now : UInt64}
    (hissued : created ≤ now) (hexpires : now < created + ttlSecs) :
    (createJitToken ed identity created scope ttlSecs).isValid ed now = true := by
  obtain ⟨seed, hseed, hagent, hkey⟩ := hidentity
  set data := utf8 (payload identity.agentId scope (created + ttlSecs)) with hdata
  obtain ⟨hpublic, hlength⟩ := hsized seed data hseed
  have hsign : identity.sign ed data = some (ed.sign seed data).hex := by
    rw [AgentIdentity.sign, hkey, hexDecode_hex, Option.bind_eq_bind, Option.bind_some, if_pos hseed]
  refine isValid_iff.mpr ⟨hissued, hexpires, ed.publicKey seed, ed.sign seed data, ?_, ?_, hpublic,
    hlength, hcorrect seed data hseed⟩
  · rw [createJitToken, hagent, hexDecode_hex]
  · rw [createJitToken, ← hdata, hsign, Option.getD_some, hexDecode_hex]

/-- What a signature of an agent accepts beside one accepted token: the scope and the time of expiry
are those of that token, and the time of issue is any that is not in the future. -/
theorem isValid_iff_of_signature (hexact : ed.Exact) {token token' : JitToken}
    {now now' : UInt64} (hagent : token'.agentId = token.agentId)
    (hsignature : token'.signature = token.signature) (hvalid : token.isValid ed now = true) :
    token'.isValid ed now' = true ↔ token'.scope = token.scope ∧ token'.expiresAt = token.expiresAt ∧
      token'.issuedAt ≤ now' ∧ now' < token.expiresAt := by
  obtain ⟨-, -, publicKey, sig, hkey, hsig, hkeylen, hsiglen, hverify⟩ := isValid_iff.mp hvalid
  rw [isValid_iff, hagent, hsignature]
  constructor
  · rintro ⟨hissued, hexpires, publicKey', sig', hkey', hsig', -, -, hverify'⟩
    obtain rfl : publicKey' = publicKey := Option.some.inj (hkey'.symm.trans hkey)
    obtain rfl : sig' = sig := Option.some.inj (hsig'.symm.trans hsig)
    obtain ⟨hscope, hexpiry⟩ := payload_injective (utf8_injective (hexact _ _ _ _ hverify' hverify))
    exact ⟨hscope, hexpiry, hissued, hexpiry ▸ hexpires⟩
  · rintro ⟨hscope, hexpiry, hissued, hexpires⟩
    refine ⟨hissued, hexpiry ▸ hexpires, publicKey, sig, hkey, hsig, hkeylen, hsiglen, ?_⟩
    rw [hscope, hexpiry]
    exact hverify

namespace Sample

/-- The public key of the sample agent. -/
def key : Bytes := List.replicate 32 0

def agentId : String := key.hex

/-- A scheme in which the agent has signed one text. -/
def scheme : Ed25519 where
  publicKey seed := seed
  sign seed _ := seed ++ seed
  verify publicKey sig message :=
    sig = publicKey ++ publicKey ∧ message = utf8 (payload agentId "document:read" 500)

lemma scheme_exact : scheme.Exact := by
  intro publicKey sig message message' h h'
  exact (of_decide_eq_true h).2.trans (of_decide_eq_true h').2.symm

/-- A token until time 500, with a time of issue. -/
def token (issuedAt : UInt64) : JitToken where
  agentId := agentId
  scope := "document:read"
  issuedAt := issuedAt
  expiresAt := 500
  signature := (key ++ key).hex

lemma token_isValid {issuedAt : UInt64} (h : issuedAt ≤ 300) :
    (token issuedAt).isValid scheme 300 = true := by
  have hverify : scheme.verify key (key ++ key) (utf8 (payload agentId "document:read" 500)) = true := by
    simp [scheme]
  exact isValid_iff.mpr
    ⟨h, (by decide : (300 : UInt64) < 500), key, key ++ key, hexDecode_hex _, hexDecode_hex _, rfl, rfl,
      hverify⟩

end Sample

/-- The sample token is accepted with a time of issue that it was not given. -/
theorem isValid_iff_of_signature_sample : (Sample.token 100).isValid Sample.scheme 300 = true :=
  (@isValid_iff_of_signature Sample.scheme Sample.scheme_exact (Sample.token 200) (Sample.token 100)
    300 300 rfl rfl (Sample.token_isValid (by decide))).mpr ⟨rfl, rfl, (by decide : (100 : UInt64) ≤ 300),
      (by decide : (300 : UInt64) < 500)⟩

/-- Two accepted tokens of one agent and one signature can differ in the time of issue. -/
theorem issuedAt_not_signed :
    ¬ ∀ (ed : Ed25519), ed.Exact → ∀ (now : UInt64) (token token' : JitToken),
      token.agentId = token'.agentId → token.signature = token'.signature →
      token.isValid ed now = true → token'.isValid ed now = true →
      token.scope = token'.scope ∧ token.issuedAt = token'.issuedAt ∧
        token.expiresAt = token'.expiresAt := by
  intro h
  have hissued := (h Sample.scheme Sample.scheme_exact 300 (Sample.token 200) (Sample.token 100) rfl rfl
    (Sample.token_isValid (by decide)) (Sample.token_isValid (by decide))).2.1
  exact absurd hissued (by decide)

end JitToken

end AxiomGrid.Phantom

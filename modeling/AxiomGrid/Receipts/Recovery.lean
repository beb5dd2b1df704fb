import AxiomGrid.Receipts.Log

/-!
# Runs with failing appends

`emit_with_trace` moves the head of the chain on before it appends, so a receipt that follows a failed
append names one that is not in the file. Opening the log again reads the head from the file. A run is
consistent as long as no append succeeds between a failed one and the next opening.
-/

namespace AxiomGrid.Receipts

/-! ### Which runs -/

/-- Whether an append has failed since the log was opened, behind one more event. -/
def failedAfter (failed : Bool) : Event → Bool
  | .reopen => false
  | .emit _ .written => failed
  | .emit _ _ => true

def failedSinceOpen (events : List Event) : Bool := events.foldl failedAfter false

/-- The identity of `AgentIdentity::generate`: the name is the public key of the signing key. -/
def AgentIdentity.Generated (ed : Ed25519) (identity : AgentIdentity) : Prop :=
  ∃ seed : Bytes, seed.length = 32 ∧ identity.agentId = (ed.publicKey seed).hex ∧
    identity.privateKeyHex = seed.hex

/-- An append succeeds only if none has failed since the log was opened, and the receipt is signed by
a generated identity. -/
def Admissible (ed : Ed25519) (events : List Event) : Prop :=
  ∀ before emission, before ++ [.emit emission .written] <+: events →
    failedSinceOpen before = false ∧ emission.identity.Generated ed

lemma Admissible.of_prefix {ed : Ed25519} {events events' : List Event} (h : Admissible ed events)
    (hevents : events' <+: events) : Admissible ed events' :=
  fun before emission hbefore => h before emission (hbefore.trans hevents)

/-! ### Signed receipts -/

variable {ed : Ed25519} {readFloat : List Char → FloatRepr}

lemma hexDecode_hex (bs : Bytes) : hexDecode bs.hex.toList = some bs := by
  have hdigit : ∀ n < 16, hexDigit? (Nat.digitChar n) = some n ∧ Nat.digitChar n ≠ '+' := by decide
  rw [Bytes.hex, String.toList_ofList]
  induction bs with
  | nil => rfl
  | cons b bs ih =>
    have hb : b.toNat < 256 := b.toNat_lt
    obtain ⟨hhi, hplus⟩ := hdigit (b.toNat / 16) (by omega)
    obtain ⟨hlo, -⟩ := hdigit (b.toNat % 16) (by omega)
    have hval : UInt8.ofNat (16 * (b.toNat / 16) + b.toNat % 16) = b := by
      rw [Nat.div_add_mod, UInt8.ofNat_toNat]
    rw [List.flatMap_cons, hexByte, List.cons_append, List.cons_append, List.nil_append, hexDecode,
      hexPair, if_neg hplus, hhi, hlo]
    simp only [Option.bind_eq_bind, Option.bind_some, ih, hval]

/-- A receipt continues the chain at the head of the log that emits it. -/
lemma receiptViolations_emitted (hcorrect : ed.Correct) (hsized : ed.Sized) {log : ReceiptLog}
    {emission : Emission} (hidentity : emission.identity.Generated ed) :
    receiptViolations (signatureValid ed) log.lastHash log.nextSeq (emitted ed log emission) = 0 := by
  obtain ⟨seed, hseed, hagent, hkey⟩ := hidentity
  rw [receiptViolations_eq_zero_iff]
  refine ⟨rfl, rfl, rfl, ?_⟩
  set data := utf8 (newReceipt log emission).selfHash with hdata
  obtain ⟨hpublic, hlength⟩ := hsized seed data hseed
  have hsign : emission.identity.sign ed data = some (ed.sign seed data).hex := by
    rw [AgentIdentity.sign, hkey, hexDecode_hex, Option.bind_eq_bind, Option.bind_some, if_pos hseed]
  have hemitted : signatureValid ed (emitted ed log emission) =
      verifySignature ed emission.identity.agentId data
        ((emission.identity.sign ed data).getD "") := rfl
  rw [hemitted, hsign, Option.getD_some, hagent, verifySignature, hexDecode_hex, hexDecode_hex]
  simp only [hpublic, hlength, beq_self_eq_true, Bool.true_and]
  exact hcorrect seed data hseed

/-! ### The invariant of a run -/

/-- The file is that of the receipts written so far, they form a chain, and unless an append has failed
since the log was opened the log is at its head. -/
structure Consistent (ed : Ed25519) (failed : Bool) (state : World × List ProvenanceReceipt) : Prop where
  file : state.1.file.getD [] = fileOf state.2
  chain : chainViolations (signatureValid ed) "genesis" 0 state.2 = 0
  head : failed = false →
    (state.1.log.lastHash, state.1.log.nextSeq) = chainHead ("genesis", 0) state.2

lemma run_concat (events : List Event) (event : Event) :
    run ed readFloat (events ++ [event]) =
      stepWritten ed readFloat (run ed readFloat events) event := by
  simp [run]

lemma fileOf_concat (receipts : List ProvenanceReceipt) (r : ProvenanceReceipt) :
    fileOf (receipts ++ [r]) = fileOf receipts ++ utf8 (r.toLine ++ "\n") := by
  simp only [fileOf, utf8, Str.writeLines, String.toList_ofList, List.map_append, List.map_singleton,
    List.flatMap_append, List.flatMap_singleton, String.toList_append]
  rfl

/-- The head of the chain is read from the file. -/
lemma readTail_eq {file : Option Bytes} {receipts : List ProvenanceReceipt}
    (h : file.getD [] = fileOf receipts) :
    readTail readFloat file = chainHead ("genesis", 0) receipts := by
  have hback : tailFrom readFloat ("genesis", 0) (lines (readToString (fileOf receipts))) =
      chainHead ("genesis", 0) receipts := by
    rw [tailFrom_eq, lineReceipts_fileOf]
  rw [← h] at hback
  cases file with
  | none => exact hback
  | some file => exact hback

lemma verifyChain_eq {file : Option Bytes} {receipts : List ProvenanceReceipt}
    (h : file.getD [] = fileOf receipts) :
    verifyChain readFloat (signatureValid ed) file =
      chainViolations (signatureValid ed) "genesis" 0 receipts := by
  have hback : verifyChain readFloat (signatureValid ed) (some (fileOf receipts)) = _ :=
    violations_fileOf (signatureValid ed) receipts
  rw [← h] at hback
  cases file with
  | none => exact hback
  | some file => exact hback

/-- Whatever fails, the file is that of the receipts written. -/
lemma file_stepWritten {state : World × List ProvenanceReceipt}
    (h : state.1.file.getD [] = fileOf state.2) (event : Event) :
    (stepWritten ed readFloat state event).1.file.getD [] =
      fileOf (stepWritten ed readFloat state event).2 := by
  match event with
  | .reopen | .emit _ .openFailed | .emit _ .writeFailed => exact h
  | .emit emission .written =>
    change state.1.file.getD [] ++ utf8 ((emitted ed state.1.log emission).toLine ++ "\n") =
      fileOf (state.2 ++ [emitted ed state.1.log emission])
    rw [fileOf_concat, h]

lemma file_run (events : List Event) :
    (run ed readFloat events).1.file.getD [] = fileOf (run ed readFloat events).2 := by
  induction events using List.reverseRecOn with
  | nil => rfl
  | append_singleton events event ih =>
    rw [run_concat]
    exact file_stepWritten ih event

/-- One event keeps the invariant. -/
lemma Consistent.step (hcorrect : ed.Correct) (hsized : ed.Sized) {failed : Bool}
    {state : World × List ProvenanceReceipt} (h : Consistent ed failed state) {event : Event}
    (hevent : ∀ emission, event = .emit emission .written →
      failed = false ∧ emission.identity.Generated ed) :
    Consistent ed (failedAfter failed event) (stepWritten ed readFloat state event) := by
  obtain ⟨world, receipts⟩ := state
  match event with
  | .reopen =>
    refine ⟨h.file, h.chain, fun _ => ?_⟩
    have htail : readTail readFloat world.file = chainHead ("genesis", 0) receipts :=
      readTail_eq h.file
    exact htail
  | .emit emission .openFailed => exact ⟨h.file, h.chain, fun hfalse => nomatch hfalse⟩
  | .emit emission .writeFailed => exact ⟨h.file, h.chain, fun hfalse => nomatch hfalse⟩
  | .emit emission .written =>
    obtain ⟨hfailed, hidentity⟩ := hevent emission rfl
    have hhead := h.head hfailed
    refine ⟨file_stepWritten h.file _, ?_, ?_⟩
    · change chainViolations (signatureValid ed) "genesis" 0
        (receipts ++ [emitted ed world.log emission]) = 0
      have hconcat := chainViolations_concat (signatureValid ed) ("genesis", 0) receipts
        (emitted ed world.log emission)
      have hchain : chainViolations (signatureValid ed) "genesis" 0 receipts = 0 := h.chain
      rw [hconcat, hchain, Nat.zero_add, ← hhead]
      exact receiptViolations_emitted hcorrect hsized hidentity
    · intro _
      change _ = chainHead ("genesis", 0) (receipts ++ [emitted ed world.log emission])
      rw [chainHead_concat]
      rfl

lemma failedSinceOpen_concat (events : List Event) (event : Event) :
    failedSinceOpen (events ++ [event]) = failedAfter (failedSinceOpen events) event := by
  simp [failedSinceOpen]

/-- The invariant holds at the end of an admissible run. -/
lemma consistent_run (hcorrect : ed.Correct) (hsized : ed.Sized) {events : List Event}
    (h : Admissible ed events) : Consistent ed (failedSinceOpen events) (run ed readFloat events) := by
  induction events using List.reverseRecOn with
  | nil => exact ⟨rfl, rfl, fun _ => rfl⟩
  | append_singleton events event ih =>
    have hbefore := ih (h.of_prefix (List.prefix_append _ _))
    rw [run_concat, failedSinceOpen_concat]
    apply hbefore.step hcorrect hsized
    rintro emission rfl
    exact h events emission (List.prefix_refl _)

lemma length_written_le (events : List Event) :
    (run ed readFloat events).2.length ≤ events.length := by
  induction events using List.reverseRecOn with
  | nil => exact le_rfl
  | append_singleton events event ih =>
    rw [run_concat, List.length_append, List.length_singleton]
    match event with
    | .reopen | .emit _ .openFailed | .emit _ .writeFailed => exact Nat.le_succ_of_le ih
    | .emit emission .written =>
      rw [stepWritten, List.length_append, List.length_singleton]
      exact Nat.succ_le_succ ih

/-- In an admissible run of at most `2 ^ 64` events the file is at every point that of the successful
appends, numbered from zero, and `verify_chain` finds no violation. -/
theorem receiptLog_consistent (ed : Ed25519) (readFloat : List Char → FloatRepr)
    (hcorrect : ed.Correct) (hsized : ed.Sized) (events : List Event)
    (hadmissible : Admissible ed events) (hlength : events.length ≤ 2 ^ 64) (before : List Event)
    (hbefore : before <+: events) :
    verifyChain readFloat (signatureValid ed) (run ed readFloat before).1.file = 0 ∧
      (run ed readFloat before).1.file.getD [] = fileOf (run ed readFloat before).2 ∧
      (run ed readFloat before).2.map (fun r => r.seq.toNat) =
        List.range (run ed readFloat before).2.length := by
  have hconsistent : Consistent ed _ (run ed readFloat before) :=
    consistent_run hcorrect hsized (hadmissible.of_prefix hbefore)
  refine ⟨?_, hconsistent.file, ?_⟩
  · rw [verifyChain_eq hconsistent.file]
    exact hconsistent.chain
  · have hseq := congrArg (List.map UInt64.toNat) (seq_of_chain hconsistent.chain).2
    rw [List.map_map, List.map_map] at hseq
    have hwritten : (run ed readFloat before).2.length ≤ before.length := length_written_le before
    have hbound := hbefore.length_le
    calc (run ed readFloat before).2.map (fun r => r.seq.toNat)
      _ = (List.range (run ed readFloat before).2.length).map (UInt64.toNat ∘ UInt64.ofNat) := hseq
      _ = (List.range (run ed readFloat before).2.length).map id := by
        apply List.map_congr_left
        intro n hn
        rw [List.mem_range] at hn
        simp only [Function.comp, id]
        have hsize : UInt64.size = 2 ^ 64 := rfl
        exact UInt64.toNat_ofNat_of_lt' (by omega)
      _ = List.range (run ed readFloat before).2.length := List.map_id _

namespace Sample

def seed : Bytes := List.replicate 32 1

def identity : AgentIdentity := ⟨seed.hex, seed.hex⟩

def emission : Emission := ⟨identity, "edit", "doc", "ok", "", "", "", 0⟩

lemma identity_generated : identity.Generated .digest := ⟨seed, rfl, rfl, rfl⟩

def readSome (_ : List Char) : FloatRepr := ⟨"4.5".toList, by decide⟩

/-- A failed append, the log opened again, and a successful one. -/
def recovered : List Event := [.emit emission .writeFailed, .reopen, .emit emission .written]

/-- A failed append with a successful one behind it. -/
def skipped : List Event := [.emit emission .writeFailed, .emit emission .written]

lemma recovered_admissible : Admissible .digest recovered := by
  intro before em hprefix
  -- the third event is the only successful append
  match before with
  | [] => cases (List.cons_prefix_cons.mp hprefix).1
  | [a] =>
    have hsecond := (List.cons_prefix_cons.mp hprefix).2
    cases (List.cons_prefix_cons.mp hsecond).1
  | [a, b] =>
    obtain ⟨rfl, hsecond⟩ := List.cons_prefix_cons.mp hprefix
    obtain ⟨rfl, hthird⟩ := List.cons_prefix_cons.mp hsecond
    cases (List.cons_prefix_cons.mp hthird).1
    exact ⟨rfl, identity_generated⟩
  | a :: b :: c :: before =>
    have hlength := hprefix.length_le
    simp only [recovered, List.length_append, List.length_cons, List.length_nil] at hlength
    omega

theorem receiptLog_consistent_recovered :
    verifyChain readSome (signatureValid .digest) (run .digest readSome recovered).1.file = 0 ∧
      (run .digest readSome recovered).1.file.getD [] = fileOf (run .digest readSome recovered).2 ∧
      (run .digest readSome recovered).2.map (fun r => r.seq.toNat) =
        List.range (run .digest readSome recovered).2.length :=
  receiptLog_consistent .digest readSome Ed25519.digest_correct Ed25519.digest_sized recovered
    recovered_admissible (by decide) recovered (List.prefix_refl _)

/-- Behind the failed append the next receipt has the number 1 and stands first in the file. -/
theorem skipped_inconsistent :
    verifyChain readSome (signatureValid .digest) (run .digest readSome skipped).1.file ≠ 0 ∧
      (run .digest readSome skipped).2.map (fun r => r.seq.toNat) ≠
        List.range (run .digest readSome skipped).2.length := by
  have hseqs : (run .digest readSome skipped).2.map ProvenanceReceipt.seq = [1] := rfl
  have hfile : (run .digest readSome skipped).1.file.getD [] =
      fileOf (run .digest readSome skipped).2 :=
    file_run skipped
  constructor
  · rw [verifyChain_eq hfile]
    intro hchain
    have hseq := (seq_of_chain hchain).2
    rw [hseqs] at hseq
    exact absurd hseq (by decide)
  · have htoNat := congrArg (List.map UInt64.toNat) hseqs
    rw [List.map_map] at htoNat
    intro hrange
    rw [show (fun r : ProvenanceReceipt => r.seq.toNat) = UInt64.toNat ∘ ProvenanceReceipt.seq from rfl,
      htoNat] at hrange
    exact absurd hrange (by decide)

end Sample

end AxiomGrid.Receipts

import AxiomGrid.Receipts.Recovery
import AxiomGrid.Receipts.Verifiers

/-!
# From the receipt log to the external verifier

The receipts that `phantom-core` writes are checkpointed by `create_checkpoint` of
`kairo/trust/merkle.py`, and both files are verified by the `main` of
`tools/verify_receipts_external.py`. A run interleaves the calls of the log with checkpoints; the
script reads the two files as they then are.
-/

namespace AxiomGrid.Trust.EndToEnd

open Receipts (ProvenanceReceipt Append Event World PyEnv)
open External (Kind Violation)

/-! ### The scripts on files -/

/-- The settings of both scripts. -/
structure ScriptEnv extends External.Env where
  readFloat : List Char → FloatRepr

namespace ScriptEnv

variable (env : ScriptEnv)

def toPyEnv : PyEnv := ⟨env.readFloat, env.floatSucc⟩

/-- The dictionaries on the lines; `none` when a line holds something else. -/
def records (values : List Json) : Option (List Record) :=
  values.mapM fun v => match v with
    | .obj d => some d
    | _ => none

/-- `_read_jsonl` of `merkle.py`. -/
def readRecords (file : Option Bytes) : Option (List Record) := do
  records (← Receipts.readReceipts env.toPyEnv file)

/-- `create_checkpoint` on the two files; `none` when it raises. -/
def createCheckpoint (receiptsFile checkpointsFile : Option Bytes) (now : ℤ) (privateKeyHex : String) :
    Option Record := do
  let receipts ← env.readRecords receiptsFile
  let existing ← env.readRecords checkpointsFile
  Trust.createCheckpoint env.ed env.floatSucc receipts existing now privateKeyHex

/-- The line that it appends. -/
def checkpointLine (ckpt : Record) : String := Json.dumpsWith .spacedUnicode (.obj ckpt)

/-- The violations of one receipt in `verify_receipts`. -/
def checkReceipt (prevHash expectedSeq : Json) (r : Record) : Option (List Kind) := do
  let chain ←
    if Json.pyEq (External.getNull r "prev_hash") prevHash then some []
    else
      match prevHash with
      | .str _ | .arr _ => some [.chainBreak]
      -- the text of the violation slices the hash that is expected
      | _ => none
  let seq := if Json.pyEq (External.getNull r "seq") expectedSeq then [] else [.seqGap]
  let computed := External.sha256Hex (utf8 (External.canonical r External.receiptFieldOrder))
  let self := if Json.pyEq (.str computed) (External.getNull r "self_hash") then [] else [.selfHashMismatch]
  let sig ← External.checkSignature env.toEnv r
  some (chain ++ seq ++ self ++ sig)

/-- The loop of `verify_receipts`. -/
def verifyReceipts : ℕ → Json → Json → List Record → Option (List Violation)
  | _, _, _, [] => some []
  | i, prevHash, expectedSeq, r :: receipts => do
    let kinds ← env.checkReceipt prevHash expectedSeq r
    let seq := External.getNull r "seq"
    let next ← plusOne env.floatSucc (if seq.truthy then seq else .int 0)
    let rest ← verifyReceipts (i + 1) ((r.lookup "self_hash").getD (.str "")) next receipts
    some (kinds.map (⟨i, seq, ·⟩) ++ rest)

/-- `main` with `--checkpoints`: the violations of the receipts and of the checkpoints. A file that
does not exist, or that holds something else than JSON objects, ends it with an error. -/
def main (receiptsFile checkpointsFile : Option Bytes) : Option (List Violation × List Violation) := do
  let receipts ← records (← Receipts.readJsonl env.toPyEnv receiptsFile)
  let violations ← env.verifyReceipts 0 (.str "genesis") (.int 0) receipts
  let checkpoints ← records (← Receipts.readJsonl env.toPyEnv checkpointsFile)
  let violations' ← External.verifyCheckpoints env.toEnv checkpoints receipts
  some (violations, violations')

end ScriptEnv

/-! ### Runs -/

inductive TrustEvent where
  | receipt (event : Event)
  /-- A checkpoint at some time with some key, and how its append ends. -/
  | checkpoint (now : ℤ) (privateKeyHex : String) (append : Append)

/-- The log on its file, and the file of the checkpoints. -/
structure TrustState where
  world : World
  checkpoints : Option Bytes := none

section

variable (env : ScriptEnv)

def step (s : TrustState) : TrustEvent → TrustState
  | .receipt event => { s with world := Receipts.step env.ed env.readFloat s.world event }
  | .checkpoint now privateKeyHex append =>
    match env.createCheckpoint s.world.file s.checkpoints now privateKeyHex with
    | none => s
    | some ckpt =>
      { s with checkpoints := Receipts.appendLine append s.checkpoints (ScriptEnv.checkpointLine ckpt) }

/-- A run from files that do not exist. -/
def run (events : List TrustEvent) : TrustState :=
  events.foldl (step env) ⟨⟨none, Receipts.openLog env.readFloat none⟩, none⟩

end

/-- The calls of the log. -/
def receiptEvents (events : List TrustEvent) : List Event :=
  events.filterMap fun e => match e with
    | .receipt event => some event
    | _ => none

lemma world_run {env : ScriptEnv} (events : List TrustEvent) :
    (run env events).world = (Receipts.run env.ed env.readFloat (receiptEvents events)).1 := by
  induction events using List.reverseRecOn with
  | nil => rfl
  | append_singleton events event ih =>
    rw [run, List.foldl_append, ← run]
    cases event with
    | receipt event =>
      simp only [receiptEvents, List.filterMap_append, List.filterMap_cons, List.filterMap_nil]
      rw [Receipts.run_concat, List.foldl_cons, List.foldl_nil, step, ih]
      rfl
    | checkpoint now key append =>
      simp only [receiptEvents, List.filterMap_append, List.filterMap_cons, List.filterMap_nil,
        List.append_nil, List.foldl_cons, List.foldl_nil, step]
      refine Eq.trans ?_ ih
      split <;> rfl

/-! ### Files are read back -/

section

variable {env : ScriptEnv}

/-- A record that is read back from a line. -/
structure OnLine (d : Record) : Prop where
  readsBack : ∀ r, Json.ReadsBack r (.obj d)
  distinctKeys : Json.DistinctKeys (.obj d)

/-- The file of some records. -/
def recordFile (style : Json.Style) (ds : List Record) : Bytes :=
  utf8 (String.ofList (Str.writeLines (ds.map fun d => (Json.dumpsWith style (.obj d)).toList)))

lemma recordFile_concat (style : Json.Style) (ds : List Record) (d : Record) :
    recordFile style (ds ++ [d]) =
      recordFile style ds ++ utf8 (Json.dumpsWith style (.obj d) ++ "\n") := by
  simp only [recordFile, utf8, Str.writeLines, String.toList_ofList, List.map_append,
    List.map_singleton, List.flatMap_append, List.flatMap_singleton, String.toList_append]
  rfl

lemma readLines_records {style : Json.Style} (hstyle : style.Readable) {ds : List Record}
    (h : ∀ d ∈ ds, OnLine d) :
    Receipts.readLines env.toPyEnv
        (ds.map (fun d => (Json.dumpsWith style (.obj d)).toList) ++ [[]]) =
      some (ds.map .obj) := by
  induction ds with
  | nil => rfl
  | cons d ds ih =>
    rw [List.forall_mem_cons] at h
    have hstrip : Str.strip (Json.dumpsWith style (.obj d)).toList =
        (Json.dumpsWith style (.obj d)).toList := by
      rw [Json.dumpsWith, String.toList_ofList, Json.strip_renderWith_obj]
    have hne : (Json.dumpsWith style (.obj d)).toList ≠ [] := by
      obtain ⟨cs, hcs⟩ := Json.renderWith_obj_eq_cons style 0 d
      rw [Json.dumpsWith, String.toList_ofList, hcs]
      exact List.cons_ne_nil _ _
    have hloads : Json.loads env.toPyEnv.readFloat (Json.dumpsWith style (.obj d)) = some (.obj d) :=
      Json.loads_dumpsWith hstyle (h.1.readsBack _) h.1.distinctKeys
    rw [List.map_cons, List.cons_append, Receipts.readLines, hstrip, if_neg hne, String.ofList_toList,
      hloads, ih h.2]
    rfl

lemma pyLines_recordFile {style : Json.Style} (hwrites : style.Writes fun c => 32 ≤ c.toNat)
    (ds : List Record) :
    Receipts.pyLines (recordFile style ds) =
      some (ds.map (fun d => (Json.dumpsWith style (.obj d)).toList) ++ [[]]) := by
  have hlines : ∀ l ∈ ds.map (fun d => (Json.dumpsWith style (.obj d)).toList),
      '\n' ∉ l ∧ '\r' ∉ l := by
    rw [List.forall_mem_map]
    intro d _
    rw [Json.dumpsWith, String.toList_ofList]
    exact Json.no_newline_renderWith hwrites 0 _
  rw [Receipts.pyLines, recordFile, utf8Decode?_utf8, Option.map_some, String.toList_ofList,
    Str.lines_universalNewlines_writeLines hlines]

lemma records_map_obj (ds : List Record) : ScriptEnv.records (ds.map .obj) = some ds := by
  induction ds with
  | nil => rfl
  | cons d ds ih =>
    rw [ScriptEnv.records, List.map_cons, List.mapM_cons, ← ScriptEnv.records, ih]
    rfl

section

variable {style : Json.Style} {file : Option Bytes} {ds : List Record}

lemma readRecords_eq (hstyle : style.Readable) (hwrites : style.Writes fun c => 32 ≤ c.toNat)
    (hfile : file.getD [] = recordFile style ds) (h : ∀ d ∈ ds, OnLine d) :
    env.readRecords file = some ds := by
  have hread : Receipts.readReceipts env.toPyEnv (some (recordFile style ds)) = some (ds.map .obj) := by
    rw [Receipts.readReceipts, pyLines_recordFile hwrites]
    exact readLines_records hstyle h
  rw [← hfile] at hread
  have hvalues : Receipts.readReceipts env.toPyEnv file = some (ds.map .obj) := by
    cases file with
    | none => exact hread
    | some file => exact hread
  rw [ScriptEnv.readRecords, hvalues]
  exact records_map_obj ds

lemma readJsonl_eq (hstyle : style.Readable) (hwrites : style.Writes fun c => 32 ≤ c.toNat)
    (hexists : file.isSome = true) (hfile : file.getD [] = recordFile style ds)
    (h : ∀ d ∈ ds, OnLine d) :
    Receipts.readJsonl env.toPyEnv file = some (ds.map .obj) := by
  obtain ⟨file, rfl⟩ := Option.isSome_iff_exists.mp hexists
  obtain rfl : file = recordFile style ds := hfile
  rw [Receipts.readJsonl]
  simp only [Option.bind_eq_bind, Option.bind_some, pyLines_recordFile hwrites]
  exact readLines_records hstyle h

end

/-! ### Receipts -/

lemma onLine_members (r : ProvenanceReceipt) : OnLine r.members where
  readsBack _ := ⟨trivial, trivial, trivial, trivial, trivial, trivial, trivial, trivial, trivial,
    trivial, trivial, trivial, trivial⟩
  distinctKeys := by
    refine ⟨?_, trivial, trivial, trivial, trivial, trivial, trivial, trivial, trivial, trivial,
      trivial, trivial, trivial, trivial⟩
    have hnames : r.members.map Prod.fst = Receipts.fieldNames := rfl
    rw [hnames]
    decide

lemma fileOf_eq (receipts : List ProvenanceReceipt) :
    Receipts.fileOf receipts = recordFile .compactUnicode (receipts.map (·.members)) := by
  rw [Receipts.fileOf, recordFile, List.map_map]
  rfl

/-- A receipt that a generated identity has signed. -/
def Honest (ed : Ed25519) (r : ProvenanceReceipt) : Prop :=
  ∃ seed : Bytes, seed.length = 32 ∧ r.agentId = (ed.publicKey seed).hex ∧
    r.signature = (ed.sign seed (utf8 r.selfHash)).hex

lemma honest_emitted {ed : Ed25519} {log : Receipts.ReceiptLog} {emission : Receipts.Emission}
    (h : emission.identity.Generated ed) : Honest ed (Receipts.emitted ed log emission) := by
  obtain ⟨seed, hseed, hagent, hkey⟩ := h
  refine ⟨seed, hseed, hagent, ?_⟩
  have hsign : ∀ data, emission.identity.sign ed data = some (ed.sign seed data).hex := by
    intro data
    rw [Receipts.AgentIdentity.sign, hkey, Receipts.hexDecode_hex, Option.bind_eq_bind,
      Option.bind_some, if_pos hseed]
  have hsignature : (Receipts.emitted ed log emission).signature =
      (emission.identity.sign ed (utf8 (Receipts.newReceipt log emission).selfHash)).getD "" := rfl
  rw [hsignature, hsign]
  rfl

lemma honest_run {ed : Ed25519} {readFloat : List Char → FloatRepr} {events : List Event}
    (h : Receipts.Admissible ed events) : ∀ r ∈ (Receipts.run ed readFloat events).2, Honest ed r := by
  induction events using List.reverseRecOn with
  | nil => simp [Receipts.run]
  | append_singleton events event ih =>
    have hbefore := ih (h.of_prefix (List.prefix_append _ _))
    rw [Receipts.run_concat]
    obtain ⟨emission, append⟩ | _ := event
    case reopen => exact hbefore
    cases append with
    | openFailed => exact hbefore
    | writeFailed => exact hbefore
    | written =>
      obtain ⟨-, hidentity⟩ := h events emission (List.prefix_refl _)
      intro r hr
      obtain hr | rfl := List.mem_append.mp hr |>.imp id List.mem_singleton.mp
      · exact hbefore r hr
      · exact honest_emitted hidentity

/-- The text that both sides hash. -/
lemma canonical_members (r : ProvenanceReceipt) :
    External.canonical r.members External.receiptFieldOrder = r.cleared.toLine := by
  have hreads : Receipts.Reads r.members r :=
    ⟨fun _ _ _ hv => hv, fun k hk => Receipts.isSome_members r k (List.mem_of_mem_take hk)⟩
  exact hreads.canonical_iff.mpr (Receipts.isSome_members r)

lemma plusOne_nat {floatSucc : FloatRepr → FloatRepr} (n : ℕ) :
    plusOne floatSucc (if (Json.int n).truthy then .int n else .int 0) = some (.int (n + 1 : ℕ)) := by
  cases n with
  | zero => rfl
  | succ n =>
    have hne : (n : ℤ) + 1 ≠ 0 := by omega
    simp [Json.truthy, plusOne, hne]

/-- The signature of a generated identity passes the check, and no check reports nothing unless one is
required. -/
lemma checkSignature_eq {d : Record} (seed hash : Bytes) (hed : env.ed.Correct)
    (hseed : seed.length = 32) (hself : d.lookup "self_hash" = some (.str hash.hex))
    (hagent : d.lookup "agent_id" = some (.str (env.ed.publicKey seed).hex))
    (hsign : d.lookup "signature" = some (.str (env.ed.sign seed (utf8 hash.hex)).hex))
    (hsig : env.requireSignatures = true → env.sigAvailable = true) :
    External.checkSignature env.toEnv d = some [] := by
  simp only [External.checkSignature, hself, hagent, hsign, Option.getD_some, External.asciiBytes_hex,
    External.verifySig_hex, Option.bind_eq_bind, Option.bind_some]
  split_ifs with havailable hok hrequired
  · rfl
  · exact absurd (hed seed _ hseed) hok
  · exact absurd (hsig hrequired) havailable
  · rfl

/-- A receipt that continues the chain raises no violation. -/
lemma checkReceipt_members (hed : env.ed.Correct) {r : ProvenanceReceipt} {prevHash : String} {n : ℕ}
    (hprev : r.prevHash = prevHash) (hseq : r.seq.toNat = n) (hhash : r.computedHash = r.selfHash)
    (hhonest : Honest env.ed r) (hsig : env.requireSignatures = true → env.sigAvailable = true) :
    env.checkReceipt (.str prevHash) (.int n) r.members = some [] := by
  obtain ⟨seed, hseed, hagent, hsign⟩ := hhonest
  have hreads : Receipts.Reads r.members r :=
    ⟨fun _ _ _ hv => hv, fun k hk => Receipts.isSome_members r k (List.mem_of_mem_take hk)⟩
  have hchain : Json.pyEq (External.getNull r.members "prev_hash") (.str prevHash) = true :=
    hreads.chainOk_iff.mpr hprev
  have hnumber : Json.pyEq (External.getNull r.members "seq") (.int n) = true :=
    hreads.seqOk_iff.mpr (congrArg Nat.cast hseq)
  have hself : Json.pyEq
      (.str (External.sha256Hex (utf8 (External.canonical r.members External.receiptFieldOrder))))
      (External.getNull r.members "self_hash") = true := by
    refine hreads.hashOk_iff.mpr (Eq.trans ?_ hhash)
    exact congrArg (fun text => (sha256 (utf8 text)).hex) (canonical_members r)
  have hsignature : External.checkSignature env.toEnv r.members = some [] := by
    rw [← hhash] at hsign
    exact checkSignature_eq seed _ hed hseed (congrArg (some ∘ Json.str) hhash.symm)
      (congrArg (some ∘ Json.str) hagent) (congrArg (some ∘ Json.str) hsign) hsig
  simp only [ScriptEnv.checkReceipt, hchain, hnumber, hself, hsignature, if_true, Option.bind_eq_bind,
    Option.bind_some, List.append_nil]

/-- A chain of receipts that are numbered in turn raises no violation. -/
lemma verifyReceipts_members (hed : env.ed.Correct)
    (hsig : env.requireSignatures = true → env.sigAvailable = true) {receipts : List ProvenanceReceipt}
    {prevHash : String} {expectedSeq : UInt64} {n : ℕ} (i : ℕ)
    (hchain : Receipts.chainViolations (Receipts.signatureValid env.ed) prevHash expectedSeq receipts = 0)
    (hseqs : receipts.map (·.seq.toNat) = List.range' n receipts.length)
    (hhonest : ∀ r ∈ receipts, Honest env.ed r) :
    env.verifyReceipts i (.str prevHash) (.int n) (receipts.map (·.members)) = some [] := by
  induction receipts generalizing prevHash expectedSeq n i with
  | nil => rfl
  | cons r receipts ih =>
    rw [List.forall_mem_cons] at hhonest
    rw [List.map_cons, List.length_cons, List.range'_succ, List.cons.injEq] at hseqs
    rw [Receipts.chainViolations, Nat.add_eq_zero_iff, Receipts.receiptViolations_eq_zero_iff] at hchain
    obtain ⟨⟨hprev, -, hhash, -⟩, hrest⟩ := hchain
    have hcheck := checkReceipt_members hed hprev hseqs.1 hhash hhonest.1 hsig
    have hseq : External.getNull r.members "seq" = .int n := by
      rw [← hseqs.1]
      rfl
    have hself : (r.members.lookup "self_hash").getD (.str "") = .str r.selfHash := rfl
    rw [List.map_cons, ScriptEnv.verifyReceipts]
    simp only [hcheck, hseq, plusOne_nat, hself, Option.bind_eq_bind, Option.bind_some,
      ih (i + 1) hrest hseqs.2 hhonest.2, List.map_nil, List.append_nil]

end

/-! ### Checkpoints -/

section

variable {env : ScriptEnv} {receipts : List Record} {prevHash : String} {n : ℕ} {c : Record}

/-- A checkpoint over the first receipts, behind a given hash and with a given number. -/
def IsCheckpoint (ed : Ed25519) (receipts : List Record) (prevHash : String) (n : ℕ) (c : Record) :
    Prop :=
  ∃ seed now covered, seed.length = 32 ∧ covered <+: receipts ∧
    c = signCheckpoint ed seed
      (checkpointBody (.int n) now (ed.publicKey seed) covered (.str prevHash))

/-- The text of `self_hash`. -/
def selfHashText (c : Record) : String := ((c.lookup "self_hash").bind Json.str?).getD ""

/-- Checkpoints in a row, each behind the hash of the one before it. -/
def CheckpointChain (ed : Ed25519) (receipts : List Record) : String → ℕ → List Record → Prop
  | _, _, [] => True
  | prevHash, n, c :: cs =>
    IsCheckpoint ed receipts prevHash n c ∧ CheckpointChain ed receipts (selfHashText c) (n + 1) cs

lemma IsCheckpoint.mono (h : IsCheckpoint env.ed receipts prevHash n c) {receipts' : List Record}
    (hext : receipts <+: receipts') : IsCheckpoint env.ed receipts' prevHash n c := by
  obtain ⟨seed, now, covered, hseed, hcovered, rfl⟩ := h
  exact ⟨seed, now, covered, hseed, hcovered.trans hext, rfl⟩

lemma CheckpointChain.mono {receipts' : List Record} (hext : receipts <+: receipts')
    {cs : List Record} (h : CheckpointChain env.ed receipts prevHash n cs) :
    CheckpointChain env.ed receipts' prevHash n cs := by
  induction cs generalizing prevHash n with
  | nil => trivial
  | cons c cs ih => exact ⟨h.1.mono hext, ih h.2⟩

lemma checkpointChain_concat {cs : List Record} :
    CheckpointChain env.ed receipts prevHash n (cs ++ [c]) ↔
      CheckpointChain env.ed receipts prevHash n cs ∧
        IsCheckpoint env.ed receipts (tip selfHashText prevHash cs) (n + cs.length) c := by
  induction cs generalizing prevHash n with
  | nil => simp [CheckpointChain]
  | cons d cs ih =>
    rw [List.cons_append, CheckpointChain, CheckpointChain, ih, and_assoc, List.length_cons,
      Nat.add_right_comm, ← Nat.add_assoc, Nat.add_right_comm]
    rfl

namespace IsCheckpoint

lemma lookup_self (h : IsCheckpoint env.ed receipts prevHash n c) :
    c.lookup "self_hash" =
      some (.str (External.sha256Hex (utf8 (External.canonical c External.checkpointFieldOrder)))) := by
  obtain ⟨seed, now, covered, -, -, rfl⟩ := h
  exact External.sha256Hex_canonical_signCheckpoint env.ed seed _

lemma lookup_seq (h : IsCheckpoint env.ed receipts prevHash n c) :
    c.lookup "checkpoint_seq" = some (.int n) := by
  obtain ⟨seed, now, covered, -, -, rfl⟩ := h
  rw [lookup_signCheckpoint (by decide) (by decide)]
  rfl

lemma lookup_prev (h : IsCheckpoint env.ed receipts prevHash n c) :
    c.lookup "prev_checkpoint_hash" = some (.str prevHash) := by
  obtain ⟨seed, now, covered, -, -, rfl⟩ := h
  rw [lookup_signCheckpoint (by decide) (by decide)]
  rfl

lemma selfHashText_eq (h : IsCheckpoint env.ed receipts prevHash n c) :
    selfHashText c =
      External.sha256Hex (utf8 (External.canonical c External.checkpointFieldOrder)) := by
  rw [selfHashText, h.lookup_self]
  rfl

/-- A checkpoint raises no violation against the receipts and what has been appended since. -/
lemma check (h : IsCheckpoint env.ed receipts prevHash n c) (hed : env.ed.Correct)
    (hsig : env.requireSignatures = true → env.sigAvailable = true) :
    External.checkCheckpoint env.toEnv (External.leavesOf receipts) (.str prevHash) (.int n) c =
      some [] := by
  have hchain : Json.pyEq (External.getNull c "prev_checkpoint_hash") (.str prevHash) = true := by
    rw [External.getNull, h.lookup_prev, Option.getD_some, Json.pyEq_str_left]
  have hseq : Json.pyEq (External.getNull c "checkpoint_seq") (.int n) = true := by
    rw [External.getNull, h.lookup_seq, Option.getD_some, Receipts.pyEq_int]
  have hself : Json.pyEq
      (.str (External.sha256Hex (utf8 (External.canonical c External.checkpointFieldOrder))))
      (External.getNull c "self_hash") = true := by
    rw [External.getNull, h.lookup_self, Option.getD_some, Json.pyEq_str_left]
  obtain ⟨seed, now, covered, hseed, ⟨appended, rfl⟩, rfl⟩ := h
  have hroot := External.checkRoot_signCheckpoint env.ed seed (.int n) now (env.ed.publicKey seed)
    covered appended (.str prevHash)
  have hsignature : External.checkSignature env.toEnv (signCheckpoint env.ed seed
      (checkpointBody (.int n) now (env.ed.publicKey seed) covered (.str prevHash))) = some [] := by
    refine checkSignature_eq seed (sha256 (utf8 (canonicalCheckpoint
      (checkpointBody (.int n) now (env.ed.publicKey seed) covered (.str prevHash))))) hed hseed ?_ ?_ ?_
      hsig
    · simp [signCheckpoint, Json.lookup_setItem]
    · rw [lookup_signCheckpoint (by decide) (by decide)]
      rfl
    · simp [signCheckpoint, Json.lookup_setItem]
  simp only [External.checkCheckpoint, hchain, hseq, hself, hsignature, hroot, if_true,
    Option.bind_eq_bind, Option.bind_some, List.append_nil]

end IsCheckpoint

/-- A chain of checkpoints raises no violation. -/
lemma verifyLoop_chain (hed : env.ed.Correct)
    (hsig : env.requireSignatures = true → env.sigAvailable = true) {cs : List Record} (i : ℕ)
    (h : CheckpointChain env.ed receipts prevHash n cs) :
    External.verifyLoop env.toEnv (External.leavesOf receipts) i (.str prevHash) (.int n) cs =
      some [] := by
  induction cs generalizing prevHash n i with
  | nil => rfl
  | cons c cs ih =>
    obtain ⟨hc, hcs⟩ := h
    rw [hc.selfHashText_eq] at hcs
    have hseq : External.getNull c "checkpoint_seq" = .int n := by
      rw [External.getNull, hc.lookup_seq, Option.getD_some]
    rw [External.verifyLoop]
    simp only [hc.check hed hsig, hseq, plusOne_nat, hc.lookup_self, Option.getD_some,
      Option.bind_eq_bind, Option.bind_some, ih (i + 1) hcs, List.map_nil, List.append_nil]

lemma IsCheckpoint.onLine (h : IsCheckpoint env.ed receipts prevHash n c) : OnLine c := by
  obtain ⟨seed, now, covered, -, -, rfl⟩ := h
  have hmembers : signCheckpoint env.ed seed
      (checkpointBody (.int n) now (env.ed.publicKey seed) covered (.str prevHash)) =
      [("checkpoint_seq", .int n), ("timestamp", .int now),
        ("agent_id", .str (env.ed.publicKey seed).hex), ("tree_size", .int covered.length),
        ("merkle_root", .str (merkleRoot (receiptLeaves covered))),
        ("prev_checkpoint_hash", .str prevHash),
        ("self_hash", .str (sha256 (utf8 (canonicalCheckpoint (checkpointBody (.int n) now
          (env.ed.publicKey seed) covered (.str prevHash))))).hex),
        ("signature", .str (env.ed.sign seed (utf8 (sha256 (utf8 (canonicalCheckpoint (checkpointBody
          (.int n) now (env.ed.publicKey seed) covered (.str prevHash))))).hex)).hex)] := rfl
  rw [hmembers]
  refine ⟨fun _ => ⟨trivial, trivial, trivial, trivial, trivial, trivial, trivial, trivial, trivial⟩,
    ?_, trivial, trivial, trivial, trivial, trivial, trivial, trivial, trivial, trivial⟩
  have hnames : checkpointFields.Nodup := by decide
  exact hnames

lemma CheckpointChain.onLine {cs : List Record} (h : CheckpointChain env.ed receipts prevHash n cs) :
    ∀ c ∈ cs, OnLine c := by
  induction cs generalizing prevHash n with
  | nil => simp
  | cons c cs ih =>
    rw [List.forall_mem_cons]
    exact ⟨h.1.onLine, ih h.2⟩

/-- The next checkpoint continues the chain. -/
lemma isCheckpoint_createCheckpoint {existing : List Record} {now : ℤ} {privateKeyHex : String}
    (hchain : CheckpointChain env.ed receipts "genesis" 0 existing)
    (h : Trust.createCheckpoint env.ed env.floatSucc receipts existing now privateKeyHex = some c) :
    IsCheckpoint env.ed receipts (tip selfHashText "genesis" existing) existing.length c := by
  have hlink : checkpointLink env.floatSucc existing =
      some (.str (tip selfHashText "genesis" existing), .int existing.length) := by
    rcases List.eq_nil_or_concat' existing with rfl | ⟨cs, last, rfl⟩
    · rfl
    · obtain ⟨-, hlast⟩ := checkpointChain_concat.mp hchain
      rw [checkpointLink, List.getLast?_concat]
      simp only [hlast.lookup_self, hlast.lookup_seq, Option.bind_eq_bind, Option.bind_some, plusOne,
        tip_concat, hlast.selfHashText_eq, List.length_append, List.length_singleton, Nat.zero_add]
      rfl
  simp only [createCheckpoint, hlink, Option.bind_eq_bind, Option.bind_some,
    Option.bind_eq_some_iff] at h
  obtain ⟨seed, -, h⟩ := h
  split_ifs at h with hseed
  cases h
  exact ⟨seed, now, receipts, not_not.mp hseed, List.prefix_refl _, rfl⟩

end

/-! ### Runs are accepted -/

variable {env : ScriptEnv}

/-- The receipts that the log has written. -/
def written (env : ScriptEnv) (events : List TrustEvent) : List Record :=
  (Receipts.run env.ed env.readFloat (receiptEvents events)).2.map (·.members)

lemma written_mono (events : List TrustEvent) (event : TrustEvent) :
    written env events <+: written env (events ++ [event]) := by
  cases event with
  | receipt event =>
    have hevents : receiptEvents (events ++ [.receipt event]) = receiptEvents events ++ [event] := by
      simp [receiptEvents]
    rw [written, written, hevents, Receipts.run_concat]
    apply List.IsPrefix.map
    match event with
    | .reopen | .emit _ .openFailed | .emit _ .writeFailed => exact List.prefix_refl _
    | .emit _ .written => exact List.prefix_append _ _
  | checkpoint now key append =>
    have hevents : receiptEvents (events ++ [.checkpoint now key append]) = receiptEvents events := by
      simp [receiptEvents]
    rw [written, written, hevents]

/-- The receipts are read back, also behind an append that has failed. -/
lemma readRecords_run (events : List TrustEvent) :
    env.readRecords (run env events).world.file = some (written env events) := by
  refine readRecords_eq Json.Style.readable_compactUnicode Json.Style.compactUnicode_writes ?_ ?_
  · rw [world_run, Receipts.file_run, fileOf_eq]
    rfl
  · rw [written, List.forall_mem_map]
    exact fun r _ => onLine_members r

/-- The checkpoints in the file form a chain over the receipts. -/
lemma exists_checkpointChain (env : ScriptEnv) (events : List TrustEvent) :
    ∃ cs, (run env events).checkpoints.getD [] = recordFile .spacedUnicode cs ∧
      CheckpointChain env.ed (written env events) "genesis" 0 cs := by
  induction events using List.reverseRecOn with
  | nil => exact ⟨[], rfl, trivial⟩
  | append_singleton events event ih =>
    obtain ⟨cs, hfile, hchain⟩ := ih
    have hchain' := hchain.mono (written_mono events event)
    rw [run, List.foldl_append, ← run, List.foldl_cons, List.foldl_nil]
    cases event with
    | receipt event => exact ⟨cs, hfile, hchain'⟩
    | checkpoint now key append =>
      have hcheckpoints : env.readRecords (run env events).checkpoints = some cs :=
        readRecords_eq Json.Style.readable_spacedUnicode Json.Style.spacedUnicode_writes hfile
          hchain.onLine
      simp only [step, ScriptEnv.createCheckpoint, readRecords_run, hcheckpoints, Option.bind_eq_bind,
        Option.bind_some]
      cases hc : Trust.createCheckpoint env.ed env.floatSucc (written env events) cs now key with
      | none => exact ⟨cs, hfile, hchain'⟩
      | some c =>
        match append with
        | .openFailed | .writeFailed => exact ⟨cs, by simpa [Receipts.appendLine] using hfile, hchain'⟩
        | .written =>
          refine ⟨cs ++ [c], ?_, checkpointChain_concat.mpr ⟨hchain', ?_⟩⟩
          · rw [recordFile_concat, ← hfile]
            rfl
          · rw [Nat.zero_add]
            exact (isCheckpoint_createCheckpoint hchain hc).mono (written_mono events _)

/-- Whatever receipts a log writes and whenever they are checkpointed, the external verifier finds
nothing in the two files, as long as no append of a receipt succeeds behind one that has failed since
the log was opened. -/
theorem main_run (hed : env.ed.Correct) (hsized : env.ed.Sized)
    (hsig : env.requireSignatures = true → env.sigAvailable = true) {events : List TrustEvent}
    (hadmissible : Receipts.Admissible env.ed (receiptEvents events))
    (hlength : (receiptEvents events).length ≤ 2 ^ 64)
    (hreceipts : (run env events).world.file.isSome = true)
    (hcheckpoints : (run env events).checkpoints.isSome = true) :
    env.main (run env events).world.file (run env events).checkpoints = some ([], []) := by
  set receipts := (Receipts.run env.ed env.readFloat (receiptEvents events)).2 with hdef
  have hconsistent : Receipts.Consistent env.ed _
      (Receipts.run env.ed env.readFloat (receiptEvents events)) :=
    Receipts.consistent_run hed hsized hadmissible
  have hfile : (run env events).world.file.getD [] =
      recordFile .compactUnicode (receipts.map (·.members)) := by
    rw [world_run, Receipts.file_run, fileOf_eq]
  have hread : Receipts.readJsonl env.toPyEnv (run env events).world.file =
      some ((receipts.map (·.members)).map .obj) := by
    refine readJsonl_eq Json.Style.readable_compactUnicode Json.Style.compactUnicode_writes hreceipts
      hfile ?_
    rw [List.forall_mem_map]
    exact fun r _ => onLine_members r
  obtain ⟨cs, hcheckpointFile, hchain⟩ := exists_checkpointChain env events
  have hread' : Receipts.readJsonl env.toPyEnv (run env events).checkpoints = some (cs.map .obj) :=
    readJsonl_eq Json.Style.readable_spacedUnicode Json.Style.spacedUnicode_writes hcheckpoints
      hcheckpointFile hchain.onLine
  have hseqs : receipts.map (·.seq.toNat) = List.range' 0 receipts.length := by
    have hseq := congrArg (List.map UInt64.toNat) (Receipts.seq_of_chain hconsistent.chain).2
    rw [List.map_map, List.map_map] at hseq
    have hwritten : receipts.length ≤ (receiptEvents events).length := Receipts.length_written_le _
    rw [← List.range_eq_range', ← List.map_id (List.range receipts.length)]
    refine hseq.trans (List.map_congr_left fun n hn => ?_)
    have hn' : n < receipts.length := List.mem_range.mp hn
    have hsize : UInt64.size = 2 ^ 64 := rfl
    exact UInt64.toNat_ofNat_of_lt' (by omega)
  have hviolations : env.verifyReceipts 0 (.str "genesis") (.int 0) (receipts.map (·.members)) =
      some [] :=
    verifyReceipts_members hed hsig 0 hconsistent.chain hseqs (honest_run hadmissible)
  have hviolations' : External.verifyCheckpoints env.toEnv cs (receipts.map (·.members)) = some [] :=
    verifyLoop_chain hed hsig 0 hchain
  simp only [ScriptEnv.main, hread, hread', records_map_obj, hviolations, hviolations',
    Option.bind_eq_bind, Option.bind_some]

namespace Sample

open Receipts.Sample (emission identity_generated readSome)

def scriptEnv : ScriptEnv := ⟨⟨.digest, id, fun _ => none, true, true⟩, readSome⟩

/-- A receipt, a checkpoint, and a receipt behind it. -/
def trustEvents : List TrustEvent :=
  [.receipt (.emit emission .written), .checkpoint 1 (String.ofList (.replicate 64 '0')) .written,
    .receipt (.emit emission .written)]

lemma admissible_trustEvents : Receipts.Admissible .digest (receiptEvents trustEvents) := by
  intro before em hext
  have hevents : receiptEvents trustEvents = [.emit emission .written, .emit emission .written] := rfl
  rw [hevents] at hext
  match before with
  | [] =>
    obtain ⟨heq, -⟩ := List.cons_prefix_cons.mp hext
    cases heq
    exact ⟨rfl, identity_generated⟩
  | [a] =>
    obtain ⟨rfl, hsecond⟩ := List.cons_prefix_cons.mp hext
    obtain ⟨heq, -⟩ := List.cons_prefix_cons.mp hsecond
    cases heq
    exact ⟨rfl, identity_generated⟩
  | a :: b :: before =>
    have hle := hext.length_le
    simp only [List.length_append, List.length_cons, List.length_nil] at hle
    omega

/-- The first checkpoint is written. -/
lemma isSome_step_checkpoint {s : TrustState} {receipts : List Record} {key : String} {seed : Bytes}
    (hreceipts : env.readRecords s.world.file = some receipts) (hnone : s.checkpoints = none)
    (hkey : Bytes.fromHex? (String.ofList (key.toList.take 64)) = some seed) (hseed : seed.length = 32)
    (now : ℤ) : (step env s (.checkpoint now key .written)).checkpoints.isSome = true := by
  have hexisting : env.readRecords none = some [] := rfl
  obtain ⟨c, hc⟩ : ∃ c, env.createCheckpoint s.world.file s.checkpoints now key = some c := by
    rw [ScriptEnv.createCheckpoint, hreceipts, hnone, hexisting]
    simp only [Option.bind_eq_bind, Option.bind_some, createCheckpoint, hkey, hseed]
    exact ⟨_, rfl⟩
  simp only [step, hc]
  rfl

lemma isSome_checkpoints : (run scriptEnv trustEvents).checkpoints.isSome = true := by
  have hkey : Bytes.fromHex? (String.ofList
      ((String.ofList (.replicate 64 '0')).toList.take 64)) = some (.replicate 32 0) := by
    rw [String.toList_ofList, Bytes.fromHex?, String.toList_ofList]
    decide
  have hkept : ∀ (s : TrustState) (event : Event),
      (step scriptEnv s (.receipt event)).checkpoints = s.checkpoints := fun _ _ => rfl
  have hnone : (run scriptEnv [.receipt (.emit emission .written)]).checkpoints = none := by
    rw [run, List.foldl_cons, List.foldl_nil, hkept]
  rw [run, trustEvents, List.foldl_cons, List.foldl_cons, List.foldl_cons, List.foldl_nil, hkept]
  exact isSome_step_checkpoint (readRecords_run [.receipt (.emit emission .written)]) hnone hkey
    (List.length_replicate ..) 1

theorem main_run_trustEvents :
    scriptEnv.main (run scriptEnv trustEvents).world.file (run scriptEnv trustEvents).checkpoints =
      some ([], []) :=
  main_run Ed25519.digest_correct Ed25519.digest_sized (fun _ => rfl) admissible_trustEvents (by decide)
    rfl isSome_checkpoints

end Sample

end AxiomGrid.Trust.EndToEnd

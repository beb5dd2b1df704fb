import AxiomGrid.Lib.Transition
import AxiomGrid.Phantom.Rbac
import AxiomGrid.Receipts.AuditChain

/-!
# The identity manager

`IdentityManager` of `phantom-core/src/identity.rs`: the identity in `identity.json`, the permissions,
and the audit chain and the receipts in which every denial and every logged action is recorded. A
program that starts loads the manager from the configuration directory, over the logs that earlier
programs have left there.

The new key, the host name, the user name, the times and the results of the file operations are given
with each event.
-/

namespace AxiomGrid.Receipts

open Phantom.Rbac

/-! ### The identity -/

/-- `AgentIdentity`, with all its fields. -/
structure StoredIdentity extends AgentIdentity where
  displayName : String
  instanceName : String
  createdAt : UInt64
  kairoVersion : String

namespace StoredIdentity

def members (identity : StoredIdentity) : List (String × Json) :=
  [("agent_id", .str identity.agentId), ("private_key_hex", .str identity.privateKeyHex),
    ("display_name", .str identity.displayName), ("instance", .str identity.instanceName),
    ("created_at", .int identity.createdAt.toNat), ("kairo_version", .str identity.kairoVersion)]

/-- The layout of `serde_json::to_string_pretty`. -/
def pretty : Json.Style :=
  ⟨Json.escapeChar, [], [' '], fun depth => '\n' :: List.replicate (2 * depth) ' '⟩

def toText (identity : StoredIdentity) : String := Json.dumpsWith pretty (.obj identity.members)

def fieldNames : List String :=
  ["agent_id", "private_key_hex", "display_name", "instance", "created_at", "kairo_version"]

def fromFields (field : String → Option Json) : Option StoredIdentity := do
  let agentId ← (field "agent_id").bind Json.str?
  let privateKeyHex ← (field "private_key_hex").bind Json.str?
  let displayName ← (field "display_name").bind Json.str?
  let instanceName ← (field "instance").bind Json.str?
  let createdAt ← (field "created_at").bind u64?
  let kairoVersion ← (field "kairo_version").bind Json.str?
  some ⟨⟨agentId, privateKeyHex⟩, displayName, instanceName, createdAt, kairoVersion⟩

/-- The identity in a file. -/
def read? (readFloat : List Char → FloatRepr) (file : Bytes) : Option StoredIdentity :=
  (utf8Decode? file).bind fun contents =>
    (Json.parse ⟨readFloat, false⟩ contents.toList).bind fun v =>
      (structFields fieldNames v).bind fromFields

/-- `AgentIdentity::generate`, for the seed that the random source gives. -/
def generate (ed : Ed25519) (seed : Bytes) (displayName instanceName : String) (createdAt : UInt64) :
    StoredIdentity :=
  ⟨⟨(ed.publicKey seed).hex, seed.hex⟩, displayName, instanceName, createdAt, "0.6.0"⟩

end StoredIdentity

/-! ### Loading and recording -/

/-- How `save` ends; a write that fails leaves some file, or none. -/
inductive Save where
  | written
  | failed (left : Option Bytes)

/-- What a new identity is made of. -/
structure FreshIdentity where
  seed : Bytes
  seed_length : seed.length = 32
  hostname : String
  createdAt : UInt64
  save : Save

/-- The configuration directory, with the receipts. -/
structure ConfigDir where
  identityJson : Option Bytes := none
  auditChain : Option Bytes := none
  receipts : Option Bytes := none

/-- `IdentityManager`. -/
structure IdentityManager where
  identity : StoredIdentity
  rbac : RbacTable
  auditLog : TamperEvidentAuditLog
  receiptLog : ReceiptLog

/-- The times of an entry and a receipt, and how their appends end. -/
structure LogIo where
  auditTime : UInt64
  receiptTime : UInt64
  auditAppend : Append
  receiptAppend : Append

/-- A call and what has come of it. -/
inductive Call where
  /-- Whether `identity.json` holds the identity. -/
  | loaded (agentId : String) (stored : Bool)
  | checked (agentId filePath : String) (allowed : Bool) (io : LogIo)
  | logged (userId action docPath result : String) (io : LogIo)

inductive IdentityEvent where
  | load (fresh : FreshIdentity)
  | checkPermission (agentId filePath : String) (io : LogIo)
  /-- The user is the name in the environment. -/
  | logAction (action docPath result userId : String) (io : LogIo)

/-- The directory, the manager of the program that runs, and the calls so far. -/
structure IdentityState where
  dir : ConfigDir := {}
  manager : Option IdentityManager := none
  calls : List Call := []

section

variable (ed : Ed25519) (readFloat : List Char → FloatRepr)

/-- The identity that `identity.json` holds. -/
def ConfigDir.identity? (dir : ConfigDir) : Option StoredIdentity :=
  dir.identityJson.bind (StoredIdentity.read? readFloat)

/-- `IdentityManager::load` on an identity. -/
def IdentityManager.ofIdentity (dir : ConfigDir) (identity : StoredIdentity) : IdentityManager where
  identity := identity
  rbac := RbacTable.new.allow identity.agentId ["*"]
  auditLog := .new readFloat dir.auditChain
  receiptLog := openLog readFloat dir.receipts

/-- `AgentIdentity::load_or_create` and `IdentityManager::load`. A failed write leaves no file that
holds an identity. -/
def IdentityState.load (s : IdentityState) (fresh : FreshIdentity) : Option IdentityState :=
  match s.dir.identity? readFloat with
  | some identity =>
    some { s with
      manager := some (.ofIdentity readFloat s.dir identity)
      calls := s.calls ++ [.loaded identity.agentId true] }
  | none =>
    let identity :=
      StoredIdentity.generate ed fresh.seed "Kairo Phantom" fresh.hostname fresh.createdAt
    match fresh.save with
    | .written =>
      let dir := { s.dir with identityJson := some (utf8 identity.toText) }
      some { s with
        dir, manager := some (.ofIdentity readFloat dir identity)
        calls := s.calls ++ [.loaded identity.agentId true] }
    | .failed left =>
      if (left.bind (StoredIdentity.read? readFloat)).isNone then
        let dir := { s.dir with identityJson := left }
        some { s with
          dir, manager := some (.ofIdentity readFloat dir identity)
          calls := s.calls ++ [.loaded identity.agentId false] }
      else none

/-- `log.append` and `rlog.emit`. -/
def IdentityState.record (s : IdentityState) (manager : IdentityManager)
    (userId action docPath result : String) (io : LogIo) : IdentityState :=
  let entry := manager.auditLog.entry ed manager.identity.toAgentIdentity userId action docPath result
    io.auditTime
  let emission : Emission :=
    ⟨manager.identity.toAgentIdentity, action, docPath, result, "", "", "", io.receiptTime⟩
  let world := emitWithTrace ed ⟨s.dir.receipts, manager.receiptLog⟩ emission io.receiptAppend
  { s with
    dir := { s.dir with
      auditChain := appendLine io.auditAppend s.dir.auditChain entry.toLine
      receipts := world.file }
    manager := some { manager with auditLog := ⟨entry.selfHash⟩, receiptLog := world.log } }

/-- One event; only a program that has loaded its manager checks and logs. -/
def IdentityState.step (s : IdentityState) : IdentityEvent → Option IdentityState
  | .load fresh => s.load ed readFloat fresh
  | .checkPermission agentId filePath io =>
    s.manager.map fun manager =>
      let s : IdentityState := { s with
        calls := s.calls ++ [.checked agentId filePath (manager.rbac.isAllowed agentId filePath) io] }
      if manager.rbac.isAllowed agentId filePath then s
      else s.record ed manager "system" "rbac_denied" filePath "denied" io
  | .logAction action docPath result userId io =>
    s.manager.map fun manager =>
      let s : IdentityState := { s with calls := s.calls ++ [.logged userId action docPath result io] }
      s.record ed manager userId action docPath result io

/-- A run from an empty directory. -/
def identityRun (events : List IdentityEvent) : Option IdentityState :=
  Transition.run (IdentityState.step ed readFloat) {} events

end

/-! ### What the calls record -/

namespace Call

/-- The user, the action, the path and the result that a call records, with its file operations. -/
def record? : Call → Option ((String × String × String × String) × LogIo)
  | .loaded .. | .checked _ _ true _ => none
  | .checked _ filePath false io => some (("system", "rbac_denied", filePath, "denied"), io)
  | .logged userId action docPath result io => some ((userId, action, docPath, result), io)

/-- Whether an append has failed since the program was started, behind one more call. -/
def failedAfter (append : LogIo → Append) (failed : Bool) (c : Call) : Bool :=
  match c, c.record? with
  | .loaded .., _ => false
  | _, some (_, io) => failed || append io ≠ .written
  | _, none => failed

end Call

/-- The records of the calls whose append has succeeded. -/
def recordsOf (append : LogIo → Append) (calls : List Call) : List (String × String × String × String) :=
  (calls.filterMap Call.record?).filterMap fun (record, io) =>
    if append io = .written then some record else none

/-- An append succeeds only if none has failed since the program was started. -/
def Steady (append : LogIo → Append) (calls : List Call) : Prop :=
  ∀ before c record io, before ++ [c] <+: calls → c.record? = some (record, io) →
    append io = .written → before.foldl (Call.failedAfter append) false = false

/-- The identity that was loaded last. -/
def lastLoaded (calls : List Call) : Option String :=
  calls.foldl (fun last c => match c with | .loaded agentId _ => some agentId | _ => last) none

variable {ed : Ed25519} {readFloat : List Char → FloatRepr}

/-! ### The identity is read back -/

namespace StoredIdentity

lemma readable_pretty : pretty.Readable where
  escape := Json.Style.readable_compactUnicode.escape
  commaGap := by simp [pretty]
  colonGap := by simp [pretty]
  newline := Json.Style.readable_indented.newline

lemma fromFields_members (identity : StoredIdentity) :
    fromFields (fun k => identity.members.lookup k) = some identity := by
  have hcreatedAt : identity.members.lookup "created_at" = some (.int identity.createdAt.toNat) := rfl
  rw [fromFields, hcreatedAt, Option.bind_some, u64?_toNat]
  rfl

lemma read?_toText (identity : StoredIdentity) :
    read? readFloat (utf8 identity.toText) = some identity := by
  have hreads : Json.ReadsBack ⟨readFloat, false⟩ (.obj identity.members) :=
    ⟨trivial, trivial, trivial, trivial, trivial, trivial, trivial⟩
  have hparse := Json.parse_renderWith readable_pretty hreads 0
  have hnames : identity.members.map Prod.fst = fieldNames := rfl
  have hfields : structFields fieldNames (.obj identity.members) =
      some fun k => identity.members.lookup k := by
    rw [← hnames]
    apply structFields_obj
    rw [hnames]
    decide
  rw [read?, utf8Decode?_utf8, Option.bind_some, toText, Json.dumpsWith, String.toList_ofList, hparse,
    Option.bind_some, hfields, Option.bind_some, fromFields_members]

end StoredIdentity

/-! ### The audit chain over a run -/

/-- The file is that of the entries, they form a chain, and unless an append has failed the log is at
its head. -/
structure AuditKept (ed : Ed25519) (failed : Bool) (file : Option Bytes)
    (log : Option TamperEvidentAuditLog) (entries : List AuditChainEntry) : Prop where
  file : file.getD [] = auditFileOf entries
  linked : Linked (·.prevHash) (·.selfHash) "genesis" entries
  genuine : ∀ e ∈ entries, e.Genuine ed
  head : failed = false → ∀ l ∈ log, l.lastHash = tip (·.selfHash) "genesis" entries

section

variable {failed : Bool} {file : Option Bytes} {entries : List AuditChainEntry}

lemma AuditKept.reopen {log : Option TamperEvidentAuditLog}
    (h : AuditKept ed failed file log entries) :
    AuditKept ed false file (some (.new readFloat file)) entries where
  file := h.file
  linked := h.linked
  genuine := h.genuine
  head := by
    rintro - l ⟨⟩
    exact readLastHash_eq h.file

/-- `append` keeps the chain, if it does not succeed behind an append that has failed. -/
lemma AuditKept.append (hcorrect : ed.Correct) (hsized : ed.Sized) {log : TamperEvidentAuditLog}
    (h : AuditKept ed failed file (some log) entries) {identity : AgentIdentity}
    (hidentity : identity.Generated ed) (userId action docPath result : String)
    (timestamp : UInt64) {append : Append} (hsteady : append = .written → failed = false) :
    AuditKept ed (failed || append ≠ .written)
      (appendLine append file
        (log.entry ed identity userId action docPath result timestamp).toLine)
      (some ⟨(log.entry ed identity userId action docPath result timestamp).selfHash⟩)
      (entries ++ if append = .written then
        [log.entry ed identity userId action docPath result timestamp] else []) := by
  match append with
  | .openFailed | .writeFailed =>
    refine ⟨?_, ?_, ?_, by simp⟩
    · simpa [appendLine] using h.file
    · simpa using h.linked
    · simpa using h.genuine
  | .written =>
    have hhead := h.head (hsteady rfl) log rfl
    refine ⟨?_, ?_, ?_, ?_⟩
    · rw [appendLine, Option.getD_some, if_pos rfl, auditFileOf_concat, h.file]
    · rw [if_pos rfl, linked_concat]
      exact ⟨h.linked, hhead⟩
    · rw [if_pos rfl]
      intro e he
      obtain he | rfl := List.mem_append.mp he |>.imp id List.mem_singleton.mp
      · exact h.genuine e he
      · exact log.genuine_entry hcorrect hsized hidentity userId action docPath result timestamp
    · rintro - l ⟨⟩
      rw [if_pos rfl, tip_concat]

end

/-! ### Calls, one by one -/

/-- What an entry records. -/
def AuditChainEntry.record (e : AuditChainEntry) : String × String × String × String :=
  (e.userId, e.action, e.docPath, e.result)

/-- What a receipt records. -/
def ProvenanceReceipt.record (r : ProvenanceReceipt) : String × String × String :=
  (r.action, r.context, r.outcome)

section

variable {append : LogIo → Append} {calls : List Call} {c : Call}
  {record : String × String × String × String} {io : LogIo}

lemma recordsOf_concat_of_none (h : c.record? = none) :
    recordsOf append (calls ++ [c]) = recordsOf append calls := by
  simp [recordsOf, h]

lemma recordsOf_concat_of_some (h : c.record? = some (record, io)) :
    recordsOf append (calls ++ [c]) =
      recordsOf append calls ++ if append io = .written then [record] else [] := by
  simp only [recordsOf, List.filterMap_append, List.filterMap_cons, h, List.filterMap_nil]
  split_ifs <;> rfl

lemma failed_concat_of_some (h : c.record? = some (record, io)) :
    (calls ++ [c]).foldl (Call.failedAfter append) false =
      (calls.foldl (Call.failedAfter append) false || decide (append io ≠ .written)) := by
  rw [List.foldl_append]
  cases c with
  | loaded => cases h
  | checked agentId filePath allowed io' =>
    cases allowed with
    | true => cases h
    | false =>
      cases h
      rfl
  | logged =>
    cases h
    rfl

lemma Steady.of_concat (h : Steady append (calls ++ [c])) : Steady append calls :=
  fun before c' record io hbefore => h before c' record io (hbefore.trans (List.prefix_append _ _))

lemma Steady.last (h : Steady append (calls ++ [c])) (hc : c.record? = some (record, io))
    (happend : append io = .written) : calls.foldl (Call.failedAfter append) false = false :=
  h calls c record io (List.prefix_refl _) hc happend

end

/-! ### The invariant of a run -/

/-- Both logs are those of the calls, the identities have been generated, and only the identity of the
manager is granted anything. -/
structure IdentityState.Kept (ed : Ed25519) (readFloat : List Char → FloatRepr) (s : IdentityState)
    (entries : List AuditChainEntry) (receipts : List ProvenanceReceipt) : Prop where
  audit : AuditKept ed (s.calls.foldl (Call.failedAfter (·.auditAppend)) false) s.dir.auditChain
    (s.manager.map (·.auditLog)) entries
  auditRecords : entries.map (·.record) = recordsOf (·.auditAppend) s.calls
  receiptLog : ∃ log, (∀ m ∈ s.manager, m.receiptLog = log) ∧
    Consistent ed (s.calls.foldl (Call.failedAfter (·.receiptAppend)) false)
      (⟨s.dir.receipts, log⟩, receipts)
  receiptRecords : receipts.map (·.record) = (recordsOf (·.receiptAppend) s.calls).map Prod.snd
  manager : ∀ m ∈ s.manager, m.identity.toAgentIdentity.Generated ed
  stored : ∀ identity ∈ s.dir.identity? readFloat, identity.toAgentIdentity.Generated ed

lemma failedAfter_emit (failed : Bool) (emission : Emission) (append : Append) :
    failedAfter failed (.emit emission append) = (failed || decide (append ≠ .written)) := by
  cases append <;> simp [failedAfter]

lemma stepWritten_emit (state : World × List ProvenanceReceipt) (emission : Emission)
    (append : Append) :
    stepWritten ed readFloat state (.emit emission append) =
      (emitWithTrace ed state.1 emission append,
        state.2 ++ if append = .written then [emitted ed state.1.log emission] else []) := by
  cases append <;> simp [stepWritten, step]

namespace IdentityState.Kept

variable {s s' : IdentityState} {entries : List AuditChainEntry} {receipts : List ProvenanceReceipt}

/-- A recorded call. -/
lemma record (hcorrect : ed.Correct) (hsized : ed.Sized) (h : s.Kept ed readFloat entries receipts)
    {manager : IdentityManager} (hmanager : s.manager = some manager) {c : Call}
    {userId action docPath result : String} {io : LogIo}
    (hc : c.record? = some ((userId, action, docPath, result), io))
    (haudit : Steady (·.auditAppend) (s.calls ++ [c]))
    (hreceipt : Steady (·.receiptAppend) (s.calls ++ [c])) :
    ∃ entries' receipts',
      (IdentityState.record ed { s with calls := s.calls ++ [c] } manager userId action docPath
        result io).Kept ed readFloat entries' receipts' := by
  have hgenerated := h.manager manager hmanager
  have hopen : AuditKept ed (s.calls.foldl (Call.failedAfter (·.auditAppend)) false)
      s.dir.auditChain (some manager.auditLog) entries := by
    have := h.audit
    rwa [hmanager] at this
  obtain ⟨log, hlog, hconsistent⟩ := h.receiptLog
  obtain rfl := hlog manager hmanager
  let emission : Emission :=
    ⟨manager.identity.toAgentIdentity, action, docPath, result, "", "", "", io.receiptTime⟩
  have hevent : ∀ em, Event.emit emission io.receiptAppend = .emit em .written →
      s.calls.foldl (Call.failedAfter (·.receiptAppend)) false = false ∧ em.identity.Generated ed := by
    intro em heq
    obtain ⟨rfl, happend⟩ := Event.emit.inj heq
    exact ⟨hreceipt.last hc happend, hgenerated⟩
  have hreceipts : Consistent ed _ (stepWritten ed readFloat
      (⟨s.dir.receipts, manager.receiptLog⟩, receipts) (.emit emission io.receiptAppend)) :=
    hconsistent.step hcorrect hsized hevent
  rw [failedAfter_emit, stepWritten_emit] at hreceipts
  let entry := manager.auditLog.entry ed manager.identity.toAgentIdentity userId action docPath result
    io.auditTime
  let world := emitWithTrace ed ⟨s.dir.receipts, manager.receiptLog⟩ emission io.receiptAppend
  let written := if io.receiptAppend = .written then [emitted ed manager.receiptLog emission] else []
  refine ⟨entries ++ if io.auditAppend = .written then [entry] else [], receipts ++ written,
    ?_, ?_, ⟨world.log, ?_, ?_⟩, ?_, ?_, h.stored⟩
  · rw [IdentityState.record, failed_concat_of_some hc]
    exact hopen.append hcorrect hsized hgenerated userId action docPath result io.auditTime
      (haudit.last hc)
  · rw [List.map_append, h.auditRecords]
    refine Eq.trans ?_ (recordsOf_concat_of_some hc).symm
    split_ifs <;> rfl
  · rintro m ⟨⟩
    rfl
  · rw [IdentityState.record, failed_concat_of_some hc]
    exact hreceipts
  · rw [List.map_append, h.receiptRecords]
    refine Eq.trans ?_ (congrArg (List.map Prod.snd) (recordsOf_concat_of_some hc).symm)
    rw [List.map_append]
    simp only [written]
    split_ifs <;> rfl
  · rintro m ⟨⟩
    exact hgenerated

/-- A program starts. -/
lemma load (h : s.Kept ed readFloat entries receipts) {fresh : FreshIdentity}
    (hload : s.load ed readFloat fresh = some s') : s'.Kept ed readFloat entries receipts := by
  obtain ⟨log, hlog, hconsistent⟩ := h.receiptLog
  have hopened : ∀ (dir : ConfigDir) (identity : StoredIdentity) (stored : Bool),
      dir.auditChain = s.dir.auditChain → dir.receipts = s.dir.receipts →
      identity.toAgentIdentity.Generated ed →
      (∀ identity ∈ dir.identity? readFloat, identity.toAgentIdentity.Generated ed) →
      IdentityState.Kept ed readFloat
        { s with dir, manager := some (.ofIdentity readFloat dir identity)
                 calls := s.calls ++ [.loaded identity.agentId stored] } entries receipts := by
    intro dir identity stored haudit hreceipts hgenerated hstored
    have hnone : (Call.loaded identity.agentId stored).record? = none := rfl
    refine ⟨?_, ?_, ⟨openLog readFloat dir.receipts, ?_, ?_⟩, ?_, ?_, hstored⟩
    · have hreopen : AuditKept ed false s.dir.auditChain (some (.new readFloat s.dir.auditChain))
          entries := h.audit.reopen
      rw [← haudit] at hreopen
      simp only [List.foldl_append]
      exact hreopen
    · rw [h.auditRecords]
      exact (recordsOf_concat_of_none hnone).symm
    · rintro m ⟨⟩
      rfl
    · simp only [List.foldl_append, hreceipts]
      exact ⟨hconsistent.file, hconsistent.chain, fun _ => readTail_eq hconsistent.file⟩
    · rw [h.receiptRecords]
      exact congrArg _ (recordsOf_concat_of_none hnone).symm
    · rintro m ⟨⟩
      exact hgenerated
  simp only [IdentityState.load] at hload
  split at hload
  · rename_i identity hidentity
    cases hload
    exact hopened s.dir identity true rfl rfl (h.stored identity hidentity) h.stored
  · have hgenerated : (StoredIdentity.generate ed fresh.seed "Kairo Phantom" fresh.hostname
        fresh.createdAt).toAgentIdentity.Generated ed :=
      ⟨fresh.seed, fresh.seed_length, rfl, rfl⟩
    split at hload
    · cases hload
      refine hopened _ _ true rfl rfl hgenerated fun identity hidentity => ?_
      rw [ConfigDir.identity?, Option.bind_some, StoredIdentity.read?_toText] at hidentity
      exact Option.mem_some_iff.mp hidentity ▸ hgenerated
    · split_ifs at hload with hleft
      cases hload
      refine hopened _ _ false rfl rfl hgenerated fun identity hidentity => ?_
      have hnone : identity ∈ (none : Option StoredIdentity) := Option.isNone_iff_eq_none.mp hleft ▸ hidentity
      cases hnone

end IdentityState.Kept

namespace IdentityState

variable {s s' : IdentityState} {event : IdentityEvent}

/-- A call of a program that runs: the manager keeps its identity and its permissions. -/
structure Runs (s s' : IdentityState) (c : Call) : Prop where
  calls : s'.calls = s.calls ++ [c]
  notLoaded : ∀ agentId stored, c ≠ .loaded agentId stored
  manager : ∃ m m', s.manager = some m ∧ s'.manager = some m' ∧ m'.identity = m.identity ∧
    m'.rbac = m.rbac ∧
    ∀ agentId filePath allowed io, c = .checked agentId filePath allowed io →
      allowed = m.rbac.isAllowed agentId filePath
  identityJson : s'.dir.identityJson = s.dir.identityJson

/-- A program that starts takes the identity that is stored, or a new one if none is. -/
structure Starts (readFloat : List Char → FloatRepr) (s s' : IdentityState)
    (identity : StoredIdentity) (stored : Bool) : Prop where
  calls : s'.calls = s.calls ++ [.loaded identity.agentId stored]
  manager : s'.manager = some (.ofIdentity readFloat s'.dir identity)
  found : ∀ identity' ∈ s.dir.identity? readFloat, identity' = identity ∧ stored = true
  stored : stored = true → s'.dir.identity? readFloat = some identity

lemma load_cases {fresh : FreshIdentity} (h : s.load ed readFloat fresh = some s') :
    ∃ identity stored, Starts readFloat s s' identity stored := by
  simp only [load] at h
  split at h
  · rename_i identity hidentity
    cases h
    refine ⟨identity, true, rfl, rfl, ?_, fun _ => hidentity⟩
    rw [hidentity]
    rintro identity' ⟨⟩
    exact ⟨rfl, rfl⟩
  · rename_i hnone
    split at h
    · cases h
      refine ⟨_, true, rfl, rfl, by simp [hnone], fun _ => ?_⟩
      rw [ConfigDir.identity?, Option.bind_some, StoredIdentity.read?_toText]
    · split_ifs at h
      cases h
      exact ⟨_, false, rfl, rfl, by simp [hnone], by simp⟩

/-- A program starts, or one that runs makes a call. -/
lemma step_cases (h : s.step ed readFloat event = some s') :
    (∃ identity stored, Starts readFloat s s' identity stored) ∨ ∃ c, Runs s s' c := by
  cases event with
  | load fresh => exact .inl (load_cases h)
  | checkPermission agentId filePath io =>
    obtain ⟨m, hm, rfl⟩ := Option.map_eq_some_iff.mp h
    refine .inr ⟨.checked agentId filePath (m.rbac.isAllowed agentId filePath) io, ?_⟩
    cases hallowed : m.rbac.isAllowed agentId filePath with
    | true =>
      refine ⟨by simp, by simp, ⟨m, m, hm, by simpa using hm, rfl, rfl, ?_⟩, by simp⟩
      rintro _ _ _ _ ⟨⟩
      exact hallowed.symm
    | false =>
      refine ⟨rfl, by simp, ⟨m, _, hm, rfl, rfl, rfl, ?_⟩, rfl⟩
      rintro _ _ _ _ ⟨⟩
      exact hallowed.symm
  | logAction action docPath result userId io =>
    obtain ⟨m, hm, rfl⟩ := Option.map_eq_some_iff.mp h
    exact .inr ⟨.logged userId action docPath result io, rfl, by simp,
      ⟨m, _, hm, rfl, rfl, rfl, by simp⟩, rfl⟩

lemma exists_calls_step (h : s.step ed readFloat event = some s') :
    ∃ c, s'.calls = s.calls ++ [c] := by
  obtain ⟨identity, stored, hstarts⟩ | ⟨c, hruns⟩ := step_cases h
  · exact ⟨_, hstarts.calls⟩
  · exact ⟨c, hruns.calls⟩

lemma Kept.step (hcorrect : ed.Correct) (hsized : ed.Sized) {entries : List AuditChainEntry}
    {receipts : List ProvenanceReceipt} (h : s.Kept ed readFloat entries receipts)
    (hstep : s.step ed readFloat event = some s') (haudit : Steady (·.auditAppend) s'.calls)
    (hreceipt : Steady (·.receiptAppend) s'.calls) :
    ∃ entries' receipts', s'.Kept ed readFloat entries' receipts' := by
  cases event with
  | load fresh => exact ⟨entries, receipts, h.load hstep⟩
  | checkPermission agentId filePath io =>
    obtain ⟨m, hm, rfl⟩ := Option.map_eq_some_iff.mp hstep
    simp only at haudit hreceipt ⊢
    split_ifs at haudit hreceipt ⊢ with hallowed
    · have hnone : (Call.checked agentId filePath true io).record? = none := rfl
      rw [hallowed]
      refine ⟨entries, receipts, ?_, ?_, ?_, ?_, h.manager, h.stored⟩
      · simpa [Call.failedAfter, hnone] using h.audit
      · rw [h.auditRecords]
        exact (recordsOf_concat_of_none hnone).symm
      · simpa [Call.failedAfter, hnone] using h.receiptLog
      · rw [h.receiptRecords]
        exact congrArg _ (recordsOf_concat_of_none hnone).symm
    · rw [Bool.not_eq_true] at hallowed
      rw [hallowed] at haudit hreceipt ⊢
      exact h.record hcorrect hsized hm rfl haudit hreceipt
  | logAction action docPath result userId io =>
    obtain ⟨m, hm, rfl⟩ := Option.map_eq_some_iff.mp hstep
    exact h.record hcorrect hsized hm rfl haudit hreceipt

lemma exists_kept (hcorrect : ed.Correct) (hsized : ed.Sized) {events : List IdentityEvent}
    (h : identityRun ed readFloat events = some s) (haudit : Steady (·.auditAppend) s.calls)
    (hreceipt : Steady (·.receiptAppend) s.calls) :
    ∃ entries receipts, s.Kept ed readFloat entries receipts := by
  refine Transition.run_induction (P := fun _ t => Steady (·.auditAppend) t.calls →
    Steady (·.receiptAppend) t.calls → ∃ entries receipts, t.Kept ed readFloat entries receipts)
    _ ?_ ?_ h haudit hreceipt
  · intro _ _
    exact ⟨[], [], ⟨rfl, trivial, by simp, by simp⟩, rfl,
      ⟨openLog readFloat none, by simp, rfl, rfl, fun _ => rfl⟩, rfl, by simp,
      by simp [ConfigDir.identity?]⟩
  · intro _ t event t' _ ih hstep haudit hreceipt
    obtain ⟨c, hcalls⟩ := exists_calls_step hstep
    have haudit' : Steady (·.auditAppend) (t.calls ++ [c]) := hcalls ▸ haudit
    have hreceipt' : Steady (·.receiptAppend) (t.calls ++ [c]) := hcalls ▸ hreceipt
    obtain ⟨entries, receipts, hkept⟩ := ih haudit'.of_concat hreceipt'.of_concat
    exact hkept.step hcorrect hsized hstep haudit hreceipt

end IdentityState

/-- Over any programs that are started in one directory, as long as no append succeeds behind one that
has failed since the start: the audit chain and the receipts record the denials and the logged actions,
each once and in order, and neither has a violation. -/
theorem identityRun_trail {ed : Ed25519} {readFloat : List Char → FloatRepr} (hcorrect : ed.Correct)
    (hsized : ed.Sized) {events : List IdentityEvent} {s : IdentityState}
    (h : identityRun ed readFloat events = some s) (haudit : Steady (·.auditAppend) s.calls)
    (hreceipt : Steady (·.receiptAppend) s.calls) :
    (∃ entries, s.dir.auditChain.getD [] = auditFileOf entries ∧
      entries.map (·.record) = recordsOf (·.auditAppend) s.calls) ∧
    TamperEvidentAuditLog.verifyChain ed readFloat s.dir.auditChain = 0 ∧
    (∃ receipts, s.dir.receipts.getD [] = fileOf receipts ∧
      receipts.map (·.record) = (recordsOf (·.receiptAppend) s.calls).map Prod.snd) ∧
    verifyChain readFloat (signatureValid ed) s.dir.receipts = 0 := by
  obtain ⟨entries, receipts, hkept⟩ := IdentityState.exists_kept hcorrect hsized h haudit hreceipt
  obtain ⟨log, -, hconsistent⟩ := hkept.receiptLog
  refine ⟨⟨entries, hkept.audit.file, hkept.auditRecords⟩, ?_,
    ⟨receipts, hconsistent.file, hkept.receiptRecords⟩, ?_⟩
  · exact TamperEvidentAuditLog.verifyChain_eq_zero hkept.audit.file hkept.audit.linked
      hkept.audit.genuine
  · rw [verifyChain_eq hconsistent.file]
    exact hconsistent.chain

/-! ### Who is allowed -/

/-- What is known of the identities of a run. -/
structure IdentityState.Granted (readFloat : List Char → FloatRepr) (s : IdentityState) : Prop where
  stored : ∀ agentId, .loaded agentId true ∈ s.calls →
    ∃ identity, s.dir.identity? readFloat = some identity ∧ identity.agentId = agentId
  manager : ∀ m ∈ s.manager, lastLoaded s.calls = some m.identity.agentId ∧
    m.rbac = RbacTable.new.allow m.identity.agentId ["*"]
  same : ∀ before agentId between agentId' stored behind,
    s.calls = before ++ .loaded agentId true :: between ++ .loaded agentId' stored :: behind →
      agentId' = agentId ∧ stored = true
  checked : ∀ before agentId filePath allowed io behind,
    s.calls = before ++ .checked agentId filePath allowed io :: behind →
      (allowed = true ↔ lastLoaded before = some agentId)

/-- A table that grants one agent everything. -/
lemma isAllowed_allow_star (identity agentId filePath : String) :
    (RbacTable.new.allow identity ["*"]).isAllowed agentId filePath = true ↔ identity = agentId := by
  have hgranted := isAllowed_tableOf [(identity, ["*"])] agentId filePath
  have htable : tableOf [(identity, ["*"])] = RbacTable.new.allow identity ["*"] := rfl
  rw [← htable, hgranted]
  by_cases heq : identity = agentId
  · simp [granted, heq, globMatch]
  · simp [granted, heq]

lemma lastLoaded_concat_loaded (calls : List Call) (agentId : String) (stored : Bool) :
    lastLoaded (calls ++ [.loaded agentId stored]) = some agentId := by
  simp [lastLoaded]

lemma lastLoaded_concat {c : Call} (hc : ∀ agentId stored, c ≠ .loaded agentId stored)
    (calls : List Call) : lastLoaded (calls ++ [c]) = lastLoaded calls := by
  cases c with
  | loaded agentId stored => exact absurd rfl (hc agentId stored)
  | checked | logged => simp [lastLoaded]

namespace IdentityState.Granted

variable {s s' : IdentityState}

lemma starts (h : s.Granted readFloat) {identity : StoredIdentity} {stored : Bool}
    (hs : Starts readFloat s s' identity stored) : s'.Granted readFloat where
  stored agentId hmem := by
    rw [hs.calls, List.mem_append, List.mem_singleton] at hmem
    obtain hmem | heq := hmem
    · obtain ⟨identity', hidentity', rfl⟩ := h.stored agentId hmem
      obtain ⟨rfl, hstored⟩ := hs.found identity' hidentity'
      exact ⟨identity', hs.stored hstored, rfl⟩
    · cases heq
      exact ⟨identity, hs.stored rfl, rfl⟩
  manager := by
    rw [hs.manager, hs.calls, lastLoaded_concat_loaded]
    rintro m ⟨⟩
    exact ⟨rfl, rfl⟩
  same before agentId between agentId' stored' behind hcalls := by
    rw [hs.calls] at hcalls
    obtain ⟨hbefore, heq⟩ | ⟨behind', -, hcalls⟩ := List.concat_eq_append_cons hcalls
    · cases heq
      obtain ⟨identity', hidentity', rfl⟩ := h.stored agentId (by simp [hbefore])
      obtain ⟨rfl, hstored⟩ := hs.found identity' hidentity'
      exact ⟨rfl, hstored⟩
    · exact h.same before agentId between agentId' stored' behind' hcalls
  checked before agentId filePath allowed io behind hcalls := by
    rw [hs.calls] at hcalls
    obtain ⟨-, heq⟩ | ⟨behind', -, hcalls⟩ := List.concat_eq_append_cons hcalls
    · cases heq
    · exact h.checked before agentId filePath allowed io behind' hcalls

lemma runs (h : s.Granted readFloat) {c : Call} (hr : Runs s s' c) : s'.Granted readFloat := by
  obtain ⟨m, m', hm, hm', hidentity, hrbac, hallowed⟩ := hr.manager
  obtain ⟨hlast, htable⟩ := h.manager m hm
  refine ⟨fun agentId hmem => ?_, ?_, ?_, ?_⟩
  · rw [hr.calls, List.mem_append, List.mem_singleton] at hmem
    obtain hmem | heq := hmem
    · rw [ConfigDir.identity?, hr.identityJson]
      exact h.stored agentId hmem
    · exact absurd heq.symm (hr.notLoaded agentId true)
  · rw [hm', hr.calls, lastLoaded_concat hr.notLoaded]
    rintro n ⟨⟩
    rw [hidentity, hrbac]
    exact ⟨hlast, htable⟩
  · intro before agentId between agentId' stored behind hcalls
    rw [hr.calls] at hcalls
    obtain ⟨-, heq⟩ | ⟨behind', -, hcalls⟩ := List.concat_eq_append_cons hcalls
    · exact absurd heq (hr.notLoaded agentId' stored)
    · exact h.same before agentId between agentId' stored behind' hcalls
  · intro before agentId filePath allowed io behind hcalls
    rw [hr.calls] at hcalls
    obtain ⟨rfl, heq⟩ | ⟨behind', -, hcalls⟩ := List.concat_eq_append_cons hcalls
    · rw [hallowed agentId filePath allowed io heq, htable, isAllowed_allow_star, hlast,
        Option.some_inj]
    · exact h.checked before agentId filePath allowed io behind' hcalls

end IdentityState.Granted

/-- A program that is started after an identity has been stored runs under that identity, and a check of
a permission is granted to the identity of the running program and to nobody else. -/
theorem identityRun_granted {ed : Ed25519} {readFloat : List Char → FloatRepr}
    {events : List IdentityEvent} {s : IdentityState} (h : identityRun ed readFloat events = some s) :
    (∀ before agentId between agentId' stored behind,
      s.calls = before ++ .loaded agentId true :: between ++ .loaded agentId' stored :: behind →
        agentId' = agentId ∧ stored = true) ∧
    ∀ before agentId filePath allowed io behind,
      s.calls = before ++ .checked agentId filePath allowed io :: behind →
        (allowed = true ↔ lastLoaded before = some agentId) := by
  have hgranted : s.Granted readFloat := by
    refine Transition.run_invariant _ (P := fun t => t.Granted readFloat) ?_ ?_ h
    · intro t event t' ht hstep
      obtain ⟨identity, stored, hstarts⟩ | ⟨c, hruns⟩ := IdentityState.step_cases hstep
      · exact ht.starts hstarts
      · exact ht.runs hruns
    · exact ⟨by simp, by simp, by simp, by simp⟩
  exact ⟨hgranted.same, hgranted.checked⟩

namespace Sample

def freshIdentity : FreshIdentity := ⟨seed, rfl, "desk", 0, .written⟩

def writtenIo : LogIo := ⟨0, 0, .written, .written⟩

/-- A program starts, refuses another agent and logs an action. -/
def identityEvents : List IdentityEvent :=
  [.load freshIdentity, .checkPermission "other" "plan.docx" writtenIo,
    .logAction "edit" "plan.docx" "ok" "local" writtenIo]

def identityCalls : List Call :=
  [.loaded seed.hex true, .checked "other" "plan.docx" false writtenIo,
    .logged "local" "edit" "plan.docx" "ok" writtenIo]

lemma not_isAllowed_other :
    (RbacTable.new.allow seed.hex ["*"]).isAllowed "other" "plan.docx" = false := by
  rw [← Bool.not_eq_true, isAllowed_allow_star]
  decide +kernel

lemma run_identityEvents :
    ∃ s, identityRun .digest readSome identityEvents = some s ∧ s.calls = identityCalls := by
  obtain ⟨s₁, hload, hmanager, hcalls⟩ : ∃ s₁ : IdentityState,
      IdentityState.step .digest readSome {} (.load freshIdentity) = some s₁ ∧
        (∃ m, s₁.manager = some m ∧ m.rbac = RbacTable.new.allow seed.hex ["*"]) ∧
        s₁.calls = [.loaded seed.hex true] :=
    ⟨_, rfl, ⟨_, rfl, rfl⟩, rfl⟩
  obtain ⟨m, hm, hrbac⟩ := hmanager
  have hallowed : m.rbac.isAllowed "other" "plan.docx" = false := hrbac ▸ not_isAllowed_other
  obtain ⟨s₂, hcheck, hmanager, hcalls₂⟩ : ∃ s₂ : IdentityState,
      s₁.step .digest readSome (.checkPermission "other" "plan.docx" writtenIo) = some s₂ ∧
        (∃ m, s₂.manager = some m) ∧
        s₂.calls = [.loaded seed.hex true, .checked "other" "plan.docx" false writtenIo] := by
    simp only [IdentityState.step, hm, Option.map_some, hallowed, hcalls]
    exact ⟨_, rfl, ⟨_, rfl⟩, rfl⟩
  obtain ⟨m₂, hm₂⟩ := hmanager
  obtain ⟨s₃, hlog, hcalls₃⟩ : ∃ s₃ : IdentityState,
      s₂.step .digest readSome (.logAction "edit" "plan.docx" "ok" "local" writtenIo) = some s₃ ∧
        s₃.calls = identityCalls := by
    simp only [IdentityState.step, hm₂, Option.map_some, hcalls₂]
    exact ⟨_, rfl, rfl⟩
  refine ⟨s₃, ?_, hcalls₃⟩
  rw [identityRun, identityEvents, Transition.run_cons, hload, Option.bind_some, Transition.run_cons,
    hcheck, Option.bind_some, Transition.run_cons, hlog, Option.bind_some, Transition.run_nil]

/-- No append fails. -/
lemma steady_identityCalls {append : LogIo → Append} (h : append writtenIo = .written) :
    Steady append identityCalls := by
  intro before c record io hprefix hc happend
  have hwritten : ∀ calls : List Call, (∀ c ∈ calls, c ∈ identityCalls) →
      calls.foldl (Call.failedAfter append) false = false := by
    intro calls hcalls
    induction calls using List.reverseRecOn with
    | nil => rfl
    | append_singleton calls c ih =>
      have hc := hcalls c (by simp)
      rw [List.foldl_append, ih fun c hc => hcalls c (by simp [hc])]
      simp only [identityCalls, List.mem_cons, List.not_mem_nil, or_false] at hc
      rcases hc with rfl | rfl | rfl <;> simp [Call.failedAfter, Call.record?, h]
  exact hwritten before fun c hc => hprefix.subset (by simp [hc])

theorem identityRun_trail_identityEvents :
    ∃ s, identityRun .digest readSome identityEvents = some s ∧
      (∃ entries, s.dir.auditChain.getD [] = auditFileOf entries ∧
        entries.map (·.record) = recordsOf (·.auditAppend) s.calls) ∧
      TamperEvidentAuditLog.verifyChain .digest readSome s.dir.auditChain = 0 ∧
      (∃ receipts, s.dir.receipts.getD [] = fileOf receipts ∧
        receipts.map (·.record) = (recordsOf (·.receiptAppend) s.calls).map Prod.snd) ∧
      verifyChain readSome (signatureValid .digest) s.dir.receipts = 0 := by
  obtain ⟨s, hrun, hcalls⟩ := run_identityEvents
  exact ⟨s, hrun, identityRun_trail Ed25519.digest_correct Ed25519.digest_sized hrun
    (hcalls ▸ steady_identityCalls rfl) (hcalls ▸ steady_identityCalls rfl)⟩

theorem identityRun_granted_identityEvents :
    false = true ↔ lastLoaded [.loaded seed.hex true] = some "other" := by
  obtain ⟨s, hrun, hcalls⟩ := run_identityEvents
  exact (identityRun_granted hrun).2 [.loaded seed.hex true] "other" "plan.docx" false writtenIo
    [.logged "local" "edit" "plan.docx" "ok" writtenIo] hcalls

end Sample

end AxiomGrid.Receipts

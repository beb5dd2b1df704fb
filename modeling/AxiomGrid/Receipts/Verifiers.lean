import AxiomGrid.Lib.JsonEnds
import AxiomGrid.Lib.JsonSorted
import AxiomGrid.Receipts.Log
import AxiomGrid.Trust.External

/-!
# Three verifiers of one file

A receipts file is verified by `ReceiptLog::verify_chain`, by `verify_receipt_chain` of
`kairo-sidecar/sidecar/observability/provenance_bridge.py` and by `verify_receipts` of
`tools/verify_receipts_external.py`, here without the signatures. The first one hashes the struct, in
which an absent field with a default is an empty text; the others hash the keys that are there. They
agree on files in which every receipt has all its keys.
-/

namespace AxiomGrid.Receipts

open Trust (Record canonicalWith plusOne)
open Trust.External (getNull)

/-! ### The verifiers in Python -/

/-- The settings of the readers in Python: how a float is read, and its sum with one. -/
structure PyEnv where
  readFloat : List Char → FloatRepr
  floatSucc : FloatRepr → FloatRepr

section

variable (env : PyEnv)

/-- The lines of a file opened as text; `none` is a file that is not UTF-8. -/
def pyLines (file : Bytes) : Option (List Str) :=
  (utf8Decode? file).map fun text => Str.lines (Str.universalNewlines text.toList)

/-- The loop of `read_receipts` and of `read_jsonl`; `none` is invalid JSON. -/
def readLines : List Str → Option (List Json)
  | [] => some []
  | line :: lines =>
    if Str.strip line = [] then readLines lines
    else do
      let value ← Json.loads env.readFloat (String.ofList (Str.strip line))
      let values ← readLines lines
      some (value :: values)

/-- `read_receipts`; the file is `none` when it does not exist. -/
def readReceipts : Option Bytes → Option (List Json)
  | none => some []
  | some file => do readLines env (← pyLines file)

/-- `read_jsonl`. -/
def readJsonl (file : Option Bytes) : Option (List Json) := do readLines env (← pyLines (← file))

/-- `canonical_receipt_json`. -/
def canonicalReceiptJson (receipt : Record) : String := canonicalWith fieldNames receipt

/-- The checks that both scripts make of a receipt: the chain, the number and the hash. -/
def chainOk (prevHash : Json) (r : Record) : Bool := Json.pyEq (getNull r "prev_hash") prevHash

def seqOk (expectedSeq : Json) (r : Record) : Bool := Json.pyEq (getNull r "seq") expectedSeq

def hashOk (canonical : Record → String) (r : Record) : Bool :=
  Json.pyEq (.str (sha256 (utf8 (canonical r))).hex) (getNull r "self_hash")

/-- The loop of `verify_receipt_chain`. A value that is no dictionary has no `get`. -/
def bridgeFrom : Json → Json → List Json → Option ℕ
  | _, _, [] => some 0
  | prevHash, expectedSeq, .obj r :: receipts => do
    let violations := (if chainOk prevHash r then 0 else 1) + (if seqOk expectedSeq r then 0 else 1) +
      (if hashOk canonicalReceiptJson r then 0 else 1)
    let next ← plusOne env.floatSucc ((r.lookup "seq").getD (.int 0))
    let rest ← bridgeFrom ((r.lookup "self_hash").getD (.str "")) next receipts
    some (violations + rest)
  | _, _, _ :: _ => none

/-- `verify_receipt_chain`. -/
def verifyReceiptChain (file : Option Bytes) : Option ℕ := do
  bridgeFrom env (.str "genesis") (.int 0) (← readReceipts env file)

/-- What `verify_receipts` reports of a receipt when no signature is looked at. -/
inductive Kind where
  | chainBreak
  | seqGap
  | selfHashMismatch
  deriving DecidableEq

/-- The report of a chain break, whose text shows the first characters of the hash that is expected;
`none` when that is no sequence. -/
def chainReport (i : ℕ) (prevHash : Json) (r : Record) : Option (List (ℕ × Kind)) :=
  if chainOk prevHash r then some []
  else
    match prevHash with
    | .str _ | .arr _ => some [(i, .chainBreak)]
    | _ => none

/-- The loop of `verify_receipts`, with the place of each violation. -/
def externalFrom : ℕ → Json → Json → List Json → Option (List (ℕ × Kind))
  | _, _, _, [] => some []
  | i, prevHash, expectedSeq, .obj r :: receipts => do
    let chain ← chainReport i prevHash r
    let seq := if seqOk expectedSeq r then [] else [(i, .seqGap)]
    let hash :=
      if hashOk (fun r => Trust.External.canonical r Trust.External.receiptFieldOrder) r then []
      else [(i, .selfHashMismatch)]
    let seqValue := getNull r "seq"
    let next ← plusOne env.floatSucc (if seqValue.truthy then seqValue else .int 0)
    let rest ← externalFrom (i + 1) ((r.lookup "self_hash").getD (.str "")) next receipts
    some (chain ++ seq ++ hash ++ rest)
  | _, _, _, _ :: _ => none

/-- `verify_receipts` on the receipts of a file. -/
def verifyReceipts (file : Option Bytes) : Option (List (ℕ × Kind)) := do
  externalFrom env 0 (.str "genesis") (.int 0) (← readJsonl env file)

end

/-! ### Lines -/

variable {env : PyEnv}

/-- A line feed ends a line for both readers, with a carriage return before it. -/
lemma universalNewlines_line {l : Str} (h : '\n' ∉ l) (s : Str) :
    Str.universalNewlines (l ++ '\n' :: s) =
      Str.universalNewlines (dropCr l) ++ '\n' :: Str.universalNewlines s := by
  have hself : ∀ t : Str, '\n' ∉ t → Str.universalNewlines t =
      t.map fun c => if c = '\r' then '\n' else c := by
    intro t ht
    have happend := @Str.universalNewlines_append t [] ht (by simp)
    simpa [Str.universalNewlines] using happend
  by_cases hcr : l.getLast? = some '\r'
  · obtain ⟨front, rfl⟩ := List.getLast?_eq_some_iff.mp hcr
    have hfront : '\n' ∉ front := fun hmem => h (List.mem_append_left _ hmem)
    rw [dropCr, if_pos hcr, List.dropLast_concat, hself front hfront, List.append_assoc,
      Str.universalNewlines_append hfront (by simp)]
    rfl
  · rw [dropCr, if_neg hcr, hself l h, Str.universalNewlines_append h fun heq => absurd heq hcr]
    rfl

lemma lines_cons {l : Str} (h : '\n' ∉ l) (s : Str) :
    lines (String.ofList (l ++ '\n' :: s)) = dropCr l :: lines (String.ofList s) := by
  have hne : Str.lines s ≠ [] := List.splitOn_ne_nil _ _
  have hpieces : Str.lines (l ++ '\n' :: s) = l :: Str.lines s :=
    List.splitOn_append_cons_self_of_not_mem h s
  simp only [lines, String.toList_ofList, hpieces, List.dropLast_cons_of_ne_nil hne,
    List.map_cons, List.cons_append, List.getLast?_cons, List.getLast?_eq_some_getLast hne]
  rfl

/-- The lines of the scripts are the pieces of those of `contents.lines()` between carriage returns. -/
lemma lines_universalNewlines (s : Str) :
    Str.lines (Str.universalNewlines s) =
      (lines (String.ofList s)).flatMap fun line => Str.lines (Str.universalNewlines line) := by
  induction hn : s.length using Nat.strong_induction_on generalizing s with
  | _ n ih =>
    by_cases hmem : '\n' ∈ s
    · obtain ⟨l, rest, rfl, hl⟩ := List.eq_append_cons_of_mem hmem
      have hrest := ih rest.length (by simp at hn; omega) rest rfl
      rw [universalNewlines_line hl, lines_cons hl, List.flatMap_cons, ← hrest]
      exact List.splitOn_append_cons_self _ _
    · have hpieces : Str.lines s = [s] := List.splitOn_eq_singleton hmem
      simp [lines, hpieces]

lemma readLines_append_of_blank {pieces : List Str} (h : ∀ piece ∈ pieces, Str.strip piece = [])
    (rest : List Str) : readLines env (pieces ++ rest) = readLines env rest := by
  induction pieces with
  | nil => rfl
  | cons piece pieces ih =>
    rw [List.forall_mem_cons] at h
    rw [List.cons_append, readLines, if_pos h.1, ih h.2]

lemma strip_eq_nil {s : Str} (h : ∀ c ∈ s, Str.isSpace c = true) : Str.strip s = [] := by
  rw [Str.strip, List.dropWhile_eq_nil_iff.mpr h]
  rfl

/-- A line that the log skips is blank for the scripts. -/
lemma strip_piece_of_blank {line piece : Str} (h : isBlankLine line = true)
    (hpiece : piece ∈ Str.lines (Str.universalNewlines line)) : Str.strip piece = [] := by
  apply strip_eq_nil
  intro c hc
  obtain hline | rfl := Str.mem_universalNewlines (Str.mem_of_mem_lines hpiece hc)
  · rw [isBlankLine, List.all_eq_true] at h
    have hspace := h c hline
    rw [isWhiteSpace, Bool.and_eq_true] at hspace
    exact hspace.1
  · decide

/-! ### Records -/

lemma eq_of_u64? {v : Json} {n : UInt64} (h : u64? v = some n) : v = .int n.toNat := by
  cases v with
  | int m =>
    rw [u64?] at h
    split_ifs at h with hm
    cases h
    have hsize : UInt64.size = 2 ^ 64 := rfl
    rw [UInt64.toNat_ofNat_of_lt' (by omega), Int.toNat_of_nonneg hm.1]
  | _ => cases h

lemma eq_of_str? {v : Json} {s : String} (h : v.str? = some s) : v = .str s := by
  cases v <;> cases h
  rfl

/-- The keys without which no receipt is read. -/
def requiredNames : List String := fieldNames.take 9

/-- A field that is there holds the value of the receipt, and the first nine are there. -/
lemma field_of_fromFields {field : String → Option Json} {r : ProvenanceReceipt}
    (h : fromFields field = some r) :
    (∀ k ∈ fieldNames, ∀ v, field k = some v → r.members.lookup k = some v) ∧
      ∀ k ∈ requiredNames, (field k).isSome = true := by
  rw [fromFields_eq_some_iff] at h
  obtain ⟨hseq, htimestamp, hagentId, haction, hcontext, houtcome, hprevHash, hselfHash, hsignature,
    hopikTraceId, hopikTraceUrl, hdomain⟩ := h
  have hnumber : ∀ {k : String} {n : UInt64}, (field k).bind u64? = some n →
      field k = some (.int n.toNat) := by
    intro k n hn
    obtain ⟨v, hv, hu⟩ := Option.bind_eq_some_iff.mp hn
    rw [hv, eq_of_u64? hu]
  have htext : ∀ {k s : String}, (field k).bind Json.str? = some s → field k = some (.str s) := by
    intro k s hs
    obtain ⟨v, hv, hstr⟩ := Option.bind_eq_some_iff.mp hs
    rw [hv, eq_of_str? hstr]
  have hdefault : ∀ {k s : String} {v : Json}, textOrDefault (field k) = some s → field k = some v →
      some (Json.str s) = some v := by
    intro k s v hs hv
    rw [hv] at hs
    rw [eq_of_str? hs]
  constructor
  · simp only [fieldNames, List.forall_mem_cons]
    refine ⟨?_, ?_, ?_, ?_, ?_, ?_, ?_, ?_, ?_, ?_, ?_, ?_, by simp⟩
    · exact fun v hv => (hnumber hseq).symm.trans hv
    · exact fun v hv => (hnumber htimestamp).symm.trans hv
    · exact fun v hv => (htext hagentId).symm.trans hv
    · exact fun v hv => (htext haction).symm.trans hv
    · exact fun v hv => (htext hcontext).symm.trans hv
    · exact fun v hv => (htext houtcome).symm.trans hv
    · exact fun v hv => (htext hprevHash).symm.trans hv
    · exact fun v hv => (htext hselfHash).symm.trans hv
    · exact fun v hv => (htext hsignature).symm.trans hv
    · exact fun v hv => hdefault hopikTraceId hv
    · exact fun v hv => hdefault hopikTraceUrl hv
    · exact fun v hv => hdefault hdomain hv
  · simp only [requiredNames, fieldNames, List.take_succ_cons, List.take_zero, List.forall_mem_cons]
    refine ⟨?_, ?_, ?_, ?_, ?_, ?_, ?_, ?_, ?_, by simp⟩
    · rw [hnumber hseq, Option.isSome_some]
    · rw [hnumber htimestamp, Option.isSome_some]
    · rw [htext hagentId, Option.isSome_some]
    · rw [htext haction, Option.isSome_some]
    · rw [htext hcontext, Option.isSome_some]
    · rw [htext houtcome, Option.isSome_some]
    · rw [htext hprevHash, Option.isSome_some]
    · rw [htext hselfHash, Option.isSome_some]
    · rw [htext hsignature, Option.isSome_some]

/-- A dictionary that the scripts read where the log reads a receipt: the keys that are there lead to the
values of the receipt. -/
structure Reads (d : Record) (r : ProvenanceReceipt) : Prop where
  field : ∀ k ∈ fieldNames, ∀ v, d.lookup k = some v → r.members.lookup k = some v
  required : ∀ k ∈ requiredNames, (d.lookup k).isSome = true

/-- All twelve keys are there. -/
def Full (d : Record) : Prop := ∀ k ∈ fieldNames, (d.lookup k).isSome = true

lemma reads_asDicts {kvs : Record} {r : ProvenanceReceipt} (h : fromValue (.obj kvs) = some r) :
    ∃ d, Json.asDicts (.obj kvs) = .obj d ∧ Reads d r ∧
      (Full d ↔ ∀ k ∈ fieldNames, k ∈ kvs.map Prod.fst) := by
  rw [fromValue] at h
  split_ifs at h with hcount
  rw [List.all_eq_true] at hcount
  have hlookup : ∀ k ∈ fieldNames,
      ((Json.asDictsMembers kvs).foldl (fun d p => Json.setItem d p.1 p.2) []).lookup k =
        (kvs.lookup k).map Json.asDicts := by
    intro k hk
    exact Json.lookup_asDictsMembers (of_decide_eq_true (hcount k hk))
  obtain ⟨hfield, hrequired⟩ := field_of_fromFields h
  -- the values of the fields are numbers and texts
  have hplain : ∀ k ∈ fieldNames, ∀ v, r.members.lookup k = some v → Json.asDicts v = v := by
    simp only [fieldNames, List.forall_mem_cons]
    refine ⟨?_, ?_, ?_, ?_, ?_, ?_, ?_, ?_, ?_, ?_, ?_, ?_, by simp⟩
    all_goals
      intro v hv
      cases hv
      rfl
  refine ⟨_, by rw [Json.asDicts], ⟨?_, ?_⟩, ?_⟩
  · intro k hk v hv
    rw [hlookup k hk] at hv
    obtain ⟨w, hw, rfl⟩ := Option.map_eq_some_iff.mp hv
    have hmember := hfield k hk w hw
    rw [hplain k hk w hmember]
    exact hmember
  · intro k hk
    rw [hlookup k (List.mem_of_mem_take hk), Option.isSome_map]
    exact hrequired k hk
  · constructor
    · intro hfull k hk
      have hsome := hfull k hk
      rw [hlookup k hk, Option.isSome_map, Option.isSome_iff_exists] at hsome
      obtain ⟨v, hv⟩ := hsome
      exact Json.mem_keys_of_lookup hv
    · intro hkeys k hk
      rw [hlookup k hk, Option.isSome_map]
      obtain ⟨p, hp, rfl⟩ := List.mem_map.mp (hkeys k hk)
      rw [List.lookup_isSome_iff]
      exact ⟨p, hp, by simp⟩

/-- A line on which both kinds of readers find one object. -/
def PlainLine (env : PyEnv) (line : Str) : Prop :=
  '\r' ∉ line ∧ ∃ kvs, Json.parse ⟨env.readFloat, false⟩ line = some (.obj kvs)

/-- A line with an object that has all twelve keys. -/
def CompleteLine (env : PyEnv) (line : Str) : Prop :=
  '\r' ∉ line ∧ ∃ kvs, Json.parse ⟨env.readFloat, false⟩ line = some (.obj kvs) ∧
    ∀ k ∈ fieldNames, k ∈ kvs.map Prod.fst

lemma newline_notMem_lines {text : String} {line : Str} (h : line ∈ lines text) : '\n' ∉ line := by
  rw [lines, List.mem_append, List.mem_map, Option.mem_toList] at h
  obtain ⟨piece, hpiece, rfl⟩ | h := h
  · have hno := Str.newline_notMem_of_mem_lines (List.mem_of_mem_dropLast hpiece)
    rw [dropCr]
    split_ifs
    · exact fun hmem => hno (List.mem_of_mem_dropLast hmem)
    · exact hno
  · exact Str.newline_notMem_of_mem_lines (List.mem_of_getLast? h)

/-- A plain line is one piece for the scripts, and they read from it what the log reads. -/
lemma readLines_plain {line : Str} (hno : '\n' ∉ line) (hplain : PlainLine env line)
    {r : ProvenanceReceipt} (hr : fromStr env.readFloat line = some r) (rest : List Str) :
    ∃ d, readLines env (Str.lines (Str.universalNewlines line) ++ rest) =
        (readLines env rest).map (Json.obj d :: ·) ∧
      Reads d r ∧ (Full d ↔ CompleteLine env line) := by
  obtain ⟨hcr, kvs, hkvs⟩ := hplain
  have hvalue : fromValue (.obj kvs) = some r := by
    rw [fromStr, hkvs, Option.bind_some] at hr
    exact hr
  obtain ⟨d, hd, hreads, hfull⟩ := reads_asDicts hvalue
  have hpieces : Str.lines (Str.universalNewlines line) = [line] := by
    rw [Str.universalNewlines_of_not_mem hcr]
    exact List.splitOn_eq_singleton hno
  obtain ⟨hne, hstrip⟩ := Json.parse_strip (Json.parse_mono hkvs)
  have hloads : Json.loads env.readFloat (String.ofList (Str.strip line)) = some (.obj d) := by
    rw [Json.loads, String.toList_ofList, hstrip, Option.map_some, hd]
  refine ⟨d, ?_, hreads, ?_⟩
  · rw [hpieces, List.singleton_append, readLines, if_neg hne, hloads]
    cases readLines env rest <;> rfl
  · rw [hfull]
    constructor
    · exact fun hkeys => ⟨hcr, kvs, hkvs, hkeys⟩
    · rintro ⟨-, kvs', hkvs', hkeys⟩
      rw [hkvs] at hkvs'
      cases hkvs'
      exact hkeys

/-- What the scripts read from the lines of a log, line by line. -/
lemma readLines_flatMap {ls : List Str} (hno : ∀ line ∈ ls, '\n' ∉ line)
    (h : ∀ line ∈ ls, isBlankLine line = false →
      PlainLine env line ∧ ∃ r, fromStr env.readFloat line = some r) :
    ∃ ds : List Record,
      readLines env (ls.flatMap fun line => Str.lines (Str.universalNewlines line)) =
        some (ds.map Json.obj) ∧
      List.Forall₂ Reads ds (lineReceipts env.readFloat ls) ∧
      ((∀ d ∈ ds, Full d) ↔ ∀ line ∈ ls, isBlankLine line = false → CompleteLine env line) := by
  induction ls with
  | nil => exact ⟨[], rfl, .nil, by simp⟩
  | cons line ls ih =>
    rw [List.forall_mem_cons] at hno h
    obtain ⟨ds, hread, hreads, hfull⟩ := ih hno.2 h.2
    rw [lineReceipts_cons, List.flatMap_cons, List.forall_mem_cons]
    by_cases hblank : isBlankLine line = true
    · refine ⟨ds, ?_, ?_, ?_⟩
      · rw [readLines_append_of_blank fun piece hpiece => strip_piece_of_blank hblank hpiece, hread]
      · rwa [if_pos hblank]
      · simp [hblank, hfull]
    · rw [Bool.not_eq_true] at hblank
      obtain ⟨hplain, r, hr⟩ := h.1 hblank
      obtain ⟨d, hline, hreadsd, hfulld⟩ := readLines_plain hno.1 hplain hr
        (ls.flatMap fun line => Str.lines (Str.universalNewlines line))
      refine ⟨d :: ds, ?_, ?_, ?_⟩
      · rw [hline, hread]
        rfl
      · rw [if_neg (by simp [hblank]), hr]
        exact .cons hreadsd hreads
      · rw [List.forall_mem_cons, hfull, hfulld]
        exact and_congr_left' (by simp [hblank])

/-! ### The chain checks -/

lemma pyEq_int {a b : ℤ} : Json.pyEq (.int a) (.int b) = true ↔ a = b := by
  simp [Json.pyEq, Json.number?, PyFloat.eq]

variable {d : Record} {r : ProvenanceReceipt}

lemma Reads.lookup (h : Reads d r) {k : String} (hk : k ∈ requiredNames) :
    d.lookup k = r.members.lookup k := by
  obtain ⟨v, hv⟩ := Option.isSome_iff_exists.mp (h.required k hk)
  rw [hv, h.field k (List.mem_of_mem_take hk) v hv]

lemma Reads.prevHash (h : Reads d r) : d.lookup "prev_hash" = some (.str r.prevHash) :=
  h.lookup (by decide)

lemma Reads.selfHash (h : Reads d r) : d.lookup "self_hash" = some (.str r.selfHash) :=
  h.lookup (by decide)

lemma Reads.seq (h : Reads d r) : d.lookup "seq" = some (.int r.seq.toNat) := h.lookup (by decide)

lemma Reads.chainOk_iff (h : Reads d r) {p : String} :
    chainOk (.str p) d = true ↔ r.prevHash = p := by
  rw [chainOk, getNull, h.prevHash, Option.getD_some, Json.pyEq_str_left, Json.str.injEq, eq_comm]

lemma Reads.seqOk_iff (h : Reads d r) {n : ℤ} : seqOk (.int n) d = true ↔ (r.seq.toNat : ℤ) = n := by
  rw [seqOk, getNull, h.seq, Option.getD_some, pyEq_int]

lemma Reads.hashOk_iff (h : Reads d r) {canonical : Record → String} :
    hashOk canonical d = true ↔ (sha256 (utf8 (canonical d))).hex = r.selfHash := by
  rw [hashOk, getNull, h.selfHash, Option.getD_some, Json.pyEq_str_left, Json.str.injEq, eq_comm]

lemma toLine_eq_dumps (r : ProvenanceReceipt) : r.toLine = Json.dumps (.obj r.members) := by
  rw [ProvenanceReceipt.toLine, Json.dumpsWith, Json.renderWith_compactUnicode, Json.dumps]

lemma pick_members (r : ProvenanceReceipt) : Json.pick fieldNames r.members = r.members := rfl

lemma members_cleared (r : ProvenanceReceipt) :
    r.cleared.members =
      Json.setItem (Json.setItem r.members "self_hash" (.str "")) "signature" (.str "") := rfl

lemma isSome_members (r : ProvenanceReceipt) : ∀ k ∈ fieldNames, (r.members.lookup k).isSome = true := by
  simp only [fieldNames, List.forall_mem_cons]
  exact ⟨rfl, rfl, rfl, rfl, rfl, rfl, rfl, rfl, rfl, rfl, rfl, rfl, by simp⟩

/-- The text that the scripts hash is the one that the log hashes if and only if all keys are there. -/
lemma Reads.canonical_iff (h : Reads d r) : canonicalReceiptJson d = r.cleared.toLine ↔ Full d := by
  have hfields : canonicalReceiptJson d = r.cleared.toLine ↔
      ∀ k ∈ fieldNames,
        (Json.setItem (Json.setItem d "self_hash" (.str "")) "signature" (.str "")).lookup k =
          r.cleared.members.lookup k := by
    rw [canonicalReceiptJson, canonicalWith, toLine_eq_dumps]
    constructor
    · intro heq k hk
      have hpick := Json.obj.inj (Json.dumps_injective heq)
      have hlookup := congrArg (List.lookup k) hpick
      rwa [Json.lookup_pick hk] at hlookup
    · intro hlookup
      rw [Json.pick_congr hlookup, pick_members]
  rw [hfields, members_cleared]
  constructor
  · intro hlookup k hk
    by_cases hreq : k ∈ requiredNames
    · exact h.required k hreq
    · have hself : k ≠ "self_hash" := fun heq => hreq (heq ▸ by decide)
      have hsig : k ≠ "signature" := fun heq => hreq (heq ▸ by decide)
      have hk' := hlookup k hk
      simp only [Json.lookup_setItem, if_neg hself, if_neg hsig] at hk'
      rw [hk']
      exact isSome_members r k hk
  · intro hfull k hk
    obtain ⟨v, hv⟩ := Option.isSome_iff_exists.mp (hfull k hk)
    simp only [Json.lookup_setItem, hv, h.field k hk v hv]

lemma plusOne_seq (h : Reads d r) :
    plusOne env.floatSucc ((d.lookup "seq").getD (.int 0)) = some (.int (r.seq.toNat + 1)) := by
  rw [h.seq]
  rfl

/-- One receipt for the bridge. -/
lemma bridgeFrom_cons (h : Reads d r) (p : String) (n : ℤ) (ds : List Record) :
    bridgeFrom env (.str p) (.int n) ((d :: ds).map Json.obj) =
      (bridgeFrom env (.str r.selfHash) (.int (r.seq.toNat + 1)) (ds.map Json.obj)).map
        (((if chainOk (.str p) d then 0 else 1) + (if seqOk (.int n) d then 0 else 1) +
          (if hashOk canonicalReceiptJson d then 0 else 1)) + ·) := by
  rw [List.map_cons, bridgeFrom, plusOne_seq h, h.selfHash, Option.bind_eq_bind, Option.bind_some,
    Option.getD_some]
  cases bridgeFrom env (.str r.selfHash) (.int (r.seq.toNat + 1)) (ds.map Json.obj) <;> rfl

lemma bridgeFrom_cons_eq_zero_iff (h : Reads d r) (p : String) (n : ℤ) (ds : List Record) :
    bridgeFrom env (.str p) (.int n) ((d :: ds).map Json.obj) = some 0 ↔
      (r.prevHash = p ∧ (r.seq.toNat : ℤ) = n ∧
        (sha256 (utf8 (canonicalReceiptJson d))).hex = r.selfHash) ∧
      bridgeFrom env (.str r.selfHash) (.int (r.seq.toNat + 1)) (ds.map Json.obj) = some 0 := by
  rw [bridgeFrom_cons h, Option.map_eq_some_iff, ← h.chainOk_iff, ← h.seqOk_iff, ← h.hashOk_iff]
  constructor
  · rintro ⟨rest, hrest, hsum⟩
    rw [Nat.add_eq_zero_iff, Nat.add_eq_zero_iff, Nat.add_eq_zero_iff] at hsum
    simp only [ite_eq_left_iff, one_ne_zero, imp_false, not_not] at hsum
    obtain ⟨⟨⟨hchain, hseq⟩, hhash⟩, rfl⟩ := hsum
    exact ⟨⟨hchain, hseq, hhash⟩, hrest⟩
  · rintro ⟨⟨hchain, hseq, hhash⟩, hrest⟩
    exact ⟨0, hrest, by rw [if_pos hchain, if_pos hseq, if_pos hhash]⟩

/-- The bridge does not raise on receipts. -/
lemma bridgeFrom_isSome {ds : List Record} {rs : List ProvenanceReceipt}
    (h : List.Forall₂ Reads ds rs) (p : String) (n : ℤ) :
    ∃ violations, bridgeFrom env (.str p) (.int n) (ds.map Json.obj) = some violations := by
  induction h generalizing p n with
  | nil => exact ⟨0, rfl⟩
  | cons hd _ ih =>
    obtain ⟨rest, hrest⟩ := ih _ _
    exact ⟨_, by rw [bridgeFrom_cons hd, hrest, Option.map_some]⟩

/-- The standalone verifier makes the same checks. -/
lemma externalFrom_spec {ds : List Record} {rs : List ProvenanceReceipt}
    (h : List.Forall₂ Reads ds rs) (i : ℕ) (p : String) (n : ℤ) :
    ∃ reports, externalFrom env i (.str p) (.int n) (ds.map Json.obj) = some reports ∧
      (reports = [] ↔ bridgeFrom env (.str p) (.int n) (ds.map Json.obj) = some 0) := by
  induction h generalizing i p n with
  | nil => exact ⟨[], rfl, by simp [bridgeFrom]⟩
  | @cons d r ds rs hd _ ih =>
    obtain ⟨rest, hrest, hiff⟩ := ih (i + 1) r.selfHash (r.seq.toNat + 1)
    have hnext : plusOne env.floatSucc
        (if (getNull d "seq").truthy then getNull d "seq" else .int 0) =
        some (.int (r.seq.toNat + 1)) := by
      rw [getNull, hd.seq, Option.getD_some]
      split_ifs with htruthy
      · rfl
      · have hzero : (r.seq.toNat : ℤ) = 0 := by simpa [Json.truthy] using htruthy
        rw [hzero]
        rfl
    have hchain : chainReport i (.str p) d =
        some (if chainOk (.str p) d then [] else [(i, .chainBreak)]) := by
      rw [chainReport]
      split_ifs <;> rfl
    refine ⟨_, by
      rw [List.map_cons, externalFrom]
      simp only [hnext, hd.selfHash, Option.getD_some, hchain, hrest, Option.bind_eq_bind,
        Option.bind_some]
      rfl, ?_⟩
    rw [bridgeFrom_cons_eq_zero_iff hd, ← hd.chainOk_iff, ← hd.seqOk_iff, ← hd.hashOk_iff, ← hiff,
      List.append_eq_nil_iff, List.append_eq_nil_iff, List.append_eq_nil_iff]
    have hnames : Trust.External.receiptFieldOrder = fieldNames := rfl
    have hcanonical : (fun r => Trust.External.canonical r Trust.External.receiptFieldOrder) =
        canonicalReceiptJson := by
      rw [hnames]
      rfl
    simp only [hcanonical, ite_eq_left_iff, List.cons_ne_nil, imp_false, not_not, and_assoc]

/-- On full records the bridge accepts what the log accepts. -/
lemma chainViolations_eq_zero_iff {ds : List Record} {rs : List ProvenanceReceipt}
    (h : List.Forall₂ Reads ds rs) (hfull : ∀ d ∈ ds, Full d) {n : UInt64}
    (hn : n.toNat + rs.length ≤ 2 ^ 64) (p : String) :
    chainViolations (fun _ => true) p n rs = 0 ↔
      bridgeFrom env (.str p) (.int n.toNat) (ds.map Json.obj) = some 0 := by
  induction h generalizing p n with
  | nil => simp [chainViolations, bridgeFrom]
  | @cons d r ds rs hd hrest ih =>
    rw [List.forall_mem_cons] at hfull
    rw [List.length_cons] at hn
    rw [chainViolations, Nat.add_eq_zero_iff, receiptViolations_eq_zero_iff,
      bridgeFrom_cons_eq_zero_iff hd, hd.canonical_iff.mpr hfull.1]
    have hseq : (r.seq.toNat : ℤ) = n.toNat ↔ r.seq = n := by
      rw [Int.natCast_inj, UInt64.toNat_inj]
    rw [hseq]
    -- behind the last number nothing follows
    have hnext : r.seq = n → (chainViolations (fun _ => true) r.selfHash (r.seq + 1) rs = 0 ↔
        bridgeFrom env (.str r.selfHash) (.int (r.seq.toNat + 1)) (ds.map Json.obj) = some 0) := by
      rintro rfl
      cases hrest with
      | nil => simp [chainViolations, bridgeFrom]
      | cons hd' hrest' =>
        rw [List.length_cons] at hn
        have hsucc : (r.seq + 1).toNat = r.seq.toNat + 1 := by
          rw [UInt64.toNat_add]
          exact Nat.mod_eq_of_lt (by simp; omega)
        have hrec := ih hfull.2 (show (r.seq + 1).toNat + _ ≤ 2 ^ 64 by
          rw [hsucc, List.length_cons]; omega) r.selfHash
        rw [hrec, hsucc]
        rfl
    constructor
    · rintro ⟨⟨hprev, hseq, hhash, -⟩, hrest⟩
      exact ⟨⟨hprev, hseq, hhash⟩, (hnext hseq).mp hrest⟩
    · rintro ⟨⟨hprev, hseq, hhash⟩, hrest⟩
      exact ⟨⟨hprev, hseq, hhash, rfl⟩, (hnext hseq).mpr hrest⟩

/-- The bytes that are hashed for a receipt, by the log and by the scripts. -/
def hashedBytes (ds : List Record) (rs : List ProvenanceReceipt) : List Bytes :=
  rs.map (fun r => utf8 r.cleared.toLine) ++ ds.map fun d => utf8 (canonicalReceiptJson d)

/-- Without collisions, records that both accept are full. -/
lemma full_of_accepted {ds : List Record} {rs : List ProvenanceReceipt}
    (h : List.Forall₂ Reads ds rs) (hfree : CollisionFree (hashedBytes ds rs)) {p q : String}
    {n : UInt64} {m : ℤ} (hlog : chainViolations (fun _ => true) p n rs = 0)
    (hbridge : bridgeFrom env (.str q) (.int m) (ds.map Json.obj) = some 0) : ∀ d ∈ ds, Full d := by
  induction h generalizing p q n m with
  | nil => simp
  | @cons d r ds rs hd _ ih =>
    rw [chainViolations, Nat.add_eq_zero_iff, receiptViolations_eq_zero_iff] at hlog
    rw [bridgeFrom_cons_eq_zero_iff hd] at hbridge
    obtain ⟨⟨-, -, hcomputed, -⟩, hlog⟩ := hlog
    obtain ⟨⟨-, -, hhash⟩, hbridge⟩ := hbridge
    have hbytes : utf8 (canonicalReceiptJson d) = utf8 r.cleared.toLine := by
      apply hfree
      · simp [hashedBytes]
      · simp [hashedBytes]
      · apply Bytes.hex_injective
        rw [hhash, ← hcomputed]
        rfl
    rw [List.forall_mem_cons]
    refine ⟨hd.canonical_iff.mp (utf8_injective hbytes), ih ?_ hlog hbridge⟩
    apply hfree.mono
    intro bytes hbytes
    simp only [hashedBytes, List.map_cons, List.mem_append, List.mem_cons] at hbytes ⊢
    obtain hlogged | hscript := hbytes
    · exact .inl (.inr hlogged)
    · exact .inr (.inr hscript)

/-! ### Agreement -/

/-- The nonblank lines of a file have a property. -/
def Lines (P : Str → Prop) (text : String) : Prop :=
  ∀ line ∈ lines text, isBlankLine line = false → P line

/-- The dictionaries that the scripts read from a file. -/
def records (env : PyEnv) (text : String) : List Record :=
  ((readReceipts env (some (utf8 text))).getD []).filterMap Json.members?

lemma readReceipts_eq {text : String}
    (h : Lines (fun line => PlainLine env line ∧ ∃ r, fromStr env.readFloat line = some r) text) :
    ∃ ds : List Record, readReceipts env (some (utf8 text)) = some (ds.map Json.obj) ∧
      List.Forall₂ Reads ds (lineReceipts env.readFloat (lines text)) ∧
      ((∀ d ∈ ds, Full d) ↔ Lines (CompleteLine env) text) := by
  obtain ⟨ds, hread, hreads, hfull⟩ :=
    readLines_flatMap (fun line hline => newline_notMem_lines hline) h
  refine ⟨ds, ?_, hreads, hfull⟩
  have hlines := lines_universalNewlines text.toList
  rw [String.ofList_toList] at hlines
  rw [readReceipts, pyLines, utf8Decode?_utf8, Option.map_some, hlines]
  exact hread

lemma verifyChain_utf8 {text : String}
    (h : Lines (fun line => ∃ r, fromStr env.readFloat line = some r) text) :
    verifyChain env.readFloat (fun _ => true) (some (utf8 text)) =
      chainViolations (fun _ => true) "genesis" 0 (lineReceipts env.readFloat (lines text)) := by
  rw [verifyChain, readToString, utf8Decode?_utf8, Option.getD_some]
  exact violationsFrom_eq h "genesis" 0

/-- What the scripts return for receipts. -/
lemma scripts_spec {text : String} {ds : List Record} {rs : List ProvenanceReceipt}
    (hread : readReceipts env (some (utf8 text)) = some (ds.map Json.obj))
    (hreads : List.Forall₂ Reads ds rs) :
    ∃ violations reports, verifyReceiptChain env (some (utf8 text)) = some violations ∧
      verifyReceipts env (some (utf8 text)) = some reports ∧ (reports = [] ↔ violations = 0) ∧
      bridgeFrom env (.str "genesis") (.int 0) (ds.map Json.obj) = some violations := by
  obtain ⟨violations, hviolations⟩ := bridgeFrom_isSome hreads "genesis" 0
  obtain ⟨reports, hreports, hiff⟩ := externalFrom_spec hreads 0 "genesis" 0
  refine ⟨violations, reports, ?_, ?_, ?_, hviolations⟩
  · rw [verifyReceiptChain, hread]
    exact hviolations
  · have hjsonl : readJsonl env (some (utf8 text)) = some (ds.map Json.obj) := hread
    rw [verifyReceipts, hjsonl]
    exact hreports
  · rw [hiff, hviolations, Option.some.injEq]

/-- On a file whose nonblank lines are all receipts for the log, and complete, the three verifiers
agree on whether there is a violation. On a file with objects on its lines that the log accepts, a
script accepts it only if they are complete. -/
theorem verifiers_agree (env : PyEnv) (text : String)
    (hreceipts : Lines (fun line => ∃ r, fromStr env.readFloat line = some r) text)
    (hlength : (lineReceipts env.readFloat (lines text)).length ≤ 2 ^ 64) :
    (Lines (CompleteLine env) text →
      ∃ violations reports, verifyReceiptChain env (some (utf8 text)) = some violations ∧
        verifyReceipts env (some (utf8 text)) = some reports ∧
        (0 < verifyChain env.readFloat (fun _ => true) (some (utf8 text)) ↔ 0 < violations) ∧
        (0 < verifyChain env.readFloat (fun _ => true) (some (utf8 text)) ↔ reports ≠ [])) ∧
    (Lines (PlainLine env) text →
      CollisionFree (hashedBytes (records env text) (lineReceipts env.readFloat (lines text))) →
      verifyChain env.readFloat (fun _ => true) (some (utf8 text)) = 0 →
      (verifyReceiptChain env (some (utf8 text)) = some 0 ↔ Lines (CompleteLine env) text) ∧
      (verifyReceipts env (some (utf8 text)) = some [] ↔ Lines (CompleteLine env) text)) := by
  set rs := lineReceipts env.readFloat (lines text) with hrs
  have hlog := verifyChain_utf8 hreceipts
  have hseq : (0 : UInt64).toNat + rs.length ≤ 2 ^ 64 := by
    rw [UInt64.toNat_zero, Nat.zero_add]
    exact hlength
  -- on full records the bridge reports a violation when the log does
  have hagree : ∀ {ds : List Record}, List.Forall₂ Reads ds rs → (∀ d ∈ ds, Full d) →
      ∀ {violations}, bridgeFrom env (.str "genesis") (.int 0) (ds.map Json.obj) = some violations →
      (verifyChain env.readFloat (fun _ => true) (some (utf8 text)) = 0 ↔ violations = 0) := by
    intro ds hreads hfull violations hviolations
    rw [hlog, chainViolations_eq_zero_iff hreads hfull hseq]
    exact (congrArg (· = some 0) hviolations).to_iff.trans Option.some_inj
  constructor
  · intro hcomplete
    obtain ⟨ds, hread, hreads, hfull⟩ := readReceipts_eq fun line hline hblank =>
      ⟨⟨(hcomplete line hline hblank).1, (hcomplete line hline hblank).2.imp fun _ h => h.1⟩,
        hreceipts line hline hblank⟩
    obtain ⟨violations, reports, hbridge, hexternal, hiff, hviolations⟩ := scripts_spec hread hreads
    have hzero := hagree hreads (hfull.mpr hcomplete) hviolations
    refine ⟨violations, reports, hbridge, hexternal, ?_, ?_⟩
    · rw [Nat.pos_iff_ne_zero, Nat.pos_iff_ne_zero, Ne, Ne, hzero]
    · rw [Nat.pos_iff_ne_zero, Ne, Ne, hzero, hiff]
  · intro hplain hfree haccepted
    obtain ⟨ds, hread, hreads, hfull⟩ := readReceipts_eq fun line hline hblank =>
      ⟨hplain line hline hblank, hreceipts line hline hblank⟩
    obtain ⟨violations, reports, hbridge, hexternal, hiff, hviolations⟩ := scripts_spec hread hreads
    have hrecords : records env text = ds := by
      rw [records, hread, Option.getD_some, List.filterMap_map]
      exact List.filterMap_some
    rw [hrecords] at hfree
    have hcomplete : violations = 0 ↔ Lines (CompleteLine env) text := by
      rw [← hfull]
      constructor
      · rintro rfl
        rw [hlog] at haccepted
        exact full_of_accepted hreads hfree haccepted hviolations
      · intro hall
        exact (hagree hreads hall hviolations).mp haccepted
    refine ⟨?_, ?_⟩
    · rw [hbridge, Option.some.injEq, hcomplete]
    · rw [hexternal, Option.some.injEq, hiff, hcomplete]

namespace Sample

def pyEnv : PyEnv := ⟨fun _ => ⟨"5.5".toList, by decide⟩, id⟩

/-- A receipt before it is hashed. -/
def unhashed : ProvenanceReceipt :=
  ⟨0, 7, "agent", "edit", "doc", "ok", "genesis", "", "", "", "", ""⟩

def receipt : ProvenanceReceipt := { unhashed with selfHash := unhashed.computedHash }

/-- Its members without the last three, which are empty texts. -/
def shortMembers : Record := receipt.members.take 9

/-- A file with one object on one line. -/
def fileText (members : Record) : String := Json.dumpsWith .compactUnicode (.obj members)

lemma lines_fileText (members : Record) :
    lines (fileText members) = [(fileText members).toList] ∧ '\r' ∉ (fileText members).toList := by
  obtain ⟨hlf, hcr⟩ := Json.no_newline_renderWith Json.Style.compactUnicode_writes 0 (.obj members)
  have htext : (fileText members).toList = Json.renderWith .compactUnicode 0 (.obj members) := by
    rw [fileText, Json.dumpsWith, String.toList_ofList]
  have hpieces : Str.lines (fileText members).toList = [(fileText members).toList] := by
    rw [htext]
    exact List.splitOn_eq_singleton hlf
  refine ⟨?_, by rwa [htext]⟩
  simp [lines, hpieces]

lemma parse_fileText {members : Record} (h : Json.ReadsBack ⟨pyEnv.readFloat, false⟩ (.obj members)) :
    Json.parse ⟨pyEnv.readFloat, false⟩ (fileText members).toList = some (.obj members) := by
  rw [fileText, Json.dumpsWith, String.toList_ofList]
  exact Json.parse_renderWith Json.Style.readable_compactUnicode h 0

lemma isBlankLine_fileText (members : Record) : isBlankLine (fileText members).toList = false := by
  obtain ⟨cs, hcs⟩ := Json.renderWith_obj_eq_cons .compactUnicode 0 members
  rw [fileText, Json.dumpsWith, String.toList_ofList, hcs, isBlankLine, List.all_cons]
  rfl

/-- A property of the only line. -/
lemma lines_iff {P : Str → Prop} (members : Record) :
    Lines P (fileText members) ↔ P (fileText members).toList := by
  rw [Lines, (lines_fileText members).1, List.forall_mem_singleton]
  simp [isBlankLine_fileText]

lemma readsBack_members : Json.ReadsBack ⟨pyEnv.readFloat, false⟩ (.obj receipt.members) :=
  ⟨trivial, trivial, trivial, trivial, trivial, trivial, trivial, trivial, trivial, trivial, trivial,
    trivial, trivial⟩

lemma readsBack_shortMembers : Json.ReadsBack ⟨pyEnv.readFloat, false⟩ (.obj shortMembers) :=
  ⟨trivial, trivial, trivial, trivial, trivial, trivial, trivial, trivial, trivial, trivial⟩

lemma fromValue_shortMembers : fromValue (.obj shortMembers) = some receipt := by
  have hkeys : (fieldNames.all fun k => (shortMembers.map Prod.fst).count k ≤ 1) = true := by
    have hnames : shortMembers.map Prod.fst = fieldNames.take 9 := rfl
    rw [hnames]
    decide
  have hseq : shortMembers.lookup "seq" = some (.int receipt.seq.toNat) := rfl
  have htimestamp : shortMembers.lookup "timestamp" = some (.int receipt.timestamp.toNat) := rfl
  rw [fromValue, if_pos hkeys, fromFields_eq_some_iff]
  refine ⟨?_, ?_, rfl, rfl, rfl, rfl, rfl, rfl, rfl, rfl, rfl, rfl⟩
  · rw [hseq, Option.bind_some, u64?_toNat]
  · rw [htimestamp, Option.bind_some, u64?_toNat]

lemma fromStr_fileText {members : Record}
    (h : Json.ReadsBack ⟨pyEnv.readFloat, false⟩ (.obj members))
    (hvalue : fromValue (.obj members) = some receipt) :
    fromStr pyEnv.readFloat (fileText members).toList = some receipt := by
  rw [fromStr, parse_fileText h, Option.bind_some, hvalue]

lemma lineReceipts_fileText {members : Record}
    (h : fromStr pyEnv.readFloat (fileText members).toList = some receipt) :
    lineReceipts pyEnv.readFloat (lines (fileText members)) = [receipt] := by
  rw [(lines_fileText members).1, lineReceipts_cons, isBlankLine_fileText, h]
  rfl

lemma receipt_accepted : chainViolations (fun _ => true) "genesis" 0 [receipt] = 0 := by
  have hcleared : ∀ (r : ProvenanceReceipt) (hash : String),
      ({ r with selfHash := hash } : ProvenanceReceipt).cleared = r.cleared := fun _ _ => rfl
  have hcomputed : receipt.computedHash = receipt.selfHash := by
    rw [ProvenanceReceipt.computedHash, receipt, hcleared, ProvenanceReceipt.computedHash]
  have hnone : receiptViolations (fun _ => true) "genesis" 0 receipt = 0 :=
    receiptViolations_eq_zero_iff.mpr ⟨rfl, rfl, hcomputed, rfl⟩
  rw [chainViolations, hnone]
  rfl

/-- What the scripts read from a file on which the log finds the receipt. -/
lemma records_fileText {members : Record}
    (h : Json.ReadsBack ⟨pyEnv.readFloat, false⟩ (.obj members))
    (hvalue : fromValue (.obj members) = some receipt) :
    ∃ d, Json.asDicts (.obj members) = .obj d ∧ Reads d receipt ∧
      readReceipts pyEnv (some (utf8 (fileText members))) = some [.obj d] := by
  obtain ⟨d, hd, hreads, -⟩ := reads_asDicts hvalue
  refine ⟨d, hd, hreads, ?_⟩
  obtain ⟨hlines, hcr⟩ := lines_fileText members
  have hlf := newline_notMem_lines (hlines ▸ List.mem_singleton_self _)
  obtain ⟨hne, hstrip⟩ := Json.parse_strip (Json.parse_mono (parse_fileText h))
  have hloads : Json.loads pyEnv.readFloat (String.ofList (Str.strip (fileText members).toList)) =
      some (.obj d) := by
    rw [Json.loads, String.toList_ofList, hstrip, Option.map_some, hd]
  have hpieces : Str.lines (fileText members).toList = [(fileText members).toList] :=
    List.splitOn_eq_singleton hlf
  rw [readReceipts, pyLines, utf8Decode?_utf8, Option.map_some, Str.universalNewlines_of_not_mem hcr,
    hpieces]
  simp only [Option.bind_eq_bind, Option.bind_some, readLines, if_neg hne, hloads]

/-- The file of the whole receipt. -/
theorem verifiers_agree_receipt :
    (∃ violations reports, verifyReceiptChain pyEnv (some (utf8 (fileText receipt.members))) =
        some violations ∧
      verifyReceipts pyEnv (some (utf8 (fileText receipt.members))) = some reports ∧
      (0 < verifyChain pyEnv.readFloat (fun _ => true) (some (utf8 (fileText receipt.members))) ↔
        0 < violations) ∧
      (0 < verifyChain pyEnv.readFloat (fun _ => true) (some (utf8 (fileText receipt.members))) ↔
        reports ≠ [])) ∧
    (verifyReceiptChain pyEnv (some (utf8 (fileText receipt.members))) = some 0 ↔
      Lines (CompleteLine pyEnv) (fileText receipt.members)) := by
  have hread := fromStr_fileText readsBack_members (fromValue_members receipt)
  have hparse := parse_fileText readsBack_members
  have hcr := (lines_fileText receipt.members).2
  have hreceipts : Lines (fun line => ∃ r, fromStr pyEnv.readFloat line = some r)
      (fileText receipt.members) := (lines_iff _).mpr ⟨receipt, hread⟩
  have hlength : (lineReceipts pyEnv.readFloat (lines (fileText receipt.members))).length ≤ 2 ^ 64 := by
    rw [lineReceipts_fileText hread, List.length_singleton]
    exact Nat.one_le_two_pow
  obtain ⟨hagree, hexact⟩ := verifiers_agree pyEnv (fileText receipt.members) hreceipts hlength
  constructor
  · apply hagree
    rw [lines_iff]
    have hnames : receipt.members.map Prod.fst = fieldNames := rfl
    exact ⟨hcr, receipt.members, hparse, hnames ▸ fun k hk => hk⟩
  · refine (hexact ((lines_iff _).mpr ⟨hcr, receipt.members, hparse⟩) ?_ ?_).1
    · -- the log and the scripts hash the same bytes
      obtain ⟨d, hd, hreads, hfile⟩ := records_fileText readsBack_members (fromValue_members receipt)
      have hcanonical := hreads.canonical_iff.mpr (by
        cases hd
        exact isSome_members receipt)
      rw [lineReceipts_fileText hread, records, hfile]
      simp only [Option.getD_some, List.filterMap_cons, Json.members?, List.filterMap_nil, hashedBytes,
        List.map_cons, List.map_nil, hcanonical]
      intro a ha b hb _
      simp only [List.cons_append, List.nil_append, List.mem_cons, List.not_mem_nil, or_false,
        or_self] at ha hb
      rw [ha, hb]
    · rw [verifyChain_utf8 hreceipts, lineReceipts_fileText hread]
      exact receipt_accepted

lemma hash_shortMembers :
    ¬(sha256 (utf8 (canonicalReceiptJson shortMembers))).hex = unhashed.computedHash := by
  rw [ProvenanceReceipt.computedHash, Bytes.hex_injective.eq_iff, canonicalReceiptJson, canonicalWith,
    toLine_eq_dumps, Json.dumps, Json.dumps, utf8_ofList, utf8_ofList]
  decide +kernel

/-- Without the last three keys the log accepts the file and the scripts do not. -/
theorem verifiers_disagree :
    Lines (fun line => ∃ r, fromStr pyEnv.readFloat line = some r) (fileText shortMembers) ∧
      verifyChain pyEnv.readFloat (fun _ => true) (some (utf8 (fileText shortMembers))) = 0 ∧
      verifyReceiptChain pyEnv (some (utf8 (fileText shortMembers))) = some 1 ∧
      ∃ reports, verifyReceipts pyEnv (some (utf8 (fileText shortMembers))) = some reports ∧
        reports ≠ [] := by
  have hread := fromStr_fileText readsBack_shortMembers fromValue_shortMembers
  have hreceipts : Lines (fun line => ∃ r, fromStr pyEnv.readFloat line = some r)
      (fileText shortMembers) := (lines_iff _).mpr ⟨receipt, hread⟩
  obtain ⟨d, hd, hreads, hfile⟩ := records_fileText readsBack_shortMembers fromValue_shortMembers
  have hhash : hashOk canonicalReceiptJson d = false := by
    cases hd
    rw [Bool.eq_false_iff, Ne, hreads.hashOk_iff]
    exact hash_shortMembers
  have hbridge : bridgeFrom pyEnv (.str "genesis") (.int 0) [.obj d] = some 1 := by
    have hcons := @bridgeFrom_cons pyEnv d receipt hreads "genesis" 0 []
    have hchain : chainOk (.str "genesis") d = true := hreads.chainOk_iff.mpr rfl
    have hseq : seqOk (.int 0) d = true := hreads.seqOk_iff.mpr rfl
    rw [if_pos hchain, if_pos hseq, hhash] at hcons
    exact hcons
  refine ⟨hreceipts, ?_, ?_, ?_⟩
  · rw [verifyChain_utf8 hreceipts, lineReceipts_fileText hread]
    exact receipt_accepted
  · rw [verifyReceiptChain, hfile]
    exact hbridge
  · obtain ⟨violations, reports, hviolations, hreports, hiff, hcount⟩ :=
      scripts_spec hfile (.cons hreads .nil)
    refine ⟨reports, hreports, ?_⟩
    rw [Ne, hiff]
    rw [List.map_singleton, hbridge] at hcount
    cases hcount
    exact one_ne_zero

end Sample

end AxiomGrid.Receipts

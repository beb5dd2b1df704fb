import AxiomGrid.Trust.FlightRecorder
import AxiomGrid.Trust.Merkle

/-!
# Replaying a flight log

`replay_flight` of `kairo/trust/flight_recorder.py`: a file is verified, loaded, and the Merkle root of
the receipts it names is compared with the root that is expected.
-/

namespace AxiomGrid.Trust.FlightRecorder

/-! ### Receipts of a log -/

/-- `h.encode("ascii")`; `none` is the `AttributeError` of a value that is no text, or a character
outside of ASCII. -/
def asciiLeaf : Json → Option Bytes
  | .str s => if s.toList.all (·.toNat < 128) then some (utf8 s) else none
  | _ => none

/-- `e.receipt_hash for e in self.entries if e.receipt_hash is not None`. -/
def FlightLog.receiptHashes (log : FlightLog) : List Json :=
  log.entries.filterMap fun e => match e.receiptHash with
    | .null => none
    | h => some h

/-- `merkle_root_of_receipts`; the outer `none` is an error. -/
def FlightLog.merkleRootOfReceipts (log : FlightLog) : Option (Option String) :=
  if log.receiptHashes = [] then some none
  else (log.receiptHashes.mapM asciiLeaf).map fun leaves => some (Trust.merkleRoot leaves)

/-- `root_hash`. -/
def FlightLog.rootHash (log : FlightLog) : Json :=
  (log.entries.getLast?.map (·.selfHash)).getD (.str "genesis")

/-! ### Replay -/

/-- A violation of the chain, or another Merkle root than expected. -/
inductive ReplayViolation where
  | chain (v : Violation)
  | merkleRoot (expected : String) (got : Option String)

/-- What `replay_flight` returns; `matches` is there when a root is expected. -/
structure ReplayResult where
  valid : Bool
  violations : List ReplayViolation
  entryCount : ℕ
  rootHash : Json
  merkleRoot : Option String
  merkleRootMatches : Option Bool

/-- `replay_flight`; `none` when it raises. -/
def replayFlight (readFloat : List Char → FloatRepr) (file : Option Bytes)
    (expectedMerkleRoot : Option String) : Option ReplayResult := do
  let violations ← verifyFlightLog readFloat file
  let log ← FlightLog.load readFloat file
  let actual ← log.merkleRootOfReceipts
  let result : ReplayResult :=
    { valid := violations.isEmpty, violations := violations.map .chain, entryCount := log.entries.length,
      rootHash := log.rootHash, merkleRoot := actual, merkleRootMatches := none }
  match expectedMerkleRoot with
  | none => some result
  | some expected =>
    if actual = some expected then some { result with merkleRootMatches := some true }
    else
      let first (s : String) := String.ofList (s.toList.take 16)
      some { result with
        valid := false
        violations := result.violations ++ [.merkleRoot (first expected) (actual.map first)]
        merkleRootMatches := some false }

/-! ### What a root binds -/

/-- The leaves of a log whose receipts have a root. -/
def FlightLog.leaves (log : FlightLog) : List Bytes := log.receiptHashes.filterMap asciiLeaf

lemma asciiLeaf_eq_some {v : Json} {leaf : Bytes} (h : asciiLeaf v = some leaf) :
    ∃ s, v = .str s ∧ leaf = utf8 s := by
  cases v with
  | str s =>
    rw [asciiLeaf] at h
    split_ifs at h
    cases h
    exact ⟨s, rfl, rfl⟩
  | _ => cases h

lemma filterMap_of_mapM {α β : Type*} {f : α → Option β} {xs : List α} {ys : List β}
    (h : xs.mapM f = some ys) : xs.filterMap f = ys ∧ xs.map f = ys.map some := by
  induction xs generalizing ys with
  | nil =>
    cases h
    exact ⟨rfl, rfl⟩
  | cons x xs ih =>
    rw [List.mapM_cons] at h
    obtain ⟨y, hy, h⟩ := Option.bind_eq_some_iff.mp h
    obtain ⟨zs, hzs, h⟩ := Option.bind_eq_some_iff.mp h
    cases h
    obtain ⟨hfilter, hmap⟩ := ih hzs
    simp [hy, hfilter, hmap]

lemma asciiLeaf_inj {v w : Json} {leaf : Bytes} (hv : asciiLeaf v = some leaf)
    (hw : asciiLeaf w = some leaf) : v = w := by
  obtain ⟨s, rfl, rfl⟩ := asciiLeaf_eq_some hv
  obtain ⟨t, rfl, heq⟩ := asciiLeaf_eq_some hw
  rw [utf8_injective heq]

/-- A root is that of the leaves, and the leaves are those of all receipts. -/
lemma FlightLog.merkleRootOfReceipts_eq_some {log : FlightLog} {root : String}
    (h : log.merkleRootOfReceipts = some (some root)) :
    log.receiptHashes ≠ [] ∧ root = Trust.merkleRoot log.leaves ∧
      log.receiptHashes.map asciiLeaf = log.leaves.map some := by
  rw [merkleRootOfReceipts] at h
  split_ifs at h with hempty
  · cases Option.some.inj h
  · obtain ⟨leaves, hleaves, hroot⟩ := Option.map_eq_some_iff.mp h
    obtain rfl := Option.some.inj hroot
    obtain ⟨hfilter, hmap⟩ := filterMap_of_mapM hleaves
    have hleaves' : log.leaves = leaves := hfilter
    exact ⟨hempty, by rw [hleaves'], by rw [hleaves', hmap]⟩

/-- Without collisions, logs with one root name the same receipts in the same order. -/
lemma FlightLog.receiptHashes_eq {log log' : FlightLog} {root : String}
    (h : log.merkleRootOfReceipts = some (some root)) (h' : log'.merkleRootOfReceipts = some (some root))
    (hfree : CollisionFree (rootMessages log.leaves ++ rootMessages log'.leaves)) :
    log.receiptHashes = log'.receiptHashes := by
  obtain ⟨hne, hroot, hmap⟩ := merkleRootOfReceipts_eq_some h
  obtain ⟨hne', hroot', hmap'⟩ := merkleRootOfReceipts_eq_some h'
  have hnonempty : ∀ {l : FlightLog}, l.receiptHashes ≠ [] →
      l.receiptHashes.map asciiLeaf = l.leaves.map some → l.leaves ≠ [] := by
    rintro l hl hlmap heq
    rw [heq] at hlmap
    exact hl (by simpa using hlmap)
  have hmth : rfc6962.root log.leaves = rfc6962.root log'.leaves := by
    rw [← mth_eq_root, ← mth_eq_root]
    exact Bytes.hex_injective (hroot.symm.trans hroot')
  have hleaves : log.leaves = log'.leaves := by
    refine TreeHash.root_inj_of_ne_nil (hnonempty hne hmap) (hnonempty hne' hmap') ?_ hmth
    intro a ha b hb hab
    refine hfree a ?_ b ?_ hab
    · rcases ha with ha | ha <;> simp [rootMessages, ha]
    · rcases hb with hb | hb <;> simp [rootMessages, hb]
  rw [← hleaves, ← hmap] at hmap'
  refine List.ext_getElem? fun i => ?_
  have hi := congrArg (fun l => l[i]?) hmap'
  have hi' := congrArg (fun l => l[i]?) hmap
  simp only [List.getElem?_map] at hi hi'
  cases hv : log.receiptHashes[i]? with
  | none =>
    rw [hv, Option.map_none, Option.map_eq_none_iff] at hi
    exact hi.symm
  | some v =>
    rw [hv, Option.map_some] at hi hi'
    obtain ⟨w, hw, hvw⟩ := Option.map_eq_some_iff.mp hi
    obtain ⟨leaf, -, hleaf⟩ := Option.map_eq_some_iff.mp hi'.symm
    rw [hw, asciiLeaf_inj hleaf.symm (hvw.trans hleaf.symm)]

/-- Each call adds one entry. -/
lemma FlightLog.length_foldlM {calls : List Call} {start log : FlightLog}
    (h : calls.foldlM FlightLog.addEntry start = some log) :
    log.entries.length = start.entries.length + calls.length := by
  induction calls generalizing start with
  | nil =>
    cases h
    rfl
  | cons call calls ih =>
    rw [List.foldlM_cons, FlightLog.addEntry_eq] at h
    have hrest := ih h
    rw [List.length_append, List.length_singleton] at hrest
    rw [hrest, List.length_cons]
    omega

/-- The own file of a recorded run replays as valid against the Merkle root of its receipts, with its
entries; and any file replays as valid against this root if and only if its chain is sound and it names
the same receipts in the same order, unless two of the messages hashed for the two roots collide. -/
theorem replayFlight_valid_iff {readFloat : List Char → FloatRepr} {calls : List Call}
    (hcalls : ∀ call ∈ calls, call.Plain) {log : FlightLog} (hrecord : FlightLog.record calls = some log)
    {root : String} (hroot : log.merkleRootOfReceipts = some (some root)) :
    (∃ result, replayFlight readFloat (some log.save) (some root) = some result ∧
      result.valid = true ∧ result.entryCount = calls.length ∧ result.rootHash = log.rootHash) ∧
    ∀ file result log', replayFlight readFloat file (some root) = some result →
      FlightLog.load readFloat file = some log' →
      CollisionFree (rootMessages log.leaves ++ rootMessages log'.leaves) →
      (result.valid = true ↔
        verifyFlightLog readFloat file = some [] ∧ log'.receiptHashes = log.receiptHashes) := by
  constructor
  · obtain ⟨log₁, hrecord₁, hverify, hload⟩ :=
      @FlightLog.verify_load_save readFloat calls hcalls
    obtain rfl : log = log₁ := Option.some.inj (hrecord.symm.trans hrecord₁)
    have hlength : log.entries.length = calls.length := by
      simpa [FlightLog.new] using FlightLog.length_foldlM hrecord
    simp only [replayFlight, hverify, hload, hroot, Option.bind_eq_bind, Option.bind_some, if_true]
    exact ⟨_, rfl, rfl, hlength, rfl⟩
  · intro file result log' hreplay hload hfree
    simp only [replayFlight, Option.bind_eq_bind, hload, Option.bind_some] at hreplay
    obtain ⟨violations, hverify, hreplay⟩ := Option.bind_eq_some_iff.mp hreplay
    obtain ⟨actual, hactual, hreplay⟩ := Option.bind_eq_some_iff.mp hreplay
    rw [hverify]
    split_ifs at hreplay with hmatch
    · cases hreplay
      subst hmatch
      have hreceipts := FlightLog.receiptHashes_eq hroot hactual hfree
      simp [hreceipts]
    · cases hreplay
      -- the receipts differ, for the root would be the one that is expected
      have hdiffer : log'.receiptHashes ≠ log.receiptHashes := by
        intro heq
        rw [FlightLog.merkleRootOfReceipts, heq, ← FlightLog.merkleRootOfReceipts, hroot] at hactual
        exact hmatch (Option.some.inj hactual).symm
      simp [hdiffer]

namespace Sample

/-- A call that names a receipt. -/
def receiptCall : Call := { call with receiptHash := some "5ca1ab1e" }

lemma collisionFree_singleton (leaf : Bytes) :
    CollisionFree (rootMessages [leaf] ++ rootMessages [leaf]) := by
  have hmessages : rootMessages [leaf] = [rfc6962.leafInput leaf] := by
    rw [rootMessages, TreeHash.inputs_singleton]
  intro a ha b hb _
  rw [hmessages] at ha hb
  simp only [List.mem_append, List.mem_singleton, or_self] at ha hb
  rw [ha, hb]

theorem replayFlight_valid_iff_receiptCall :
    ∃ log root result, FlightLog.record [receiptCall] = some log ∧
      replayFlight readSome (some log.save) (some root) = some result ∧ result.valid = true ∧
      (result.valid = true ↔ verifyFlightLog readSome (some log.save) = some [] ∧
        log.receiptHashes = log.receiptHashes) := by
  have hplain : ∀ call ∈ [receiptCall], call.Plain := by
    simp only [List.mem_singleton, forall_eq]
    exact call_plain
  obtain ⟨log, hrecord, -, hload⟩ :=
    @FlightLog.verify_load_save readSome [receiptCall] hplain
  have hlog : log = ⟨[FlightLog.new.entry receiptCall], (FlightLog.new.entry receiptCall).selfHash⟩ :=
    (Option.some.inj hrecord).symm
  have hleaf : asciiLeaf (.str "5ca1ab1e") = some (utf8 "5ca1ab1e") := rfl
  have hhashes : log.receiptHashes = [.str "5ca1ab1e"] := by
    rw [hlog]
    rfl
  have hroot : log.merkleRootOfReceipts = some (some (Trust.merkleRoot [utf8 "5ca1ab1e"])) := by
    rw [FlightLog.merkleRootOfReceipts, hhashes, if_neg (List.cons_ne_nil _ _)]
    rfl
  have hleaves : log.leaves = [utf8 "5ca1ab1e"] := by
    rw [FlightLog.leaves, hhashes, List.filterMap_cons, hleaf, List.filterMap_nil]
  obtain ⟨⟨result, hreplay, hvalid, -⟩, hiff⟩ := replayFlight_valid_iff hplain hrecord hroot
  refine ⟨log, _, result, hrecord, hreplay, hvalid, hiff (some log.save) result log hreplay hload ?_⟩
  rw [hleaves]
  exact collisionFree_singleton _

end Sample

end AxiomGrid.Trust.FlightRecorder

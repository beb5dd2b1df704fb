import AxiomGrid.Phantom.SemanticMemory
import Mathlib.Data.List.Nodup
import Mathlib.Data.List.Perm.Subperm
import Mathlib.Data.Set.Basic

/-!
# Syncing memories in a local network

`LanSync` of `phantom-core/src/lan_sync.rs`. A peer exports its ground truth, at most the 500 newest
entries, and the other one merges what has an id that it does not know. After a pull in each direction
both hold the same entries exactly if what the exports leave out is known on the other side.
-/

namespace AxiomGrid.Phantom.LanSync

open SemanticMemory

structure SyncEntry where
  id : Str
  content : Str
  appContext : Str
  contextKey : Str
  tags : Str
  timestamp : ℤ
  isGroundTruth : Bool
  deriving DecidableEq

/-- The entry of a row, if no column is NULL. -/
def toEntry (row : Row) : Option SyncEntry := do
  return {
    id := ← row.id
    content := ← row.content
    appContext := ← row.appContext
    contextKey := ← row.contextKey
    tags := ← row.tags
    timestamp := ← row.timestamp
    isGroundTruth := ← row.isGroundTruth }

/-- The row that is inserted for an entry. -/
def SyncEntry.row (entry : SyncEntry) : Row where
  id := some entry.id
  timestamp := some entry.timestamp
  content := some entry.content
  fullEpisode := some []
  appContext := some entry.appContext
  contextKey := some entry.contextKey
  isGroundTruth := some entry.isGroundTruth
  tags := some entry.tags

/-- A database: there is no table where nothing was stored yet. -/
abbrev Database := Option Table

/-- The rows of the table, if there is one. -/
def rowsOf (db : Database) : List Row := db.elim [] Table.rows

/-- The rows `WHERE is_ground_truth = 1`. -/
def trueRows (db : Database) : List Row := (rowsOf db).filter fun row => row.isGroundTruth = some true

variable (newest : Newest)

/-- `export_entries`, less the rows that cannot be read. -/
def exportEntries (db : Database) : List SyncEntry :=
  ((newest.orderBy (trueRows db)).take 500).filterMap toEntry

/-- `merge_entries`, with the number of entries that were merged. -/
def mergeEntries (db : Database) (entries : List SyncEntry) : Database × ℕ :=
  if entries = [] then (db, 0)
  else
    let table := db.getD Table.empty
    (some (table.insertAll (entries.map SyncEntry.row)),
      table.inserted (entries.map SyncEntry.row))

/-- `pull_from_peer`: what the peer exports is merged. -/
def pull (db peer : Database) : Database × ℕ := mergeEntries db (exportEntries newest peer)

/-! ### Entries -/

/-- The ground truth of a database. -/
def groundTruth (db : Database) : Set SyncEntry :=
  {entry | entry.isGroundTruth = true ∧ ∃ row ∈ rowsOf db, toEntry row = some entry}

/-- An id that is in both databases carries the same entry. -/
def Agree (db db' : Database) : Prop :=
  ∀ row ∈ rowsOf db, ∀ row' ∈ rowsOf db', ∀ id, row.id = some id → row'.id = some id →
    toEntry row = toEntry row'

@[simp] lemma toEntry_row (entry : SyncEntry) : toEntry entry.row = some entry := rfl

lemma columns_of_toEntry {row : Row} {entry : SyncEntry} (h : toEntry row = some entry) :
    row.id = some entry.id ∧ row.isGroundTruth = some entry.isGroundTruth := by
  simp only [toEntry, Option.bind_eq_bind, Option.bind_eq_some_iff, Option.pure_def,
    Option.some.injEq] at h
  obtain ⟨id, hid, -, -, -, -, -, -, -, -, -, -, flag, hflag, rfl⟩ := h
  exact ⟨hid, hflag⟩

/-- The rows of a table that read alike are one. -/
lemma row_eq_of_id {db : Database} {row row' : Row} {id : Str} (hrow : row ∈ rowsOf db)
    (hrow' : row' ∈ rowsOf db) (hid : row.id = some id) (hid' : row'.id = some id) : row = row' := by
  cases db with
  | none => cases hrow
  | some table => exact table.distinct.eq_of_key hrow hrow' hid hid'

lemma mem_exportEntries {db : Database} {entry : SyncEntry}
    (h : entry ∈ exportEntries newest db) : entry ∈ groundTruth db := by
  obtain ⟨row, hrow, hentry⟩ := List.mem_filterMap.mp h
  obtain ⟨hrow, hflag⟩ := List.mem_filter.mp
    ((newest.perm _).subset (List.mem_of_mem_take hrow))
  refine ⟨?_, row, hrow, hentry⟩
  have hcolumn := (columns_of_toEntry hentry).2
  rw [of_decide_eq_true hflag] at hcolumn
  exact (Option.some.inj hcolumn).symm

/-- A table without more than 500 rows of ground truth is exported whole. -/
lemma exportEntries_of_le {db : Database} (h : (trueRows db).length ≤ 500) {entry : SyncEntry}
    (hentry : entry ∈ groundTruth db) : entry ∈ exportEntries newest db := by
  obtain ⟨htrue, row, hrow, hread⟩ := hentry
  have hflag := (columns_of_toEntry hread).2
  rw [htrue] at hflag
  refine List.mem_filterMap.mpr ⟨row, ?_, hread⟩
  rw [List.take_of_length_le (by rwa [(newest.perm _).length_eq])]
  exact (newest.perm _).mem_iff.mpr (List.mem_filter.mpr ⟨hrow, decide_eq_true hflag⟩)

/-- The exported entries have different ids. -/
lemma exportEntries_eq_of_id {db : Database} {entry entry' : SyncEntry}
    (h : entry ∈ exportEntries newest db) (h' : entry' ∈ exportEntries newest db)
    (hid : entry'.id = entry.id) : entry' = entry := by
  obtain ⟨-, row, hrow, hread⟩ := mem_exportEntries newest h
  obtain ⟨-, row', hrow', hread'⟩ := mem_exportEntries newest h'
  have hcolumn := (columns_of_toEntry hread').1
  rw [hid] at hcolumn
  rw [row_eq_of_id hrow' hrow hcolumn (columns_of_toEntry hread).1, hread] at hread'
  exact (Option.some.inj hread').symm

/-! ### One pull -/

lemma rowsOf_mergeEntries (db : Database) (entries : List SyncEntry) :
    rowsOf (mergeEntries db entries).1 =
      UniqueRows.insertAll sameId (rowsOf db) (entries.map SyncEntry.row) := by
  rw [mergeEntries]
  split_ifs with hnil
  · rw [hnil]
    rfl
  · cases db <;> rfl

/-- Merging entries that agree with the rows adds them to the ground truth. -/
lemma groundTruth_pull {db peer : Database} (h : Agree db peer) :
    groundTruth (pull newest db peer).1 =
      groundTruth db ∪ {entry | entry ∈ exportEntries newest peer} := by
  ext entry
  simp only [groundTruth, pull, rowsOf_mergeEntries, Set.mem_ofPred_eq, Set.mem_union]
  constructor
  · rintro ⟨htrue, row, hrow, hread⟩
    obtain hrow | hrow := UniqueRows.mem_insertAll hrow
    · exact .inl ⟨htrue, row, hrow, hread⟩
    · obtain ⟨exported, hexported, rfl⟩ := List.mem_map.mp hrow
      rw [toEntry_row] at hread
      exact .inr (Option.some.inj hread ▸ hexported)
  · rintro (⟨htrue, row, hrow, hread⟩ | hexported)
    · exact ⟨htrue, row, (UniqueRows.prefix_insertAll _ _ _).subset hrow, hread⟩
    · obtain ⟨htrue, source, hsource, hread⟩ := mem_exportEntries newest hexported
      refine ⟨htrue, ?_⟩
      obtain ⟨r, hr, rfl | hclash⟩ := @UniqueRows.exists_of_mem_new _ sameId (rowsOf db) _ _
        (List.mem_map_of_mem (f := SyncEntry.row) hexported)
      · exact ⟨_, hr, toEntry_row entry⟩
      · -- the id is there already, and then so is the entry
        obtain ⟨id, hid, hid'⟩ := UniqueRows.byKey_iff.mp hclash
        obtain rfl := Option.some.inj hid
        refine ⟨r, hr, ?_⟩
        obtain hr | hr := UniqueRows.mem_insertAll hr
        · rw [h r hr source hsource _ hid' (columns_of_toEntry hread).1, hread]
        · obtain ⟨exported, hother, rfl⟩ := List.mem_map.mp hr
          rw [exportEntries_eq_of_id newest hexported hother (Option.some.inj hid'), toEntry_row]

/-- What was pulled agrees with the peer it came from. -/
lemma Agree.pull {db peer : Database} (h : Agree db peer) : Agree (pull newest db peer).1 peer := by
  intro row hrow row' hrow' id hid hid'
  rw [LanSync.pull, rowsOf_mergeEntries] at hrow
  obtain hrow | hrow := UniqueRows.mem_insertAll hrow
  · exact h row hrow row' hrow' id hid hid'
  · obtain ⟨entry, hentry, rfl⟩ := List.mem_map.mp hrow
    obtain ⟨-, source, hsource, hread⟩ := mem_exportEntries newest hentry
    have hcolumn := (columns_of_toEntry hread).1
    rw [show entry.id = id from Option.some.inj hid] at hcolumn
    rw [row_eq_of_id hrow' hsource hid' hcolumn, hread, toEntry_row]

lemma Agree.symm {db peer : Database} (h : Agree db peer) : Agree peer db :=
  fun row hrow row' hrow' id hid hid' => (h row' hrow' row hrow id hid' hid).symm

/-- Entries that are in the database are not merged again. -/
lemma mergeEntries_of_subset {db : Database} {entries : List SyncEntry}
    (h : ∀ entry ∈ entries, entry ∈ groundTruth db) : mergeEntries db entries = (db, 0) := by
  rw [mergeEntries]
  split_ifs with hnil
  · rfl
  · obtain ⟨entry, hentry⟩ := List.exists_mem_of_ne_nil entries hnil
    cases db with
    | none =>
      obtain ⟨-, row, hrow, -⟩ := h entry hentry
      cases hrow
    | some table =>
      have hself : table.insertAll (entries.map SyncEntry.row) = table := by
        refine Table.insertAll_eq_self fun row hrow => ?_
        obtain ⟨entry, hentry, rfl⟩ := List.mem_map.mp hrow
        obtain ⟨-, r, hr, hread⟩ := h entry hentry
        exact ⟨r, hr, entry.id, rfl, (columns_of_toEntry hread).1⟩
      simp only [Option.getD_some, Table.inserted, hself, Nat.sub_self]

lemma length_trueRows_pull (db peer : Database) :
    (trueRows (pull newest db peer).1).length ≤ (trueRows db).length + (trueRows peer).length := by
  obtain ⟨added, hadded, hsub⟩ := UniqueRows.exists_insertAll sameId (rowsOf db)
    ((exportEntries newest peer).map SyncEntry.row)
  rw [trueRows, pull, rowsOf_mergeEntries, hadded, List.filter_append, List.length_append]
  refine Nat.add_le_add_left ?_ _
  calc (added.filter fun row => row.isGroundTruth = some true).length
      ≤ added.length := List.length_filter_le _ _
    _ ≤ (exportEntries newest peer).length := by simpa using hsub.length_le
    _ ≤ ((newest.orderBy (trueRows peer)).take 500).length := List.length_filterMap_le _ _
    _ ≤ (newest.orderBy (trueRows peer)).length := List.length_take_le' _ _
    _ = (trueRows peer).length := (newest.perm _).length_eq

/-- What is pulled into a database without rows. -/
lemma length_rowsOf_pull_none (peer : Database) : (rowsOf (pull newest none peer).1).length ≤ 500 := by
  obtain ⟨added, hadded, hsub⟩ := UniqueRows.exists_insertAll sameId (rowsOf none)
    ((exportEntries newest peer).map SyncEntry.row)
  rw [pull, rowsOf_mergeEntries, hadded]
  calc (rowsOf none ++ added).length
      ≤ (exportEntries newest peer).length := by simpa [rowsOf] using hsub.length_le
    _ ≤ ((newest.orderBy (trueRows peer)).take 500).length := List.length_filterMap_le _ _
    _ ≤ 500 := List.length_take_le _ _

/-! ### A pull in each direction -/

/-- The export leaves out nothing that the other side does not hold. -/
def LeavesOutKnown (peer db : Database) : Prop :=
  ∀ entry ∈ groundTruth peer, entry ∈ exportEntries newest peer ∨ entry ∈ groundTruth db

lemma groundTruth_pull_eq_iff {db peer : Database} (h : Agree db peer) :
    groundTruth (pull newest db peer).1 = groundTruth db ∪ groundTruth peer ↔
      LeavesOutKnown newest peer db := by
  rw [groundTruth_pull newest h]
  constructor
  · intro heq entry hentry
    have hmem : entry ∈ groundTruth db ∪ groundTruth peer := .inr hentry
    rw [← heq] at hmem
    exact hmem.symm
  · intro hknown
    refine Set.Subset.antisymm ?_ ?_
    · exact Set.union_subset_union_right _ fun entry => mem_exportEntries newest
    · rintro entry (hentry | hentry)
      · exact .inl hentry
      · exact (hknown entry hentry).symm

/-- The first database after its pull. -/
def after (a b : Database) : Database := (pull newest a b).1

/-- The second database after it pulled from the first. -/
def after' (a b : Database) : Database := (pull newest b (after newest a b)).1

/-- Both hold the ground truth of both. -/
def Converges (a b : Database) : Prop :=
  groundTruth (after newest a b) = groundTruth a ∪ groundTruth b ∧
    groundTruth (after' newest a b) = groundTruth a ∪ groundTruth b

/-- What the exports leave out is known on the other side. -/
def Known (a b : Database) : Prop :=
  LeavesOutKnown newest b a ∧ LeavesOutKnown newest (after newest a b) b

lemma converges_iff_known {a b : Database} (h : Agree a b) :
    Converges newest a b ↔ Known newest a b := by
  have hafter := groundTruth_pull_eq_iff newest h
  have hafter' := groundTruth_pull_eq_iff newest (h.pull newest).symm
  rw [Converges, Known, after', after, hafter]
  refine and_congr_right fun hknown => ?_
  rw [hafter.mpr hknown, Set.union_left_comm, Set.union_self] at hafter'
  exact hafter'

/-- Two databases with at most 500 rows of ground truth together leave out nothing. -/
lemma known_of_le {a b : Database} (h : (trueRows a).length + (trueRows b).length ≤ 500) :
    Known newest a b := by
  have hlength := (length_trueRows_pull newest a b).trans h
  exact ⟨fun entry hentry => .inl (exportEntries_of_le newest (by omega) hentry),
    fun entry hentry => .inl (exportEntries_of_le newest hlength hentry)⟩

/-- What was pulled is not merged again. -/
lemma pull_again {db peer : Database} (h : Agree db peer) :
    pull newest (pull newest db peer).1 peer = ((pull newest db peer).1, 0) := by
  refine mergeEntries_of_subset fun entry hentry => ?_
  rw [groundTruth_pull newest h]
  exact .inr hentry

/-- No row changes, and the second pull merges nothing when it is repeated. Both hold the ground truth of
both exactly if what the exports leave out is known on the other side, and then the first pull merges
nothing either when it is repeated. That is so for 500 entries and fewer. -/
theorem pulls_converge_iff {a b : Database} (h : Agree a b) :
    (rowsOf a <+: rowsOf (after newest a b) ∧ rowsOf b <+: rowsOf (after' newest a b)) ∧
    pull newest (after' newest a b) (after newest a b) = (after' newest a b, 0) ∧
    (Converges newest a b ↔ Known newest a b) ∧
    (Known newest a b →
      pull newest (after newest a b) (after' newest a b) = (after newest a b, 0)) ∧
    ((trueRows a).length + (trueRows b).length ≤ 500 → Known newest a b) := by
  refine ⟨⟨?_, ?_⟩, pull_again newest (h.pull newest).symm, converges_iff_known newest h,
    fun hknown => ?_, known_of_le newest⟩
  · rw [after, pull, rowsOf_mergeEntries]
    exact UniqueRows.prefix_insertAll _ _ _
  · rw [after', pull, rowsOf_mergeEntries]
    exact UniqueRows.prefix_insertAll _ _ _
  · obtain ⟨hleft, hright⟩ := (converges_iff_known newest h).mpr hknown
    refine mergeEntries_of_subset fun entry hentry => ?_
    rw [hleft, ← hright]
    exact mem_exportEntries newest hentry

namespace Sample

/-- The entry of an id. -/
def entry (id : Str) : SyncEntry :=
  ⟨id, "Prefer bullets".toList, "Word".toList, "format".toList, "lan".toList, 1700000000, true⟩

/-- A database of entries with the ids. -/
def ofIds (ids : List Str) (h : ids.Nodup) : Database := some
  { rows := ids.map fun id => (entry id).row
    distinct := by
      refine List.pairwise_map.mpr (h.imp fun {id id'} hne => Bool.eq_false_iff.mpr fun hclash => ?_)
      obtain ⟨k, hk, hk'⟩ := UniqueRows.byKey_iff.mp hclash
      exact hne (Option.some.inj (hk'.trans hk.symm)) }

lemma rowsOf_ofIds {ids : List Str} (h : ids.Nodup) :
    rowsOf (ofIds ids h) = ids.map fun id => (entry id).row := rfl

/-- A database of one entry. -/
def one (id : Str) : Database := ofIds [id] (List.nodup_singleton id)

/-- The ids of an entry more than is exported. -/
def ids : List Str := (List.range 501).map fun n => List.replicate n 'a'

lemma nodup_ids : ids.Nodup := by
  refine List.Nodup.map (fun n n' heq => ?_) List.nodup_range
  simpa using congrArg List.length heq

/-- A database of many entries. -/
def many : Database := ofIds ids nodup_ids

end Sample

theorem pulls_converge_iff_one :
    (rowsOf (Sample.one ['a']) <+: rowsOf (after Newest.inserted (Sample.one ['a']) (Sample.one ['b'])) ∧
      rowsOf (Sample.one ['b']) <+:
        rowsOf (after' Newest.inserted (Sample.one ['a']) (Sample.one ['b']))) ∧
    Converges Newest.inserted (Sample.one ['a']) (Sample.one ['b']) := by
  have hagree : Agree (Sample.one ['a']) (Sample.one ['b']) := by
    intro row hrow row' hrow' id hid hid'
    rw [List.mem_singleton.mp hrow] at hid
    rw [List.mem_singleton.mp hrow'] at hid'
    exact absurd (hid.trans hid'.symm) (by decide)
  obtain ⟨hrows, -, hiff, -, hknown⟩ := pulls_converge_iff Newest.inserted hagree
  exact ⟨hrows, hiff.mpr (hknown (by decide))⟩

/-- A database without entries does not come to hold the ground truth of one with 501 entries. -/
theorem one_left_out : Agree none Sample.many ∧ ¬Converges Newest.inserted none Sample.many := by
  constructor
  · intro row hrow
    cases hrow
  · rintro ⟨hleft, -⟩
    have hsub : Sample.ids ⊆ (rowsOf (after Newest.inserted none Sample.many)).filterMap Row.id := by
      intro id hid
      have hmem : Sample.entry id ∈ groundTruth (after Newest.inserted none Sample.many) := by
        rw [hleft]
        refine .inr ⟨rfl, (Sample.entry id).row, ?_, toEntry_row _⟩
        rw [Sample.many, Sample.rowsOf_ofIds]
        exact List.mem_map_of_mem hid
      obtain ⟨-, row, hrow, hread⟩ := hmem
      exact List.mem_filterMap.mpr ⟨row, hrow, (columns_of_toEntry hread).1⟩
    have hids : Sample.ids.length = 501 := by rw [Sample.ids, List.length_map, List.length_range]
    have hfew := (List.Nodup.subperm Sample.nodup_ids hsub).length_le
    have hrows := length_rowsOf_pull_none Newest.inserted Sample.many
    have hread := List.length_filterMap_le Row.id (rowsOf (after Newest.inserted none Sample.many))
    rw [after] at hfew hread
    omega

end AxiomGrid.Phantom.LanSync

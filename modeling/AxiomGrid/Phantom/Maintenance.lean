import AxiomGrid.Lib.FloatOrder
import AxiomGrid.Phantom.LanSync

/-!
# Keeping and forgetting memories

What `MemMachine` of `phantom-core/src/memory/mem_machine.rs` makes of the table of memories: `new`,
`remember`, `update_strengths`, which every recall of a memory calls, and the statements of
`run_maintenance_cycle`. Each is one statement of the database.
-/

namespace AxiomGrid.Phantom.SemanticMemory

/-- What `remember` stores, with the id, the time and the embedding that it takes. -/
structure Memory where
  id : Str
  timestamp : ℤ
  content : Str
  fullEpisode : Option Str
  embedding : Bytes
  appContext : Str
  contextKey : Option Str
  isGroundTruth : Bool
  tags : List Str

def Memory.row (memory : Memory) : Row where
  id := some memory.id
  timestamp := some memory.timestamp
  content := some memory.content
  fullEpisode := some (memory.fullEpisode.getD [])
  embedding := some memory.embedding
  appContext := some memory.appContext
  contextKey := some (memory.contextKey.getD [])
  isGroundTruth := some memory.isGroundTruth
  tags := some (List.intercalate [','] memory.tags)

/-! ### Statements -/

namespace Row

/-- `update_strengths` with the increments of `format_memory`. -/
def strengthen (id : Str) (now : ℤ) (row : Row) : Row :=
  if row.id = some id then
    { row with
      storageStrength := row.storageStrength.map fun x => PyFloat.min (.fin 2) (x.add (.fin (1 / 20)))
      retrievalStrength := row.retrievalStrength.map fun x => PyFloat.min (.fin 2) (x.add (.fin (1 / 5)))
      timestamp := some now }
  else row

/-- The retrieval strength decays. -/
def decay (row : Row) : Row :=
  if row.isGroundTruth = some false then
    { row with retrievalStrength := row.retrievalStrength.map fun x => x.mul (.fin (9 / 10)) }
  else row

/-- Memories that are removed. -/
def forgotten (row : Row) : Bool :=
  row.retrievalStrength.any (fun x => x.lt (.fin (1 / 10))) && row.isGroundTruth = some false

/-- A preference with high retrieval but low storage is isolated. -/
def isolate (row : Row) : Row :=
  if row.storageStrength.any (fun x => x.lt (.fin (3 / 10))) &&
      row.retrievalStrength.any (fun x => (PyFloat.fin (1 / 2)).lt x) then
    { row with tags := row.tags.map fun tags => tags ++ ",split_isolated".toList }
  else row

/-- `bincode::deserialize::<Vec<f32>>`, with the number of floats; what follows them is not read. -/
def embeddingLength (blob : Bytes) : Option ℕ :=
  let length := (blob.take 8).foldr (fun b n => b.toNat + 256 * n) 0
  if 8 + 4 * length ≤ blob.length then some length else none

/-- The embedding has another dimension. A row without one is not looked at. -/
def mismatch (row : Row) : Bool := row.embedding.any fun blob => (embeddingLength blob).any (· ≠ 256)

end Row

/-- One statement on the table. -/
inductive Change where
  | remember (memory : Memory)
  | updateStrengths (id : Str) (now : ℤ)
  | decay
  | forget
  | isolate

namespace Change

/-- What is made of a row that stays. -/
def onRow : Change → Row → Row
  | updateStrengths id now => Row.strengthen id now
  | decay => Row.decay
  | isolate => Row.isolate
  | _ => id

variable {c : Change} {row : Row}

lemma onRow_columns (c : Change) (row : Row) :
    (c.onRow row).id = row.id ∧ (c.onRow row).content = row.content ∧
      (c.onRow row).appContext = row.appContext ∧ (c.onRow row).contextKey = row.contextKey ∧
      (c.onRow row).isGroundTruth = row.isGroundTruth ∧ (c.onRow row).embedding = row.embedding := by
  cases c with
  | updateStrengths id now =>
    rw [onRow, Row.strengthen]
    split_ifs <;> exact ⟨rfl, rfl, rfl, rfl, rfl, rfl⟩
  | decay =>
    rw [onRow, Row.decay]
    split_ifs <;> exact ⟨rfl, rfl, rfl, rfl, rfl, rfl⟩
  | isolate =>
    rw [onRow, Row.isolate]
    split_ifs <;> exact ⟨rfl, rfl, rfl, rfl, rfl, rfl⟩
  | remember memory => exact ⟨rfl, rfl, rfl, rfl, rfl, rfl⟩
  | forget => exact ⟨rfl, rfl, rfl, rfl, rfl, rfl⟩

@[simp] lemma onRow_id (c : Change) (row : Row) : (c.onRow row).id = row.id := (onRow_columns c row).1

@[simp] lemma onRow_isGroundTruth (c : Change) (row : Row) :
    (c.onRow row).isGroundTruth = row.isGroundTruth := (onRow_columns c row).2.2.2.2.1

@[simp] lemma onRow_embedding (c : Change) (row : Row) : (c.onRow row).embedding = row.embedding :=
  (onRow_columns c row).2.2.2.2.2

end Change

namespace Table

variable (table : Table)

/-- An `UPDATE` of other columns than the id. -/
def update (c : Change) : Table where
  rows := table.rows.map c.onRow
  distinct := by
    have h := UniqueRows.distinct_byKey_iff.mp table.distinct
    refine UniqueRows.distinct_byKey_iff.mpr ?_
    rw [List.filterMap_map]
    simpa [Function.comp_def] using h

variable {table} in
lemma mem_update {c : Change} {row' : Row} :
    row' ∈ (table.update c).rows ↔ ∃ row ∈ table.rows, row' = c.onRow row :=
  List.mem_map.trans (exists_congr fun _ => and_congr_right fun _ => eq_comm)

/-- A `DELETE`. -/
def delete (condition : Row → Bool) : Table where
  rows := table.rows.filter fun row => !condition row
  distinct := List.Pairwise.filter _ table.distinct

end Table

/-- The table after a statement. An `INSERT` fails for an id that is there. -/
def Change.apply (table : Table) : Change → Option Table
  | remember memory =>
    if table.rows.any (sameId memory.row) then none else some (table.insertAll [memory.row])
  | forget => some (table.delete Row.forgotten)
  | c => some (table.update c)

open LanSync

/-- `MemMachine::new`: a table of embeddings of another dimension is created anew. The row at `i` is the
one that `LIMIT 1` returns, if it returns one. -/
def new (db : Database) (i : ℕ) : Table :=
  if ((rowsOf db)[i]?).any Row.mismatch then Table.empty else db.getD Table.empty

/-! ### Rows -/

section

variable {table table' : Table} {c : Change} {row row' : Row} {memory : Memory}

/-- An `INSERT` adds its row to a table without the id. -/
lemma apply_remember (h : (Change.remember memory).apply table = some table') :
    table'.rows = table.rows ++ [memory.row] ∧ ∀ row ∈ table.rows, row.id ≠ some memory.id := by
  rw [Change.apply] at h
  split_ifs at h with hclash
  cases h
  have hnew : ∀ row ∈ table.rows, sameId memory.row row = false := fun row hrow => by
    rw [Bool.not_eq_true, List.any_eq_false] at hclash
    exact Bool.eq_false_iff.mpr (hclash row hrow)
  refine ⟨UniqueRows.insert_of_new hnew, fun row hrow hid => ?_⟩
  have hsame : sameId memory.row row = true := UniqueRows.byKey_iff.mpr ⟨memory.id, rfl, hid⟩
  exact Bool.false_ne_true ((hnew row hrow).symm.trans hsame)

/-- Where the rows after a statement come from. -/
lemma mem_apply (h : c.apply table = some table') :
    row' ∈ table'.rows ↔ (∃ row ∈ table.rows, row' = c.onRow row ∧ (c = .forget → row.forgotten = false)) ∨
      ∃ memory, c = .remember memory ∧ row' = memory.row := by
  cases c with
  | remember memory =>
    rw [(apply_remember h).1, List.mem_append, List.mem_singleton]
    simp [Change.onRow]
  | forget =>
    cases h
    simp [Table.delete, Change.onRow]
  | updateStrengths id now =>
    cases h
    simp only [Table.mem_update, reduceCtorEq, false_implies, and_true, false_and, exists_false, or_false]
  | decay =>
    cases h
    simp only [Table.mem_update, reduceCtorEq, false_implies, and_true, false_and, exists_false, or_false]
  | isolate =>
    cases h
    simp only [Table.mem_update, reduceCtorEq, false_implies, and_true, false_and, exists_false, or_false]

lemma mem_new {db : Database} {i : ℕ} (h : row ∈ (new db i).rows) : row ∈ rowsOf db := by
  rw [new] at h
  split_ifs at h
  · cases h
  · cases db with
    | none => cases h
    | some table => exact h

/-- A vault without other embeddings is left as it is. -/
lemma rows_new {db : Database} (h : ∀ row ∈ rowsOf db, row.mismatch = false) (i : ℕ) :
    (new db i).rows = rowsOf db := by
  have hmatch : ¬((rowsOf db)[i]?).any Row.mismatch = true := by
    rw [Option.any_eq_true]
    rintro ⟨row, hrow, hmismatch⟩
    rw [h row (List.mem_of_getElem? hrow)] at hmismatch
    cases hmismatch
  rw [new, if_neg hmatch]
  cases db <;> rfl

end

end AxiomGrid.Phantom.SemanticMemory

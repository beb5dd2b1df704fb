import AxiomGrid.Lib.PyFloat
import AxiomGrid.Lib.PyStr
import AxiomGrid.Lib.Sha256
import AxiomGrid.Lib.StableSort
import AxiomGrid.Lib.UniqueRows
import Mathlib.Data.Int.ConditionallyCompleteOrder
import Mathlib.Order.ConditionallyCompleteLattice.Basic
import Mathlib.Order.WithBot

/-!
# The table of memories

The table `semantic_memory`, as `phantom-core/src/lan_sync.rs` and `phantom-core/src/memory/mem_machine.rs`
create it. Memories come in with `INSERT OR IGNORE`, so a memory whose id is there already is left out.
-/

namespace AxiomGrid.Phantom.SemanticMemory

/-- A row, with the columns that have a default; `none` is NULL. The flag is 0 or 1 wherever it is
written. -/
structure Row where
  id : Option Str
  timestamp : Option ℤ
  content : Option Str
  fullEpisode : Option Str
  embedding : Option Bytes := none
  appContext : Option Str
  contextKey : Option Str
  isGroundTruth : Option Bool := some false
  storageStrength : Option PyFloat := some (.fin 1)
  retrievalStrength : Option PyFloat := some (.fin 1)
  tags : Option Str
  deriving DecidableEq

/-- The primary key. -/
abbrev sameId : Row → Row → Bool := UniqueRows.byKey Row.id

/-- The table, with the rows in the order in which they were inserted. -/
@[ext]
structure Table where
  rows : List Row
  distinct : UniqueRows.Distinct sameId rows

namespace Table

/-- `CREATE TABLE`. -/
def empty : Table := ⟨[], .nil⟩

/-- `INSERT OR IGNORE` of the rows in turn. -/
def insertAll (table : Table) (new : List Row) : Table where
  rows := UniqueRows.insertAll sameId table.rows new
  distinct := table.distinct.insertAll new

/-- The sum of what `execute` returns: the number of rows that were inserted. -/
def inserted (table : Table) (new : List Row) : ℕ :=
  (table.insertAll new).rows.length - table.rows.length

variable {table : Table} {new : List Row}

lemma prefix_insertAll (table : Table) (new : List Row) : table.rows <+: (table.insertAll new).rows :=
  UniqueRows.prefix_insertAll sameId table.rows new

lemma mem_insertAll {row : Row} (h : row ∈ (table.insertAll new).rows) :
    row ∈ table.rows ∨ row ∈ new := UniqueRows.mem_insertAll h

/-- A row that is inserted is there then, or another one with its id. -/
lemma exists_of_mem_new {row : Row} (h : row ∈ new) :
    ∃ r ∈ (table.insertAll new).rows, r = row ∨ ∃ id, row.id = some id ∧ r.id = some id := by
  obtain ⟨r, hr, hsame⟩ := @UniqueRows.exists_of_mem_new _ sameId table.rows _ _ h
  exact ⟨r, hr, hsame.imp_right UniqueRows.byKey_iff.mp⟩

/-- Rows whose ids are all there are left out. -/
lemma insertAll_eq_self (h : ∀ row ∈ new, ∃ r ∈ table.rows, ∃ id, row.id = some id ∧ r.id = some id) :
    table.insertAll new = table := by
  refine Table.ext (UniqueRows.insertAll_eq_self_iff.mpr fun row hrow => ?_)
  obtain ⟨r, hr, hid⟩ := h row hrow
  exact ⟨r, hr, UniqueRows.byKey_iff.mpr hid⟩

end Table

/-! ### The newest rows first -/

/-- The key of `ORDER BY timestamp`; NULL comes first. -/
def time (row : Row) : WithBot ℤ := row.timestamp

/-- `ORDER BY timestamp DESC`. Rows with one time come in any order. -/
structure Newest where
  orderBy : List Row → List Row
  perm : ∀ rows, (orderBy rows).Perm rows
  sorted : ∀ rows, (orderBy rows).Pairwise fun row row' => time row' ≤ time row

/-- Rows with one time in the order in which they were inserted. -/
def Newest.inserted : Newest where
  orderBy rows := StableSort.sortBy (fun row => OrderDual.toDual (time row)) rows
  perm := StableSort.sortBy_perm
  sorted rows := @StableSort.pairwise_sortBy _ _ _ (fun row => OrderDual.toDual (time row)) rows

end AxiomGrid.Phantom.SemanticMemory

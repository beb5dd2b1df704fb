import AxiomGrid.Lib.AlignedSort
import AxiomGrid.Lib.FloatOrder
import AxiomGrid.Lib.RustStr
import AxiomGrid.Lib.Words
import AxiomGrid.Receipts.Log
import Mathlib.Data.Prod.Lex

/-!
# Recalling memories

`MemMachine::recall_contextualized` of `phantom-core/src/memory/mem_machine.rs`. Memories are retrieved
in three stages, each of which updates the memories it retrieves. What is retrieved is sorted by the
words it shares with the query, and then by similarity: the similarities are those of the memories in
the order in which they were retrieved.
-/

namespace AxiomGrid.Phantom.MemMachine

/-! ### The table -/

/-- A row of `semantic_memory`; `none` is NULL. -/
structure Row where
  id : Option Str
  timestamp : Option ℤ
  content : Option Str
  fullEpisode : Option Str
  embedding : Option Bytes
  appContext : Option Str
  contextKey : Option Str
  storageStrength : Option PyFloat

/-- The table. Its primary key holds no text twice. -/
structure Table where
  rows : List Row
  nodup : (rows.filterMap Row.id).Nodup

/-- The columns of a row that is retrieved. -/
structure Fetched where
  id : Str
  content : Str
  timestamp : ℤ
  fullEpisode : Str
  appContext : Str
  contextKey : Str

/-- The columns, if none of them is NULL. -/
def Row.read (row : Row) : Option Fetched := do
  return {
    id := ← row.id
    content := ← row.content
    timestamp := ← row.timestamp
    fullEpisode := ← row.fullEpisode
    appContext := ← row.appContext
    contextKey := ← row.contextKey }

/-- What recalling rests on: the database, the clock and the embeddings. -/
structure Env (V R : Type) where
  u : UnicodeData
  /-- `text LIKE pattern`, with the pattern first. -/
  like : Str → Str → Bool
  /-- `ORDER BY`. Rows with one key come in any order. -/
  orderBy : {K : Type} → [LinearOrder K] → (Row → K) → List Row → List Row
  orderBy_perm : ∀ {K : Type} [LinearOrder K] (key : Row → K) rows, (orderBy key rows).Perm rows
  orderBy_sorted : ∀ {K : Type} [LinearOrder K] (key : Row → K) rows,
    (orderBy key rows).Pairwise fun row row' => key row ≤ key row'
  /-- The time at which a memory is updated. -/
  now : Str → ℤ
  /-- The embedding of a text, by the sidecar or without it. -/
  embed : Str → V
  /-- `bincode::deserialize`. -/
  deserialize : Bytes → Option V
  cosineSim : V → V → R
  /-- The similarity of a memory without an embedding. -/
  zero : R

variable {V R : Type} (env : Env V R)

/-- A number as a parameter of a statement, where it has to be an `i64`. -/
def bindLimit (n : ℕ) : Except String ℕ := if n < 2 ^ 63 then .ok n else .error "out of range integral type"

/-- `SELECT .. WHERE .. ORDER BY .. LIMIT ..`, less the rows that cannot be read. -/
def select {K : Type} [LinearOrder K] (key : Row → K) (limit : ℕ) (condition : Row → Bool)
    (table : Table) : List Fetched :=
  ((env.orderBy key (table.rows.filter condition)).take limit).filterMap Row.read

/-- The key of `ORDER BY timestamp`; NULL comes first. -/
def Row.time (row : Row) : WithBot ℤ := row.timestamp

/-- `storage_strength DESC, timestamp DESC`. -/
def strongest (row : Row) : (WithBot (WithBot (WithTop ℚ)))ᵒᵈ ×ₗ (WithBot ℤ)ᵒᵈ :=
  toLex (.toDual (row.storageStrength.map PyFloat.place), .toDual row.time)

/-- The memories that are like the pattern, and then the others. -/
def likeFirst (pattern : Str) (row : Row) :
    ℕ ×ₗ (WithBot (WithBot (WithTop ℚ)))ᵒᵈ ×ₗ (WithBot ℤ)ᵒᵈ :=
  toLex (if row.content.any (env.like pattern) || row.fullEpisode.any (env.like pattern) then 0 else 1,
    strongest row)

/-- The row after an update of the memory with the id. -/
def strengthen (id : Str) (storageInc : PyFloat) (row : Row) : Row :=
  if row.id = some id then
    { row with
      storageStrength := row.storageStrength.map fun strength =>
        PyFloat.min (.fin 2) (strength.add storageInc)
      timestamp := some (env.now id) }
  else row

@[simp] lemma strengthen_id (id : Str) (storageInc : PyFloat) (row : Row) :
    (strengthen env id storageInc row).id = row.id := by
  rw [strengthen]
  split <;> rfl

@[simp] lemma strengthen_embedding (id : Str) (storageInc : PyFloat) (row : Row) :
    (strengthen env id storageInc row).embedding = row.embedding := by
  rw [strengthen]
  split <;> rfl

/-- `update_strengths`. -/
def updateStrengths (id : Str) (storageInc : PyFloat) (table : Table) : Table where
  rows := table.rows.map (strengthen env id storageInc)
  nodup := by
    rw [List.filterMap_map]
    simpa [Function.comp_def] using table.nodup

/-- `get_neighbors`. -/
def getNeighbors (table : Table) (id : Str) (timestamp : ℤ) : List Str :=
  ((env.orderBy Row.time (table.rows.filter fun row =>
    row.timestamp.any (fun t => timestamp - 3600 < t ∧ t < timestamp + 3600) &&
      row.id.any (· ≠ id))).take 3).filterMap Row.content

/-! ### Retrieval -/

/-- A memory as it is recalled: its text, and the id of its row. -/
structure Memory where
  id : Str
  text : Str

/-- The text of `format_memory`. -/
def describe (row : Fetched) (score : String) (neighbors : List Str) : Str :=
  "--- Episode (ID: ".toList ++ row.id ++ ", RoutingWeight: ".toList ++ score.toList ++
    ", Context: ".toList ++ row.appContext ++ '/' :: row.contextKey ++ ") ---\n".toList ++
    (if row.fullEpisode = [] then []
      else "RAW EPISODE: ".toList ++ row.fullEpisode ++ ['\n']) ++
    "SUMMARY: ".toList ++ row.content ++ ['\n'] ++
    (if neighbors = [] then []
      else "\nNEARBY EVENTS:\n".toList ++
        neighbors.flatMap fun neighbor => "- ".toList ++ neighbor ++ ['\n'])

/-- `format_memory`, which updates the memory first. -/
def formatMemory (row : Fetched) (score : String) (table : Table) : Table × Memory :=
  let table := updateStrengths env row.id (.fin (1 / 20)) table
  (table, ⟨row.id, describe row score (getNeighbors env table row.id row.timestamp)⟩)

/-- The memories that were retrieved so far, with their ids. -/
structure Recall where
  table : Table
  results : List Memory := []
  seenIds : List Str := []

/-- One row of a batch. -/
def Recall.add (score : String) (state : Recall) (row : Fetched) : Recall :=
  if row.id ∈ state.seenIds then state
  else
    let (table, memory) := formatMemory env row score state.table
    { table, results := state.results ++ [memory], seenIds := state.seenIds ++ [row.id] }

/-- One batch, unless there are enough memories. -/
def fetch {K : Type} [LinearOrder K] (key : Row → K) (column : Row → Option Str) (score : String)
    (batchSize : Recall → ℕ) (limit : ℕ) (state : Recall) (value : Str) : Except String Recall :=
  if limit ≤ state.results.length then .ok state
  else
    (bindLimit (batchSize state)).map fun n =>
      (select env key n (fun row => column row = some value) state.table).foldl
        (Recall.add env score) state

/-- `limit - results.len()`. -/
def remaining (limit : ℕ) (state : Recall) : ℕ := limit - state.results.length

/-- `format!("%{query}%")`. -/
def queryPattern (query : Str) : Str := '%' :: query ++ ['%']

variable (query : Str) (granularities : List Str) (limit : ℕ) (table : Table)

/-- Stage 1: the rows of a section. Each batch has up to `limit` of them. -/
def sections : Except String Recall :=
  granularities.foldlM
    (fetch env (likeFirst env (queryPattern query)) Row.contextKey "2.00" (fun _ => limit) limit)
    { table }

/-- Stage 2: the rows of an app. -/
def apps (state : Recall) : Except String Recall :=
  granularities.foldlM
    (fetch env (likeFirst env (queryPattern query)) Row.appContext "1.20" (remaining limit) limit)
    state

/-- Stage 3: the global rows. -/
def globals (state : Recall) : Except String Recall :=
  fetch env strongest Row.appContext "1.00" (remaining limit) limit state "global".toList

/-- The stages 1, 2 and 3. -/
def retrieve : Except String Recall := do
  let state ← sections env query granularities limit table
  let state ← apps env query granularities limit state
  globals env limit state

/-! ### Ranking -/

/-- `query.split_whitespace()`, less the short words. -/
def queryWords : List Str :=
  (Words.words Receipts.isWhiteSpace query).filter fun word => 2 < Str.byteLength word

/-- The number of words of the query that a text contains. -/
def sharedWords (text : Str) : ℕ :=
  ((queryWords query).filter fun word =>
    Str.contains (Str.lower env.u word) (Str.lower env.u text)).length

/-- Stage 3.5: the memories by the number of words that they share with the query. -/
def lexical (results : List Memory) : List Memory :=
  StableSort.ranked (results.map fun memory => (sharedWords env query memory.text, memory))

/-- The similarity of the query and the memory with the id. -/
def similarity (id : Str) : R :=
  (((table.rows.find? fun row => row.id = some id).bind Row.embedding).bind env.deserialize).elim
    env.zero (env.cosineSim (env.embed query))

variable [LinearOrder R]

/-- Stage 4: the memories by the similarities of the ids that stand beside them. -/
def semantic (state : Recall) (results : List Memory) : List Memory :=
  StableSort.ranked ((results.zip state.seenIds).map fun entry =>
    (similarity env query state.table entry.2, entry.1))

/-- `recall_contextualized`, with the ids of the memories. -/
def recallMemories : Except String (List Memory) :=
  (retrieve env query granularities limit table).map fun state =>
    semantic env query state (lexical env query state.results)

/-- `recall_contextualized`. -/
def recallContextualized : Except String (List Str) :=
  (recallMemories env query granularities limit table).map (List.map Memory.text)

end AxiomGrid.Phantom.MemMachine
